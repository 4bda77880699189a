/-
  AutoTrader/Safety/EmergencyReaders.lean
  =======================================
  **Who sees an emergency stop.**

  Two metadata keys hold the emergency stop and five places read them: the gate
  after the market data is collected, the cycle itself, the readiness check, the
  service tick and the submitter's safety gate.  Telegram sets one key when it stops
  and both when it clears; the cycle reads the other one only, and two of the
  readers let the first non-empty text decide.  `emergency_readers_agree_iff` says
  for which contents the five agree.
-/
import AutoTrader.Pipeline.AutoTrade
import AutoTrader.Pipeline.Control

namespace AutoTrader

open Relational Transactional Interleave Command

/-! ### The readers -/

inductive EmergencyReader where
  | postCollectionGate
  | cycle
  | readiness
  | service
  | submitter

/-- The keys whose metadata is true. -/
def Database.trueKeys (db : Database) (keys : List String) : List String :=
  keys.filter fun key => isTrue (db.getRuntimeMetadata key)

/-- Whether a reader treats the emergency as active. -/
def EmergencyReader.active (db : Database) : EmergencyReader → Bool
  | .postCollectionGate =>
    flagText (orText (db.metadataText emergencyStopKey) (db.metadataText telegramEmergencyStopKey))
  | .cycle => db.emergencyStop
  | .readiness =>
    flagText (readinessEmergency (db.metadataText telegramEmergencyStopKey)
      (db.metadataText emergencyStopKey))
  | .service =>
    [telegramEmergencyStopKey, emergencyStopKey].any fun key => flagText (db.metadataText key)
  | .submitter => !(db.trueKeys ["emergency_stop", "telegram.emergency_stop"]).isEmpty

/-- At least one of the two keys is truthy. -/
def Database.emergencyActive (db : Database) : Bool :=
  flagText (db.metadataText emergencyStopKey) || flagText (db.metadataText telegramEmergencyStopKey)

/-- Every reader treats the emergency as active exactly when a key is truthy. -/
def ReadersAgree (db : Database) : Prop := ∀ r : EmergencyReader, r.active db = db.emergencyActive

section Readers

variable (db : Database)

theorem isTrue_eq_flagText (key : String) :
    isTrue (db.getRuntimeMetadata key) = flagText (db.metadataText key) := by
  unfold Database.metadataText
  cases db.getRuntimeMetadata key with
  | none => decide
  | some value =>
    cases value with
    | text text => rfl
    | object members =>
      change false = flagText (some "\x7b\x7d")
      decide

/-- The gate's read of the keys. -/
theorem eval_trueKeys (broker : BrokerReplies) (keys : List String) :
    Raising.eval (dbHandler broker) (AutoTrader.trueKeys keys) db = (.ok (db.trueKeys keys), db) := by
  induction keys with
  | nil => rfl
  | cons key rest ih =>
    unfold AutoTrader.trueKeys
    rw [Raising.eval_bind, eval_trySelect]
    dsimp only
    rw [Raising.eval_bind, ih]
    dsimp only
    rw [Raising.eval_pure, Database.trueKeys, Database.trueKeys, List.filter_cons]

theorem submitter_active : EmergencyReader.submitter.active db = db.emergencyActive := by
  unfold EmergencyReader.active Database.trueKeys Database.emergencyActive
  have hstop := isTrue_eq_flagText db emergencyStopKey
  have htelegram := isTrue_eq_flagText db telegramEmergencyStopKey
  unfold emergencyStopKey at hstop ⊢
  unfold telegramEmergencyStopKey at htelegram ⊢
  simp only [List.filter_cons, List.filter_nil, hstop, htelegram]
  cases flagText (db.metadataText "emergency_stop") <;>
    cases flagText (db.metadataText "telegram.emergency_stop") <;> rfl

theorem service_active : EmergencyReader.service.active db = db.emergencyActive := by
  simp [EmergencyReader.active, Database.emergencyActive, Bool.or_comm]

theorem cycle_active :
    EmergencyReader.cycle.active db = flagText (db.metadataText emergencyStopKey) :=
  isTrue_eq_flagText db emergencyStopKey

theorem flagText_of_not_truthy {value : Option String} (h : truthy value = false) :
    flagText value = false := by
  have hempty : value.getD "" = "" := by simpa [truthy] using h
  rw [flagText, hempty]
  decide

/-- The first text decides, unless it is missing or empty. -/
theorem flagText_orText (a b : Option String) :
    flagText (orText a b) = if truthy a then flagText a else flagText a || flagText b := by
  unfold orText
  cases h : truthy a with
  | true => rfl
  | false => simp [flagText_of_not_truthy h]

theorem gate_active :
    EmergencyReader.postCollectionGate.active db =
      if truthy (db.metadataText emergencyStopKey) then flagText (db.metadataText emergencyStopKey)
      else flagText (db.metadataText emergencyStopKey) ||
        flagText (db.metadataText telegramEmergencyStopKey) :=
  flagText_orText _ _

theorem readiness_active :
    EmergencyReader.readiness.active db =
      if truthy (db.metadataText telegramEmergencyStopKey) then
        flagText (db.metadataText telegramEmergencyStopKey)
      else flagText (db.metadataText telegramEmergencyStopKey) ||
        flagText (db.metadataText emergencyStopKey) :=
  flagText_orText _ _

/-- The condition under which the five agree, on the two texts. -/
structure TextsAgree (telegram stop : Option String) : Prop where
  cycle : flagText telegram = true → flagText stop = true
  readiness : flagText stop = true → flagText telegram = true ∨ truthy telegram = false

theorem readersAgree_iff :
    ReadersAgree db ↔ TextsAgree (db.metadataText telegramEmergencyStopKey)
      (db.metadataText emergencyStopKey) := by
  have hgate := gate_active db
  have hcycle := cycle_active db
  have hreadiness := readiness_active db
  have hany : db.emergencyActive = (flagText (db.metadataText emergencyStopKey) ||
    flagText (db.metadataText telegramEmergencyStopKey)) := rfl
  generalize db.metadataText emergencyStopKey = stop at *
  generalize db.metadataText telegramEmergencyStopKey = telegram at *
  generalize hs : flagText stop = s at *
  generalize ht : flagText telegram = t at *
  constructor
  · intro hagree
    have hc := (hcycle.symm.trans (hagree .cycle)).trans hany
    have hr := (hreadiness.symm.trans (hagree .readiness)).trans hany
    refine ⟨fun htrue => ?_, fun hstop => ?_⟩
    · rw [ht] at htrue
      rw [hs]
      simpa [htrue] using hc
    · rw [hs] at hstop
      rw [ht]
      cases htruthy : truthy telegram with
      | false => exact .inr rfl
      | true => exact .inl (by simpa [hstop, htruthy] using hr)
  · rintro ⟨hc, hr⟩ reader
    rw [hs, ht] at hc hr
    cases reader with
    | postCollectionGate =>
      rw [hgate, hany]
      cases t with
      | false => simp
      | true => simp [hc rfl]
    | cycle =>
      rw [hcycle, hany]
      cases t with
      | false => simp
      | true => simp [hc rfl]
    | readiness =>
      rw [hreadiness, hany]
      cases s with
      | false => simp
      | true =>
        obtain rfl | hempty := hr rfl
        · simp
        · simp [hempty]
    | service => exact service_active db
    | submitter => exact submitter_active db

end Readers

/-! ### What the commands leave in the keys -/

/-- The commands that write the two keys. -/
inductive StopCommand where
  | pause
  | emergencyStop
  | clearEmergency

def StopCommand.program : StopCommand → Command String
  | .pause => pauseCommand
  | .emergencyStop => emergencyStopCommand
  | .clearEmergency => clearEmergencyCommand

/-- The database after a run of commands, each with its own clock. -/
def runStopCommands (commands : List (ControlReplies × StopCommand)) (db : Database) : Database :=
  commands.foldl (fun db c => (Raising.eval (controlHandler c.1) c.2.program db).2) db

/-- The texts the commands write: Telegram's key is set and cleared, the other one
    is only ever cleared. -/
def ControlAct.stopTexts : ControlAct → Prop
  | .call (.setRuntimeMetadata key value) _ =>
    (key = telegramEmergencyStopKey → value = "true" ∨ value = "false") ∧
    (key = emergencyStopKey → value = "false")
  | _ => True

/-- The contents that the commands make of a database without the keys. -/
structure StopTexts (db : Database) : Prop where
  telegram : db.metadataText telegramEmergencyStopKey = none ∨
    db.metadataText telegramEmergencyStopKey = some "true" ∨
    db.metadataText telegramEmergencyStopKey = some "false"
  stop : db.metadataText emergencyStopKey = none ∨
    db.metadataText emergencyStopKey = some "false"

theorem stopTexts_step (replies : ControlReplies) (o : ControlAct) {db : Database}
    (ho : o.stopTexts) (h : StopTexts db) : StopTexts (controlHandler replies o db).2 := by
  cases o with
  | call op mark =>
    obtain hdb | hdb := controlHandler_call replies db op mark
    · rw [hdb]
      exact h
    rw [hdb]
    cases op with
    | setRuntimeMetadata key value =>
      obtain ⟨htelegram, hstop⟩ := ho
      constructor
      · rw [ControlOp.metadataText_exec]
        dsimp only
        split
        · obtain rfl | rfl := htelegram (by simp_all)
          · exact .inr (.inl rfl)
          · exact .inr (.inr rfl)
        · exact h.telegram
      · rw [ControlOp.metadataText_exec]
        dsimp only
        split
        · obtain rfl := hstop (by simp_all)
          exact .inr rfl
        · exact h.stop
    | setRuntimePaused | writeRuntimeEnvironment | resolveApprovalRequest | addWatchlistSymbol
    | setWatchlistEnabled =>
      constructor
      · rw [ControlOp.metadataText_exec]
        exact h.telegram
      · rw [ControlOp.metadataText_exec]
        exact h.stop
  | read | utcnow | challengeCode | api | handles => exact h

theorem stopTexts_program (c : StopCommand) : Does ControlAct.stopTexts c.program := by
  have hreads : AllowsReads ControlAct.stopTexts := ⟨fun _ => trivial, trivial⟩
  have hother : ∀ key value mark, key ≠ telegramEmergencyStopKey → key ≠ emergencyStopKey →
      (ControlAct.call (.setRuntimeMetadata key value) mark).stopTexts :=
    fun _ _ _ htelegram hstop => ⟨fun h => absurd h htelegram, fun h => absurd h hstop⟩
  have hset : ∀ mark,
      (ControlAct.call (.setRuntimeMetadata telegramEmergencyStopKey "true") mark).stopTexts :=
    fun _ => ⟨fun _ => .inl rfl, fun h => absurd h (by decide)⟩
  cases c with
  | pause =>
    exact does_pauseCommand hreads (hset _) trivial fun _ => hother _ _ _ (by decide) (by decide)
  | emergencyStop =>
    exact does_emergencyStopCommand hreads (hset _) trivial
      (fun _ => hother _ _ _ (by decide) (by decide)) (hother _ _ _ (by decide) (by decide))
      (hother _ _ _ (by decide) (by decide))
  | clearEmergency =>
    refine does_clearEmergencyCommand hreads (fun _ => hother _ _ _ (by decide) (by decide))
      ⟨fun _ => .inr rfl, fun h => absurd h (by decide)⟩
      ⟨fun h => absurd h (by decide), fun _ => rfl⟩ trivial

theorem runStopCommands_stopTexts (commands : List (ControlReplies × StopCommand)) {db : Database}
    (h : StopTexts db) : StopTexts (runStopCommands commands db) := by
  induction commands generalizing db with
  | nil => exact h
  | cons c rest ih =>
    have hrun : Raising.Ends (controlHandler c.1) c.2.program (fun _ => StopTexts)
        (fun _ => StopTexts) db :=
      Raising.Ends.of_only (fun o _ ho hdb => stopTexts_step c.1 o ho hdb)
        (stopTexts_program c.2) h
    exact ih hrun.store

theorem StopTexts.agree_iff {db : Database} (h : StopTexts db) :
    ReadersAgree db ↔ db.metadataText telegramEmergencyStopKey ≠ some "true" := by
  have hword : flagText (some "true") = true := by decide
  have hfalse : flagText (some "false") = false := by decide
  have hnone : flagText none = false := by decide
  rw [readersAgree_iff]
  rcases h.telegram with ht | ht | ht <;> rcases h.stop with hs | hs <;> rw [ht, hs]
  all_goals
    constructor
    · rintro ⟨hcycle, -⟩
      simp_all
    · intro hne
      constructor <;> simp_all

/-- **When the readers of the emergency stop agree.**  After any commands the five
    treat the emergency as active exactly when a key is truthy, if and only if the two
    texts agree; where no key was there before, that is unless Telegram's stop is on. -/
theorem emergency_readers_agree_iff (db : Database)
    (commands : List (ControlReplies × StopCommand)) :
    (ReadersAgree (runStopCommands commands db) ↔
      TextsAgree ((runStopCommands commands db).metadataText telegramEmergencyStopKey)
        ((runStopCommands commands db).metadataText emergencyStopKey)) ∧
    (db.metadataText telegramEmergencyStopKey = none → db.metadataText emergencyStopKey = none →
      (ReadersAgree (runStopCommands commands db) ↔
        (runStopCommands commands db).metadataText telegramEmergencyStopKey ≠ some "true")) :=
  ⟨readersAgree_iff _, fun htelegram hstop =>
    (runStopCommands_stopTexts commands ⟨.inl htelegram, .inl hstop⟩).agree_iff⟩

namespace StopHistory

/-- A Telegram chat that answers. -/
def replies : ControlReplies where
  now := ⟨63828000000000000, some 0⟩
  challengeCode := "A1B2C3D4"
  api := fun _ => .ok []
  raises := fun _ _ => none

def stopped : Database := runStopCommands [(replies, .pause)] .empty

def stoppedAgain : Database :=
  runStopCommands [(replies, .emergencyStop), (replies, .clearEmergency), (replies, .pause)] .empty

/-- A first stop is not seen by the cycle; a stop after a clearing is not seen by the
    gate after the collection either. -/
theorem readers_disagree :
    ¬ ReadersAgree stopped ∧ EmergencyReader.cycle.active stopped = false ∧
    stopped.emergencyActive = true ∧
    EmergencyReader.postCollectionGate.active stoppedAgain = false ∧
    stoppedAgain.emergencyActive = true := by
  have hcycle : EmergencyReader.cycle.active stopped = false := by decide +kernel
  have hactive : stopped.emergencyActive = true := by decide +kernel
  refine ⟨fun hagree => ?_, hcycle, hactive, by decide +kernel, by decide +kernel⟩
  have h := hagree .cycle
  rw [hcycle, hactive] at h
  cases h

/-- With the stop cleared all five agree. -/
theorem readers_agree_cleared :
    ReadersAgree (runStopCommands [(replies, .pause), (replies, .clearEmergency)] .empty) :=
  ((emergency_readers_agree_iff .empty [(replies, .pause), (replies, .clearEmergency)]).2
    rfl rfl).2 (by decide +kernel)

end StopHistory

end AutoTrader
