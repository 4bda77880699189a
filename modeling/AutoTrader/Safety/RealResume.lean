/-
  AutoTrader/Safety/RealResume.lean
  =================================
  **One real resume for each confirmed challenge.**

  `/confirm-real` arms one resume; `/resume` and `/clear-emergency` spend the arm in the
  real environment before they resume the runtime.  The service does not: at its start
  and in every tick it resumes a paused runtime without looking at the arm.  Where it
  never does so in the real environment, the arm and the resumes so far are covered by
  the confirmations.
-/
import AutoTrader.Pipeline.Telegram

namespace AutoTrader

open Transactional Interleave Command

-- unfolding it would run the program
attribute [local irreducible] Raising.Ends

/-! ### Histories -/

inductive ControlEvent where
  | telegram (host : Host) (userId : Option String) (command : TelegramCommand)
  | tick (startup : Bool)

def ControlEvent.program : ControlEvent → Command String
  | .telegram host userId command => command.perform host userId
  | .tick startup => do
    syncServiceRuntime startup
    pure ""

def ControlEvent.run (replies : ControlReplies) (e : ControlEvent) (db : Database) :
    Except Exn String × Database :=
  Raising.eval (controlHandler replies) e.program db

def armedText : String := "runtime environment: real (armed for one resume)"

/-- A `/confirm-real` that succeeded. -/
def ControlEvent.confirms : ControlEvent → Except Exn String → Bool
  | .telegram _ _ (.confirmReal _), .ok text => text = armedText
  | _, _ => false

/-- From paused to running in the real environment. -/
def resumesReal (db db' : Database) : Bool :=
  db.getRuntimeControl.paused && !db'.getRuntimeControl.paused &&
    db'.getRuntimeControl.environment = "real"

/-- The database and the two counts of a history. -/
structure Tally where
  db : Database
  resumes : Nat
  confirmations : Nat

def Tally.after (t : Tally) (step : ControlReplies × ControlEvent) : Tally where
  db := (step.2.run step.1 t.db).2
  resumes := t.resumes + if resumesReal t.db (step.2.run step.1 t.db).2 then 1 else 0
  confirmations := t.confirmations + if step.2.confirms (step.2.run step.1 t.db).1 then 1 else 0

def runControl (steps : List (ControlReplies × ControlEvent)) (t : Tally) : Tally :=
  steps.foldl Tally.after t

/-- The service resumes a runtime that is paused in the real environment. -/
def ControlEvent.resumesUnpaid (db : Database) : ControlEvent → Bool
  | .tick _ => db.getRuntimeControl.paused && db.getRuntimeControl.environment = "real" &&
      !([telegramEmergencyStopKey, emergencyStopKey].any fun key => flagText (db.metadataText key))
  | .telegram .. => false

/-- No start and no tick of the history does so. -/
def NoServiceResume : List (ControlReplies × ControlEvent) → Database → Bool
  | [], _ => true
  | (replies, e) :: rest, db => !e.resumesUnpaid db && NoServiceResume rest (e.run replies db).2

/-! ### The arm -/

/-- The resumes the arm still allows. -/
def Database.arm (db : Database) : Nat :=
  ((db.metadataText realResumeArmUsesKey).bind Text.toInt?).elim 0 Int.toNat

theorem arm_of_text {db : Database} {n : Nat}
    (h : db.metadataText realResumeArmUsesKey = some (toString (n : Int))) : db.arm = n := by
  rw [Database.arm, h, Option.bind_some, Text.toInt?_toString]
  rfl

theorem arm_of_same {db db' : Database}
    (h : db'.metadataText realResumeArmUsesKey = db.metadataText realResumeArmUsesKey) :
    db'.arm = db.arm := by
  rw [Database.arm, Database.arm, h]

/-- A write to the arm. -/
theorem arm_setRuntimeMetadata (now : DateTime) (db : Database) (n : Nat) :
    ((ControlOp.setRuntimeMetadata realResumeArmUsesKey (toString (n : Int))).exec now db).arm = n := by
  apply arm_of_text
  rw [ControlOp.metadataText_exec]
  exact if_pos ⟨rfl, by decide⟩

/-- `int(uses_text or zero)`, when it is positive. -/
theorem toInt?_orText {value : Option String} {zero : String} {uses : Int}
    (hzero : Text.toInt? zero = some 0)
    (h : Text.toInt? ((orText value (some zero)).getD "") = some uses) (hpos : 0 < uses) :
    value.bind Text.toInt? = some uses := by
  unfold orText at h
  cases hvalue : truthy value with
  | false =>
    rw [hvalue, if_neg Bool.false_ne_true, Option.getD_some, hzero, Option.some.injEq] at h
    omega
  | true =>
    rw [hvalue, if_pos rfl] at h
    cases value with
    | none => cases hvalue
    | some text =>
      rw [Option.getD_some] at h
      rw [Option.bind_some]
      exact h

/-- A valid arm is the stored one. -/
theorem arm_of_armValid {db : Database} {now : DateTime} {expiresText : String} {uses : Int}
    (h : armValid now expiresText
      ((orText (db.metadataText realResumeArmUsesKey) (some "0")).getD "") = some uses) :
    ∃ n : Nat, uses = n + 1 ∧ db.arm = n + 1 := by
  unfold armValid at h
  cases hexpires : DateTime.fromisoformat? expiresText with
  | none => rw [hexpires] at h; cases h
  | some expiresAt =>
    rw [hexpires] at h
    dsimp only at h
    split at h
    · rw [Option.filter_eq_some_iff, decide_eq_true_eq] at h
      obtain ⟨htext, hpos⟩ := h
      refine ⟨uses.toNat - 1, by omega, ?_⟩
      rw [Database.arm, toInt?_orText (Text.toInt?_toString 0) htext hpos, Option.elim_some]
      omega
    · cases h

/-! ### What the events keep -/

section Events

variable {replies : ControlReplies} {db₀ db : Database}

/-- Nothing resumed the runtime, and the arm did not grow. -/
structure Calm (db₀ db : Database) : Prop where
  paused : db₀.getRuntimeControl.paused = true → db.getRuntimeControl.paused = true
  arm : db.arm ≤ db₀.arm

theorem Calm.refl (db : Database) : Calm db db := ⟨id, le_rfl⟩

/-- An action that neither resumes the runtime nor arms a resume. -/
def ControlAct.calm : ControlAct → Prop
  | .call (.setRuntimeMetadata key value) _ => key = realResumeArmUsesKey → value = "0"
  | .call (.setRuntimePaused paused _ _) _ => paused = true
  | _ => True

theorem allowsControl_calm : AllowsControl ControlAct.calm where
  read := fun _ => trivial
  utcnow := trivial
  readAt := fun _ _ => trivial
  challengeCode := trivial
  metadata := fun _ _ _ huses _ h => absurd h huses
  disarm := fun _ _ => rfl
  pause := fun _ _ _ => rfl
  environment := fun _ _ _ _ => trivial
  outside := fun op _ h => by
    cases op with
    | setRuntimeMetadata | setRuntimePaused => exact h.elim
    | writeRuntimeEnvironment | resolveApprovalRequest | addWatchlistSymbol | setWatchlistEnabled =>
      exact trivial

theorem calm_step (o : ControlAct) (ho : o.calm) (h : Calm db₀ db) :
    Calm db₀ (controlHandler replies o db).2 := by
  cases o with
  | call op mark =>
    obtain hdb | hdb := controlHandler_call replies db op mark
    · rw [hdb]
      exact h
    rw [hdb]
    constructor
    · rw [ControlOp.paused_exec]
      intro hpaused
      cases op with
      | setRuntimePaused paused reason source =>
        obtain rfl : paused = true := ho
        dsimp only
        split
        · rfl
        · exact h.paused hpaused
      | setRuntimeMetadata | writeRuntimeEnvironment | resolveApprovalRequest | addWatchlistSymbol
      | setWatchlistEnabled => exact h.paused hpaused
    · cases op with
      | setRuntimeMetadata key value =>
        by_cases hkey : key = realResumeArmUsesKey
        · subst hkey
          obtain rfl : value = "0" := ho rfl
          rw [show "0" = toString ((0 : Nat) : Int) from rfl, arm_setRuntimeMetadata]
          exact Nat.zero_le _
        · have hsame : ((ControlOp.setRuntimeMetadata key value).exec replies.now
              db).metadataText realResumeArmUsesKey = db.metadataText realResumeArmUsesKey := by
            rw [ControlOp.metadataText_exec]
            exact if_neg fun hsame => hkey hsame.1
          rw [arm_of_same hsame]
          exact h.arm
      | setRuntimePaused | writeRuntimeEnvironment | resolveApprovalRequest | addWatchlistSymbol
      | setWatchlistEnabled =>
        rw [arm_of_same (ControlOp.metadataText_exec _ _ _ _)]
        exact h.arm
  | read | utcnow | challengeCode | api | handles => exact h

/-- A calm program, then the rest. -/
theorem calm_then {α β : Type} {p : Command α} {f : α → Command β} {Q : β → Database → Prop}
    (hp : Does ControlAct.calm p) (h : Calm db₀ db)
    (hf : ∀ a db', Calm db₀ db' → Raising.Ends (controlHandler replies) (f a) Q (fun _ => Calm db₀) db') :
    Raising.Ends (controlHandler replies) (p >>= f) Q (fun _ => Calm db₀) db := by
  have hkeep : Raising.Ends (controlHandler replies) p (fun _ => Calm db₀) (fun _ => Calm db₀) db :=
    Raising.Ends.of_only (fun o _ ho h => calm_step o ho h) hp h
  exact Raising.Ends.bind (hkeep.mono hf fun _ _ h => h)

/-- What `/confirm-real` leaves: a calm database, or an arm for one resume. -/
def Confirmed (db₀ : Database) (text : String) (db : Database) : Prop :=
  (db₀.getRuntimeControl.paused = true → db.getRuntimeControl.paused = true) ∧
    (db.arm ≤ db₀.arm ∨ text = armedText ∧ db.arm ≤ 1)

theorem Confirmed.of_calm (h : Calm db₀ db) (text : String) : Confirmed db₀ text db :=
  ⟨h.paused, .inl h.arm⟩

/-- The last write of `/confirm-real`. -/
theorem ends_arm (h : Calm db₀ db) :
    Raising.Ends (controlHandler replies) (setMetadata realResumeArmUsesKey "1" .confirmed)
      (fun _ => Confirmed db₀ armedText) (fun _ => Calm db₀) db := by
  have heval := eval_callAt replies db (.setRuntimeMetadata realResumeArmUsesKey "1") .confirmed
  refine Raising.Ends.bind ?_
  cases hraises : replies.raises (.setRuntimeMetadata realResumeArmUsesKey "1") db with
  | some e =>
    rw [hraises] at heval
    exact Raising.Ends.of_eval heval h
  | none =>
    have hkey : Text.blank realResumeArmUsesKey = false := by decide
    rw [hraises] at heval
    dsimp only at heval
    rw [ControlOp.run_setRuntimeMetadata replies.now db "1" hkey] at heval
    refine Raising.Ends.of_eval heval (.pure ⟨fun hpaused => ?_, .inr ⟨rfl, ?_⟩⟩)
    · exact (ControlOp.paused_exec replies.now db _).trans (h.paused hpaused)
    · exact (arm_setRuntimeMetadata replies.now db 1).le

theorem ends_armRealResume (h : Calm db₀ db) :
    Raising.Ends (controlHandler replies) armRealResume (fun _ => Confirmed db₀ armedText)
      (fun _ => Calm db₀) db := by
  have hP := allowsControl_calm
  unfold armRealResume
  refine calm_then (does_write hP (by decide) (by decide)) h fun _ db h => ?_
  refine calm_then (does_write hP (by decide) (by decide)) h fun _ db h => ?_
  refine calm_then (does_expiryText hP 15) h fun expires db h => ?_
  refine calm_then (does_write hP (by decide) (by decide)) h fun _ db h => ?_
  exact ends_arm h

theorem ends_confirmReal (replies : ControlReplies) (code : String) (h : Calm db₀ db) :
    Raising.Ends (controlHandler replies) (confirmReal code) (Confirmed db₀) (fun _ => Calm db₀) db := by
  have hP := allowsControl_calm
  have hreads := hP.toAllowsReads
  unfold confirmReal
  refine calm_then (does_query hreads _) h fun stored db h => ?_
  refine Raising.Ends.ite (fun _ => .pure (.of_calm h _)) fun _ => ?_
  refine calm_then (does_metadata hreads _) h fun expected db h => ?_
  refine calm_then (does_metadata hreads _) h fun expiresText db h => ?_
  refine calm_then (does_challengeExpired hP _) h fun expired db h => ?_
  refine calm_then (does_lift _) h fun refused db h => ?_
  refine Raising.Ends.ite (fun _ => .pure (.of_calm h _)) fun _ => ?_
  refine calm_then (does_setRuntimeEnvironment hP _ _ _).attempt h fun result db h => ?_
  rcases result with e | _
  · cases e with
    | valueError message => exact .pure (.of_calm h _)
    | typeError | integrityError | orderSafetyGateError | kisHttpError | other => exact .throw h
  · exact Raising.Ends.bind ((ends_armRealResume h).mono (fun _ _ h => .pure h) fun _ _ h => h)

/-! ### Paying for a resume -/

/-- In the real environment a resume has been spent. -/
structure Paid (db₀ db : Database) : Prop where
  environment : db.getRuntimeControl.environment = db₀.getRuntimeControl.environment
  arm : db.arm ≤ db₀.arm
  spent : db₀.getRuntimeControl.environment = "real" → db.arm + 1 ≤ db₀.arm

def ControlAct.reads : ControlAct → Prop
  | .read _ _ => True
  | .utcnow => True
  | _ => False

theorem allowsReads_reads : AllowsReads ControlAct.reads := ⟨fun _ => trivial, trivial⟩

/-- A program that only reads, then the rest on the same database. -/
theorem read_then {α β : Type} {p : Command α} {f : α → Command β} {Q : β → Database → Prop}
    {E : Exn → Database → Prop} (hp : Does ControlAct.reads p) (hE : ∀ e, E e db)
    (hf : ∀ a, Raising.Ends (controlHandler replies) (f a) Q E db) :
    Raising.Ends (controlHandler replies) (p >>= f) Q E db := by
  have hsame : Raising.Ends (controlHandler replies) p (fun _ db' => db' = db) (fun _ db' => db' = db) db := by
    refine Raising.Ends.of_only (P := ControlAct.reads) (fun o db' ho h => ?_) hp rfl
    cases o with
    | read | utcnow => exact h
    | challengeCode | call | api | handles => exact ho.elim
  refine Raising.Ends.bind (hsame.mono ?_ ?_)
  · rintro a _ rfl
    exact hf a
  · rintro e _ rfl
    exact hE e

/-- A write that touches neither the environment nor the arm. -/
def ControlAct.unarming : ControlAct → Prop
  | .call (.setRuntimeMetadata key _) _ => key ≠ realResumeArmUsesKey
  | .call (.setRuntimePaused ..) _ => True
  | _ => False

/-- The environment and the arm are as before. -/
structure SameArm (db₀ db : Database) : Prop where
  environment : db.getRuntimeControl.environment = db₀.getRuntimeControl.environment
  arm : db.arm = db₀.arm

theorem Paid.of_same {db' : Database} (h : Paid db₀ db) (hsame : SameArm db db') : Paid db₀ db' :=
  ⟨hsame.environment.trans h.environment, hsame.arm.le.trans h.arm, fun hreal => by
    rw [hsame.arm]
    exact h.spent hreal⟩

theorem ends_unarming {α : Type} {p : Command α} (hp : Does ControlAct.unarming p) (db : Database) :
    Raising.Ends (controlHandler replies) p (fun _ => SameArm db) (fun _ => SameArm db) db := by
  refine Raising.Ends.of_only (fun o db' ho h => ?_) hp ⟨rfl, rfl⟩
  cases o with
  | call op mark =>
    obtain hdb | hdb := controlHandler_call replies db' op mark
    · rw [hdb]
      exact h
    rw [hdb]
    constructor
    · rw [ControlOp.environment_exec]
      cases op with
      | setRuntimeMetadata | setRuntimePaused => exact h.environment
      | writeRuntimeEnvironment | resolveApprovalRequest | addWatchlistSymbol
      | setWatchlistEnabled => exact ho.elim
    · rw [← h.arm]
      apply arm_of_same
      rw [ControlOp.metadataText_exec]
      cases op with
      | setRuntimeMetadata key value => exact if_neg fun hsame => ho hsame.1
      | setRuntimePaused => rfl
      | writeRuntimeEnvironment | resolveApprovalRequest | addWatchlistSymbol
      | setWatchlistEnabled => exact ho.elim
  | read | utcnow | challengeCode | api | handles => exact ho.elim

theorem paid_then {α : Type} {p : Command α} (hp : Does ControlAct.unarming p) (h : Paid db₀ db) :
    Raising.Ends (controlHandler replies) p (fun _ => Paid db₀) (fun _ => Paid db₀) db :=
  (ends_unarming hp db).mono (fun _ _ hsame => h.of_same hsame) fun _ _ hsame => h.of_same hsame

/-- Outside the real environment nothing is to be paid. -/
theorem Paid.of_free (h : db.getRuntimeControl.environment ≠ "real") : Paid db db :=
  ⟨rfl, le_rfl, fun hreal => absurd hreal h⟩

/-- **`_real_resume_allowed` spends the arm.** -/
theorem ends_realResumeAllowed :
    Raising.Ends (controlHandler replies) realResumeAllowed
      (fun allowed db' => if allowed then Paid db db' else db' = db) (fun _ db' => db' = db) db := by
  unfold realResumeAllowed
  refine Raising.Ends.after (eval_query replies db _) ?_
  refine Raising.Ends.ite ?_ ?_
  · intro hfree
    exact Raising.Ends.of_eval (Raising.eval_pure _ _ _) (Paid.of_free hfree)
  intro hreal
  refine Raising.Ends.after (eval_metadata replies db _) ?_
  refine Raising.Ends.after (eval_metadata replies db _) ?_
  refine Raising.Ends.after (eval_utcnow replies db) ?_
  cases hvalid : armValid replies.now ((db.metadataText realResumeArmExpiresKey).getD "")
      ((orText (db.metadataText realResumeArmUsesKey) (some "0")).getD "") with
  | none => exact .pure rfl
  | some uses =>
    obtain ⟨n, rfl, harm⟩ := arm_of_armValid hvalid
    have hvalue : toString ((n : Int) + 1 - 1) = toString (n : Int) := by rw [Int.add_sub_cancel]
    have hkey : Text.blank realResumeArmUsesKey = false := by decide
    have heval := eval_callAt replies db (.setRuntimeMetadata realResumeArmUsesKey (toString (n : Int)))
      .within
    dsimp only
    rw [hvalue]
    refine Raising.Ends.bind (Raising.Ends.bind ?_)
    cases hraises : replies.raises (.setRuntimeMetadata realResumeArmUsesKey (toString (n : Int))) db with
    | some e =>
      rw [hraises] at heval
      exact Raising.Ends.of_eval heval rfl
    | none =>
      rw [hraises] at heval
      dsimp only at heval
      rw [ControlOp.run_setRuntimeMetadata replies.now db _ hkey] at heval
      have hspent := arm_setRuntimeMetadata replies.now db n
      have hpaid : Paid db ((ControlOp.setRuntimeMetadata realResumeArmUsesKey
          (toString (n : Int))).exec replies.now db) :=
        ⟨ControlOp.environment_exec replies.now db _, by rw [hspent]; omega,
          fun _ => by rw [hspent, harm]⟩
      exact Raising.Ends.of_eval heval (.pure (.pure hpaid))

/-- What a command leaves that may resume: not resumed, or paid. -/
def Resumed (db₀ db : Database) : Prop := db = db₀ ∨ Paid db₀ db

theorem does_emergencyStopActive : Does ControlAct.reads emergencyStopActive :=
  (does_metadata allowsReads_reads _).bind fun _ => Raising.Only.pure _

/-- `/resume` looks at everything before it pays. -/
theorem ends_resumeRejection (host : Host) :
    Raising.Ends (controlHandler replies) (resumeRejection host)
      (fun rejection db' => if rejection = none then Paid db db' else Resumed db db')
      (fun _ db' => db' = db) db := by
  have hreads := allowsReads_reads
  unfold resumeRejection
  refine read_then (does_readinessBlockers hreads host) (fun _ => rfl) ?_
  intro blockers
  refine read_then (does_resumeSafetyReason hreads) (fun _ => rfl) ?_
  intro safety
  refine read_then does_emergencyStopActive (fun _ => rfl) ?_
  intro stopped
  have hno : ∀ reason : String, Raising.Ends (controlHandler replies)
      (pure (some reason) : Command (Option String))
      (fun rejection db' => if rejection = none then Paid db db' else Resumed db db')
      (fun _ db' => db' = db) db :=
    fun reason => .pure (.inl rfl)
  refine Raising.Ends.ite (fun _ => hno _) fun _ => ?_
  refine Raising.Ends.ite (fun _ => hno _) fun _ => ?_
  refine read_then (does_metadata hreads _) (fun _ => rfl) ?_
  intro cancelPending
  generalize flagText cancelPending = pending
  refine Raising.Ends.ite (fun _ => hno _) fun _ => ?_
  refine Raising.Ends.ite ?_ ?_
  · intro hsafety
    cases safety with
    | none => cases hsafety
    | some reason => exact hno reason
  intro _
  refine Raising.Ends.bind (ends_realResumeAllowed.mono ?_ fun _ _ h => h)
  intro allowed db' hpaid
  cases allowed with
  | true => exact .pure hpaid
  | false => exact .pure (.inl hpaid)

theorem ends_resumeCommand (host : Host) (reason : String) :
    Raising.Ends (controlHandler replies) (resumeCommand host reason) (fun _ => Resumed db)
      (fun _ => Resumed db) db := by
  unfold resumeCommand
  refine Raising.Ends.bind ((ends_resumeRejection host).mono ?_ fun _ _ h => .inl h)
  intro rejection db' h
  cases rejection with
  | some text => exact .pure h
  | none =>
    have hpause : Does ControlAct.unarming (setPaused false reason "telegram" .within) :=
      does_setPaused trivial
    exact Raising.Ends.bind ((paid_then hpause h).mono (fun _ _ h => .pure (.inr h)) fun _ _ h => .inr h)

theorem ends_clearEmergencyCommand :
    Raising.Ends (controlHandler replies) clearEmergencyCommand (fun _ => Resumed db)
      (fun _ => Resumed db) db := by
  unfold clearEmergencyCommand
  refine Raising.Ends.bind (ends_realResumeAllowed.mono ?_ fun _ _ h => .inl h)
  intro allowed db' hpaid
  cases allowed with
  | false => exact .pure (.inl hpaid)
  | true =>
    have hclear : Does ControlAct.unarming (do
        setMetadata telegramEmergencyStopKey "false" .clearBegins
        setMetadata emergencyStopKey "false" .within
        setPaused false "emergency_stop_cleared" "telegram" .clearEnds
        pure "emergency stop cleared; automatic runtime control restored" : Command String) := by
      have htelegram : telegramEmergencyStopKey ≠ realResumeArmUsesKey := by decide
      have hstop : emergencyStopKey ≠ realResumeArmUsesKey := by decide
      refine (does_setMetadata htelegram).bind fun _ => (does_setMetadata hstop).bind fun _ => ?_
      exact (does_setPaused trivial).bind fun _ => Raising.Only.pure _
    exact (paid_then hclear hpaid).mono (fun _ _ h => .inr h) fun _ _ h => .inr h

/-! ### One event -/

/-- No resume in the real environment without spending the arm, and no new arm. -/
structure ArmAccounted (db₀ db : Database) : Prop where
  arm : db.arm ≤ db₀.arm
  resumed : resumesReal db₀ db = true → db.arm + 1 ≤ db₀.arm

theorem resumesReal_iff : resumesReal db₀ db = true ↔
    db₀.getRuntimeControl.paused = true ∧ db.getRuntimeControl.paused = false ∧
      db.getRuntimeControl.environment = "real" := by
  simp [resumesReal, and_assoc]

theorem resumesReal_of_paused
    (h : db₀.getRuntimeControl.paused = true → db.getRuntimeControl.paused = true) :
    resumesReal db₀ db = false := by
  rw [← Bool.not_eq_true, resumesReal_iff]
  rintro ⟨hpaused, hrunning, -⟩
  rw [h hpaused] at hrunning
  cases hrunning

theorem Calm.accounted (h : Calm db₀ db) : ArmAccounted db₀ db :=
  ⟨h.arm, fun hreal => by rw [resumesReal_of_paused h.paused] at hreal; cases hreal⟩

theorem Resumed.accounted (h : Resumed db₀ db) : ArmAccounted db₀ db := by
  obtain rfl | h := h
  · exact (Calm.refl db).accounted
  · refine ⟨h.arm, fun hreal => h.spent ?_⟩
    rw [← h.environment]
    exact (resumesReal_iff.mp hreal).2.2

/-- A start or a tick that does not resume a paused real runtime. -/
theorem ends_syncServiceRuntime {startup : Bool}
    (h : (ControlEvent.tick startup).resumesUnpaid db = false) :
    Raising.Ends (controlHandler replies) (syncServiceRuntime startup) (fun _ => ArmAccounted db)
      (fun _ => ArmAccounted db) db := by
  have hsame : ArmAccounted db db := (Calm.refl db).accounted
  unfold syncServiceRuntime
  refine Raising.Ends.after (eval_query replies db _) ?_
  refine Raising.Ends.after (eval_metadataFlag replies db _) ?_
  unfold ControlEvent.resumesUnpaid at h
  generalize ([telegramEmergencyStopKey, emergencyStopKey].any fun key =>
    flagText (db.metadataText key)) = emergency at h ⊢
  cases emergency with
  | true =>
    rw [if_pos rfl]
    refine Raising.Ends.ite ?_ ?_
    · intro _
      exact Raising.Ends.pure (Q := fun _ => ArmAccounted db) hsame
    intro _
    have hpause : Does ControlAct.calm (setPaused true "emergency_stop_restored" "service" .within) :=
      does_setPaused rfl
    have hcalm : Raising.Ends (controlHandler replies) _ (fun _ => Calm db) (fun _ => Calm db) db :=
      Raising.Ends.of_only (fun o _ ho h => calm_step o ho h) hpause (Calm.refl db)
    exact hcalm.mono (fun _ _ h => h.accounted) fun _ _ h => h.accounted
  | false =>
    rw [if_neg Bool.false_ne_true]
    refine Raising.Ends.ite ?_ ?_
    swap
    · intro _
      exact Raising.Ends.pure (Q := fun _ => ArmAccounted db) hsame
    intro _
    have hresumed : ∀ db', SameArm db db' → ArmAccounted db db' := by
      intro db' hkept
      refine ⟨hkept.arm.le, fun hreal => ?_⟩
      obtain ⟨hpaused, -, henv⟩ := resumesReal_iff.mp hreal
      rw [hkept.environment] at henv
      simp [hpaused, henv] at h
    exact (ends_unarming (does_setPaused trivial) db).mono (fun _ => hresumed) fun _ => hresumed

/-- **What one event does** when it is no unpaid resume: it is accounted for, or it is a
    successful `/confirm-real`. -/
theorem event_accounted (replies : ControlReplies) (e : ControlEvent) (h : e.resumesUnpaid db = false) :
    ArmAccounted db (e.run replies db).2 ∨
      e.confirms (e.run replies db).1 = true ∧ resumesReal db (e.run replies db).2 = false ∧
        (e.run replies db).2.arm ≤ 1 := by
  have hstore : ∀ {R : Database → Prop} {p : Command String},
      Raising.Ends (controlHandler replies) p (fun _ => R) (fun _ => R) db →
      R (Raising.eval (controlHandler replies) p db).2 := Raising.Ends.store
  have hcalm : ∀ {p : Command String}, Does ControlAct.calm p →
      ArmAccounted db (Raising.eval (controlHandler replies) p db).2 := fun hp =>
    (hstore (R := Calm db)
      (Raising.Ends.of_only (fun o _ ho h => calm_step o ho h) hp (Calm.refl db))).accounted
  cases e with
  | tick startup =>
    refine .inl (hstore (R := ArmAccounted db) ?_)
    exact Raising.Ends.bind ((ends_syncServiceRuntime h).mono (fun _ _ h => .pure h) fun _ _ h => h)
  | telegram host userId command =>
    have hperform : command.calm →
        ArmAccounted db ((ControlEvent.telegram host userId command).run replies db).2 :=
      fun hc => hcalm (does_perform allowsControl_calm hc host userId)
    cases command with
    | resume reason => exact .inl (hstore (ends_resumeCommand host reason)).accounted
    | clearEmergency => exact .inl (hstore ends_clearEmergencyCommand).accounted
    | confirmReal code =>
      have hends := ends_confirmReal replies code (Calm.refl db)
      have houtcome := hends.outcome_eval
      change ArmAccounted db (Raising.eval (controlHandler replies) (confirmReal code) db).2 ∨
        (ControlEvent.telegram host userId (.confirmReal code)).confirms
          (Raising.eval (controlHandler replies) (confirmReal code) db).1 = true ∧
        resumesReal db (Raising.eval (controlHandler replies) (confirmReal code) db).2 = false ∧
        (Raising.eval (controlHandler replies) (confirmReal code) db).2.arm ≤ 1
      generalize Raising.eval (controlHandler replies) (confirmReal code) db = after at houtcome ⊢
      obtain ⟨result, db'⟩ := after
      cases result with
      | error e => exact .inl (Calm.accounted houtcome)
      | ok text =>
        obtain ⟨hpaused, harm | ⟨rfl, harm⟩⟩ := houtcome
        · exact .inl (Calm.accounted ⟨hpaused, harm⟩)
        · exact .inr ⟨decide_eq_true (rfl : armedText = armedText), resumesReal_of_paused hpaused, harm⟩
    | pause | emergencyStop | environment | cancelOpenBuys | resolveApproval | frequency
    | watchlistAdd | watchlistRemove | «show» =>
      exact .inl (hperform trivial)

end Events

/-! ### Histories of events -/

/-- The resumes so far and the arm are covered by the confirmations. -/
def Covered (t : Tally) : Prop := t.resumes + t.db.arm ≤ t.confirmations

theorem Covered.after {t : Tally} (h : Covered t) (step : ControlReplies × ControlEvent)
    (hstep : step.2.resumesUnpaid t.db = false) : Covered (t.after step) := by
  unfold Covered Tally.after at *
  dsimp only
  rcases event_accounted step.1 step.2 hstep with haccounted | ⟨hconfirms, hno, harm⟩
  · have hconfirmations : t.confirmations ≤ t.confirmations +
        if step.2.confirms (step.2.run step.1 t.db).1 then 1 else 0 := Nat.le_add_right _ _
    cases hreal : resumesReal t.db (step.2.run step.1 t.db).2 with
    | false =>
      have := haccounted.arm
      rw [if_neg Bool.false_ne_true]
      omega
    | true =>
      have := haccounted.resumed hreal
      rw [if_pos rfl]
      omega
  · rw [hconfirms, hno, if_neg Bool.false_ne_true, if_pos rfl]
    omega

/-- **A real resume for each confirmation at most**, in every history of Telegram
    commands, starts and ticks in which the service resumes no paused real runtime. -/
theorem real_resumes_confirmed (db : Database) (steps : List (ControlReplies × ControlEvent))
    (hfresh : db.metadataText realResumeArmUsesKey = none)
    (hservice : NoServiceResume steps db = true) :
    (runControl steps ⟨db, 0, 0⟩).resumes ≤ (runControl steps ⟨db, 0, 0⟩).confirmations := by
  have hrun : ∀ (steps : List (ControlReplies × ControlEvent)) (t : Tally),
      NoServiceResume steps t.db = true → Covered t → Covered (runControl steps t) := by
    intro steps
    induction steps with
    | nil => exact fun _ _ h => h
    | cons step rest ih =>
      intro t hservice h
      unfold NoServiceResume at hservice
      rw [Bool.and_eq_true, Bool.not_eq_true'] at hservice
      exact ih (t.after step) hservice.2 (h.after step hservice.1)
  have hstart : Covered ⟨db, 0, 0⟩ := by
    change 0 + db.arm ≤ 0
    rw [Database.arm, hfresh]
    exact le_rfl
  exact le_trans (Nat.le_add_right _ _) (hrun steps ⟨db, 0, 0⟩ hservice hstart)

namespace RealHistory

def replies : ControlReplies where
  now := ⟨63828000000000000, some 0⟩
  challengeCode := "123456"
  api := fun _ => .ok []
  raises := fun _ _ => none

def host : Host := ⟨fun _ => [], [], fun _ => ""⟩

def telegram (c : TelegramCommand) : ControlReplies × ControlEvent :=
  (replies, .telegram host (some "42") c)

/-- `/env real`, `/confirm-real`, and the resume of `/clear-emergency`. -/
def confirmed : List (ControlReplies × ControlEvent) :=
  [telegram .pause, telegram (.environment (some "real")), telegram (.confirmReal "123456")]

theorem confirmed_resume_covered :
    (runControl (confirmed ++ [telegram .clearEmergency]) ⟨.empty, 0, 0⟩).resumes = 1 ∧
    (runControl (confirmed ++ [telegram .clearEmergency]) ⟨.empty, 0, 0⟩).resumes ≤
      (runControl (confirmed ++ [telegram .clearEmergency]) ⟨.empty, 0, 0⟩).confirmations :=
  ⟨by decide +kernel, real_resumes_confirmed .empty (confirmed ++ [telegram .clearEmergency]) rfl
    (by decide +kernel)⟩

/-- Confirmed on a database without a stop, resumed by the start of the service, and
    resumed once more after a stop with the arm nobody spent. -/
theorem second_resume_unconfirmed :
    ¬ ∀ (db : Database) (steps : List (ControlReplies × ControlEvent)),
      db.metadataText realResumeArmUsesKey = none →
      (runControl steps ⟨db, 0, 0⟩).resumes ≤ (runControl steps ⟨db, 0, 0⟩).confirmations := by
  intro hall
  have h := hall .empty (confirmed.tail ++ [(replies, .tick true), telegram .pause,
    telegram .clearEmergency]) rfl
  revert h
  decide +kernel

end RealHistory

end AutoTrader
