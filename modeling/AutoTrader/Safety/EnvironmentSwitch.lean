/-
  AutoTrader/Safety/EnvironmentSwitch.lean
  ========================================
  **The environment changes while nothing is live.**

  `set_runtime_environment` reads the pause flag, the positions and the orders, one
  after the other, and then writes the environment in a transaction that checks none
  of them again.  What a call has read is noted beside the store: where no other
  connection undoes what a running call has checked, the stored environment changes at
  quiet moments only.  A call that asks for the environment it read does not check the
  ledgers; it changes something only after another call did.
-/
import AutoTrader.Pipeline.Control

namespace AutoTrader

open Transactional Interleave Command

/-! ### What a call has found -/

/-- Paused, no position OPEN, no order active. -/
structure NothingLive (db : Database) : Prop where
  paused : db.getRuntimeControl.paused = true
  positions : db.hasOpenPosition = false
  orders : db.hasActiveOrder = false

inductive Finding where
  | nothing
  | paused
  | positions
  | orders
  | unchanged (environment : String)
deriving DecidableEq

/-- The checks still hold. -/
def Finding.Holds (db : Database) : Finding → Prop
  | .nothing => True
  | .paused => db.getRuntimeControl.paused = true
  | .positions => db.getRuntimeControl.paused = true ∧ db.hasOpenPosition = false
  | .orders => NothingLive db
  | .unchanged environment => db.getRuntimeControl.paused = true ∧
      (db.getRuntimeControl.environment = environment ∨ NothingLive db)

/-- What the call of each process has found. -/
abbrev Checks := Nat → Finding

def Checks.record (i : Nat) : Mark → Checks → Checks
  | .checkBegins, g => Function.update g i .paused
  | .checkUnchanged environment, g => Function.update g i (.unchanged environment)
  | .positionsChecked, g => Function.update g i .positions
  | .ordersChecked, g => Function.update g i .orders
  | .checkEnds, g => Function.update g i .nothing
  | .raised, g => Function.update g i .nothing
  | .within, g => g
  | .stopBegins, g => g
  | .stopEnds, g => g
  | .clearBegins, g => g
  | .clearEnds, g => g
  | .confirmed, g => g

abbrev SwitchWorld := Watched Checks

/-- Calls of `set_runtime_environment` in any interleaving, among steps of other
    connections that meet `ok`; those leave the stored environment alone. -/
def switchSystem (ok : SwitchWorld → SwitchWorld → Prop) : System control SwitchWorld where
  sem := controlSem Checks.record fun _ _ _ _ => True
  env w w' := w'.seen = w.seen ∧
    w'.db.getRuntimeControl.environment = w.db.getRuntimeControl.environment ∧ ok w w'
  spawn _ _ q := ∃ environment reason source,
    q = Command.detached (setRuntimeEnvironment environment reason source)

/-- No check of a running call is undone. -/
def KeepsFindings (w w' : SwitchWorld) : Prop :=
  ∀ i, (w.seen i).Holds w.db → (w.seen i).Holds w'.db

/-- What a call promises the other calls. -/
structure SwitchStep (j : Nat) (w w' : SwitchWorld) : Prop where
  seen : ∀ i, i ≠ j → w'.seen i = w.seen i
  checks : ∀ i, i ≠ j → (w.seen i).Holds w.db → (w.seen i).Holds w'.db
  quiet : w'.db.getRuntimeControl.environment ≠ w.db.getRuntimeControl.environment → NothingLive w.db

/-- The call of process `i` has checked `c`, and it holds. -/
structure Stage (i : Nat) (c : Finding) (w : SwitchWorld) : Prop where
  seen : w.seen i = c
  holds : c.Holds w.db

def switchRely (i : Nat) : SwitchWorld → SwitchWorld → Prop :=
  (switchSystem KeepsFindings).rely (fun _ => True) SwitchStep i

abbrev SwitchSafe (i : Nat) {α : Type} (p : Command α) (Q : α → SwitchWorld → Prop)
    (w : SwitchWorld) : Prop :=
  Raising.SafeE (controlSem Checks.record (fun _ _ _ _ => True) i) (fun _ => True) (switchRely i)
    (SwitchStep i) p Q (fun _ _ => True) w

section Steps

variable {i : Nat} {w w' : SwitchWorld}

theorem stage_stable (c : Finding) (w w' : SwitchWorld) (h : switchRely i w w') (hw : Stage i c w) :
    Stage i c w' := by
  obtain ⟨hseen, hholds⟩ := hw
  obtain ⟨-, -, ⟨hsame, -, hkeeps⟩ | ⟨j, hj, hstep⟩⟩ := h
  · rw [← hseen] at hholds ⊢
    exact ⟨by rw [hsame], hkeeps i hholds⟩
  · rw [← hseen] at hholds ⊢
    exact ⟨hstep.seen i (Ne.symm hj), hstep.checks i (Ne.symm hj) hholds⟩

/-- A step that leaves the database alone and notes something of process `i`. -/
theorem SwitchStep.noted (db : Database) (g : Checks) (c : Finding) :
    SwitchStep i ⟨db, g⟩ ⟨db, Function.update g i c⟩ :=
  ⟨fun _ hk => Function.update_of_ne hk _ _, fun _ _ h => h, fun h => absurd rfl h⟩

theorem SwitchStep.refl (w : SwitchWorld) : SwitchStep i w w :=
  ⟨fun _ _ => rfl, fun _ _ h => h, fun h => absurd rfl h⟩

/-- Reading the pause flag. -/
theorem safe_readControl (environment : String) :
    SwitchSafe i (queryAt (·.getRuntimeControl) fun c =>
        if c.paused = false then .within
        else if environment ≠ c.environment then .checkBegins
        else .checkUnchanged environment)
      (fun stored w => stored.paused = true →
        Stage i (if environment ≠ stored.environment then .paused else .unchanged environment) w) w := by
  refine Command.safe_queryAt (R := fun _ => True) (fun _ _ _ h => h)
    (fun _ w w' hrely h hpaused => stage_stable _ w w' hrely (h hpaused)) ?_ trivial
  intro w _ _
  cases hpaused : w.db.getRuntimeControl.paused with
  | false => exact ⟨trivial, .refl w, nofun⟩
  | true =>
    by_cases hsame : environment ≠ w.db.getRuntimeControl.environment
    · rw [if_neg Bool.true_eq_false_eq_False, if_pos hsame, if_pos hsame]
      exact ⟨trivial, .noted _ _ _, fun _ => ⟨Function.update_self .., hpaused⟩⟩
    · rw [if_neg Bool.true_eq_false_eq_False, if_neg hsame, if_neg hsame]
      exact ⟨trivial, .noted _ _ _, fun _ =>
        ⟨Function.update_self .., hpaused, .inl (not_not.mp hsame).symm⟩⟩

/-- The two reads of the ledgers. -/
theorem safe_checkNoLiveState (hw : Stage i .paused w) :
    SwitchSafe i checkNoLiveState (fun _ => Stage i .orders) w := by
  unfold checkNoLiveState
  refine Raising.SafeE.seq (Command.safe_queryAt (stage_stable .paused)
    (T := fun found w => found = false → Stage i .positions w)
    (fun _ w w' hrely h hfound => stage_stable _ w w' hrely (h hfound)) ?_ hw) ?_
  · intro w hstage _
    cases hfound : w.db.hasOpenPosition with
    | false =>
      rw [if_neg Bool.false_ne_true]
      refine ⟨trivial, .noted _ _ _, fun _ => ⟨Function.update_self .., ?_⟩⟩
      exact ⟨hstage.holds, hfound⟩
    | true => exact ⟨trivial, .noted _ _ _, nofun⟩
  intro openPosition w hopen
  cases openPosition with
  | true =>
    refine Raising.SafeE.seq (R := fun _ _ => True) ?_ fun _ _ _ => Raising.SafeE.throw fun _ _ => trivial
    exact Command.safe_queryAt (R := fun _ => True) (fun _ _ _ h => h) (fun _ _ _ _ h => h)
      (fun w _ _ => ⟨trivial, .noted _ _ _, trivial⟩) trivial
  | false =>
    refine Raising.SafeE.seq (Command.safe_queryAt (stage_stable .positions)
      (T := fun found w => found = false → Stage i .orders w)
      (fun _ w w' hrely h hfound => stage_stable _ w w' hrely (h hfound)) ?_ (hopen rfl)) ?_
    · intro w hstage _
      rw [Bool.false_or]
      cases hfound : w.db.hasActiveOrder with
      | false =>
        rw [if_neg Bool.false_ne_true]
        refine ⟨trivial, .noted _ _ _, fun _ => ⟨Function.update_self .., ?_⟩⟩
        exact ⟨hstage.holds.1, hstage.holds.2, hfound⟩
      | true => exact ⟨trivial, .noted _ _ _, nofun⟩
    intro activeOrder w horders
    cases activeOrder with
    | true => exact Raising.SafeE.throw fun _ _ => trivial
    | false =>
      exact Raising.SafeE.pure fun w' hw' =>
        Raising.Keeps.stable (stage_stable .orders) hw' (horders rfl)

/-- All checks are made, or none was needed. -/
def Ready (i : Nat) (environment : String) (w : SwitchWorld) : Prop :=
  Stage i .orders w ∨ Stage i (.unchanged environment) w

theorem ready_stable (environment : String) (w w' : SwitchWorld) (h : switchRely i w w') :
    Ready i environment w → Ready i environment w' :=
  Or.imp (stage_stable _ w w' h) (stage_stable _ w w' h)

theorem safe_checkChange {environment stored : String}
    (hw : Stage i (if environment ≠ stored then .paused else .unchanged environment) w) :
    SwitchSafe i (checkChange environment stored) (fun _ => Ready i environment) w := by
  unfold checkChange
  by_cases hsame : environment ≠ stored
  · rw [if_pos hsame] at hw ⊢
    exact (safe_checkNoLiveState hw).mono (fun _ _ h => .inl h) fun _ _ h => h
  · rw [if_neg hsame] at hw ⊢
    exact Raising.SafeE.pure fun w' hw' => .inr (Raising.Keeps.stable (stage_stable _) hw' hw)

/-- A write that changes the environment finds nothing live. -/
theorem Ready.nothingLive {environment : String} (h : Ready i environment w)
    (hchange : environment ≠ w.db.getRuntimeControl.environment) : NothingLive w.db := by
  rcases h with h | h
  · exact h.holds
  · exact h.holds.2.resolve_left fun hsame => hchange hsame.symm

/-- Writing the environment leaves the pause flag and the ledgers as they are. -/
theorem NothingLive.written {db : Database} (h : NothingLive db) (now : DateTime)
    (environment reason source : String) :
    NothingLive ((ControlOp.writeRuntimeEnvironment environment reason source).exec now db) := by
  obtain ⟨hpositions, horders⟩ := ControlOp.ledgers_exec now db
    (.writeRuntimeEnvironment environment reason source)
  constructor
  · rw [ControlOp.paused_exec]
    exact h.paused
  · rw [Database.hasOpenPosition, hpositions]
    exact h.positions
  · rw [Database.hasActiveOrder, horders]
    exact h.orders

/-- What another call has checked survives the write. -/
theorem Finding.written {db : Database} {now : DateTime} {environment reason source : String}
    (henvironment : environment ≠ "")
    (hready : environment ≠ db.getRuntimeControl.environment → NothingLive db) {c : Finding}
    (h : c.Holds db) :
    c.Holds ((ControlOp.writeRuntimeEnvironment environment reason source).exec now db) := by
  have hpaused : ((ControlOp.writeRuntimeEnvironment environment reason source).exec now
      db).getRuntimeControl.paused = db.getRuntimeControl.paused := ControlOp.paused_exec now db _
  have hwritten : ((ControlOp.writeRuntimeEnvironment environment reason source).exec now
      db).getRuntimeControl.environment = environment := by
    rw [ControlOp.environment_exec]
    exact if_neg henvironment
  obtain ⟨hpositions, -⟩ := ControlOp.ledgers_exec now db
    (.writeRuntimeEnvironment environment reason source)
  cases c with
  | nothing => trivial
  | paused => exact hpaused.trans h
  | positions =>
    refine ⟨hpaused.trans h.1, ?_⟩
    rw [Database.hasOpenPosition, hpositions]
    exact h.2
  | orders => exact NothingLive.written h _ _ _ _
  | unchanged environment' =>
    refine ⟨hpaused.trans h.1, ?_⟩
    rcases h.2 with hsame | hquiet
    · by_cases hchange : environment ≠ db.getRuntimeControl.environment
      · exact .inr ((hready hchange).written _ _ _ _)
      · exact .inl (hwritten.trans ((not_not.mp hchange).trans hsame))
    · exact .inr (hquiet.written _ _ _ _)

theorem safe_write {environment reason source : String} (henvironment : environment ≠ "")
    (hw : Ready i environment w) :
    SwitchSafe i (callAt (.writeRuntimeEnvironment environment reason source) .checkEnds)
      (fun _ _ => True) w := by
  refine Command.safe_callAt (ready_stable environment) (fun _ _ _ h => h) ?_ hw
  intro w b w' hready _ hsem
  obtain ⟨now, changed, -, -, rfl, rfl⟩ | ⟨e, rfl, rfl⟩ := hsem
  · refine ⟨trivial, ⟨fun k hk => Function.update_of_ne hk _ _, fun k hk h => ?_, fun hchange => ?_⟩,
      fun _ _ => trivial⟩
    · exact Finding.written henvironment hready.nothingLive h
    · apply hready.nothingLive
      intro hsame
      apply hchange
      rw [ControlOp.environment_exec]
      exact (if_neg henvironment).trans hsame
  · exact ⟨trivial, .noted _ _ _, fun _ _ => trivial⟩

theorem safe_setRuntimeEnvironment (environment reason source : String) :
    SwitchSafe i (setRuntimeEnvironment environment reason source) (fun _ _ => True) w := by
  have hraise : ∀ {α : Type} (e : Exn) (w : SwitchWorld),
      SwitchSafe i (throw e : Command α) (fun _ _ => True) w :=
    fun _ _ => Raising.SafeE.throw fun _ _ => trivial
  unfold setRuntimeEnvironment
  refine Raising.SafeE.ite (fun _ => hraise _ _) fun hknown => ?_
  have henvironment : environment ≠ "" := by
    rintro rfl
    exact hknown ⟨by decide, by decide⟩
  refine Raising.SafeE.ite (fun _ => hraise _ _) fun _ => ?_
  refine (safe_readControl environment).seq fun stored w hstage => ?_
  refine Raising.SafeE.ite (fun _ => hraise _ _) fun hpaused => ?_
  refine (safe_checkChange (hstage (by simpa using hpaused))).seq fun _ w hready => ?_
  exact (safe_write henvironment hready).seq fun _ _ _ => Raising.SafeE.pure fun _ _ => trivial

end Steps

/-! ### Every run -/

theorem switch_contract :
    (switchSystem KeepsFindings).Contract (fun _ => True) (fun _ => True) SwitchStep where
  init := fun _ _ => trivial
  env := fun _ _ _ _ => trivial
  spawn := by
    rintro i pool q - ⟨environment, reason, source, rfl⟩
    exact Prog.Safe.bind (Prog.Safe.mono (safe_setRuntimeEnvironment environment reason source)
      fun _ _ _ _ _ => trivial)

/-- **The environment changes while nothing is live**, in every run in which no other
    connection undoes what a running call has checked. -/
theorem environment_changes_while_nothing_live (pool next : Pool control SwitchWorld)
    (h : (switchSystem KeepsFindings).Reachable (fun _ => True) pool)
    (hstep : (switchSystem KeepsFindings).Step pool next)
    (hchange : next.store.db.getRuntimeControl.environment ≠
      pool.store.db.getRuntimeControl.environment) :
    NothingLive pool.store.db := by
  rcases System.reachable_step switch_contract h hstep with hsame | henv | ⟨i, hswitch⟩
  · rw [hsame] at hchange
    exact absurd rfl hchange
  · exact absurd henv.2.1 hchange
  · exact hswitch.quiet hchange

namespace SwitchRace

def replies : ControlReplies where
  now := ⟨63828000000000000, some 0⟩
  challengeCode := "A1B2C3D4"
  api := fun _ => .ok []
  raises := fun _ _ => none

def handler : (o : ControlAct) → SwitchWorld → o.Reply × SwitchWorld :=
  watchedHandler Checks.record replies 0

def world : SwitchWorld := ⟨.empty, fun _ => .nothing⟩

/-- The call up to its write. -/
def checked : Prog control Unit × SwitchWorld :=
  Prog.advance handler 3 (Command.detached (setRuntimeEnvironment "real" "switch" "cli"), world)

/-- The service resumes. -/
def resumed : SwitchWorld :=
  ⟨(ControlOp.setRuntimePaused false "service startup" "service").exec replies.now checked.2.db,
    checked.2.seen⟩

def procs : Nat → Option (Prog control Unit) :=
  Function.update (fun _ => none) 0 (some checked.1)

theorem procs_zero : procs 0 = some checked.1 := Function.update_self ..

def written (w : SwitchWorld) : Pool control SwitchWorld :=
  ⟨(Prog.advance handler 1 (checked.1, w)).2,
    Function.update procs 0 (some (Prog.advance handler 1 (checked.1, w)).1)⟩

section

variable (ok : SwitchWorld → SwitchWorld → Prop)

theorem checked_reachable : (switchSystem ok).Reachable (fun _ => True) ⟨checked.2, procs⟩ := by
  have hinit : (switchSystem ok).Reachable (fun _ => True) ⟨world, fun _ => none⟩ := .init trivial
  have hstart := hinit.step (.start (i := 0) rfl ⟨"real", "switch", "cli", rfl⟩)
  have hrun := hstart.steps (System.steps_advance (watchedHandler_sem Checks.record
    (fun _ _ _ _ => True) replies 0) 3 (Function.update_self ..)
    (by rw [callMeetsAt_true]; exact .always _ _ _))
  rwa [Function.update_idem] at hrun

theorem written_step (w : SwitchWorld)
    (hchange : (written w).store.db.getRuntimeControl.environment ≠
      w.db.getRuntimeControl.environment) :
    (switchSystem ok).Step ⟨w, procs⟩ (written w) := by
  refine System.step_advance (watchedHandler_sem Checks.record (fun _ _ _ _ => True) replies 0)
    procs_zero (by rw [callMeetsAt_true]; exact .always _ _ _) fun hsame => ?_
  exact hchange (congrArg (fun w : SwitchWorld => w.db.getRuntimeControl.environment) hsame)

end

theorem written_changes : (written checked.2).store.db.getRuntimeControl.environment ≠
    checked.2.db.getRuntimeControl.environment := by
  decide +kernel

/-- A switch that nobody disturbs. -/
theorem environment_changes_once :
    (written checked.2).store.db.getRuntimeControl.environment ≠
      checked.2.db.getRuntimeControl.environment ∧ NothingLive checked.2.db :=
  ⟨written_changes, environment_changes_while_nothing_live ⟨checked.2, procs⟩ (written checked.2)
    (checked_reachable _) (written_step _ _ written_changes) written_changes⟩

/-- The service resumes between the checks of a switch and its write. -/
theorem switch_raced :
    ¬ ∀ pool next : Pool control SwitchWorld,
      (switchSystem fun _ _ => True).Reachable (fun _ => True) pool →
      (switchSystem fun _ _ => True).Step pool next →
      next.store.db.getRuntimeControl.environment ≠ pool.store.db.getRuntimeControl.environment →
      NothingLive pool.store.db := by
  intro hall
  have hchanges : (written resumed).store.db.getRuntimeControl.environment ≠
      resumed.db.getRuntimeControl.environment := by decide +kernel
  have hresume : (switchSystem fun _ _ => True).Step ⟨checked.2, procs⟩ ⟨resumed, procs⟩ :=
    .env ⟨rfl, ControlOp.environment_exec _ _ _, trivial⟩
  have hquiet := hall _ _ ((checked_reachable _).step hresume) (written_step _ _ hchanges) hchanges
  have hpaused : resumed.db.getRuntimeControl.paused = false := by decide +kernel
  exact Bool.false_ne_true (hpaused.symm.trans hquiet.paused)

end SwitchRace

end AutoTrader
