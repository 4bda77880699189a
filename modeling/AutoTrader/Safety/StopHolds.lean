/-
  AutoTrader/Safety/StopHolds.lean
  ================================
  **An emergency stop holds the runtime paused.**

  A tick of the service reads the pause row and the two flags one after the other and
  then writes its resume.  A stop that lands in between is undone by that write, and so
  is a stop whose writes mix with those of a clearing.  `stop_holds` says that nothing
  else undoes it: where no resume is written over a stop that is set, and no clearing
  writes into a stop, the runtime is paused from the last write of a stop to the last
  write of the next clearing.
-/
import AutoTrader.Pipeline.Control

namespace AutoTrader

open Transactional Interleave Command

/-! ### The processes -/

inductive StopProcess where
  | pause
  | emergencyStop
  | clearEmergency
  | resume (host : Host) (reason : String)
  | tick (startup : Bool)

def StopProcess.program : StopProcess → Prog control Unit
  | .pause => Command.detached pauseCommand
  | .emergencyStop => Command.detached emergencyStopCommand
  | .clearEmergency => Command.detached clearEmergencyCommand
  | .resume host reason => Command.detached (resumeCommand host reason)
  | .tick startup => Command.detached (syncServiceRuntime startup)

/-- What the marks say: a stop has completed and no clearing since; a clearing of it has
    begun and not ended; a clearing wrote since the stop of a process began. -/
structure StopWatch where
  stopped : Bool
  half : Bool
  touched : Nat → Bool

def StopWatch.fresh : StopWatch := ⟨false, false, fun _ => true⟩

def StopWatch.record (i : Nat) : Mark → StopWatch → StopWatch
  | .stopBegins, g => { g with half := false, touched := Function.update g.touched i false }
  | .stopEnds, g => { g with stopped := true }
  | .clearBegins, g => { g with half := g.stopped, touched := fun _ => true }
  | .clearEnds, _ => ⟨false, false, fun _ => true⟩
  | .within, g => g
  | .checkBegins, g => g
  | .checkUnchanged _, g => g
  | .positionsChecked, g => g
  | .ordersChecked, g => g
  | .checkEnds, g => g
  | .confirmed, g => g
  | .raised, g => g

abbrev StopWorld := Watched StopWatch

def Database.stopText (db : Database) : Option String := db.metadataText telegramEmergencyStopKey

/-- A change that neither resumes the runtime nor touches Telegram's stop. -/
structure LeavesStop (db db' : Database) : Prop where
  text : db'.stopText = db.stopText
  paused : db.getRuntimeControl.paused = true → db'.getRuntimeControl.paused = true

/-- The commands and ticks in any interleaving; everything else leaves the stop alone. -/
def stopSystem (ok : Nat → ControlOp → Mark → StopWorld → Prop) : System control StopWorld where
  sem := controlSem StopWatch.record ok
  env w w' := w'.seen = w.seen ∧ LeavesStop w.db w'.db
  spawn _ _ q := ∃ process : StopProcess, q = process.program

/-- A resume of a tick or of `/resume` finds no stop set and none half cleared; a stop
    completes only when no clearing wrote since it began. -/
def RaceFree (i : Nat) : ControlOp → Mark → StopWorld → Prop
  | .setRuntimePaused false _ _, .within, w =>
    w.db.stopText ≠ some "true" ∧ w.seen.half = false
  | _, .stopEnds, w => w.seen.touched i = false
  | _, _, _ => True

/-! ### What the steps keep -/

/-- A stop in force is seen in the pause flag, and in the key or in the clearing that
    is on its way. -/
def StopInv (w : StopWorld) : Prop :=
  w.seen.stopped = true → w.db.getRuntimeControl.paused = true ∧
    (w.db.stopText = some "true" ∨ w.seen.half = true)

/-- The stop of process `i` has set the key. -/
def StopSet (i : Nat) (w : StopWorld) : Prop :=
  w.seen.touched i = false → w.db.stopText = some "true"

/-- The stop of process `i` has paused the runtime as well. -/
def StopPaused (i : Nat) (w : StopWorld) : Prop :=
  w.seen.touched i = false →
    w.db.stopText = some "true" ∧ w.db.getRuntimeControl.paused = true

/-- The step does not interfere with the stop of process `i`. -/
structure SparesStop (i : Nat) (w w' : StopWorld) : Prop where
  set : StopSet i w → StopSet i w'
  paused : StopPaused i w → StopPaused i w'

/-- What process `j` promises the others. -/
def SparesOthers (j : Nat) (w w' : StopWorld) : Prop := ∀ i, i ≠ j → SparesStop i w w'

section Steps

variable {w w' : StopWorld}

theorem StopInv.of_leaves (h : StopInv w) (hseen : w'.seen = w.seen)
    (hdb : LeavesStop w.db w'.db) : StopInv w' := by
  intro hstopped
  rw [hseen] at hstopped
  obtain ⟨hpaused, hset⟩ := h hstopped
  refine ⟨hdb.paused hpaused, ?_⟩
  rw [hdb.text, hseen]
  exact hset

theorem SparesStop.of_leaves (i : Nat) (hseen : w'.seen = w.seen)
    (hdb : LeavesStop w.db w'.db) : SparesStop i w w' := by
  constructor
  · intro h htouched
    rw [hdb.text]
    exact h (by rw [← hseen]; exact htouched)
  · intro h htouched
    obtain ⟨hset, hpaused⟩ := h (by rw [← hseen]; exact htouched)
    exact ⟨hdb.text.trans hset, hdb.paused hpaused⟩

/-- After a clearing wrote, no stop is expected to hold. -/
theorem SparesStop.of_touched (i : Nat) (h : w'.seen.touched i = true) : SparesStop i w w' := by
  constructor
  · intro _ htouched
    rw [h] at htouched
    cases htouched
  · intro _ htouched
    rw [h] at htouched
    cases htouched

/-- A write of metadata under another key. -/
theorem leavesStop_setRuntimeMetadata (now : DateTime) (db : Database) {key : String}
    (value : String) (hkey : key ≠ telegramEmergencyStopKey) :
    LeavesStop db ((ControlOp.setRuntimeMetadata key value).exec now db) := by
  constructor
  · rw [Database.stopText, ControlOp.metadataText_exec]
    exact if_neg fun h => hkey h.1
  · rw [ControlOp.paused_exec]
    exact id

theorem leavesStop_pause (now : DateTime) (db : Database) (reason source : String) :
    LeavesStop db ((ControlOp.setRuntimePaused true reason source).exec now db) := by
  constructor
  · rw [Database.stopText, ControlOp.metadataText_exec]
    rfl
  · rw [ControlOp.paused_exec]
    intro h
    dsimp only
    split
    · rfl
    · exact h

theorem LeavesStop.rfl' {db : Database} : LeavesStop db db := ⟨rfl, id⟩

/-- An action that cannot matter to a stop. -/
def ControlAct.quiet : ControlAct → Prop
  | .read _ mark => ∀ b, mark b = .within
  | .call (.setRuntimeMetadata key _) mark => key ≠ telegramEmergencyStopKey ∧ mark = .within
  | .call (.setRuntimePaused paused _ _) mark => paused = true ∧ mark = .within
  | .call .. => False
  | _ => True

/-- A resume, or a write of a clearing. -/
def ControlAct.frees : ControlAct → Prop
  | .call (.setRuntimeMetadata key value) mark =>
    key = telegramEmergencyStopKey ∧ value = "false" ∧ mark = .clearBegins
  | .call (.setRuntimePaused paused _ _) mark =>
    paused = false ∧ (mark = .within ∨ mark = .clearEnds)
  | _ => False

variable {i : Nat} {o : ControlAct} {b : o.Reply}

theorem quiet_leaves (ho : o.quiet) (hsem : controlSem StopWatch.record RaceFree i o w b w') :
    w'.seen = w.seen ∧ LeavesStop w.db w'.db := by
  cases o with
  | read query mark =>
    obtain ⟨-, rfl⟩ := hsem
    rw [ho]
    exact ⟨rfl, .rfl'⟩
  | call op mark =>
    obtain ⟨now, changed, -, -, -, rfl⟩ | ⟨e, -, rfl⟩ := hsem
    · cases op with
      | setRuntimeMetadata key value =>
        obtain ⟨hkey, rfl⟩ := ho
        exact ⟨rfl, leavesStop_setRuntimeMetadata now w.db value hkey⟩
      | setRuntimePaused paused reason source =>
        obtain ⟨rfl, rfl⟩ := ho
        exact ⟨rfl, leavesStop_pause now w.db reason source⟩
      | writeRuntimeEnvironment | resolveApprovalRequest | addWatchlistSymbol
      | setWatchlistEnabled => exact ho.elim
    · exact ⟨rfl, .rfl'⟩
  | utcnow | challengeCode | api | handles =>
    obtain rfl := hsem
    exact ⟨rfl, .rfl'⟩

/-- A resume outside a stop, and the writes of a clearing. -/
theorem frees_step (ho : o.frees) (hinv : StopInv w)
    (hsem : controlSem StopWatch.record RaceFree i o w b w') :
    StopInv w' ∧ ∀ k, SparesStop k w w' := by
  have hsame : StopInv w ∧ ∀ k, SparesStop k w w := ⟨hinv, fun k => .of_leaves k rfl .rfl'⟩
  cases o with
  | call op mark =>
    obtain ⟨now, changed, hok, -, -, rfl⟩ | ⟨e, -, rfl⟩ := hsem
    · cases op with
      | setRuntimeMetadata key value =>
        -- the first write of a clearing: the runtime stays paused, the clearing is on its way
        obtain ⟨rfl, rfl, rfl⟩ := ho
        refine ⟨fun hstopped => ⟨?_, .inr hstopped⟩, fun k => .of_touched k rfl⟩
        rw [ControlOp.paused_exec]
        exact (hinv hstopped).1
      | setRuntimePaused paused reason source =>
        obtain ⟨rfl, rfl | rfl⟩ := ho
        · -- a resume: no stop is in force, and none is expected to hold
          obtain ⟨htext, hhalf⟩ := hok
          have hnot : w.seen.stopped = false := by
            by_contra hstopped
            rcases (hinv (by simpa using hstopped)).2 with hset | hset
            · exact htext hset
            · rw [hhalf] at hset
              cases hset
          refine ⟨fun hstopped => ?_, fun k => ⟨fun h htouched => ?_, fun h htouched => ?_⟩⟩
          · have hstopped' : w.seen.stopped = true := hstopped
            rw [hnot] at hstopped'
            cases hstopped'
          · exact absurd (h htouched) htext
          · exact absurd (h htouched).1 htext
        · -- the last write of a clearing
          exact ⟨nofun, fun k => .of_touched k rfl⟩
      | writeRuntimeEnvironment | resolveApprovalRequest | addWatchlistSymbol
      | setWatchlistEnabled => exact ho.elim
    · exact hsame
  | read | utcnow | challengeCode | api | handles => exact ho.elim

end Steps

/-! ### The stop programs -/

/-- What the other processes and the rest of the system may do meanwhile. -/
def stopRely (i : Nat) : StopWorld → StopWorld → Prop :=
  (stopSystem RaceFree).rely StopInv SparesOthers i

abbrev StopSafe (i : Nat) {α : Type} (p : Command α) (Q : StopWorld → Prop) (w : StopWorld) : Prop :=
  Raising.SafeE (controlSem StopWatch.record RaceFree i) StopInv (stopRely i) (SparesOthers i) p
    (fun _ => Q) (fun _ _ => True) w

theorem stopRely_spares {i : Nat} {w w' : StopWorld} (h : stopRely i w w') : SparesStop i w w' := by
  obtain ⟨-, -, ⟨hseen, hdb⟩ | ⟨j, hj, hothers⟩⟩ := h
  · exact .of_leaves i hseen hdb
  · exact hothers i (Ne.symm hj)

section Stops

variable {i : Nat} {w : StopWorld}

theorem stopSet_stable (w w' : StopWorld) (h : stopRely i w w') : StopSet i w → StopSet i w' :=
  (stopRely_spares h).set

theorem stopPaused_stable (w w' : StopWorld) (h : stopRely i w w') :
    StopPaused i w → StopPaused i w' :=
  (stopRely_spares h).paused

theorem StopSafe.bind {α β : Type} {p : Command α} {f : α → Command β} {R Q : StopWorld → Prop}
    (hp : StopSafe i p R w) (hf : ∀ a w, R w → StopSafe i (f a) Q w) : StopSafe i (p >>= f) Q w :=
  Raising.SafeE.seq hp hf

theorem StopSafe.pure {α : Type} (a : α) : StopSafe i (pure a) (fun _ => True) w :=
  Raising.SafeE.pure fun _ _ => trivial

/-- Programs of quiet actions keep what a stop has reached. -/
theorem safe_quiet {R : StopWorld → Prop} (hR : ∀ w w', stopRely i w w' → R w → R w')
    (hleaves : ∀ w w' : StopWorld, w'.seen = w.seen → LeavesStop w.db w'.db → R w → R w')
    {α : Type} {p : Command α} (hp : Does ControlAct.quiet p) (hw : R w) : StopSafe i p R w := by
  refine (Raising.Keeps.of_only hR ?_ hp w hw).mono (fun _ _ h => h) fun _ _ _ => trivial
  intro o ho w b w' hRw hinv hsem
  obtain ⟨hseen, hdb⟩ := quiet_leaves ho hsem
  exact ⟨hinv.of_leaves hseen hdb, fun k _ => .of_leaves k hseen hdb, hleaves w w' hseen hdb hRw⟩

/-- The first write of a stop. -/
theorem safe_stopBegins :
    StopSafe i (setMetadata telegramEmergencyStopKey "true" .stopBegins) (StopSet i) w := by
  refine StopSafe.bind (Command.safe_callAt (R := fun _ => True) (fun _ _ _ h => h) stopSet_stable ?_ trivial)
    fun _ w h => Raising.SafeE.pure fun w' hw' => Raising.Keeps.stable stopSet_stable hw' h
  intro w b w' _ hinv hsem
  obtain ⟨now, changed, -, -, rfl, rfl⟩ | ⟨e, rfl, rfl⟩ := hsem
  · have htext : ((ControlOp.setRuntimeMetadata telegramEmergencyStopKey "true").exec now
        w.db).stopText = some "true" := by
      rw [Database.stopText, ControlOp.metadataText_exec]
      exact if_pos ⟨rfl, by decide⟩
    have hpaused : ((ControlOp.setRuntimeMetadata telegramEmergencyStopKey "true").exec now
        w.db).getRuntimeControl.paused = w.db.getRuntimeControl.paused :=
      ControlOp.paused_exec now w.db _
    refine ⟨fun hstopped => ⟨hpaused.trans (hinv hstopped).1, .inl htext⟩, fun k hk => ?_, ?_⟩
    · -- the stop of another process keeps its own mark, and the key is set
      have htouched : Function.update w.seen.touched i false k = w.seen.touched k :=
        Function.update_of_ne hk _ _
      refine ⟨fun _ _ => htext, fun h hnot => ⟨htext, hpaused.trans (h ?_).2⟩⟩
      rw [← htouched]
      exact hnot
    · exact fun _ _ _ => htext
  · exact ⟨hinv, fun k _ => .of_leaves k rfl .rfl', nofun⟩

/-- The pause of a stop. -/
theorem safe_stopPauses {reason source : String} (hgiven : reason ≠ "" ∧ source ≠ "")
    (hw : StopSet i w) : StopSafe i (setPaused true reason source .within) (StopPaused i) w := by
  refine StopSafe.bind (Command.safe_callAt stopSet_stable stopPaused_stable ?_ hw)
    fun _ w h => Raising.SafeE.pure fun w' hw' => Raising.Keeps.stable stopPaused_stable hw' h
  intro w b w' hset hinv hsem
  obtain ⟨hseen, hdb⟩ := quiet_leaves (o := .call (.setRuntimePaused true reason source) .within)
    ⟨rfl, rfl⟩ hsem
  refine ⟨hinv.of_leaves hseen hdb, fun k _ => .of_leaves k hseen hdb, ?_⟩
  obtain ⟨now, changed, -, -, rfl, rfl⟩ | ⟨e, rfl, rfl⟩ := hsem
  · intro _ _ htouched
    refine ⟨hdb.text.trans (hset htouched), ?_⟩
    rw [ControlOp.paused_exec]
    simp [hgiven]
  · exact nofun

/-- The last write of a stop: no clearing wrote since its first one, so it is in force. -/
theorem safe_stopEnds {key value : String} (hkey : key ≠ telegramEmergencyStopKey)
    (hw : StopPaused i w) : StopSafe i (setMetadata key value .stopEnds) (fun _ => True) w := by
  refine StopSafe.bind (R := fun _ => True)
    (Command.safe_callAt stopPaused_stable (fun _ _ _ h => h) ?_ hw) fun _ _ _ => StopSafe.pure _
  intro w b w' hpaused hinv hsem
  obtain ⟨now, changed, hok, -, rfl, rfl⟩ | ⟨e, rfl, rfl⟩ := hsem
  · have hdb := leavesStop_setRuntimeMetadata now w.db value hkey
    obtain ⟨hset, hrunning⟩ := hpaused hok
    refine ⟨fun _ => ⟨hdb.paused hrunning, .inl (hdb.text.trans hset)⟩, fun k _ => ⟨?_, ?_⟩,
      fun _ _ => trivial⟩
    · exact fun h htouched => hdb.text.trans (h htouched)
    · exact fun h htouched => ⟨hdb.text.trans (h htouched).1, hdb.paused (h htouched).2⟩
  · exact ⟨hinv, fun k _ => .of_leaves k rfl .rfl', fun _ _ => trivial⟩

theorem quiet_reads : AllowsReads ControlAct.quiet := ⟨fun _ _ => rfl, trivial⟩

theorem safe_pauseCommand : StopSafe i pauseCommand (fun _ => True) w := by
  unfold pauseCommand
  refine safe_stopBegins.bind fun _ w hset => ?_
  refine (safe_stopPauses (by decide) hset).bind fun _ w hpaused => ?_
  refine StopSafe.bind (R := fun _ => True) ?_ fun _ _ _ => StopSafe.pure _
  unfold requestOpenBuyCancellation
  refine (safe_quiet stopPaused_stable (fun w w' hseen hdb => (SparesStop.of_leaves i hseen hdb).paused)
    (does_query quiet_reads _) hpaused).bind fun _ w hpaused => ?_
  exact (safe_stopEnds (by decide) hpaused).bind fun _ _ _ => StopSafe.pure _

theorem safe_emergencyStopCommand : StopSafe i emergencyStopCommand (fun _ => True) w := by
  have hkeep : ∀ w w' : StopWorld, w'.seen = w.seen → LeavesStop w.db w'.db →
      StopPaused i w → StopPaused i w' :=
    fun w w' hseen hdb => (SparesStop.of_leaves i hseen hdb).paused
  unfold emergencyStopCommand
  refine safe_stopBegins.bind fun _ w hset => ?_
  refine (safe_stopPauses (by decide) hset).bind fun _ w hpaused => ?_
  refine (safe_quiet stopPaused_stable hkeep (does_requestOpenBuyCancellation quiet_reads _
    fun _ => ⟨by decide, rfl⟩) hpaused).bind fun _ w hpaused => ?_
  refine (safe_quiet stopPaused_stable hkeep (does_setMetadata ⟨by decide, rfl⟩) hpaused).bind
    fun _ w hpaused => ?_
  exact (safe_stopEnds (by decide) hpaused).bind fun _ _ _ => StopSafe.pure _

end Stops

/-! ### Every run -/

/-- The other programs: quiet actions, resumes and clearings. -/
theorem does_other (P : ControlAct → Prop) (hP : ∀ o : ControlAct, o.quiet ∨ o.frees → P o) :
    Does P clearEmergencyCommand ∧ (∀ host reason, Does P (resumeCommand host reason)) ∧
      ∀ startup, Does P (syncServiceRuntime startup) := by
  have hreads : AllowsReads P := ⟨fun _ => hP _ (.inl fun _ => rfl), hP _ (.inl trivial)⟩
  have hkey : ∀ key value, key ≠ telegramEmergencyStopKey →
      P (.call (.setRuntimeMetadata key value) .within) :=
    fun _ _ hkey => hP _ (.inl ⟨hkey, rfl⟩)
  have hresume : ∀ reason source, P (.call (.setRuntimePaused false reason source) .within) :=
    fun _ _ => hP _ (.inr ⟨rfl, .inl rfl⟩)
  refine ⟨?_, fun host reason => ?_, fun startup => ?_⟩
  · exact does_clearEmergencyCommand hreads (fun _ => hkey _ _ (by decide))
      (hP _ (.inr ⟨rfl, rfl, rfl⟩)) (hkey _ _ (by decide)) (hP _ (.inr ⟨rfl, .inr rfl⟩))
  · exact does_resumeCommand hreads host reason (fun _ => hkey _ _ (by decide)) (hresume _ _)
  · exact does_syncServiceRuntime hreads startup (hP _ (.inl ⟨rfl, rfl⟩)) fun _ => hresume _ _

theorem stop_contract :
    (stopSystem RaceFree).Contract (fun w => w.seen = .fresh) StopInv SparesOthers where
  init := by
    intro w hw hstopped
    rw [hw] at hstopped
    cases hstopped
  env := fun w w' h hs => h.of_leaves hs.1 hs.2
  spawn := by
    rintro i pool q - ⟨process, rfl⟩
    have hdetached : ∀ {α : Type} {p : Command α}, StopSafe i p (fun _ => True) pool.store →
        (Command.detached p).Safe (controlSem StopWatch.record RaceFree i) StopInv (stopRely i)
          (SparesOthers i) (fun _ _ => True) pool.store :=
      fun hp => Prog.Safe.bind (Prog.Safe.mono hp fun _ _ _ _ _ => trivial)
    have hother : ∀ {α : Type} {p : Command α}, Does (fun o => o.quiet ∨ o.frees) p →
        (Command.detached p).Safe (controlSem StopWatch.record RaceFree i) StopInv (stopRely i)
          (SparesOthers i) (fun _ _ => True) pool.store := by
      intro α p hp
      refine Prog.Safe.of_only (R := fun _ => True) (fun _ _ _ h => h) ?_ hp.detached trivial
      rintro o (hquiet | hfrees) w b w' - hinv hsem
      · obtain ⟨hseen, hdb⟩ := quiet_leaves hquiet hsem
        exact ⟨hinv.of_leaves hseen hdb, fun k _ => .of_leaves k hseen hdb, trivial⟩
      · obtain ⟨hinv', hspares⟩ := frees_step hfrees hinv hsem
        exact ⟨hinv', fun k _ => hspares k, trivial⟩
    obtain ⟨hclear, hresume, htick⟩ := does_other (fun o => o.quiet ∨ o.frees) fun _ h => h
    cases process with
    | pause => exact hdetached safe_pauseCommand
    | emergencyStop => exact hdetached safe_emergencyStopCommand
    | clearEmergency => exact hother hclear
    | resume host reason => exact hother (hresume host reason)
    | tick startup => exact hother (htick startup)

/-- **A stop holds the runtime paused** in every run of commands and ticks in which no
    resume is written over a stop that is set or half cleared, and no stop completes
    over the writes of a clearing. -/
theorem stop_holds (pool : Pool control StopWorld)
    (h : (stopSystem RaceFree).Reachable (fun w => w.seen = .fresh) pool)
    (hstopped : pool.store.seen.stopped = true) :
    pool.store.db.getRuntimeControl.paused = true :=
  (System.reachable_inv stop_contract h hstopped).1

namespace StopRace

instance raceFree_decidable (i : Nat) :
    (op : ControlOp) → (mark : Mark) → (w : StopWorld) → Decidable (RaceFree i op mark w) := by
  intro op mark w
  unfold RaceFree
  split <;> infer_instance

instance callMeetsAt_decidable (i : Nat) :
    (o : ControlAct) → (w : StopWorld) → Decidable (callMeetsAt RaceFree i o w)
  | .call op mark, w => inferInstanceAs (Decidable (RaceFree i op mark w))
  | .read .., _ => .isTrue trivial
  | .utcnow, _ => .isTrue trivial
  | .challengeCode, _ => .isTrue trivial
  | .api _, _ => .isTrue trivial
  | .handles _, _ => .isTrue trivial

def replies : ControlReplies where
  now := ⟨63828000000000000, some 0⟩
  challengeCode := "A1B2C3D4"
  api := fun _ => .ok []
  raises := fun _ _ => none

def handler (i : Nat) : (o : ControlAct) → StopWorld → o.Reply × StopWorld :=
  watchedHandler StopWatch.record replies i

def world : StopWorld := ⟨.empty, .fresh⟩

/-- A process from start to end. -/
def run (i : Nat) (process : StopProcess) (w : StopWorld) : StopWorld :=
  (Prog.advance (handler i) 12 (process.program, w)).2

theorem run_reachable (process : StopProcess) {w : StopWorld}
    (h : (stopSystem RaceFree).Reachable (fun w => w.seen = .fresh) ⟨w, fun _ => none⟩)
    (hm : Prog.Meets (callMeetsAt RaceFree 0) (handler 0) 12 (process.program, w)) :
    (stopSystem RaceFree).Reachable (fun w => w.seen = .fresh) ⟨run 0 process w, fun _ => none⟩ :=
  h.steps (System.steps_excursion (i := 0) (watchedHandler_sem _ _ replies 0) 12 rfl ⟨process, rfl⟩ hm)

/-- A stop, then the start of the service. -/
theorem stop_holds_at_start :
    (run 0 (.tick true) (run 0 .pause world)).seen.stopped = true ∧
    (run 0 (.tick true) (run 0 .pause world)).db.getRuntimeControl.paused = true := by
  have hpause := run_reachable .pause (.init rfl) (w := world) (by decide +kernel)
  have htick := run_reachable (.tick true) hpause (by decide +kernel)
  have hstopped : (run 0 (.tick true) (run 0 .pause world)).seen.stopped = true := by decide +kernel
  exact ⟨hstopped, stop_holds _ htick hstopped⟩

/-- The tick up to its resume. -/
def tick : Prog control Unit × StopWorld :=
  Prog.advance (handler 0) 3 ((StopProcess.tick false).program, world)

/-- The tick after a whole `/pause` in between. -/
def raced : Prog control Unit × StopWorld :=
  Prog.advance (handler 0) 1 (tick.1, run 1 .pause tick.2)

/-- A tick that read the row and the flags before the stop resumes the runtime after it. -/
theorem stop_raced :
    ¬ ∀ pool : Pool control StopWorld,
      (stopSystem fun _ _ _ _ => True).Reachable (fun w => w.seen = .fresh) pool →
      pool.store.seen.stopped = true → pool.store.db.getRuntimeControl.paused = true := by
  intro hall
  have hmeets : ∀ (i n : Nat) (c : Prog control Unit × StopWorld),
      Prog.Meets (callMeetsAt (fun _ _ _ _ => True) i) (handler i) n c := by
    intro i n c
    rw [callMeetsAt_true]
    exact .always _ _ _
  have hsem : ∀ i o w, callMeetsAt (fun _ _ _ _ => True) i o w →
      (stopSystem fun _ _ _ _ => True).sem i o w (handler i o w).1 (handler i o w).2 :=
    fun i => watchedHandler_sem _ _ replies i
  have hfresh : (stopSystem fun _ _ _ _ => True).Reachable (fun w => w.seen = .fresh)
      ⟨world, fun _ => none⟩ := .init rfl
  have hstart := hfresh.step (.start (i := 0) rfl ⟨.tick false, rfl⟩)
  have htick := hstart.steps (System.steps_advance (hsem 0) 3 (Function.update_self ..) (hmeets 0 3 _))
  have hpause := htick.steps (System.steps_excursion (i := 1) (hsem 1) 12 rfl ⟨.pause, rfl⟩
    (hmeets 1 12 _))
  have hraced := hpause.steps (System.steps_advance (hsem 0) 1 (Function.update_self ..) (hmeets 0 1 _))
  have hresumed : raced.2.seen.stopped = true ∧ raced.2.db.getRuntimeControl.paused = false := by
    decide +kernel
  have hpaused := hall _ hraced hresumed.1
  have hsame : raced.2.db.getRuntimeControl.paused = true := hpaused
  rw [hresumed.2] at hsame
  cases hsame

end StopRace

end AutoTrader
