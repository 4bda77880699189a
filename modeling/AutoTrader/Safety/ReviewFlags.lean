/-
  AutoTrader/Safety/ReviewFlags.lean
  ==================================
  **Who clears `operator_review` and `block_new_entries`.**

  Notices and cycles only raise the two flags.  A supervisor pass writes both from
  its conclusion, in `_finish` and at its end, whatever was written since it took
  its snapshot.  So a block that is raised during a pass stays until a pass writes
  the conclusion that nothing needs a review, and a pass that draws it from a
  snapshot of before the block wipes the block out.
-/
import AutoTrader.Pipeline.Alphabet
import AutoTrader.Safety.Headers

namespace AutoTrader

open Relational Transactional Interleave

/-- The flag is up. -/
def FlagTrue (key : String) (db : Database) : Prop := db.getRuntimeMetadata key = some (.text "true")

instance (key : String) (db : Database) : Decidable (FlagTrue key db) :=
  inferInstanceAs (Decidable (_ = _))

/-- A call that lowers the flag. -/
def Op.clears (key : String) : Op → Prop
  | .setRuntimeMetadata _ key' value _ => key' = key ∧ value ≠ .text "true"
  | _ => False

/-- The process is a supervisor pass. -/
def Process.isSupervisor : Process → Prop
  | .supervisor .. => True
  | _ => False

/-- Cycles, notices and supervisor passes in any interleaving, each number one
    process that may be started again; every call of a process meets `condition`.
    Everything else leaves a raised flag raised. -/
def flagSystem (processes : Nat → Process) (condition : Process → Op → Prop) :
    System trading Database where
  sem i := ledgerSem fun op _ => condition (processes i) op
  env db db' := ∀ key ∈ reviewKeys, FlagTrue key db → FlagTrue key db'
  spawn i _ q := q = (processes i).program

/-- A supervisor pass does not write the conclusion that there is nothing to review. -/
def NotCleared (key : String) (process : Process) (op : Op) : Prop :=
  process.isSupervisor → ¬ op.clears key

/-- A notice or a cycle raises the flag: a step of `apply_fill_notice` that blocks, or
    of the exit path after `max_exit_requotes`. -/
structure RaisesFlag (processes : Nat → Process) (key : String) (pool next : Pool trading Database) :
    Prop where
  step : ∃ i now updatedAt k, ¬ (processes i).isSupervisor ∧
    pool.procs i = some (.act (.call (.setRuntimeMetadata now key (.text "true") updatedAt)) k) ∧
    next = ⟨(Op.setRuntimeMetadata now key (.text "true") updatedAt).exec pool.store,
      Function.update pool.procs i
        (some (k ((Op.setRuntimeMetadata now key (.text "true") updatedAt).call pool.store).1))⟩

/-! ### Only supervisor passes lower a flag -/

theorem Op.exec_flag {op : Op} {key : String} (hop : ¬ op.clears key) {db : Database}
    (h : FlagTrue key db) : FlagTrue key (op.exec db) := by
  cases op with
  | setRuntimeMetadata now key' value at' =>
    by_cases hkey : key' = key
    · have hvalue : value = .text "true" := by
        by_contra hvalue
        exact hop ⟨hkey, hvalue⟩
      subst hkey hvalue
      rcases setRuntimeMetadata_cases now key' (.text "true") at' db with ⟨e, hr⟩ | hr
      · simp only [Op.exec, Op.call, Op.run, hr]
        exact h
      · simp only [FlagTrue, Database.getRuntimeMetadata, Op.exec, Op.call, Op.run, hr]
        rw [Table.find?_upsert_self db.runtimeMetadata ⟨key', .text "true", at'.getD now⟩]
        rfl
    · rw [FlagTrue, Op.exec_metadata (fun _ _ _ heq => hkey (by cases heq; rfl))]
      exact h
  | _ =>
    rw [FlagTrue, Op.exec_metadata (fun _ _ _ heq => by cases heq)]
    exact h

/-- What a process may do to the flags. -/
def Process.mayPerform : Process → Act → Prop
  | .cycle _ => Act.byCycle
  | .notice .. => Act.byNotice
  | .supervisor .. => fun _ => True

theorem Process.program_only (process : Process) : process.program.Only process.mayPerform := by
  cases process with
  | cycle c =>
    refine Prog.Only.bind (byCycle_runAutoTradeCycle ?_ c.symbols c.inputs) fun _ => trivial
    rcases c.submitter with h | ⟨guard, h⟩
    · rw [h]; exact byCycle_brokerSubmitter
    · rw [h]; exact byCycle_guardedSubmitter guard
  | notice now n tradingDate received =>
    exact Prog.Only.bind (byNotice_applyFillNotice now n tradingDate received) fun _ => trivial
  | supervisor now calendar config snapshot => exact Prog.Only.all _

theorem mayPerform_keeps {process : Process} {op : Op} {key : String} (hkey : key ∈ reviewKeys)
    (hmay : process.mayPerform (.call op)) (hcond : NotCleared key process op) : ¬ op.clears key := by
  cases process with
  | supervisor => exact hcond trivial
  | cycle c =>
    cases op with
    | setRuntimeMetadata now key' value at' => exact fun h => h.2 hmay.2
    | _ => exact id
  | notice now n tradingDate received =>
    cases op with
    | setRuntimeMetadata now key' value at' =>
      rintro ⟨rfl, hvalue⟩
      rcases hmay with ⟨-, htrue⟩ | hreason
      · exact hvalue htrue
      · subst hreason
        exact absurd hkey (by decide)
    | _ => exact id

namespace MidPass

open StaleSnapshot

/-- A supervisor pass, and a notice of an order that is not in the ledger. -/
def processes (snapshot : Snapshot) : Nat → Process
  | 0 => .supervisor later none ⟨60, 30⟩ snapshot
  | _ => .notice now notice none (some later)

def advance (n : Nat) (c : Prog trading Unit × Database) : Prog trading Unit × Database :=
  Prog.advance (dbHandler broker) n c

/-- The pass has performed one action. -/
def reading (snapshot : Snapshot) : Prog trading Unit × Database :=
  advance 1 ((processes snapshot 0).program, Database.empty)

/-- The notice has looked for its order, has written the first flag, and the second. -/
def searched (snapshot : Snapshot) : Prog trading Unit × Database :=
  advance 1 ((processes snapshot 1).program, (reading snapshot).2)

def reviewed (snapshot : Snapshot) : Prog trading Unit × Database := advance 1 (searched snapshot)

def blocked (snapshot : Snapshot) : Prog trading Unit × Database := advance 1 (reviewed snapshot)

/-- Both processes, the pass after its first action. -/
def pool (snapshot : Snapshot) (c : Prog trading Unit × Database) : Pool trading Database :=
  ⟨c.2, Function.update (Function.update (fun _ => none) 0 (some (reading snapshot).1)) 1 (some c.1)⟩

/-- The rest of the pass. -/
def finished (snapshot : Snapshot) : Prog trading Unit × Database :=
  advance 60 ((reading snapshot).1, (blocked snapshot).2)

def poolAfter (snapshot : Snapshot) : Pool trading Database :=
  ⟨(finished snapshot).2,
    Function.update (pool snapshot (blocked snapshot)).procs 0 (some (finished snapshot).1)⟩

theorem handler_sem_flags (snapshot : Snapshot) (condition : Process → Op → Prop) (i : Nat) (o : Act)
    (db : Database) (h : callMeets (fun op _ => condition (processes snapshot i) op) o db) :
    (flagSystem (processes snapshot) condition).sem i o db (dbHandler broker o db).1
      (dbHandler broker o db).2 :=
  handler_sem (fun op _ => condition (processes snapshot i) op) i o db h

theorem callMeets_true (o : Act) (db : Database) : callMeets (fun _ _ => True) o db := by
  cases o <;> trivial

theorem searched_reachable (snapshot : Snapshot) :
    (flagSystem (processes snapshot) fun _ _ => True).Reachable (fun _ => True)
      (pool snapshot (searched snapshot)) := by
  have hsem : ∀ i o db, True → (flagSystem (processes snapshot) fun _ _ => True).sem i o db
      (dbHandler broker o db).1 (dbHandler broker o db).2 := fun i o db _ =>
    handler_sem_flags snapshot (fun _ _ => True) i o db (callMeets_true o db)
  have hinit : (flagSystem (processes snapshot) fun _ _ => True).Reachable (fun _ => True)
      ⟨Database.empty, fun _ => none⟩ := .init trivial
  have hread := (hinit.step (.start (i := 0) rfl rfl)).steps (System.steps_advance
    (q := (processes snapshot 0).program) (hsem 0) 1 rfl (.always _ _ _))
  simp only [Function.update_idem] at hread
  have hsearch := (hread.step (.start (i := 1) rfl rfl)).steps (System.steps_advance
    (q := (processes snapshot 1).program) (hsem 1) 1 rfl (.always _ _ _))
  simp only [Function.update_idem] at hsearch
  exact hsearch

/-- The program is about to raise the flag. -/
def aboutToRaise (key : String) : Prog trading Unit → Bool
  | .act (.call (.setRuntimeMetadata _ key' value _)) _ => key' = key && value = .text "true"
  | _ => false

theorem raisesFlag_of_next (snapshot : Snapshot) {key : String} {c : Prog trading Unit × Database}
    (h : aboutToRaise key c.1 = true) :
    RaisesFlag (processes snapshot) key (pool snapshot c) (pool snapshot (advance 1 c)) := by
  obtain ⟨program, db⟩ := c
  unfold aboutToRaise at h
  split at h
  · rename_i heq
    simp only at heq
    subst heq
    simp only [Bool.and_eq_true, decide_eq_true_eq] at h
    obtain ⟨rfl, rfl⟩ := h
    refine ⟨1, _, _, _, id, rfl, ?_⟩
    simp only [pool, Function.update_idem]
    rfl
  · cases h

/-- Nothing at the broker and nothing in the ledger. -/
def quiet : Snapshot := ⟨.ok [], .ok []⟩

/-- The broker could not be read. -/
def unread : Snapshot := ⟨.error ⟨"KisHttpError", "KisHttpError", "KisHttpError"⟩, .ok []⟩

instance (key : String) (process : Process) (op : Op) : Decidable (NotCleared key process op) :=
  match process, op with
  | .supervisor .., .setRuntimeMetadata _ key' value _ =>
    inferInstanceAs (Decidable (True → ¬ (key' = key ∧ value ≠ .text "true")))
  | .supervisor .., .claimOrderIntent .. => .isTrue fun _ => id
  | .supervisor .., .markOrderSubmitting .. => .isTrue fun _ => id
  | .supervisor .., .recordOrderSubmission .. => .isTrue fun _ => id
  | .supervisor .., .markOrderUnknown .. => .isTrue fun _ => id
  | .supervisor .., .updateBrokerOrderStatus .. => .isTrue fun _ => id
  | .supervisor .., .applyBrokerFill .. => .isTrue fun _ => id
  | .supervisor .., .materializeOrderFills .. => .isTrue fun _ => id
  | .supervisor .., .recordBrokerOrderAudit .. => .isTrue fun _ => id
  | .cycle _, _ => .isTrue fun h => h.elim
  | .notice .., _ => .isTrue fun h => h.elim

theorem steps_finished (snapshot : Snapshot) {condition : Process → Op → Prop}
    (h : Prog.Meets (callMeets fun op _ => condition (processes snapshot 0) op) (dbHandler broker) 60
      ((reading snapshot).1, (blocked snapshot).2)) :
    Relation.ReflTransGen (flagSystem (processes snapshot) condition).Step
      (pool snapshot (blocked snapshot)) (poolAfter snapshot) :=
  System.steps_advance (q := (reading snapshot).1) (handler_sem_flags snapshot condition 0) 60 rfl h

def hasEnded : Prog trading Unit → Bool
  | .ret _ => true
  | _ => false

end MidPass

end AutoTrader
