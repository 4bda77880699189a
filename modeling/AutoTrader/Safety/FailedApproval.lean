/-
  AutoTrader/Safety/FailedApproval.lean
  =====================================
  **An approved entry that is refused stays approved.**

  Before the request is consumed, every check of `_execute_approved_entry` that fails
  calls `finish_approval_request(success=False)`.  That statement only rewrites a
  CONSUMING request, and the request is still APPROVED then: nothing is written, and
  the next cycle on the bar finds the approval again.  After the request is consumed
  the same call does retire it.  `failed_entry_retired_iff` separates the two.
-/
import AutoTrader.Ledger.Frame
import AutoTrader.Pipeline.ApprovedEntry
import AutoTrader.Safety.ApprovalStates

namespace AutoTrader

open Relational Transactional Interleave

section Entry

variable (broker : BrokerReplies) (submitter : Submitter) (inputs : EntryInputs)
  (symbol signalId : String) (approval : ApprovalRequest) (db : Database)

/-- The checks before the request is consumed, on a database. -/
def checkedEntry : Except Exn (Except String ApprovedOrder) :=
  (checkApprovedEntry inputs symbol signalId approval (db.decisionAudit approval)).run

/-- When the entry has called `finish_approval_request(success=False)` and returns
    blocked, the request is not APPROVED.  Every blocked result but one comes after
    that call. -/
def FailedEntryRetired : Prop :=
  ∀ result db', (executeApprovedEntry broker submitter inputs symbol signalId approval).run db =
      (.ok result, db') →
    result.blocked = true → result.reason ≠ "approval_not_available" →
    db'.approvalStatus? approval.requestId ≠ some .approved

variable {broker submitter inputs symbol signalId approval db}

/-- The finishing call on a request that is not CONSUMING. -/
theorem finish_of_not_consuming (now : DateTime) (success : Bool) {id : String}
    {request : ApprovalRequest} (hid : Text.blank id = false)
    (hfind : db.approvalRequests.find? id = some request) (hstatus : request.status ≠ .consuming) :
    (finishApprovalRequest now id success (some now)).run db = (.ok false, db) := by
  unfold finishApprovalRequest
  rw [requireNonempty_of hid, Exec.run_ofExcept_ok_bind]
  simp [Exec.run_atomically, onApprovals, Table.updateWhere, hfind, hstatus]

theorem finish_of_blank {id : String} {now : DateTime} {success : Bool}
    (hid : Text.blank id = true) :
    (finishApprovalRequest now id success (some now)).run db =
      (.error (.valueError "request_id must not be empty"), db) := by
  unfold finishApprovalRequest requireNonempty
  rw [if_pos hid]
  rfl

/-- **A refused entry writes nothing.** -/
theorem refused_entry_run (broker : BrokerReplies) (submitter : Submitter)
    (hid : Text.blank approval.requestId = false)
    (hstored : db.approvalRequests.find? approval.requestId = some approval)
    (happroved : approval.status = .approved) {reason : String}
    (hcheck : checkedEntry inputs symbol signalId approval db = .ok (.error reason)) :
    (executeApprovedEntry broker submitter inputs symbol signalId approval).run db =
      (.ok (.blockedBy symbol reason), db) := by
  have hfinish := finish_of_not_consuming inputs.now false hid hstored
    (by rw [happroved]; decide)
  unfold executeApprovedEntry
  unfold checkedEntry at hcheck
  rw [Exec.run_query_bind, hcheck, Exec.run_ofExcept_ok_bind]
  exact Exec.run_bind_ok hfinish

/-- The submission of the order leaves the approval requests alone. -/
theorem approvalRequests_submit (broker : BrokerReplies) {α : Type} (p : Pipeline α)
    (db : Database) :
    ((runPipeline broker p).run db).2.approvalRequests = db.approvalRequests := by
  have hkeep : Raising.Ends (dbHandler broker) p
      (fun _ db' => db'.approvalRequests = db.approvalRequests)
      (fun _ db' => db'.approvalRequests = db.approvalRequests) db := by
    refine Raising.Ends.of_only (P := fun _ => True) ?_ (Prog.Only.all p.run) rfl
    intro o db' _ h
    cases o with
    | call op => exact (op.exec_approvalRequests db').trans h
    | read | tryRead | selectOrders | submitOrder | cancelOrder => exact h
  exact hkeep.store

/-- A consuming call that answers `True` leaves the request CONSUMING. -/
theorem consume_true {now : DateTime} {id : String} {request : ApprovalRequest} {db' : Database}
    (hfind : db.approvalRequests.find? id = some request)
    (hrun : (consumeApprovalRequest now id (some now)).run db = (.ok true, db')) :
    ∃ request', db'.approvalRequests.find? id = some request' ∧ request'.status = .consuming := by
  have hafter := find?_exec hfind (.consume now id (some now))
  have hexec : (ApprovalCall.consume now id (some now)).exec db = db' := congrArg Prod.snd hrun
  have hanswer := consume_run now (some now) hfind
  rw [hrun] at hanswer
  rw [hexec, next_named (k := id) rfl, if_pos (db.approvalRequests.key_of_find? hfind).symm] at hafter
  refine ⟨_, hafter, ?_⟩
  cases hblank : Text.blank id with
  | true => simp [hblank, Except.toOption] at hanswer
  | false =>
    simp only [hblank, Except.toOption, Bool.false_eq_true, if_false, Option.some.injEq,
      Option.getD_some, Bool.true_eq, Bool.and_eq_true, decide_eq_true_eq, Bool.not_eq_true'] at hanswer
    simp [ApprovalCall.onRow, ApprovalCall.settle, hblank, hanswer]

/-- After the request is consumed, an entry that returns has retired it. -/
theorem status_of_submitted {now : DateTime} {id : String} {order : ApprovedOrder}
    {request : ApprovalRequest} (hfind : db.approvalRequests.find? id = some request)
    (hstatus : request.status = .consuming) {result : AutoTradeSymbolResult} {db' : Database}
    (hrun : (submitApprovedOrder broker submitter now symbol signalId id order).run db =
      (.ok result, db')) :
    db'.approvalStatus? id = some .executed ∨ db'.approvalStatus? id = some .failed := by
  unfold submitApprovedOrder at hrun
  obtain ⟨order', db₁, hrequest, hrun⟩ := Exec.run_bind_eq_ok hrun
  obtain ⟨submission, db₂, hsubmit, hrun⟩ := Exec.run_bind_eq_ok hrun
  obtain ⟨finished, db₃, hfinish, hrun⟩ := Exec.run_bind_eq_ok hrun
  obtain ⟨-, hdb⟩ := Prod.mk.inj hrun
  subst hdb
  have hfind₂ : db₂.approvalRequests.find? id = some request := by
    have hsame : db₂.approvalRequests = db₁.approvalRequests := by
      have h := approvalRequests_submit broker (submitWithLedger submitter order'
        order.decisionId (some signalId) "approved_ai" now) db₁
      rwa [hsubmit] at h
    have hdb : db₁ = db := (congrArg Prod.snd hrequest).symm
    rw [hsame, hdb, hfind]
  have hafter := find?_exec hfind₂ (.finish now id submission.submitted (some now))
  have hexec : (ApprovalCall.finish now id submission.submitted (some now)).exec db₂ = db₃ :=
    congrArg Prod.snd hfinish
  have hblank : Text.blank id = false := by
    cases hid : Text.blank id with
    | false => rfl
    | true => rw [finish_of_blank hid] at hfinish; cases hfinish
  rw [hexec, next_named (k := id) rfl,
    if_pos (db₂.approvalRequests.key_of_find? hfind₂).symm] at hafter
  simp only [ApprovalCall.onRow, hblank, Bool.false_eq_true, if_false, hstatus, if_true] at hafter
  rw [Database.approvalStatus?, hafter]
  cases submission.submitted
  · exact .inr rfl
  · exact .inl rfl

/-- An entry that passes its checks is consumed or finds the request gone, and is
    retired if it returns. -/
theorem passed_entry_status (hstored : db.approvalRequests.find? approval.requestId = some approval)
    {order : ApprovedOrder}
    (hcheck : checkedEntry inputs symbol signalId approval db = .ok (.ok order)) :
    FailedEntryRetired broker submitter inputs symbol signalId approval db := by
  intro result db' hrun hblocked hreason
  unfold executeApprovedEntry at hrun
  unfold checkedEntry at hcheck
  rw [Exec.run_query_bind, hcheck, Exec.run_ofExcept_ok_bind] at hrun
  obtain ⟨consumed, db₁, hconsume, hrun⟩ := Exec.run_bind_eq_ok hrun
  cases consumed with
  | false =>
    cases hrun
    exact absurd rfl hreason
  | true =>
    obtain ⟨request, hfind, hstatus⟩ := consume_true hstored hconsume
    rcases status_of_submitted hfind hstatus hrun with h | h <;> rw [h] <;> decide

theorem raised_entry_status {e : Exn}
    (hcheck : checkedEntry inputs symbol signalId approval db = .error e) :
    FailedEntryRetired broker submitter inputs symbol signalId approval db := by
  intro result db' hrun
  unfold executeApprovedEntry at hrun
  unfold checkedEntry at hcheck
  rw [Exec.run_query_bind, hcheck, Exec.run_ofExcept_error_bind] at hrun
  cases hrun

theorem blank_entry_status (hid : Text.blank approval.requestId = true) :
    FailedEntryRetired broker submitter inputs symbol signalId approval db := by
  intro result db' hrun
  unfold executeApprovedEntry at hrun
  rw [Exec.run_query_bind] at hrun
  obtain ⟨checked, db₁, -, hrun⟩ := Exec.run_bind_eq_ok hrun
  cases checked with
  | error reason =>
    rw [Exec.run_bind_error (finish_of_blank hid)] at hrun
    cases hrun
  | ok order =>
    obtain ⟨consumed, db₂, hconsume, -⟩ := Exec.run_bind_eq_ok hrun
    unfold consumeApprovalRequest requireNonempty at hconsume
    rw [if_pos hid, Exec.run_ofExcept_error_bind] at hconsume
    cases hconsume

end Entry

namespace RefusedEntry

def barStart : DateTime := .combine 20000 9 29 0 none

def opening : DateTime := .combine 20000 9 30 0 none

/-- The request of the bar, approved. -/
def approval : ApprovalRequest where
  requestId := approvalRequestId "005930" barStart
  symbol := "005930"
  decisionId := some "d1"
  reason := "high_risk_ai_decision"
  status := .approved
  createdAt := opening
  resolvedAt := some opening
  expiresAt := some ⟨opening.wall + approvalLifetime, none⟩
  resolvedBy := some "8"
  consumedAt := none
  signalId := some (entrySignalId "005930" barStart)
  quantity := some 1
  entryPrice := some (.ofNat 100000 (by decide))
  takeProfitPrice := some (.ofNat 102000 (by decide))
  stopLossPrice := some (.ofNat 99000 (by decide))
  maxHoldingSeconds := some 600

def approved : Database :=
  { Database.empty with
    approvalRequests := (Table.empty.insertOrIgnore approval).1
    aiDecisionAudits := (Table.empty.insertOrIgnore
      ⟨"d1", "005930", "BUY", .fin (9 / 10), some (.fin 100000), some (.fin 102000),
        some (.fin 99000), some 600⟩).1 }

/-- The default configuration, and a budget check that answers `budget`. -/
def inputs (budget : Bool) : EntryInputs where
  config := ⟨⟨3000000, 3 / 10, 10, 20, 2, 1, 3, none, 3, .fin (3 / 4)⟩, 1, .fin 1⟩
  now := opening
  latestClose := .fin 100000
  portfolio := none
  paperPositions := []
  entryBudgetChecker := some fun _ _ _ => .ok budget
  postAiPriceChecker := none

def accepting : BrokerReplies := ⟨fun _ _ => .ok (some "K1"), fun _ _ _ _ => .ok ()⟩

/-- The reason of a refusal. -/
def refusal? : Except Exn (Except String ApprovedOrder) → Option String
  | .ok (.error reason) => some reason
  | _ => none

theorem eq_of_refusal? {r : Except Exn (Except String ApprovedOrder)} {reason : String}
    (h : refusal? r = some reason) : r = .ok (.error reason) := by
  rcases r with e | reason' | order
  · cases h
  · cases h; rfl
  · cases h

/-- One cycle on the bar, as far as the approval decides it. -/
def cycle (budget : Bool) (db : Database) : Except Exn (Option AutoTradeSymbolResult) × Database :=
  (approvalStage accepting brokerSubmitter (inputs budget) "005930" barStart false).run db

end RefusedEntry

end AutoTrader
