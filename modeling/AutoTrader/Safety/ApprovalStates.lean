/-
  AutoTrader/Safety/ApprovalStates.lean
  =====================================
  **The states of an approval request.**

  Each method on `approval_requests` is one transaction of conditional updates, so
  any number of processes calling them is a list of calls.  Seen from one request a
  call is a function on its row (`ApprovalCall.next`); `find?_exec` says that this
  is what the call does to the table.  The moves of a request, the finality of its
  four last states and the exclusiveness of consuming it follow from `next` alone.
-/
import AutoTrader.Storage.Approvals

namespace AutoTrader

open Relational Transactional

namespace ApprovalStatus

/-- The moves a request may make. -/
inductive Moves : ApprovalStatus → ApprovalStatus → Prop
  | approve : Moves .pending .approved
  | reject : Moves .pending .rejected
  | lapse : Moves .pending .expired
  | consume : Moves .approved .consuming
  | lapseApproved : Moves .approved .expired
  | execute : Moves .consuming .executed
  | fail : Moves .consuming .failed

/-- REJECTED, EXPIRED, EXECUTED and FAILED. -/
def settled : ApprovalStatus → Bool
  | .rejected | .expired | .executed | .failed => true
  | _ => false

theorem Moves.unsettled {s t : ApprovalStatus} (h : Moves s t) : s.settled = false := by
  cases h <;> rfl

/-- A request that may still be consumed. -/
def consumable : ApprovalStatus → Bool
  | .pending | .approved => true
  | _ => false

theorem Moves.consumable {s t : ApprovalStatus} (h : Moves s t) (ht : t.consumable = true) :
    s.consumable = true := by
  cases h <;> first | rfl | cases ht

end ApprovalStatus

/-- The request waits for an answer or for its entry, and its time is over. -/
def ApprovalRequest.overdue (request : ApprovalRequest) (now : DateTime) : Bool :=
  (request.status = .pending || request.status = .approved) && request.lapsedAt now

namespace ApprovalCall

/-- The request the call names. -/
def requestId? : ApprovalCall → Option String
  | .record _ a => some a.requestId
  | .expire .. => none
  | .resolve _ id .. => some id
  | .consume _ id _ => some id
  | .finish _ id .. => some id

/-- What settling makes of the awaited request. -/
def settle (awaited : ApprovalStatus) (now : DateTime) (f : ApprovalRequest → ApprovalRequest)
    (request : ApprovalRequest) : ApprovalRequest :=
  if request.status = awaited then
    if request.lapsedAt now then request.expire now else f request
  else request

/-- What the call makes of the request it names; expiring names them all. -/
def onRow : ApprovalCall → ApprovalRequest → ApprovalRequest
  | .record .., request => request
  | .expire clock now, request =>
    if request.overdue (now.getD clock) then request.expire (now.getD clock) else request
  | .resolve clock id decision resolvedBy now, request =>
    match approvalDecision? decision with
    | none => request
    | some status =>
      if Text.blank id then request
      else settle .pending (now.getD clock) (fun r => { r with
        status := status, resolvedAt := some (now.getD clock), resolvedBy := resolvedBy }) request
  | .consume clock id now, request =>
    if Text.blank id then request
    else settle .approved (now.getD clock) (fun r => { r with
      status := .consuming, consumedAt := some (now.getD clock) }) request
  | .finish clock id success now, request =>
    if Text.blank id then request
    else if request.status = .consuming then { request with
      status := if success then .executed else .failed, resolvedAt := some (now.getD clock) }
    else request

/-- The row of a request after a call, from its row before. -/
def next (c : ApprovalCall) (request : ApprovalRequest) : ApprovalRequest :=
  if c.requestId? = none ∨ c.requestId? = some request.requestId then c.onRow request else request

end ApprovalCall

/-! ### One request under one call -/

section Row

variable {request : ApprovalRequest} {now : DateTime}

theorem moves_settle {awaited : ApprovalStatus} {f : ApprovalRequest → ApprovalRequest}
    (hlapse : ApprovalStatus.Moves awaited .expired)
    (hf : ApprovalStatus.Moves awaited (f request).status) :
    ApprovalCall.settle awaited now f request = request ∨
    ApprovalStatus.Moves request.status (ApprovalCall.settle awaited now f request).status := by
  unfold ApprovalCall.settle
  split
  · rename_i hstatus
    right
    rw [hstatus]
    split
    · exact hlapse
    · exact hf
  · exact .inl rfl

theorem approvalDecision?_moves {decision : String} {status : ApprovalStatus}
    (h : approvalDecision? decision = some status) : ApprovalStatus.Moves .pending status := by
  unfold approvalDecision? at h
  dsimp only at h
  split at h
  · cases h
    exact .approve
  · split at h
    · cases h
      exact .reject
    · cases h

/-- A call leaves the row alone or makes one of the moves. -/
theorem ApprovalCall.next_moves (c : ApprovalCall) (request : ApprovalRequest) :
    c.next request = request ∨ ApprovalStatus.Moves request.status (c.next request).status := by
  unfold ApprovalCall.next
  split
  · cases c with
    | record clock a => exact .inl rfl
    | expire clock now =>
      by_cases hdue : request.overdue (now.getD clock) = true
      · have hstatus := hdue
        simp only [ApprovalRequest.overdue, Bool.and_eq_true, Bool.or_eq_true,
          decide_eq_true_eq] at hstatus
        simp only [ApprovalCall.onRow, hdue, if_true]
        right
        rcases hstatus.1 with hpending | happroved
        · rw [hpending]; exact .lapse
        · rw [happroved]; exact .lapseApproved
      · exact .inl (if_neg hdue)
    | resolve clock id decision resolvedBy now =>
      simp only [ApprovalCall.onRow]
      cases hdecision : approvalDecision? decision with
      | none => exact .inl rfl
      | some status =>
        dsimp only
        split
        · exact .inl rfl
        · exact moves_settle .lapse (approvalDecision?_moves hdecision)
    | consume clock id now =>
      simp only [ApprovalCall.onRow]
      split
      · exact .inl rfl
      · exact moves_settle .lapseApproved .consume
    | finish clock id success now =>
      simp only [ApprovalCall.onRow]
      split
      · exact .inl rfl
      · split
        · rename_i hstatus
          right
          rw [hstatus]
          cases success
          · exact .fail
          · exact .execute
        · exact .inl rfl
  · exact .inl rfl

theorem ApprovalCall.next_of_settled (c : ApprovalCall) (h : request.status.settled = true) :
    c.next request = request := by
  rcases c.next_moves request with hsame | hmoves
  · exact hsame
  · rw [hmoves.unsettled] at h
    cases h

/-- A request that has left PENDING and APPROVED never comes back to them. -/
theorem ApprovalCall.next_consumable (c : ApprovalCall)
    (h : (c.next request).status.consumable = true) : request.status.consumable = true := by
  rcases c.next_moves request with hsame | hmoves
  · rwa [hsame] at h
  · exact hmoves.consumable h

/-- A request the call does not name changes only by expiring, when it is overdue. -/
theorem ApprovalCall.next_of_other (c : ApprovalCall) (h : c.requestId? ≠ some request.requestId) :
    c.next request = request ∨
    ∃ clock now, c = .expire clock now ∧ request.overdue (now.getD clock) = true ∧
      c.next request = request.expire (now.getD clock) := by
  cases c with
  | expire clock now =>
    by_cases hdue : request.overdue (now.getD clock) = true
    · exact .inr ⟨clock, now, rfl, hdue, by
        simp [ApprovalCall.next, ApprovalCall.requestId?, ApprovalCall.onRow, hdue]⟩
    · exact .inl (by simp [ApprovalCall.next, ApprovalCall.requestId?, ApprovalCall.onRow, hdue])
  | record clock a => exact .inl (if_neg (by simpa [ApprovalCall.requestId?] using h))
  | resolve clock id decision by' now => exact .inl (if_neg (by simpa [ApprovalCall.requestId?] using h))
  | consume clock id now => exact .inl (if_neg (by simpa [ApprovalCall.requestId?] using h))
  | finish clock id success now => exact .inl (if_neg (by simpa [ApprovalCall.requestId?] using h))

end Row

/-! ### The calls do what `next` says -/

section Table

variable {id : String} {request : ApprovalRequest} {db : Database}

/-- A conditional update of the request `k`, seen from the request `id`. -/
theorem find?_updateWhere_approval (k : String) (cond : ApprovalRequest → Bool)
    (f : ApprovalRequest → ApprovalRequest) (hf : ∀ r, (f r).requestId = r.requestId)
    (hfind : db.approvalRequests.find? id = some request) :
    (db.approvalRequests.updateWhere k cond f hf).1.find? id =
      some (if k = id ∧ cond request then f request else request) := by
  rcases db.approvalRequests.updateWhere_cases k cond f hf with ⟨hno, hsame⟩ | ⟨r, hr, hcond, hupdate⟩
  · rw [hsame, hfind, if_neg]
    rintro ⟨rfl, hcond⟩
    rw [hno request hfind] at hcond
    cases hcond
  · rw [hupdate]
    by_cases hk : k = id
    · subst hk
      rw [hfind] at hr
      cases hr
      rw [Table.find?_update_self, hfind, Option.map_some, if_pos ⟨rfl, hcond⟩]
    · rw [Table.find?_update_ne _ (Ne.symm hk), hfind, if_neg fun h => hk h.1]

/-- Settling the request `k`, seen from the request `id`. -/
theorem find?_settleApproval (k : String) (awaited : ApprovalStatus) (hawaited : awaited ≠ .expired)
    (now : DateTime) (f : ApprovalRequest → ApprovalRequest) (hf : ∀ r, (f r).requestId = r.requestId)
    (hfind : db.approvalRequests.find? id = some request) :
    ((settleApproval k awaited now f hf).run db).2.approvalRequests.find? id =
      some (if k = id then ApprovalCall.settle awaited now f request else request) := by
  by_cases hk : k = id
  · subst hk
    rw [(settleApproval_run hfind hawaited now f hf).2, if_pos rfl]
    rfl
  · have hfirst := find?_updateWhere_approval k
      (fun request => request.status = awaited && request.lapsedAt now)
      (ApprovalRequest.expire now) (ApprovalRequest.requestId_expire now) hfind
    rw [if_neg fun h => hk h.1] at hfirst
    let expired : Database := { db with approvalRequests := (db.approvalRequests.updateWhere k
      (fun request => request.status = awaited && request.lapsedAt now)
      (ApprovalRequest.expire now) (ApprovalRequest.requestId_expire now)).1 }
    have hexpired : expired.approvalRequests.find? id = some request := hfirst
    have hsecond := find?_updateWhere_approval
      k (fun request => request.status = awaited && request.runsAt now) f hf hexpired
    rw [if_neg fun h => hk h.1] at hsecond
    rw [if_neg hk]
    exact hsecond

/-- A call that names a request works on that row alone. -/
theorem next_named {c : ApprovalCall} {k : String} (hc : c.requestId? = some k)
    (request : ApprovalRequest) :
    c.next request = if k = request.requestId then c.onRow request else request := by
  unfold ApprovalCall.next
  rw [hc]
  simp

/-- A call with a blank request id raises before its transaction. -/
theorem exec_resolve (clock : DateTime) (k decision : String) (resolvedBy : Option String)
    (now : Option DateTime) (db : Database) :
    (ApprovalCall.resolve clock k decision resolvedBy now).exec db =
      match approvalDecision? decision with
      | none => db
      | some status =>
        if Text.blank k then db
        else ((settleApproval k .pending (now.getD clock) (fun r => { r with
          status := status, resolvedAt := some (now.getD clock), resolvedBy := resolvedBy })
          fun _ => rfl).run db).2 := by
  change ((resolveApprovalRequest clock k decision resolvedBy now).run db).2 = _
  unfold resolveApprovalRequest requireNonempty validateApprovalDecision
  cases approvalDecision? decision with
  | none => cases Text.blank k <;> rfl
  | some status => cases Text.blank k <;> rfl

theorem exec_consume (clock : DateTime) (k : String) (now : Option DateTime) (db : Database) :
    (ApprovalCall.consume clock k now).exec db =
      if Text.blank k then db
      else ((settleApproval k .approved (now.getD clock) (fun r => { r with
        status := .consuming, consumedAt := some (now.getD clock) }) fun _ => rfl).run db).2 := by
  change ((consumeApprovalRequest clock k now).run db).2 = _
  unfold consumeApprovalRequest requireNonempty
  cases Text.blank k <;> rfl

theorem exec_finish (clock : DateTime) (k : String) (success : Bool) (now : Option DateTime)
    (db : Database) :
    (ApprovalCall.finish clock k success now).exec db =
      if Text.blank k then db
      else { db with approvalRequests := (db.approvalRequests.updateWhere k
        (fun request => request.status = .consuming) (fun request => { request with
          status := if success then .executed else .failed, resolvedAt := some (now.getD clock) })
        fun _ => rfl).1 } := by
  change ((finishApprovalRequest clock k success now).run db).2 = _
  unfold finishApprovalRequest requireNonempty
  cases Text.blank k <;> rfl

theorem exec_record (clock : DateTime) (a : ApprovalArgs) (db : Database) :
    (ApprovalCall.record clock a).exec db =
      match approvalRow clock a with
      | .error _ => db
      | .ok row => { db with approvalRequests := (db.approvalRequests.insertOrIgnore row).1 } := by
  change ((recordApprovalRequest clock a).run db).2 = _
  unfold recordApprovalRequest
  cases approvalRow clock a <;> rfl

/-- **The row of a request after a call** is `next` of its row before. -/
theorem find?_exec (hfind : db.approvalRequests.find? id = some request) (c : ApprovalCall) :
    (c.exec db).approvalRequests.find? id = some (c.next request) := by
  have hid : request.requestId = id := db.approvalRequests.key_of_find? hfind
  subst hid
  cases c with
  | record clock a =>
    have hsame : (ApprovalCall.record clock a).next request = request := by
      unfold ApprovalCall.next
      split <;> rfl
    rw [hsame, exec_record]
    cases approvalRow clock a with
    | error e => exact hfind
    | ok row =>
      rcases db.approvalRequests.insertOrIgnore_cases row with ⟨-, htaken⟩ | ⟨-, -, hrows⟩
      · simp only [htaken, hfind]
      · simp only [Table.find?_append hrows, hfind, Option.some_or]
  | expire clock now =>
    have hrun := find?_expireApprovalRequests clock now db request.requestId
    rw [hfind, Option.map_some] at hrun
    exact hrun
  | resolve clock k decision resolvedBy now =>
    rw [exec_resolve, next_named (k := k) rfl]
    cases hdecision : approvalDecision? decision with
    | none => simp [ApprovalCall.onRow, hdecision, hfind]
    | some status =>
      cases hblank : Text.blank k with
      | true => simp [ApprovalCall.onRow, hdecision, hblank, hfind]
      | false =>
        have hrun := find?_settleApproval k .pending (by decide) (now.getD clock) (fun r => { r with
          status := status, resolvedAt := some (now.getD clock), resolvedBy := resolvedBy })
          (fun _ => rfl) hfind
        simpa only [ApprovalCall.onRow, hdecision, hblank, Bool.false_eq_true, if_false] using hrun
  | consume clock k now =>
    rw [exec_consume, next_named (k := k) rfl]
    cases hblank : Text.blank k with
    | true => simp [ApprovalCall.onRow, hblank, hfind]
    | false =>
      have hrun := find?_settleApproval k .approved (by decide) (now.getD clock) (fun r => { r with
        status := .consuming, consumedAt := some (now.getD clock) }) (fun _ => rfl) hfind
      simpa only [ApprovalCall.onRow, hblank, Bool.false_eq_true, if_false] using hrun
  | finish clock k success now =>
    rw [exec_finish, next_named (k := k) rfl]
    cases hblank : Text.blank k with
    | true => simp [ApprovalCall.onRow, hblank, hfind]
    | false =>
      have hrun := find?_updateWhere_approval k (fun request => request.status = .consuming)
        (fun request => { request with
          status := if success then .executed else .failed, resolvedAt := some (now.getD clock) })
        (fun _ => rfl) hfind
      rw [if_neg Bool.false_ne_true]
      dsimp only
      rw [hrun]
      simp only [ApprovalCall.onRow, hblank, Bool.false_eq_true, if_false]
      by_cases hk : k = request.requestId <;> by_cases hstatus : request.status = .consuming <;>
        simp [hk, hstatus]

theorem find?_updateWhere_none {t : Table ApprovalRequest ApprovalRequest.requestId}
    (hfind : t.find? id = none) (k : String) (cond : ApprovalRequest → Bool)
    (f : ApprovalRequest → ApprovalRequest) (hf : ∀ r, (f r).requestId = r.requestId) :
    (t.updateWhere k cond f hf).1.find? id = none := by
  rcases t.updateWhere_cases k cond f hf with ⟨-, hsame⟩ | ⟨_, -, -, hupdate⟩
  · rw [hsame, hfind]
  · rw [hupdate, Table.find?_update]
    split
    · rename_i hid
      rw [← hid, hfind, Option.map_none]
    · exact hfind

theorem find?_settleApproval_none (hfind : db.approvalRequests.find? id = none) (k : String)
    (awaited : ApprovalStatus) (now : DateTime) (f : ApprovalRequest → ApprovalRequest)
    (hf : ∀ r, (f r).requestId = r.requestId) :
    ((settleApproval k awaited now f hf).run db).2.approvalRequests.find? id = none :=
  find?_updateWhere_none (find?_updateWhere_none hfind k _ _ _) k _ f hf

/-- A request appears only by being recorded. -/
theorem find?_exec_none (hfind : db.approvalRequests.find? id = none) {c : ApprovalCall}
    (hc : c.requestId? ≠ some id) : (c.exec db).approvalRequests.find? id = none := by
  cases c with
  | record clock a =>
    rw [exec_record]
    cases hrow : approvalRow clock a with
    | error e => exact hfind
    | ok row =>
      have hne : row.requestId ≠ id := by
        rw [(approvalRow_ok hrow).1]
        exact fun h => hc (congrArg some h)
      rcases db.approvalRequests.insertOrIgnore_cases row with ⟨-, htaken⟩ | ⟨-, -, hrows⟩
      · simp only [htaken, hfind]
      · simp only [Table.find?_append hrows, hfind, if_neg hne, Option.or_none]
  | expire clock now =>
    have hrun := find?_expireApprovalRequests clock now db id
    rwa [hfind, Option.map_none] at hrun
  | resolve clock k decision resolvedBy now =>
    rw [exec_resolve]
    cases approvalDecision? decision with
    | none => exact hfind
    | some status =>
      cases Text.blank k with
      | true => exact hfind
      | false => exact find?_settleApproval_none hfind k _ _ _ _
  | consume clock k now =>
    rw [exec_consume]
    cases Text.blank k with
    | true => exact hfind
    | false => exact find?_settleApproval_none hfind k _ _ _ _
  | finish clock k success now =>
    rw [exec_finish]
    cases Text.blank k with
    | true => exact hfind
    | false => exact find?_updateWhere_none hfind k _ _ _

end Table

/-! ### Consuming -/

namespace ApprovalCall

/-- The call consumes the request `id`: it is a `consume_approval_request` of it that
    answers `True`. -/
def consumes (id : String) (db : Database) : ApprovalCall → Bool
  | .consume clock k now =>
    k = id && ((consumeApprovalRequest clock k now).run db).1.toOption = some true
  | _ => false

end ApprovalCall

/-- How often a request is consumed along a list of calls. -/
def consumptions (id : String) : List ApprovalCall → Database → Nat
  | [], _ => 0
  | c :: rest, db => (if c.consumes id db then 1 else 0) + consumptions id rest (c.exec db)

/-- The request is there and can no longer be consumed. -/
def Unconsumable (id : String) (db : Database) : Prop :=
  ∃ request, db.approvalRequests.find? id = some request ∧ request.status.consumable = false

section Consuming

variable {id : String} {db : Database}

theorem unconsumable_exec (h : Unconsumable id db) (c : ApprovalCall) :
    Unconsumable id (c.exec db) := by
  obtain ⟨request, hfind, hstatus⟩ := h
  refine ⟨c.next request, find?_exec hfind c, ?_⟩
  cases hnext : (c.next request).status.consumable with
  | false => rfl
  | true => rw [c.next_consumable hnext] at hstatus; cases hstatus

theorem consume_run (clock : DateTime) (now : Option DateTime) {request : ApprovalRequest}
    (hfind : db.approvalRequests.find? id = some request) :
    ((consumeApprovalRequest clock id now).run db).1.toOption =
      if Text.blank id then none
      else some (decide (request.status = .approved) && !request.lapsedAt (now.getD clock)) := by
  unfold consumeApprovalRequest requireNonempty
  cases Text.blank id with
  | true => rfl
  | false =>
    have happroved : ApprovalStatus.approved ≠ .expired := by decide
    have hrun := (settleApproval_run hfind happroved (now.getD clock)
      (fun r => { r with status := .consuming, consumedAt := some (now.getD clock) }) fun _ => rfl).1
    exact congrArg Except.toOption hrun

theorem consume_run_none (clock : DateTime) (now : Option DateTime)
    (hfind : db.approvalRequests.find? id = none) :
    ((consumeApprovalRequest clock id now).run db).1.toOption =
      if Text.blank id then none else some false := by
  unfold consumeApprovalRequest requireNonempty
  cases Text.blank id with
  | true => rfl
  | false =>
    simp only [Bool.false_eq_true, if_false, Exec.run_ofExcept_ok_bind, settleApproval,
      expireIfLapsed, Exec.run_atomically, onApprovals, Exec.run_statement_bind, Exec.run_statement,
      Table.updateWhere, hfind]
    rfl

/-- A request that is consumed cannot be consumed after that. -/
theorem unconsumable_of_consumes {c : ApprovalCall} (h : c.consumes id db = true) :
    Unconsumable id (c.exec db) := by
  cases c with
  | consume clock k now =>
    simp only [ApprovalCall.consumes, Bool.and_eq_true, decide_eq_true_eq] at h
    obtain ⟨rfl, hanswer⟩ := h
    cases hfind : db.approvalRequests.find? k with
    | none =>
      rw [consume_run_none clock now hfind] at hanswer
      split at hanswer <;> cases hanswer
    | some request =>
      refine ⟨_, find?_exec hfind _, ?_⟩
      rw [consume_run clock now hfind] at hanswer
      cases hblank : Text.blank k with
      | true => simp [hblank] at hanswer
      | false =>
        simp only [hblank, Bool.false_eq_true, if_false, Option.some.injEq, Bool.and_eq_true,
          decide_eq_true_eq, Bool.not_eq_true'] at hanswer
        rw [next_named (k := k) rfl, if_pos (db.approvalRequests.key_of_find? hfind).symm]
        simp [ApprovalCall.onRow, ApprovalCall.settle, hblank, hanswer, ApprovalStatus.consumable]
  | record | expire | resolve | finish => cases h

theorem not_consumes_of_unconsumable (h : Unconsumable id db) (c : ApprovalCall) :
    c.consumes id db = false := by
  obtain ⟨request, hfind, hstatus⟩ := h
  cases c with
  | consume clock k now =>
    by_cases hk : k = id
    · subst hk
      have happroved : request.status ≠ .approved := by
        intro happroved
        rw [happroved] at hstatus
        cases hstatus
      simp only [ApprovalCall.consumes, consume_run clock now hfind]
      cases Text.blank k <;> simp [happroved]
    · simp [ApprovalCall.consumes, hk]
  | record | expire | resolve | finish => rfl

/-- Along every list of calls a request is consumed at most once, and not at all
    when it cannot be consumed. -/
theorem consumptions_le (calls : List ApprovalCall) (db : Database) :
    consumptions id calls db ≤ 1 ∧ (Unconsumable id db → consumptions id calls db = 0) := by
  induction calls generalizing db with
  | nil => exact ⟨Nat.zero_le 1, fun _ => rfl⟩
  | cons c rest ih =>
    obtain ⟨hle, hzero⟩ := ih (c.exec db)
    refine ⟨?_, fun hun => ?_⟩
    · unfold consumptions
      split
      · rename_i hconsumes
        rw [hzero (unconsumable_of_consumes hconsumes)]
      · omega
    · unfold consumptions
      rw [if_neg (by simp [not_consumes_of_unconsumable hun c]),
        hzero (unconsumable_exec hun c)]

end Consuming

/-! ### The state machine -/

/-- What one call does to the requests in a database. -/
structure ApprovalCallLawful (db : Database) (c : ApprovalCall) : Prop where
  /-- A request stays, in the state it is in or moved on by one of the moves. -/
  moves : ∀ id request, db.approvalRequests.find? id = some request →
    ∃ request', (c.exec db).approvalRequests.find? id = some request' ∧
      (request'.status = request.status ∨ ApprovalStatus.Moves request.status request'.status)
  /-- A request in one of the four last states does not change. -/
  settled : ∀ id request, db.approvalRequests.find? id = some request →
    request.status.settled = true → (c.exec db).approvalRequests.find? id = some request
  /-- Recording an id that is there changes nothing. -/
  recorded : ∀ clock a request, c = .record clock a →
    db.approvalRequests.find? a.requestId = some request → c.exec db = db
  /-- A request that the call does not name stays absent or stays as it is, unless
      the call expires requests and this one is overdue. -/
  others : ∀ id, c.requestId? ≠ some id →
    (c.exec db).approvalRequests.find? id = db.approvalRequests.find? id ∨
    ∃ clock now request, c = .expire clock now ∧ db.approvalRequests.find? id = some request ∧
      request.overdue (now.getD clock) = true ∧
      (c.exec db).approvalRequests.find? id = some (request.expire (now.getD clock))

theorem approvalCallLawful (db : Database) (c : ApprovalCall) : ApprovalCallLawful db c where
  moves id request hfind := by
    refine ⟨c.next request, find?_exec hfind c, ?_⟩
    rcases c.next_moves request with hsame | hmoves
    · exact .inl (congrArg ApprovalRequest.status hsame)
    · exact .inr hmoves
  settled id request hfind hsettled := by
    rw [find?_exec hfind c, c.next_of_settled hsettled]
  recorded clock a request hc hfind := by
    subst hc
    rw [exec_record]
    cases hrow : approvalRow clock a with
    | error e => rfl
    | ok row =>
      rw [← (approvalRow_ok hrow).1] at hfind
      simp only [Table.insertOrIgnore_of_taken hfind]
  others id hc := by
    cases hfind : db.approvalRequests.find? id with
    | none => exact .inl (find?_exec_none hfind hc)
    | some request =>
      have hid : request.requestId = id := db.approvalRequests.key_of_find? hfind
      rw [find?_exec hfind c]
      rcases c.next_of_other (hid ▸ hc) with hsame | ⟨clock, now, hexpire, hdue, hnext⟩
      · exact .inl (congrArg some hsame)
      · exact .inr ⟨clock, now, request, hexpire, rfl, hdue, congrArg some hnext⟩

theorem runApprovals_settled (calls : List ApprovalCall) {db : Database} {id : String}
    {request : ApprovalRequest} (hfind : db.approvalRequests.find? id = some request)
    (hsettled : request.status.settled = true) :
    (runApprovals calls db).approvalRequests.find? id = some request := by
  induction calls generalizing db with
  | nil => exact hfind
  | cons c rest ih => exact ih ((approvalCallLawful db c).settled id request hfind hsettled)

/-- **Approval state machine**: along every list of calls, from every database, each
    call keeps to the moves, a request in a last state is never changed again, and no
    request is consumed twice. -/
theorem approval_state_machine (db : Database) (calls : List ApprovalCall) :
    (∀ front c rest, calls = front ++ c :: rest → ApprovalCallLawful (runApprovals front db) c) ∧
    (∀ front rest, calls = front ++ rest → ∀ id request,
      (runApprovals front db).approvalRequests.find? id = some request →
      request.status.settled = true →
      (runApprovals calls db).approvalRequests.find? id = some request) ∧
    ∀ id, consumptions id calls db ≤ 1 := by
  refine ⟨fun front c _ _ => approvalCallLawful (runApprovals front db) c, ?_,
    fun _ => (consumptions_le calls db).1⟩
  rintro front rest rfl id request hfind hsettled
  rw [runApprovals, List.foldl_append]
  exact runApprovals_settled rest hfind hsettled

end AutoTrader
