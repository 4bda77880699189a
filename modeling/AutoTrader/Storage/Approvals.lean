/-
  AutoTrader/Storage/Approvals.lean
  =================================
  **Approval requests: `approval_requests`.**

  A high-risk entry waits for an operator.  The request is PENDING until somebody
  approves or rejects it, and an approved one is consumed by the entry it allows.
  Whether a request has lapsed is decided by SQLite on the texts of `expires_at`
  and of the caller's time, so the times enter the statements through `isoformat`.
-/
import AutoTrader.Storage.Orders

namespace AutoTrader

open Relational Transactional

structure ApprovalArgs where
  requestId : String
  symbol : String
  decisionId : Option String
  reason : String
  status : ApprovalStatus
  signalId : Option String
  quantity : Option Number
  entryPrice : Option Number
  takeProfitPrice : Option Number
  stopLossPrice : Option Number
  maxHoldingSeconds : Option Int
  expiresAt : Option DateTime
  createdAt : Option DateTime

/-- `quantity` behind an `is not None`: a positive `int` that is not a `bool`. -/
def approvalQuantity : Option Number → Except Exn (Option Nat)
  | none => .ok none
  | some (.int n) =>
    if 0 < n then .ok (some n.toNat) else .error (.valueError "quantity must be positive integer")
  | some _ => .error (.valueError "quantity must be positive integer")

/-- `timedelta(minutes=2)`. -/
def approvalLifetime : Int := 2 * 60 * DateTime.microsPerSecond

/-- `expires_at or (base_time + timedelta(minutes=2))`. -/
def approvalExpiry (expiresAt : Option DateTime) (baseTime : DateTime) : Except Exn DateTime :=
  match expiresAt with
  | some t => .ok t
  | none => baseTime.add approvalLifetime

def requireApprovalTexts (requestId reason : String) : Except Exn Unit :=
  if requestId = "" ∨ reason = "" then
    .error (.valueError "request_id, reason, and status are required")
  else .ok ()

/-- The request row, once the validation passed. -/
def approvalRow (clock : DateTime) (a : ApprovalArgs) : Except Exn ApprovalRequest := do
  validateSymbol a.symbol
  requireApprovalTexts a.requestId a.reason
  let baseTime := a.createdAt.getD clock
  let expiry ← approvalExpiry a.expiresAt baseTime
  requireNonemptyIfGiven a.signalId "signal_id"
  let quantity ← approvalQuantity a.quantity
  let entry ← validatePositiveIfGiven a.entryPrice "entry_price"
  let take ← validatePositiveIfGiven a.takeProfitPrice "take_profit_price"
  let stop ← validatePositiveIfGiven a.stopLossPrice "stop_loss_price"
  .ok { requestId := a.requestId, symbol := a.symbol, decisionId := a.decisionId, reason := a.reason
        status := a.status, createdAt := baseTime, resolvedAt := none, expiresAt := some expiry
        resolvedBy := none, consumedAt := none, signalId := a.signalId, quantity := quantity
        entryPrice := entry, takeProfitPrice := take, stopLossPrice := stop
        maxHoldingSeconds := a.maxHoldingSeconds }

/-- A statement on `approval_requests`; its answer is the row count. -/
def onApprovals {α : Type} (f : Table ApprovalRequest ApprovalRequest.requestId →
    Table ApprovalRequest ApprovalRequest.requestId × α) : Tx α :=
  .statement fun db =>
    ((f db.approvalRequests).2, { db with approvalRequests := (f db.approvalRequests).1 })

/-- `record_approval_request`; `clock` is read when no time is given. -/
def recordApprovalRequest (clock : DateTime) (a : ApprovalArgs) : Tx Bool := do
  let row ← Exec.ofExcept (approvalRow clock a)
  Exec.atomically (onApprovals fun t => t.insertOrIgnore row)

/-- `get_approval_request`. -/
def Database.getApprovalRequest (db : Database) (requestId : String) :
    Except Exn (Option ApprovalRequest) := do
  requireNonempty requestId "request_id"
  .ok (db.approvalRequests.find? requestId)

/-- The state of the request `id`. -/
def Database.approvalStatus? (db : Database) (id : String) : Option ApprovalStatus :=
  (db.approvalRequests.find? id).map (·.status)

namespace ApprovalRequest

/-- `expires_at IS NOT NULL AND expires_at <= now`, on the texts. -/
def lapsedAt (request : ApprovalRequest) (now : DateTime) : Bool :=
  match request.expiresAt with
  | none => false
  | some expiry => expiry.isoformat ≤ now.isoformat

/-- `expires_at IS NULL OR expires_at > now`, on the texts. -/
def runsAt (request : ApprovalRequest) (now : DateTime) : Bool :=
  match request.expiresAt with
  | none => true
  | some expiry => now.isoformat < expiry.isoformat

theorem runsAt_eq (request : ApprovalRequest) (now : DateTime) :
    request.runsAt now = !request.lapsedAt now := by
  unfold runsAt lapsedAt
  split
  · rfl
  · rw [← decide_not, decide_eq_decide]
    exact String.not_le.symm

/-- `SET status='EXPIRED', resolved_at=?`. -/
def expire (now : DateTime) (request : ApprovalRequest) : ApprovalRequest :=
  { request with status := .expired, resolvedAt := some now }

theorem requestId_expire (now : DateTime) (request : ApprovalRequest) :
    (request.expire now).requestId = request.requestId := rfl

end ApprovalRequest

/-- `UPDATE ... SET status='EXPIRED' ... WHERE request_id=? AND status=? AND` lapsed. -/
def expireIfLapsed (requestId : String) (status : ApprovalStatus) (now : DateTime) : Tx Bool :=
  onApprovals fun t => t.updateWhere requestId
    (fun request => request.status = status && request.lapsedAt now)
    (ApprovalRequest.expire now) (ApprovalRequest.requestId_expire now)

def expireApprovalRequests (clock : DateTime) (now : Option DateTime) : Tx Nat :=
  let timestamp := now.getD clock
  Exec.atomically (onApprovals fun t => t.updateAll
    (fun request => (request.status = .pending || request.status = .approved) &&
      request.lapsedAt timestamp)
    (ApprovalRequest.expire timestamp) (ApprovalRequest.requestId_expire timestamp))

def expirePendingApprovals (clock : DateTime) (now : Option DateTime) : Tx Nat :=
  expireApprovalRequests clock now

/-- `decision.upper()`, when it is one of the two decisions. -/
def approvalDecision? (decision : String) : Option ApprovalStatus :=
  let normalized := String.ofList (decision.toList.map Char.toUpper)
  if normalized = "APPROVED" then some .approved
  else if normalized = "REJECTED" then some .rejected else none

def validateApprovalDecision (decision : String) : Except Exn ApprovalStatus :=
  match approvalDecision? decision with
  | some status => .ok status
  | none => .error (.valueError "decision must be APPROVED or REJECTED")

/-- The two statements of `resolve_approval_request` and `consume_approval_request`:
    expire the awaited request if it lapsed, then rewrite it if it still runs. -/
def settleApproval (requestId : String) (awaited : ApprovalStatus) (now : DateTime)
    (f : ApprovalRequest → ApprovalRequest) (hf : ∀ r, (f r).requestId = r.requestId) : Tx Bool :=
  Exec.atomically do
    let _ ← expireIfLapsed requestId awaited now
    onApprovals fun t => t.updateWhere requestId
      (fun request => request.status = awaited && request.runsAt now) f hf

def resolveApprovalRequest (clock : DateTime) (requestId decision : String)
    (resolvedBy : Option String) (now : Option DateTime) : Tx Bool := do
  Exec.ofExcept (requireNonempty requestId "request_id")
  let normalized ← Exec.ofExcept (validateApprovalDecision decision)
  let timestamp := now.getD clock
  settleApproval requestId .pending timestamp
    (fun request => { request with
      status := normalized, resolvedAt := some timestamp, resolvedBy := resolvedBy }) fun _ => rfl

def consumeApprovalRequest (clock : DateTime) (requestId : String) (now : Option DateTime) :
    Tx Bool := do
  Exec.ofExcept (requireNonempty requestId "request_id")
  let timestamp := now.getD clock
  settleApproval requestId .approved timestamp
    (fun request => { request with status := .consuming, consumedAt := some timestamp }) fun _ => rfl

def finishApprovalRequest (clock : DateTime) (requestId : String) (success : Bool)
    (now : Option DateTime) : Tx Bool := do
  Exec.ofExcept (requireNonempty requestId "request_id")
  let timestamp := now.getD clock
  Exec.atomically (onApprovals fun t => t.updateWhere requestId
    (fun request => request.status = .consuming)
    (fun request => { request with
      status := if success then .executed else .failed, resolvedAt := some timestamp }) fun _ => rfl)

/-! ### Calls -/

inductive ApprovalCall where
  | record (clock : DateTime) (a : ApprovalArgs)
  | expire (clock : DateTime) (now : Option DateTime)
  | resolve (clock : DateTime) (requestId decision : String) (resolvedBy : Option String)
      (now : Option DateTime)
  | consume (clock : DateTime) (requestId : String) (now : Option DateTime)
  | finish (clock : DateTime) (requestId : String) (success : Bool) (now : Option DateTime)

/-- The database a call leaves behind, whether it returned or raised. -/
def ApprovalCall.exec : ApprovalCall → Database → Database
  | .record clock a, db => ((recordApprovalRequest clock a).run db).2
  | .expire clock now, db => ((expireApprovalRequests clock now).run db).2
  | .resolve clock id decision by' now, db =>
    ((resolveApprovalRequest clock id decision by' now).run db).2
  | .consume clock id now, db => ((consumeApprovalRequest clock id now).run db).2
  | .finish clock id success now, db => ((finishApprovalRequest clock id success now).run db).2

/-- The database after a list of calls. -/
def runApprovals (calls : List ApprovalCall) (db : Database) : Database :=
  calls.foldl (fun db c => c.exec db) db

/-! ### What a call does -/

theorem approvalRow_ok {clock : DateTime} {a : ApprovalArgs} {row : ApprovalRequest}
    (h : approvalRow clock a = .ok row) :
    row.requestId = a.requestId ∧
    ∃ expiry, approvalExpiry a.expiresAt (a.createdAt.getD clock) = .ok expiry ∧
      row.expiresAt = some expiry := by
  unfold approvalRow at h
  obtain ⟨_, -, h₁⟩ := Except.bind_eq_ok h
  obtain ⟨_, -, h₂⟩ := Except.bind_eq_ok h₁
  obtain ⟨expiry, hexpiry, h₃⟩ := Except.bind_eq_ok h₂
  obtain ⟨_, -, h₄⟩ := Except.bind_eq_ok h₃
  obtain ⟨quantity, -, h₅⟩ := Except.bind_eq_ok h₄
  obtain ⟨entry, -, h₆⟩ := Except.bind_eq_ok h₅
  obtain ⟨take, -, h₇⟩ := Except.bind_eq_ok h₆
  obtain ⟨stop, -, h₈⟩ := Except.bind_eq_ok h₇
  cases h₈
  exact ⟨rfl, expiry, hexpiry, rfl⟩

/-- A request that was recorded is there. -/
theorem recordApprovalRequest_true {clock : DateTime} {a : ApprovalArgs} {db db' : Database}
    (h : (recordApprovalRequest clock a).run db = (.ok true, db')) :
    ∃ row, approvalRow clock a = .ok row ∧ db'.approvalRequests.find? row.requestId = some row := by
  unfold recordApprovalRequest at h
  cases hrow : approvalRow clock a with
  | error e =>
    rw [hrow, Exec.run_ofExcept_error_bind] at h
    cases h
  | ok row =>
    rw [hrow, Exec.run_ofExcept_ok_bind] at h
    refine ⟨row, rfl, ?_⟩
    rcases db.approvalRequests.insertOrIgnore_cases row with ⟨-, htaken⟩ | ⟨hfree, -, hrows⟩
    · simp [Exec.run_atomically, onApprovals, htaken] at h
    · simp only [Exec.run_atomically, onApprovals, Exec.run_statement, Prod.mk.injEq] at h
      rw [← h.2]
      simp [Table.find?_append hrows, hfree]

/-- The request `requestId` is there and expires at `expiry`. -/
def ExpiresAt (requestId : String) (expiry : DateTime) (db : Database) : Prop :=
  ∃ request, db.approvalRequests.find? requestId = some request ∧ request.expiresAt = some expiry

section Expiry

variable {requestId : String} {expiry : DateTime}

theorem keeps_updateWhere_approval (id : String) (cond : ApprovalRequest → Bool)
    (f : ApprovalRequest → ApprovalRequest) (hf : ∀ r, (f r).requestId = r.requestId)
    (hexpiry : ∀ r, (f r).expiresAt = r.expiresAt) :
    Exec.Keeps (ExpiresAt requestId expiry) (onApprovals fun t => t.updateWhere id cond f hf) := by
  rintro db ⟨request, hfind, hrequest⟩
  rcases db.approvalRequests.updateWhere_cases id cond f hf with ⟨-, hsame⟩ | ⟨-, -, -, hupdate⟩
  · simp only [onApprovals, Exec.run_statement, hsame]
    exact ⟨request, hfind, hrequest⟩
  · simp only [onApprovals, Exec.run_statement, hupdate]
    by_cases hid : requestId = id
    · subst hid
      refine ⟨f request, ?_, by rw [hexpiry, hrequest]⟩
      rw [Table.find?_update_self, hfind, Option.map_some]
    · exact ⟨request, by rw [Table.find?_update_ne _ hid, hfind], hrequest⟩

theorem keeps_settleApproval (id : String) (awaited : ApprovalStatus) (now : DateTime)
    (f : ApprovalRequest → ApprovalRequest) (hf : ∀ r, (f r).requestId = r.requestId)
    (hexpiry : ∀ r, (f r).expiresAt = r.expiresAt) :
    Exec.Keeps (ExpiresAt requestId expiry) (settleApproval id awaited now f hf) := by
  apply Exec.Keeps.transaction
  apply Exec.Keeps.bind
  · exact keeps_updateWhere_approval id _ _ _ fun _ => rfl
  · exact fun _ => keeps_updateWhere_approval id _ f hf hexpiry

theorem keeps_recordApprovalRequest (clock : DateTime) (a : ApprovalArgs) :
    Exec.Keeps (ExpiresAt requestId expiry) (recordApprovalRequest clock a) := by
  refine Exec.Keeps.bind (fun _ h => h) fun row => Exec.Keeps.transaction ?_
  rintro db ⟨request, hfind, hrequest⟩
  refine ⟨request, ?_, hrequest⟩
  rcases db.approvalRequests.insertOrIgnore_cases row with ⟨-, htaken⟩ | ⟨-, -, hrows⟩
  · simp only [onApprovals, Exec.run_statement, htaken, hfind]
  · simp only [onApprovals, Exec.run_statement, Table.find?_append hrows, hfind, Option.some_or]

/-- Expiring rewrites every waiting request that lapsed. -/
theorem find?_expireApprovalRequests (clock : DateTime) (now : Option DateTime) (db : Database)
    (id : String) :
    ((expireApprovalRequests clock now).run db).2.approvalRequests.find? id =
      (db.approvalRequests.find? id).map fun request =>
        if (request.status = .pending || request.status = .approved) &&
            request.lapsedAt (now.getD clock) then request.expire (now.getD clock) else request := by
  simp only [expireApprovalRequests, Exec.run_atomically, onApprovals, Exec.run_statement,
    Table.find?_updateAll]

theorem keeps_expireApprovalRequests (clock : DateTime) (now : Option DateTime) :
    Exec.Keeps (ExpiresAt requestId expiry) (expireApprovalRequests clock now) := by
  rintro db ⟨request, hfind, hrequest⟩
  have hafter := find?_expireApprovalRequests clock now db requestId
  rw [hfind, Option.map_some] at hafter
  refine ⟨_, hafter, ?_⟩
  split
  · exact hrequest
  · exact hrequest

/-- No call moves the expiry of a request. -/
theorem ApprovalCall.exec_expiresAt (c : ApprovalCall) {db : Database}
    (h : ExpiresAt requestId expiry db) : ExpiresAt requestId expiry (c.exec db) := by
  cases c with
  | record clock a => exact keeps_recordApprovalRequest clock a db h
  | expire clock now => exact keeps_expireApprovalRequests clock now db h
  | resolve clock id decision by' now =>
    refine Exec.Keeps.bind (fun _ h => h) (fun _ => Exec.Keeps.bind (fun _ h => h) fun _ => ?_) db h
    exact keeps_settleApproval _ _ _ _ _ fun _ => rfl
  | consume clock id now =>
    refine Exec.Keeps.bind (fun _ h => h) (fun _ => ?_) db h
    exact keeps_settleApproval _ _ _ _ _ fun _ => rfl
  | finish clock id success now =>
    refine Exec.Keeps.bind (fun _ h => h) (fun _ => Exec.Keeps.transaction ?_) db h
    exact keeps_updateWhere_approval _ _ _ _ fun _ => rfl

theorem runApprovals_expiresAt (calls : List ApprovalCall) {db : Database}
    (h : ExpiresAt requestId expiry db) : ExpiresAt requestId expiry (runApprovals calls db) := by
  induction calls generalizing db with
  | nil => exact h
  | cons c rest ih => exact ih (c.exec_expiresAt h)

end Expiry

/-- What settling does to the awaited request: nothing when it is in another state,
    expire it when it lapsed, rewrite it otherwise. -/
theorem settleApproval_run {requestId : String} {request : ApprovalRequest} {db : Database}
    (hfind : db.approvalRequests.find? requestId = some request) {awaited : ApprovalStatus}
    (hawaited : awaited ≠ .expired) (now : DateTime) (f : ApprovalRequest → ApprovalRequest)
    (hf : ∀ r, (f r).requestId = r.requestId) :
    ((settleApproval requestId awaited now f hf).run db).1 =
        .ok (decide (request.status = awaited) && !request.lapsedAt now) ∧
    ((settleApproval requestId awaited now f hf).run db).2.approvalRequests.find? requestId =
      some (if request.status = awaited then
        if request.lapsedAt now then request.expire now else f request else request) := by
  simp only [settleApproval, expireIfLapsed, Exec.run_atomically, onApprovals,
    Exec.run_statement_bind, Exec.run_statement, Table.updateWhere, hfind]
  by_cases hstatus : request.status = awaited
  · by_cases hlapsed : request.lapsedAt now = true
    · simp [hstatus, hlapsed, Table.find?_update_self, hfind, ApprovalRequest.expire,
        Ne.symm hawaited]
    · simp [hstatus, hfind, hlapsed, ApprovalRequest.runsAt_eq, Table.find?_update_self]
  · simp [hstatus, hfind]

end AutoTrader
