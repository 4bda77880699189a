/-
  AutoTrader/Pipeline/Supervisor.lean
  ===================================
  **One pass of the order supervisor.**

  `one_iteration` reads the broker's orders and the account once and feeds the
  same snapshot to three stages: `reconcile_broker_state`, `_cancel_requested_buys`
  and `manage_stale_orders`.  The snapshot may be older than what the database
  holds by the time a stage writes.

  The status document, the heartbeat and the notifications of a pass are written
  for the operator and read back by nothing modelled here; they are left out.
-/
import AutoTrader.Pipeline.OrderManagement

namespace AutoTrader

open Relational Interleave

/-! ### Cancelling on request of the operator -/

def cancelRequestKey : String := "operator.cancel_open_buys_requested"

structure CancelReport where
  requested : Nat
  errors : Nat
  skipped : Nat
  errorType : Option String

def CancelReport.empty : CancelReport := ⟨0, 0, 0, none⟩

def CancelReport.addError (acc : CancelReport) (errorType : String) : CancelReport :=
  { acc with errors := acc.errors + 1, errorType := some errorType }

/-- The open BUY orders at the broker. -/
def openBuyRows (db : Database) : List BrokerOrder :=
  orderedBy (·.createdAt.isoformat) (·.clientOrderId) (db.brokerOrders.rows.filter fun o =>
    o.side = .buy ∧ (o.status = .acknowledged ∨ o.status = .partiallyFilled))

/-- `(get_runtime_metadata(CANCEL_REQUEST_KEY) or "").strip().lower() == "true"`. -/
def cancelRequested (value : Option MetadataValue) : Bool :=
  match value with
  | some (.text text) => Text.isWord ["true"] text
  | _ => false

/-- Both flags of an operator review. -/
def flagReview (now : DateTime) : Pipeline Unit := do
  setFlag now "operator_review" "true"
  setFlag now "block_new_entries" "true"

/-- `mark_order_unknown` and the two flags. -/
def markRequestUnknown (now : DateTime) (clientOrderId error : String) : Pipeline Unit := do
  let _ ← execute (.markOrderUnknown now clientOrderId (some error) (some now))
  flagReview now

/-- The cancellation itself; what it raises is `_sanitized_error`, the text of the
    exception's type or of the broker's answer. -/
def sendCancel (local' : BrokerOrder) (broker : OrderRecord) : Pipeline Unit := do
  let price ← reraise (cancelPrice local' broker)
  cancelOrder local'.clientOrderId broker.orderNumber (broker.orderBranch.getD "None")
    broker.remainingQuantity price

/-- `_sanitized_error`. -/
def sanitizedError (e : Exn) : String :=
  match e with
  | .kisHttpError .. => "KisHttpError: " ++ e.message
  | e => e.typeName

/-- The body of the loop over the open BUY orders. -/
def cancelBuy (now : DateTime) (orders : List OrderRecord) (acc : CancelReport)
    (local' : BrokerOrder) : Pipeline CancelReport := do
  let id := local'.clientOrderId
  match byBrokerId orders local'.brokerIdText with
  | none => do
    markRequestUnknown now id "order_identity_mismatch"
    pure (acc.addError "order_identity_mismatch")
  | some broker =>
    if broker.side ≠ some .buy then do
      markRequestUnknown now id "order_identity_mismatch"
      pure (acc.addError "order_identity_mismatch")
    else if broker.status ≠ .unfilled ∧ broker.status ≠ .partiallyFilled then
      pure { acc with skipped := acc.skipped + 1 }
    else if truthy broker.orderBranch = false ∨ broker.remainingQuantity ≤ 0 then do
      markRequestUnknown now id "missing_cancel_fields"
      pure (acc.addError "missing_cancel_fields")
    else do
      let _ ← execute (.updateBrokerOrderStatus now id (recordUpdate now .cancelPending broker none))
      match ← Raising.attempt (sendCancel local' broker) with
      | .error e => do
        markRequestUnknown now id ("cancel_ambiguous:" ++ sanitizedError e)
        pure (acc.addError (sanitizedError e))
      | .ok _ => do
        execute (.setRuntimeMetadata now (pendingKey id) (.object
          [("reason", some "operator_cancel_open_buys"), ("requested_at", some now.isoformat)])
          (some now))
        pure { acc with requested := acc.requested + 1 }

/-- `_cancel_requested_buys`, given what the broker read returned. -/
def cancelRequestedBuys (now : DateTime) (orders : Except ReadError (List OrderRecord)) :
    Pipeline CancelReport := do
  if cancelRequested (← select fun db => db.getRuntimeMetadata cancelRequestKey) = false then
    pure CancelReport.empty
  else do
    setFlag now cancelRequestKey "false"
    let rows ← selectOrders openBuyRows
    match orders with
    | .error e =>
      if rows.isEmpty then pure CancelReport.empty
      else do
        flagReview now
        pure (CancelReport.empty.addError e.sanitizedError)
    | .ok orders => rows.foldlM (cancelBuy now orders) CancelReport.empty

/-! ### The lease of the service -/

/-- `SERVICE_LEASE_NAME`. -/
def serviceLeaseName : String := "trading-service"

/-- `_parse_timestamp`, as an instant: a text without an offset is UTC. -/
def parseTimestamp (value : TimeText) : Option Int :=
  match value.fromisoformat with
  | .error _ => none
  | .ok t => some t.utcInstant

/-- `_lease_is_valid`, at an aware time. -/
def leaseIsValid (db : Database) (expectedOwnerId : Option String) (now : DateTime) : Bool :=
  match db.serviceLeases.find? serviceLeaseName with
  | none => false
  | some lease =>
    expectedOwnerId.all (· = lease.ownerId) &&
      match parseTimestamp lease.expiresAt with
      | none => false
      | some expiresAt => now.utcInstant < expiresAt

/-! ### The pass -/

/-- What a pass read from the broker. -/
structure Snapshot where
  orders : Except ReadError (List OrderRecord)
  account : Except ReadError (List AccountPosition)

structure SupervisorReport where
  operatorReview : Bool
  blockNewEntries : Bool

/-- The stages of `one_iteration` on one snapshot. -/
def supervisorStages (now : DateTime) (calendar : Calendar) (config : OrderManagementConfig)
    (snapshot : Snapshot) : Pipeline SupervisorReport := do
  let reconciliation ← reconcileBrokerState now snapshot.orders snapshot.account
  let cancel ← cancelRequestedBuys now snapshot.orders
  let management ← manageStaleOrders now calendar config none snapshot.orders
  let review := reconciliation.operatorReview || management.operatorReview || 0 < cancel.errors
  let blocked := reconciliation.blockNewEntries || management.blockNewEntries || 0 < cancel.errors
  setFlag now "operator_review" (if review then "true" else "false")
  setFlag now "block_new_entries" (if blocked then "true" else "false")
  pure ⟨review, blocked⟩

/-- `one_iteration` from the snapshot on: an exception of a stage blocks entries. -/
def supervisorPass (now : DateTime) (calendar : Calendar) (config : OrderManagementConfig)
    (snapshot : Snapshot) : Pipeline SupervisorReport := do
  match ← Raising.attempt (supervisorStages now calendar config snapshot) with
  | .ok report => pure report
  | .error _ => do
    let _ ← Raising.attempt (flagReview now)
    pure ⟨true, true⟩

/-- `one_iteration`: without a valid lease nothing happens; `prepared` is the snapshot,
    or what setting up the clients raised. -/
def oneIteration (now : DateTime) (calendar : Calendar) (config : OrderManagementConfig)
    (expectedOwnerId : Option String) (prepared : Except Exn Snapshot) :
    Pipeline (Option SupervisorReport) := do
  if ← select fun db => leaseIsValid db expectedOwnerId now then
    match prepared with
    | .ok snapshot => return some (← supervisorPass now calendar config snapshot)
    | .error _ => do
      let _ ← Raising.attempt (flagReview now)
      pure (some ⟨true, true⟩)
  else pure none

end AutoTrader
