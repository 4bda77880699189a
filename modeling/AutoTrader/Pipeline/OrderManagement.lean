/-
  AutoTrader/Pipeline/OrderManagement.lean
  ========================================
  **Cancelling stale orders: `manage_stale_orders`.**

  An order that is older than its time to live is moved to CANCEL_PENDING and a
  cancellation is sent once.  A marker in `runtime_metadata` remembers it, and
  later passes copy the broker's record into the header until the broker reports a
  terminal status.  Rows and records are read before the loop; each order is then
  handled with what was read.
-/
import AutoTrader.Pipeline.Reconcile

namespace AutoTrader

open Relational Interleave

structure OrderManagementConfig where
  buyTtlSeconds : ℚ
  sellTtlSeconds : ℚ

structure OrderManagementAction where
  clientOrderId : String
  symbol : String
  action : String
  reason : String
  remainingQuantity : Int

structure OrderManagementReport where
  inspected : Nat
  cancelRequested : Nat
  pending : Nat
  unknown : Nat
  confirmed : Nat
  operatorReview : Bool
  blockNewEntries : Bool
  actions : List OrderManagementAction

/-! ### Pure parts -/

/-- `_age_seconds`. -/
def ageSeconds (local' : BrokerOrder) (now : DateTime) : ℚ :=
  let started := local'.submittedAt.getD local'.updatedAt
  max 0 (((now.asKst.wall - started.asKst.wall : Int) : ℚ) / DateTime.microsPerSecond)

/-- `_is_stale`. -/
def isStale (calendar : Calendar) (config : OrderManagementConfig) (local' : BrokerOrder)
    (now : DateTime) : Bool × String :=
  if Schedule.isRegularMarketOpen calendar now = false then (false, "market_closed")
  else
    let ttl := if local'.side = .buy then config.buyTtlSeconds else config.sellTtlSeconds
    if ttl ≤ ageSeconds local' now then
      (true, if local'.side = .buy then "ttl_buy" else "ttl_sell")
    else if local'.side = .buy ∧ Schedule.isNewEntryWindow calendar now = false then
      (true, "entry_window_closed")
    else (false, "fresh")

/-- `_valid_cancel_fields`; the reason of a record that cannot be cancelled. -/
def invalidCancelFields (broker : OrderRecord) : Option String :=
  if broker.orderNumber = "" then some "missing_order_number"
  else if truthy broker.orderBranch = false then some "missing_order_branch"
  else if broker.remainingQuantity ≤ 0 then some "missing_remaining_quantity"
  else none

/-- `int(x)` of a `float`. -/
def truncate : PyFloat → Except Exn Int
  | .fin q => .ok (q.num.tdiv q.den)
  | .nan => .error (.valueError "cannot convert float NaN to integer")
  | _ => .error (.other "OverflowError" "cannot convert float infinity to integer")

/-- `int(broker.order_price or float(local["requested_price"]))`. -/
def cancelPrice (local' : BrokerOrder) (broker : OrderRecord) : Except Exn Int :=
  match broker.orderPrice with
  | some price => if price.truthy then truncate price else truncate (.fin local'.requestedPrice.val)
  | none => truncate (.fin local'.requestedPrice.val)

/-! ### The pending marker -/

def pendingKey (clientOrderId : String) : String := "order_management.pending." ++ clientOrderId

def confirmedKey (symbol : String) : String := "order_management.confirmed." ++ symbol

/-- A marker is the JSON object that was stored, or a text that is no JSON. -/
inductive PendingMarker where
  | invalid
  | fields (members : List (String × Option String))

/-- `marker.get(name)`. -/
def PendingMarker.get (marker : PendingMarker) (name : String) : Option String :=
  match marker with
  | .invalid => none
  | .fields members => (members.lookup name).join

/-- `marker.get("invalid")` is true. -/
def PendingMarker.isInvalid : PendingMarker → Bool
  | .invalid => true
  | .fields members => truthy ((members.lookup "invalid").join)

/-- `_pending_marker`.  The plain texts `true`, `false` and `null` are JSON and no
    object; every other plain text the program stores is no JSON. -/
def pendingMarker (value : Option MetadataValue) : Option PendingMarker :=
  match value with
  | none => none
  | some (.object members) => some (.fields members)
  | some (.text text) =>
    if text = "" ∨ text = "true" ∨ text = "false" ∨ text = "null" then none else some .invalid

/-! ### Writing -/

/-- `_block_new_entries`. -/
def blockNewEntries (now : DateTime) (reason : String) : Pipeline Unit := do
  execute (.setRuntimeMetadata now "operator_review" (.text "true") none)
  execute (.setRuntimeMetadata now "block_new_entries" (.text "true") none)
  execute (.setRuntimeMetadata now "order_management.last_reason" (.text reason) none)

/-- `_mark_unknown`. -/
def markUnknown (now : DateTime) (clientOrderId reason : String) : Pipeline Unit := do
  let _ ← execute (.markOrderUnknown now clientOrderId (some reason) (some now))
  blockNewEntries now reason

/-- `_store_pending_marker`. -/
def storePendingMarker (now : DateTime) (clientOrderId : String) (barKey : Option String) :
    Pipeline Unit :=
  execute (.setRuntimeMetadata now (pendingKey clientOrderId)
    (.object [("bar_key", barKey), ("requested_at", some now.isoformat)]) (some now))

/-- The terminal statuses of the broker, as local ones. -/
def terminalStatusForBroker : KisOrderStatus → Option OrderStatus
  | .cancelled => some .cancelled
  | .filled => some .filled
  | .rejected => some .rejected
  | _ => none

inductive MarkerResult where
  | pending
  | confirmed
deriving DecidableEq

/-- `_reconcile_pending_marker`. -/
def reconcilePendingMarker (now : DateTime) (local' : BrokerOrder) (broker : Option OrderRecord)
    (marker : PendingMarker) : Pipeline MarkerResult := do
  let id := local'.clientOrderId
  if marker.isInvalid then pure .pending
  else
    match broker with
    | none => pure .pending
    | some broker =>
      match terminalStatusForBroker broker.status with
      | some status => do
        let _ ← execute (.updateBrokerOrderStatus now id (recordUpdate now status broker (some now)))
        execute (.setRuntimeMetadata now (confirmedKey local'.symbol)
          (.object [("bar_key", marker.get "bar_key"), ("client_order_id", some id)]) (some now))
        execute (.setRuntimeMetadata now (pendingKey id) (.text "confirmed") (some now))
        pure .confirmed
      | none => do
        let _ ← execute (.updateBrokerOrderStatus now id
          (recordUpdate now .cancelPending broker none))
        pure .pending

/-! ### The pass -/

/-- `SELECT * FROM broker_orders WHERE status NOT IN ('FILLED','CANCELLED','REJECTED')`. -/
def managedRows (db : Database) : List BrokerOrder :=
  orderedBy (·.createdAt.isoformat) (·.clientOrderId)
    (db.brokerOrders.rows.filter fun o => !o.status.terminal)

/-- What the loop has gathered so far. -/
structure ManageState where
  pending : Nat
  unknown : Nat
  confirmed : Nat
  cancelRequested : Nat
  review : Bool
  actions : List OrderManagementAction

def ManageState.empty : ManageState := ⟨0, 0, 0, 0, false, []⟩

/-- An order that became UNKNOWN. -/
def ManageState.addUnknown (acc : ManageState) (local' : BrokerOrder) (reason : String) :
    ManageState :=
  { acc with
    unknown := acc.unknown + 1, review := true
    actions := acc.actions ++ [⟨local'.clientOrderId, local'.symbol, "UNKNOWN", reason, 0⟩] }

/-- The `try` block that requests one cancellation. -/
def requestCancel (now : DateTime) (local' : BrokerOrder) (broker : OrderRecord)
    (entryBarKey : Option String) : Pipeline Unit := do
  let id := local'.clientOrderId
  let price ← reraise (cancelPrice local' broker)
  let _ ← execute (.updateBrokerOrderStatus now id (recordUpdate now .cancelPending broker none))
  cancelOrder local'.clientOrderId broker.orderNumber (broker.orderBranch.getD "None")
    broker.remainingQuantity price
  storePendingMarker now id entryBarKey

/-- Cancel one order, or mark it UNKNOWN when it cannot be cancelled. -/
def cancelStale (now : DateTime) (local' : BrokerOrder) (broker : OrderRecord) (reason : String)
    (entryBarKey : Option String) (acc : ManageState) : Pipeline ManageState := do
  let id := local'.clientOrderId
  match invalidCancelFields broker with
  | some invalid => do
    markUnknown now id invalid
    pure (acc.addUnknown local' invalid)
  | none => do
    match ← Raising.attempt (requestCancel now local' broker entryBarKey) with
    | .ok _ =>
      pure { acc with
        cancelRequested := acc.cancelRequested + 1, pending := acc.pending + 1
        actions := acc.actions ++
          [⟨id, local'.symbol, "CANCEL_PENDING", reason, broker.remainingQuantity⟩] }
    | .error e => do
      markUnknown now id ("cancel_ambiguous:" ++ e.typeName)
      pure (acc.addUnknown local' "cancel_ambiguous")

/-- The body of the loop for an order without a marker. -/
def manageActive (now : DateTime) (calendar : Calendar) (config : OrderManagementConfig)
    (entryBarKey : Option String) (broker : Option OrderRecord) (local' : BrokerOrder)
    (acc : ManageState) : Pipeline ManageState := do
  let id := local'.clientOrderId
  if local'.status = .cancelPending then pure { acc with pending := acc.pending + 1 }
  else if local'.status ≠ .acknowledged ∧ local'.status ≠ .partiallyFilled then pure acc
  else if Text.blank local'.brokerIdText then do
    markUnknown now id "missing_order_number"
    pure (acc.addUnknown local' "missing_order_number")
  else
    match broker with
    | none => pure acc
    | some broker =>
      if broker.status ≠ .unfilled ∧ broker.status ≠ .partiallyFilled then pure acc
      else if sameOrder local' broker = false then do
        markUnknown now id "order_identity_missing_or_mismatch"
        pure (acc.addUnknown local' "identity_mismatch")
      else
        let (stale, reason) := isStale calendar config local' now
        if stale then cancelStale now local' broker reason entryBarKey acc else pure acc

/-- The body of the loop. -/
def manageOrder (now : DateTime) (calendar : Calendar) (config : OrderManagementConfig)
    (entryBarKey : Option String) (orders : List OrderRecord) (acc : ManageState)
    (local' : BrokerOrder) : Pipeline ManageState := do
  let broker := byBrokerId orders local'.brokerIdText
  match pendingMarker (← select fun db => db.getRuntimeMetadata (pendingKey local'.clientOrderId)) with
  | some marker => do
    match ← reconcilePendingMarker now local' broker marker with
    | .confirmed => pure { acc with confirmed := acc.confirmed + 1 }
    | .pending => pure { acc with pending := acc.pending + 1 }
  | none => manageActive now calendar config entryBarKey broker local' acc

/-- `manage_stale_orders`, given what the broker read returned. -/
def manageStaleOrders (now : DateTime) (calendar : Calendar) (config : OrderManagementConfig)
    (entryBarKey : Option String) (orders : Except ReadError (List OrderRecord)) :
    Pipeline OrderManagementReport := do
  match orders with
  | .error e => do
    blockNewEntries now ("order_status_unavailable:" ++ e.typeName)
    pure ⟨0, 0, 0, 0, 0, true, true, [⟨"", "", "UNKNOWN", "order_status_unavailable", 0⟩]⟩
  | .ok orders => do
    let rows ← selectOrders managedRows
    let acc ← rows.foldlM (manageOrder now calendar config entryBarKey orders) ManageState.empty
    if acc.review then blockNewEntries now "order_management_operator_review"
    pure ⟨rows.length, acc.cancelRequested, acc.pending, acc.unknown, acc.confirmed, acc.review,
      acc.review || 0 < acc.pending, acc.actions⟩

/-! ### Considering an entry again -/

structure EntryReevaluationState where
  allowed : Bool
  reason : String
  lastConfirmedBarKey : Option String

/-- The orders of a symbol that `can_re_evaluate_entry` selects. -/
def unresolvedOrders (db : Database) (symbol : String) : List BrokerOrder :=
  db.brokerOrders.rows.filter fun o => o.symbol = symbol ∧
    o.status ∈ [.intent, .submitting, .acknowledged, .partiallyFilled, .cancelPending, .unknown]

/-- `can_re_evaluate_entry`.  A plain text that is JSON has no `get`. -/
def canReEvaluateEntry (db : Database) (symbol barKey : String) : Except Exn EntryReevaluationState :=
  if (unresolvedOrders db symbol).isEmpty = false then .ok ⟨false, "unresolved_order", none⟩
  else
    match db.getRuntimeMetadata (confirmedKey symbol) with
    | none => .ok ⟨true, "no_unresolved_order", none⟩
    | some (.text text) =>
      if text = "" then .ok ⟨true, "no_unresolved_order", none⟩
      else if text = "true" ∨ text = "false" then
        .error (.other "AttributeError" "'bool' object has no attribute 'get'")
      else if text = "null" then .error (.other "AttributeError" "'NoneType' object has no attribute 'get'")
      else .ok ⟨false, "invalid_confirmation_state", none⟩
    | some (.object members) =>
      let confirmedBar := (members.lookup "bar_key").join
      if confirmedBar = some barKey then .ok ⟨false, "same_bar_after_cancel", confirmedBar⟩
      else .ok ⟨true, "cancel_confirmed_new_bar", confirmedBar⟩

end AutoTrader
