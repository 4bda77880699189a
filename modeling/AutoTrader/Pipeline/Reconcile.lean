/-
  AutoTrader/Pipeline/Reconcile.lean
  ==================================
  **The polling channel: `reconcile_broker_state`.**

  One pass compares every local order that is active, or has fills that were not
  applied, with the broker's records of the day, books the difference in filled
  quantity as one fill, copies the broker's status, applies the fills to the
  position, and finally compares the holdings.  Every difference it cannot
  explain becomes a reason; new entries stay blocked while there is one.

  The order rows are read once, before the loop; each order is then handled with
  the row that was read, in several transactions.
-/
import AutoTrader.Pipeline.Actions

namespace AutoTrader

open Relational Interleave

structure ReconciliationReport where
  updatedOrders : Nat
  newFills : Nat
  materializedFills : Nat
  operatorReview : Bool
  blockNewEntries : Bool
  reasons : List String

/-- A row of the account snapshot. -/
structure AccountPosition where
  symbol : String
  quantity : Int

/-! ### Pure parts -/

/-- `_same_order` and `_same_identity`. -/
def sameOrder (local' : BrokerOrder) (broker : OrderRecord) : Bool :=
  local'.symbol = broker.symbol ∧ broker.side = some local'.side

/-- `_local_status_for_broker`. -/
def localStatusForBroker : KisOrderStatus → Option OrderStatus
  | .unfilled => some .acknowledged
  | .partiallyFilled => some .partiallyFilled
  | .filled => some .filled
  | .cancelled => some .cancelled
  | .rejected => some .rejected
  | .unknown => none

/-- `_incremental_fill_price`. -/
def incrementalFillPrice (local' : BrokerOrder) (broker : OrderRecord) (delta : Int) :
    Except Exn PyFloat :=
  if delta ≤ 0 then .error (.valueError "fill delta must be positive")
  else
    match broker.averageFillPrice with
    | none => .ok (.fin local'.requestedPrice.val)
    | some average =>
      match local'.avgFillPrice with
      | none => .ok average
      | some previous =>
        if local'.filledQty = 0 then .ok average
        else
          let price := ((average.scale broker.filledQuantity).sub (previous * local'.filledQty)).div delta
          if price.nonpos then .error (.valueError "derived incremental fill price must be positive")
          else .ok price

/-- The fill id of a cumulative quantity. -/
def reconcileFillId (clientOrderId : String) (filled : Int) : String :=
  "reconcile:" ++ clientOrderId ++ ":cum:" ++ toString filled

/-- The arguments of the fill a pass books for the difference `delta`. -/
def reconcileFillArgs (now : DateTime) (local' : BrokerOrder) (broker : OrderRecord) (delta : Int)
    (price : PyFloat) : FillArgs where
  fillId := reconcileFillId local'.clientOrderId broker.filledQuantity
  clientOrderId := local'.clientOrderId
  quantity := .int delta
  price := .float price
  filledAt := now
  brokerOrderId := some broker.orderNumber
  symbol := some broker.symbol
  side := broker.side.map Side.name
  createdAt := none

/-- A cancel acknowledgement is not a confirmed cancellation: the pending state
    is kept until the broker reports a terminal status. -/
def keptPending (local' status : OrderStatus) : OrderStatus :=
  if local' = .cancelPending ∧ (status = .acknowledged ∨ status = .partiallyFilled) then
    .cancelPending
  else status

/-- The status update that copies a broker record. -/
def recordUpdate (now : DateTime) (status : OrderStatus) (broker : OrderRecord)
    (completedAt : Option DateTime) : StatusUpdate where
  status := status
  brokerOrderId := some broker.orderNumber
  filledQty := some broker.filledQuantity
  avgFillPrice := broker.averageFillPrice.map .float
  error := none
  updatedAt := some now
  completedAt := completedAt

/-- `decision["max_holding_seconds"] or 900`. -/
def holdingOrDefault (holding : Option Int) : Int :=
  if holding.getD 0 = 0 then 900 else holding.getD 0

/-- The symbols with an OPEN position. -/
def Database.openSymbols (db : Database) : List String :=
  (db.livePositions.rows.filter fun p => p.status = .open).map (·.symbol)

/-- `{position.symbol: int(position.qty) for position in account.positions}`. -/
def brokerQuantity (account : List AccountPosition) (symbol : String) : Int :=
  ((account.reverse.find? fun p => p.symbol = symbol).map (·.quantity)).getD 0

/-- `sorted(set(local_positions) | set(broker_positions))`. -/
def comparedSymbols (db : Database) (account : List AccountPosition) : List String :=
  (db.openSymbols ++ account.map (·.symbol)).dedup.insertionSort (· ≤ ·)

/-- The reason of one symbol, if its two quantities differ. -/
def positionMismatch (db : Database) (account : List AccountPosition) (symbol : String) :
    Option String :=
  let localQty := db.openQuantity symbol
  let brokerQty := brokerQuantity account symbol
  if (localQty : Int) ≠ brokerQty then
    some ("position_mismatch:" ++ symbol ++ ":local=" ++ toString localQty ++ ":broker=" ++
      toString brokerQty)
  else none

/-! ### The pass -/

/-- The orders a pass looks at: active ones and those with unapplied fills. -/
def reconciledRows (db : Database) : List BrokerOrder :=
  orderedBy (·.createdAt.isoformat) (·.clientOrderId) (db.brokerOrders.rows.filter fun o =>
    !o.status.terminal || (db.fillsOf o.clientOrderId).any fun f => db.unapplied f)

/-- What the loop has gathered so far. -/
structure PassState where
  reasons : List String
  updatedOrders : Nat
  newFills : Nat
  materializedFills : Nat
  matched : List String

def PassState.empty : PassState := ⟨[], 0, 0, 0, []⟩

def PassState.addReason (acc : PassState) (reason : String) : PassState :=
  { acc with reasons := acc.reasons ++ [reason] }

/-- `_materialize_local_fills`. -/
def materializeLocalFills (now : DateTime) (local' : BrokerOrder) : Pipeline Nat := do
  if local'.side = .buy then
    match ← select fun db => local'.signalId.bind db.aiDecisionAudits.find? with
    | none => throw (.valueError "missing entry risk metadata")
    | some decision =>
      execute (.materializeOrderFills now
        { clientOrderId := local'.clientOrderId
          stopLossPrice := decision.stopLossPrice.map .float
          takeProfitPrice := decision.takeProfitPrice.map .float
          maxHoldingSeconds := some (.int (holdingOrDefault decision.maxHoldingSeconds))
          closeReason := "broker_fill" })
  else
    execute (.materializeOrderFills now ⟨local'.clientOrderId, none, none, none, "broker_fill"⟩)

/-- Copy the status and apply the fills: the end of a loop iteration. -/
def settleOrder (now : DateTime) (local' : BrokerOrder) (broker : OrderRecord)
    (acc : PassState) : Pipeline PassState := do
  let id := local'.clientOrderId
  match localStatusForBroker broker.status with
  | none => pure (acc.addReason ("broker_status_unknown:" ++ id))
  | some status => do
    let status := keptPending local'.status status
    let updated ← execute (.updateBrokerOrderStatus now id
      (recordUpdate now status broker (if status.terminal then some now else none)))
    let acc := if updated then { acc with updatedOrders := acc.updatedOrders + 1 } else acc
    match ← Raising.attempt (materializeLocalFills now local') with
    | .ok n => pure { acc with materializedFills := acc.materializedFills + n }
    | .error e => pure (acc.addReason ("materialize_failed:" ++ id ++ ":" ++ e.typeName))

/-- Book the difference in filled quantity, then settle: the middle of an
    iteration, for a record that passed the identity and quantity checks. -/
def bookDifference (now : DateTime) (local' : BrokerOrder) (broker : OrderRecord)
    (acc : PassState) : Pipeline PassState := do
  let id := local'.clientOrderId
  let delta := broker.filledQuantity - local'.filledQty
  if delta = 0 then settleOrder now local' broker acc
  else do
    let price ← reraise (incrementalFillPrice local' broker delta)
    match ← Raising.attempt (execute (.applyBrokerFill now
        (reconcileFillArgs now local' broker delta price))) with
    | .error e => pure (acc.addReason ("fill_apply_failed:" ++ id ++ ":" ++ e.typeName))
    | .ok inserted =>
      settleOrder now local' broker (if inserted then { acc with newFills := acc.newFills + 1 } else acc)

/-- The body of the loop over the local orders. -/
def reconcileOrder (now : DateTime) (orders : List OrderRecord) (acc : PassState)
    (local' : BrokerOrder) : Pipeline PassState := do
  let id := local'.clientOrderId
  let brokerOrderId := local'.brokerIdText
  let acc := if local'.status = .unknown then acc.addReason ("local_unknown:" ++ id) else acc
  if brokerOrderId = "" then pure (acc.addReason ("local_order_unconfirmed:" ++ id))
  else
    match byBrokerId orders brokerOrderId with
    | none => pure (acc.addReason ("broker_order_missing:" ++ id ++ ":" ++ brokerOrderId))
    | some broker =>
      let acc := { acc with matched := acc.matched ++ [brokerOrderId] }
      if sameOrder local' broker = false then
        pure (acc.addReason ("order_identity_mismatch:" ++ id ++ ":" ++ brokerOrderId))
      else if broker.filledQuantity < local'.filledQty then
        pure (acc.addReason ("fill_regression:" ++ id))
      else if broker.orderedQuantity ≠ 0 ∧ broker.orderedQuantity ≠ local'.requestedQty then
        pure (acc.addReason ("order_quantity_mismatch:" ++ id))
      else bookDifference now local' broker acc

/-- The reasons of broker orders that no local order matched. -/
def brokerOnlyReasons (orders : List OrderRecord) (matched : List String) : List String :=
  (orders.filter fun b => !matched.contains b.orderNumber &&
    (0 < b.remainingQuantity || b.status = .unfilled || b.status = .partiallyFilled)).map
      fun b => "broker_only_open_order:" ++ b.orderNumber

/-- `_finish`. -/
def finishPass (now : DateTime) (acc : PassState) : Pipeline ReconciliationReport := do
  let reasons := acc.reasons.eraseDups
  let review := !reasons.isEmpty
  setFlag now "operator_review" (if review then "true" else "false")
  setFlag now "block_new_entries" (if review then "true" else "false")
  pure ⟨acc.updatedOrders, acc.newFills, acc.materializedFills, review, review, reasons⟩

/-- The comparison of the holdings, at the end of a pass. -/
def compareHoldings (now : DateTime) (acc : PassState)
    (account : Except ReadError (List AccountPosition)) : Pipeline ReconciliationReport := do
  match account with
  | .error e => finishPass now (acc.addReason ("account_snapshot_unavailable:" ++ e.exceptionCode))
  | .ok account => do
    let mismatches ← select fun db =>
      (comparedSymbols db account).filterMap (positionMismatch db account)
    finishPass now { acc with reasons := acc.reasons ++ mismatches }

/-- `reconcile_broker_state`, given what the two broker reads returned. -/
def reconcileBrokerState (now : DateTime) (orders : Except ReadError (List OrderRecord))
    (account : Except ReadError (List AccountPosition)) : Pipeline ReconciliationReport := do
  match orders with
  | .error e =>
    finishPass now (PassState.empty.addReason ("order_status_unavailable:" ++ e.exceptionCode))
  | .ok orders => do
    let rows ← selectOrders reconciledRows
    let acc ← rows.foldlM (reconcileOrder now orders) PassState.empty
    compareHoldings now { acc with reasons := acc.reasons ++ brokerOnlyReasons orders acc.matched }
      account

end AutoTrader
