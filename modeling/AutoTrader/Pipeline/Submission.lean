/-
  AutoTrader/Pipeline/Submission.lean
  ===================================
  **Sending an order: the ledger around the broker call, and the safety gate.**

  `_submit_with_ledger` claims the order under its client id, marks it SUBMITTING,
  calls the submitter once and records what came of it; each of these is a
  transaction of its own.  `GuardedSubmitter` is a submitter that reads the
  runtime state once more and raises `OrderSafetyGateError` instead of calling the
  broker when something is wrong.
-/
import AutoTrader.Pipeline.Actions

namespace AutoTrader

open Relational Interleave

/-- A submitter; the client id names the call and is not sent to the broker. -/
abbrev Submitter := String → OrderRequest → Pipeline (Option String)

/-- The broker's own submitter. -/
def brokerSubmitter : Submitter := fun clientOrderId request => do
  reraise (← Raising.ask (S := trading) (.submitOrder clientOrderId request))

/-! ### The safety gate -/

/-- A `GuardedSubmitter`, with what its clock answers or raises. -/
structure Guard where
  environment : String
  leaseName : String
  ownerId : String
  calendar : Calendar
  clock : Except Exn DateTime

def gateError (reason : String) : Exn := .orderSafetyGateError ("order blocked by safety gate: " ++ reason)

/-- `_is_true`. -/
def isTrue : Option MetadataValue → Bool
  | some (.text text) => Text.isWord ["1", "true", "yes", "on"] text
  | _ => false

/-- The keys whose metadata is true, read one after the other. -/
def trueKeys : List String → Pipeline (List String)
  | [] => pure []
  | key :: rest => do
    let value ← trySelect fun db => db.getRuntimeMetadata key
    let others ← trueKeys rest
    pure (if isTrue value then key :: others else others)

/-- `get_runtime_control`: paused unless the row says otherwise. -/
def Database.getRuntimeControl (db : Database) : RuntimeControl :=
  match db.runtimeControl with
  | none => ⟨true, "demo", ⟨0, some 0⟩, "default_paused", "database_init"⟩
  | some c => if c.environment = "" then { c with environment := "demo" } else c

/-- `_lease_belongs_to_owner`. -/
def leaseBelongsToOwner (row : Option ServiceLease) (ownerId : String) (now : DateTime) : Bool :=
  match row with
  | none => false
  | some lease =>
    lease.ownerId = ownerId &&
      match lease.expiresAt.fromisoformat with
      | .error _ => false
      | .ok expiresAt => now.instant < expiresAt.instant

/-- `_check_runtime_state`. -/
def checkRuntimeState (guard : Guard) (now : DateTime) : Pipeline Unit := do
  let control ← trySelect fun db => db.getRuntimeControl
  raiseIf control.paused (gateError "runtime_paused")
  raiseIf (control.environment ≠ guard.environment)
    (gateError ("runtime_environment_mismatch runtime=" ++ control.environment ++
      " expected=" ++ guard.environment))
  let emergency ← trueKeys ["emergency_stop", "telegram.emergency_stop"]
  raiseIf (!emergency.isEmpty) (gateError ("emergency_stop (" ++ ", ".intercalate emergency ++ ")"))
  let lease ← trySelect fun db => db.serviceLeases.find? guard.leaseName
  raiseIf (!leaseBelongsToOwner lease guard.ownerId now)
    (gateError ("service_lease_invalid lease=" ++ guard.leaseName ++ " owner=" ++ guard.ownerId))

/-- The first BUY order that the gate regards as unresolved. -/
def unresolvedBuy (db : Database) : Option OrderStatus :=
  (db.brokerOrders.rows.find? fun o => o.side = .buy ∧
    (o.status = .acknowledged ∨ o.status = .partiallyFilled ∨ o.status = .cancelPending ∨
      o.status = .unknown)).map (·.status)

/-- The checks of a BUY. -/
def checkBuy : Pipeline Unit := do
  let flags ← trueKeys ["block_new_entries", "operator_review"]
  raiseIf (!flags.isEmpty) (gateError (", ".intercalate flags))
  match ← trySelect unresolvedBuy with
  | some status => throw (gateError ("unresolved_buy_order status=" ++ status.name))
  | none => pure ()

/-- The checks of a SELL. -/
def checkSell (symbol : String) (quantity : Int) : Pipeline Unit := do
  let openQuantity ← trySelect fun db => db.openQuantity symbol
  raiseIf (openQuantity = 0) (gateError ("sell_without_local_open_position symbol=" ++ symbol))
  raiseIf ((openQuantity : Int) < quantity)
    (gateError ("sell_quantity_exceeds_local_position requested=" ++ toString quantity ++
      " available=" ++ toString openQuantity ++ " symbol=" ++ symbol))

def checkSide (request : OrderRequest) (quantity : Int) : Pipeline Unit :=
  match request.side with
  | .buy => checkBuy
  | .sell => checkSell request.symbol quantity

/-- `_positive_quantity`. -/
def positiveQuantity : Number → Except Exn Int
  | .int n => if 0 < n then .ok n else .error (gateError "invalid_quantity")
  | _ => .error (gateError "invalid_quantity")

/-- The `try` block of `GuardedSubmitter.submit_order`. -/
def safetyGate (guard : Guard) (request : OrderRequest) : Pipeline Unit := do
  let now ← reraise guard.clock
  let quantity ← reraise (positiveQuantity request.quantity)
  raiseIf (String.ofList (request.exchangeId.toList.map Text.upperChar) ≠ "KRX")
    (gateError "exchange_not_krx")
  -- `connect_database` and `init_schema`, which change no row
  trySelect fun _ => ()
  checkRuntimeState guard now
  raiseIf (!Schedule.isRegularMarketOpen guard.calendar now) (gateError "market_closed")
  checkSide request quantity
  checkRuntimeState guard now

section ReadsOnly

theorem readsOnly_trueKeys (keys : List String) : ReadsOnly (trueKeys keys) := by
  induction keys with
  | nil => exact Raising.Only.pure []
  | cons key rest ih =>
    apply (readsOnly_trySelect _).bind
    intro value
    exact ih.bind fun others => Raising.Only.pure _

theorem readsOnly_checkRuntimeState (guard : Guard) (now : DateTime) :
    ReadsOnly (checkRuntimeState guard now) := by
  apply (readsOnly_trySelect _).bind
  intro control
  apply (readsOnly_raiseIf _ _).bind
  intro _
  apply (readsOnly_raiseIf _ _).bind
  intro _
  apply (readsOnly_trueKeys _).bind
  intro emergency
  apply (readsOnly_raiseIf _ _).bind
  intro _
  apply (readsOnly_trySelect _).bind
  intro lease
  exact readsOnly_raiseIf _ _

theorem readsOnly_checkBuy : ReadsOnly checkBuy := by
  apply (readsOnly_trueKeys _).bind
  intro flags
  apply (readsOnly_raiseIf _ _).bind
  intro _
  apply (readsOnly_trySelect _).bind
  intro unresolved
  cases unresolved with
  | none => exact Raising.Only.pure ()
  | some status => exact Raising.Only.throw _

theorem readsOnly_checkSell (symbol : String) (quantity : Int) :
    ReadsOnly (checkSell symbol quantity) := by
  apply (readsOnly_trySelect _).bind
  intro available
  apply (readsOnly_raiseIf _ _).bind
  intro _
  exact readsOnly_raiseIf _ _

/-- The gate only reads. -/
theorem readsOnly_safetyGate (guard : Guard) (request : OrderRequest) :
    ReadsOnly (safetyGate guard request) := by
  apply (readsOnly_reraise _).bind
  intro now
  apply (readsOnly_reraise _).bind
  intro quantity
  apply (readsOnly_raiseIf _ _).bind
  intro _
  apply (readsOnly_trySelect _).bind
  intro _
  apply (readsOnly_checkRuntimeState guard now).bind
  intro _
  apply (readsOnly_raiseIf _ _).bind
  intro _
  refine Raising.Only.bind ?_ fun _ => readsOnly_checkRuntimeState guard now
  unfold checkSide
  cases request.side with
  | buy => exact readsOnly_checkBuy
  | sell => exact readsOnly_checkSell request.symbol quantity

end ReadsOnly

/-- What the gate makes of an exception of its checks. -/
def gateFailure : Exn → Exn
  | .orderSafetyGateError message => .orderSafetyGateError message
  | e => .orderSafetyGateError ("order safety gate check failed: " ++ e.typeName ++ ": " ++ e.message)

/-- `GuardedSubmitter.submit_order`. -/
def guardedSubmitter (guard : Guard) : Submitter := fun clientOrderId request => do
  match ← Raising.attempt (safetyGate guard request) with
  | .error e => throw (gateFailure e)
  | .ok _ => brokerSubmitter clientOrderId request

/-! ### The ledger around the call -/

structure SubmissionResult where
  submitted : Bool
  reason : String
  brokerOrderId : Option String

/-- `side.lower()`. -/
def Side.lowerName : Side → String
  | .buy => "buy"
  | .sell => "sell"

/-- `f"ai:{side.lower()}:{key}"`. -/
def clientOrderIdOf (side : Side) (key : String) : String := "ai:" ++ side.lowerName ++ ":" ++ key

/-- `idempotency_key or signal_id`. -/
def submissionKey (idempotencyKey : Option String) (signalId : String) : String :=
  if truthy idempotencyKey then idempotencyKey.getD "" else signalId

/-- `f"{type(exc).__name__}: {exc}"[:500]`. -/
def submissionError (e : Exn) : String :=
  String.ofList ((e.typeName ++ ": " ++ e.message).toList.take 500)

/-- `_record_execution_audit`; a quantity that was claimed is an `int`. -/
def executionAudit (request : OrderRequest) (signalId reason status : String)
    (brokerOrderId : Option String) (createdAt : DateTime) (clientOrderId : String) : AuditArgs where
  auditId := "broker-audit:" ++ clientOrderId ++ ":" ++ status
  signalId := some signalId
  symbol := request.symbol
  side := request.side.name
  quantity := match request.quantity with
    | .int n => n
    | _ => 0
  price := request.price
  status := status
  reason := reason
  brokerOrderId := brokerOrderId
  createdAt := some createdAt

/-- The arguments of the claim. -/
def claimArgs (request : OrderRequest) (signalId clientOrderId : String) (createdAt : DateTime) :
    IntentArgs where
  clientOrderId := clientOrderId
  signalId := some signalId
  symbol := request.symbol
  side := request.side.name
  requestedQty := request.quantity
  requestedPrice := request.price
  createdAt := some createdAt

/-- The outcome of a call that may or may not have reached the broker. -/
def recordUnknown (request : OrderRequest) (signalId reason clientOrderId error : String)
    (createdAt : DateTime) : Pipeline SubmissionResult := do
  let _ ← execute (.markOrderUnknown createdAt clientOrderId (some error) (some createdAt))
  let _ ← execute (.recordBrokerOrderAudit createdAt
    (executionAudit request signalId reason "UNKNOWN" none createdAt clientOrderId))
  pure ⟨false, "order_unknown", none⟩

/-- The outcome of a call that the broker answered. -/
def recordAcknowledged (request : OrderRequest) (signalId reason clientOrderId brokerOrderId : String)
    (createdAt : DateTime) : Pipeline SubmissionResult := do
  let _ ← execute (.recordOrderSubmission createdAt clientOrderId brokerOrderId (some createdAt))
  let _ ← execute (.recordBrokerOrderAudit createdAt
    (executionAudit request signalId reason "ACKNOWLEDGED" (some brokerOrderId) createdAt
      clientOrderId))
  pure ⟨true, reason, some brokerOrderId⟩

/-- `_submit_with_ledger` after the claim. -/
def submitClaimed (submitter : Submitter) (request : OrderRequest) (signalId reason : String)
    (clientOrderId : String) (createdAt : DateTime) : Pipeline SubmissionResult := do
  let _ ← execute (.markOrderSubmitting createdAt clientOrderId (some createdAt))
  match ← Raising.attempt (submitter clientOrderId request) with
  | .error e =>
    recordUnknown request signalId reason clientOrderId (submissionError e) createdAt
  | .ok broker =>
    if truthy broker then
      recordAcknowledged request signalId reason clientOrderId (broker.getD "") createdAt
    else
      recordUnknown request signalId reason clientOrderId "missing broker_order_id" createdAt

/-- `_submit_with_ledger`. -/
def submitWithLedger (submitter : Submitter) (request : OrderRequest) (signalId : String)
    (idempotencyKey : Option String) (reason : String) (createdAt : DateTime) :
    Pipeline SubmissionResult := do
  let clientOrderId := clientOrderIdOf request.side (submissionKey idempotencyKey signalId)
  let claimed ← execute (.claimOrderIntent createdAt
    (claimArgs request signalId clientOrderId createdAt))
  if claimed then submitClaimed submitter request signalId reason clientOrderId createdAt
  else pure ⟨false, "order_already_claimed", none⟩

end AutoTrader
