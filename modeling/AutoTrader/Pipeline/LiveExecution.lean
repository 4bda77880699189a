/-
  AutoTrader/Pipeline/LiveExecution.lean
  ======================================
  **From an approved shadow signal to one broker order.**

  `submit_shadow_live_buy` checks the report, looks for a SUBMITTED audit of the
  signal, calls the submitter, and writes the SUBMITTED audit afterwards.  A call
  that is blocked leaves a BLOCKED audit.
-/
import AutoTrader.Pipeline.AutoTrade

namespace AutoTrader

open Relational Transactional Interleave

/-- The fields of a `ShadowCycleReport` that the bridge reads. -/
structure ShadowCycleReport where
  symbol : String
  tradingBlocked : Bool
  riskApproved : Bool
  riskReason : String
  riskQuantity : Int
  signalId : Option String
  entryPrice : Option Number

/-- The arguments of a call with a database, the clock it reads when `currentTime` is
    not given, and the `uuid4().hex` of its audit. -/
structure ShadowCall where
  report : ShadowCycleReport
  paused : Bool
  confirmSubmit : Bool
  maxQuantity : Int
  currentTime : Option DateTime
  now : DateTime
  uuid : String

structure LiveOrderExecutionResult where
  submitted : Bool
  blocked : Bool
  reason : String
  quantity : Int
  brokerOrderId : Option String

/-- `broker_signal_submitted`. -/
def Database.brokerSignalSubmitted (db : Database) (signalId : String) : Bool :=
  db.brokerOrderAudits.rows.any fun a => a.signalId = some signalId && a.status = "SUBMITTED"

/-- `_audit_id`. -/
def shadowAuditId (signalId : Option String) (suffix uuid : String) : String :=
  "broker-audit:" ++ (if truthy signalId then signalId.getD "" else "no-signal") ++ ":" ++ suffix ++
    ":" ++ uuid

namespace ShadowCall

variable (c : ShadowCall)

/-- The checks before the database is asked: the reason the call is blocked for, or the
    signal and the price. -/
def check : Except String (String × Number) :=
  if c.paused then .error "runtime_paused"
  else if c.confirmSubmit = false then .error "confirmation_required"
  else if c.report.tradingBlocked then
    .error (if c.report.riskReason ≠ "" then c.report.riskReason else "market_health_blocked")
  else if c.report.riskApproved = false then
    .error (if c.report.riskReason ≠ "" then c.report.riskReason else "risk_rejected")
  else
    match c.report.signalId, c.report.entryPrice with
    | none, _ => .error "missing_signal_id"
    | some signalId, price =>
      if signalId = "" then .error "missing_signal_id"
      else
        match price with
        | none => .error "missing_entry_price"
        | some price =>
          if price.nonpos then .error "missing_entry_price"
          else if c.report.riskQuantity ≤ 0 then .error "risk_quantity_zero"
          else .ok (signalId, price)

/-- `min(report.risk_quantity, max_quantity)`. -/
def quantity : Int := min c.report.riskQuantity c.maxQuantity

/-- The audit of a blocked call. -/
def blockedAudit (reason : String) : AuditArgs where
  auditId := shadowAuditId c.report.signalId ("blocked-" ++ reason) c.uuid
  signalId := c.report.signalId
  symbol := c.report.symbol
  side := Side.buy.name
  quantity := max 1 (if c.report.riskQuantity = 0 then 1 else c.report.riskQuantity)
  price :=
    match c.report.entryPrice with
    | some price => if (PyFloat.fin 0).lt price.value then price else .float (.fin 1)
    | none => .float (.fin 1)
  status := "BLOCKED"
  reason := reason
  brokerOrderId := none
  createdAt := c.currentTime

/-- The audit of a submission. -/
def submittedAudit (signalId : String) (price : Number) (brokerOrderId : Option String) : AuditArgs where
  auditId := shadowAuditId (some signalId) "submitted" c.uuid
  signalId := some signalId
  symbol := c.report.symbol
  side := Side.buy.name
  quantity := c.quantity
  price := price
  status := "SUBMITTED"
  reason := "approved"
  brokerOrderId := brokerOrderId
  createdAt := c.currentTime

end ShadowCall

/-- `_blocked`. -/
def blockShadow (c : ShadowCall) (reason : String) : Pipeline LiveOrderExecutionResult := do
  let _ ← execute (.recordBrokerOrderAudit c.now (c.blockedAudit reason))
  pure ⟨false, true, reason, 0, none⟩

/-- The order, and its audit afterwards. -/
def submitShadow (c : ShadowCall) (signalId : String) (price : Number) :
    Pipeline LiveOrderExecutionResult := do
  let request ← reraise (krxRequest c.report.symbol .buy c.quantity price)
  let brokerOrderId ← brokerSubmitter signalId request
  let _ ← execute (.recordBrokerOrderAudit c.now (c.submittedAudit signalId price brokerOrderId))
  pure ⟨true, false, "approved", c.quantity, brokerOrderId⟩

/-- `submit_shadow_live_buy`, with a database. -/
def submitShadowLiveBuy (c : ShadowCall) : Pipeline LiveOrderExecutionResult := do
  if c.maxQuantity ≤ 0 then throw (.valueError "max_quantity must be positive")
  else
    match c.check with
    | .error reason => blockShadow c reason
    | .ok (signalId, price) => do
      if ← select fun db => db.brokerSignalSubmitted signalId then blockShadow c "duplicate_signal"
      else submitShadow c signalId price

end AutoTrader
