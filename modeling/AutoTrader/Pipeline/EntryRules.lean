/-
  AutoTrader/Pipeline/EntryRules.lean
  ===================================
  **The rules an entry has to pass: price ticks, risk and reward, position size.**

  `kis_market_rules`, the risk engine and the live price guard of the auto-trade
  cycle.  They are pure: what they read from outside (a fresh price, the portfolio,
  the risk limits) is an argument.  Prices are exact; the 28 digits of `Decimal`
  and the rounding of `float` are not modelled.
-/
import AutoTrader.Pipeline.AutoTrade

namespace AutoTrader

/-! ### Market rules -/

/-- `normalize_krx_limit_price`: down to a price step for a BUY, up to one for a SELL. -/
def normalizeKrxLimitPrice (price : PyFloat) (side : Side) : Except Exn Int :=
  match price with
  | .fin q =>
    if q ≤ 0 then .error (.valueError "price must be a finite positive number")
    else
      let tick := krxTickSize q
      let steps := match side with
        | .buy => (q / tick).floor
        | .sell => (q / tick).ceil
      if steps * tick ≤ 0 then .error (.valueError "normalized price must be positive")
      else .ok (steps * tick)
  | _ => .error (.valueError "price must be a finite positive number")

/-- `validate_risk_reward` with its default limits, on prices that are positive. -/
def validateRiskReward (entry takeProfit stopLoss : PosRat) : Except Exn Unit :=
  if takeProfit.val ≤ entry.val ∨ entry.val ≤ stopLoss.val then
    .error (.valueError "long trade prices must satisfy stop_loss < entry < take_profit")
  else if (entry.val - stopLoss.val) / entry.val < 5 / 1000 then
    .error (.valueError "stop-loss distance is below the minimum")
  else if (takeProfit.val - entry.val) / (entry.val - stopLoss.val) < 3 / 2 then
    .error (.valueError "risk-reward ratio is below the minimum")
  else .ok ()

/-! ### The risk engine -/

structure RiskConfig where
  allocatedKrw : ℚ
  riskPerTradePct : ℚ
  maxPositionPct : ℚ
  maxTotalExposurePct : ℚ
  maxPositions : Int
  maxDailyLossPct : ℚ
  consecutiveLossLimit : Int
  maxTradesPerDay : Option Int
  maxOrdersPerSymbol : Int
  minimumConfidence : PyFloat

/-- A `PortfolioState`; of its positions the engine reads the symbols, and of the
    orders the number for a symbol, 0 if there is none. -/
structure PortfolioState where
  currentExposureKrw : ℚ
  openPositions : List String
  dailyPnlKrw : ℚ
  consecutiveLosses : Int
  tradesToday : Int
  ordersBySymbol : String → Int

/-- `PortfolioState(open_positions=...)`. -/
def PortfolioState.ofPositions (openPositions : List String) : PortfolioState :=
  ⟨0, openPositions, 0, 0, 0, fun _ => 0⟩

structure OrderIntent where
  symbol : String
  strategy : String
  signalId : String
  entryPrice : ℚ
  stopLoss : ℚ
  confidence : Option PyFloat

structure RiskDecision where
  approved : Bool
  reason : String
  quantity : Int
  maxLossKrw : ℚ

def RiskDecision.rejected (reason : String) : RiskDecision := ⟨false, reason, 0, 0⟩

/-- `calculate_quantity`. -/
def calculateQuantity (config : RiskConfig) (entryPrice stopLoss : ℚ) : Int :=
  if entryPrice ≤ 0 ∨ stopLoss ≤ 0 ∨ entryPrice ≤ stopLoss then 0
  else
    let riskBudget := config.allocatedKrw * config.riskPerTradePct / 100
    let positionCap := config.allocatedKrw * config.maxPositionPct / 100
    if riskBudget ≤ 0 ∨ positionCap ≤ 0 then 0
    else max 0 (min (riskBudget / (entryPrice - stopLoss)).floor (positionCap / entryPrice).floor)

/-- `config.minimum_confidence > intent.confidence`, when there is a confidence. -/
def belowConfidence (config : RiskConfig) (confidence : Option PyFloat) : Bool :=
  match confidence with
  | none => false
  | some value => value.lt config.minimumConfidence

/-- The limits that do not depend on the size: the first one that is reached. -/
def portfolioLimit (config : RiskConfig) (portfolio : PortfolioState) (symbol : String) :
    Option String :=
  if portfolio.openPositions.contains symbol then some "existing_position_same_symbol"
  else if config.maxPositions ≤ portfolio.openPositions.length then some "max_positions_reached"
  else if portfolio.dailyPnlKrw ≤ -(config.allocatedKrw * config.maxDailyLossPct / 100) then
    some "daily_loss_limit_reached"
  else if config.consecutiveLossLimit ≤ portfolio.consecutiveLosses then
    some "consecutive_loss_limit_reached"
  else if config.maxTradesPerDay.any (· ≤ portfolio.tradesToday) then
    some "max_trades_per_day_reached"
  else if config.maxOrdersPerSymbol ≤ portfolio.ordersBySymbol symbol then
    some "max_orders_per_symbol_reached"
  else none

/-- `evaluate_order_intent`. -/
def evaluateOrderIntent (config : RiskConfig) (portfolio : PortfolioState) (intent : OrderIntent) :
    RiskDecision :=
  if intent.symbol = "" ∨ intent.strategy = "" ∨ intent.signalId = "" then .rejected "invalid_intent"
  else if intent.entryPrice ≤ 0 ∨ intent.stopLoss ≤ 0 ∨ intent.entryPrice ≤ intent.stopLoss then
    .rejected "invalid_entry_or_stop"
  else if belowConfidence config intent.confidence then .rejected "confidence_below_minimum"
  else
    match portfolioLimit config portfolio intent.symbol with
    | some reason => .rejected reason
    | none =>
      let quantity := calculateQuantity config intent.entryPrice intent.stopLoss
      if quantity ≤ 0 then .rejected "calculated_quantity_zero"
      else if config.allocatedKrw * config.maxTotalExposurePct / 100 <
          portfolio.currentExposureKrw + quantity * intent.entryPrice then
        .rejected "max_total_exposure_reached"
      else ⟨true, "approved", quantity, quantity * (intent.entryPrice - intent.stopLoss)⟩

/-! ### The entry path of the cycle -/

/-- The fields of `AutoTradeConfig` that an entry reads. -/
structure EntryConfig where
  risk : RiskConfig
  maxQuantity : Int
  maxEntryDeviationPct : PyFloat

/-- What an entry learns from outside the ledgers: the close of the last bar, the
    portfolio if one is given, the paper positions, and the two checkers if there
    are any. -/
structure EntryInputs where
  config : EntryConfig
  now : DateTime
  latestClose : PyFloat
  portfolio : Option PortfolioState
  paperPositions : List String
  entryBudgetChecker : Option (String → ℚ → Int → Except Exn Bool)
  postAiPriceChecker : Option (String → Except Exn Number)

/-- `_risk_quantity`. -/
def riskQuantity (inputs : EntryInputs) (symbol signalId : String) (confidence : PyFloat)
    (entryPrice stopLossPrice : ℚ) : Option Int :=
  let decision := evaluateOrderIntent inputs.config.risk
    (inputs.portfolio.getD (.ofPositions inputs.paperPositions))
    ⟨symbol, "AI_INTRADAY", signalId, entryPrice, stopLossPrice, some confidence⟩
  if decision.approved = false then none
  else
    let quantity := min inputs.config.maxQuantity decision.quantity
    if 0 < quantity then some quantity else none

/-- `_entry_budget_ok`. -/
def entryBudgetOk (inputs : EntryInputs) (symbol : String) (price : ℚ) (quantity : Int) : Bool :=
  match inputs.entryBudgetChecker with
  | none => true
  | some checker =>
    match checker symbol price quantity with
    | .ok answer => answer
    | .error _ => false

/-- `abs(a - b) / b * 100`. -/
def deviationPct (a b : ℚ) : PyFloat := .fin (|a - b| / b * 100)

/-- `_post_ai_live_price_guard_reason`, for an entry price that is positive. -/
def postAiLivePriceGuardReason (inputs : EntryInputs) (symbol : String) (entryPrice : PosRat) :
    Option String :=
  match inputs.postAiPriceChecker with
  | none => none
  | some checker =>
    match checker symbol with
    | .error _ => some "post_ai_price_check_failed"
    | .ok fresh =>
      match fresh.positive?, inputs.latestClose with
      | none, _ => some "post_ai_price_invalid"
      | some freshPrice, .fin snapshotPrice =>
        if snapshotPrice ≤ 0 then some "market_snapshot_invalid"
        else if inputs.config.maxEntryDeviationPct.lt (deviationPct freshPrice.val snapshotPrice) then
          some "post_ai_price_deviation_too_large"
        else if inputs.config.maxEntryDeviationPct.lt (deviationPct entryPrice.val freshPrice.val) then
          some "entry_deviation_from_live_too_large"
        else none
      | some _, _ => some "market_snapshot_invalid"

end AutoTrader
