/-
  AutoTrader/Pipeline/DirectEntry.lean
  ====================================
  **The entry the AI decides, and `_maybe_enter_position` as a whole.**

  Without an approval request of the bar the entry is decided by the AI: the checks
  before the call, the call, the checks of its answer, and then an approval request for a
  decision of high risk or an order.  As on the approved path the checks only read; what
  they read from the clock, the market tables and the candidate scan is an argument.
-/
import AutoTrader.Pipeline.ApprovedEntry
import AutoTrader.Ai.Decision

namespace AutoTrader

open Relational Transactional Interleave EntryCheck

/-- What `decide` answers, and when it says it did. -/
structure AiAnswer where
  decision : TradingAIDecision
  generatedAt : DateTime

/-- What the direct path reads beside the inputs of an entry: the rest of its
    configuration, the strategies the scan found, the clock and the market tables before
    and after the call, and the answer. -/
structure DirectReads where
  cycle : AutoTradeConfig
  minConfidence : PyFloat
  maxAiResponseAgeSeconds : Option ℚ
  networkClient : Bool
  candidates : List String
  cycleDeadline : Option DateTime
  preAiNow : DateTime
  preAiView : MarketView
  answer : Except Exn AiAnswer
  responseNow : DateTime
  postAiView : MarketView
  submitNow : DateTime

def AIDecisionAction.value : AIDecisionAction → String
  | .hold => "HOLD"
  | .buy => "BUY"
  | .sell => "SELL"

/-- `abs(a.price - b.price) / b.price * 100`, for a price `b` that is not `<= 0`. -/
def priceDrift : PyFloat → PyFloat → PyFloat
  | .fin a, .fin b => deviationPct a b
  | .posInf, .fin _ => .posInf
  | .negInf, .fin _ => .posInf
  | _, _ => .nan

/-- `_ai_response_guard_reason`. -/
def aiResponseGuardReason (inputs : EntryInputs) (reads : DirectReads) (preAiTick : MarketTick)
    (answer : AiAnswer) : Option String :=
  match freshnessReason reads.postAiView reads.responseNow reads.cycle, reads.postAiView.latestTick with
  | some reason, _ => some (reason ++ "_after_ai")
  | none, none => some "stale_tick_after_ai"
  | none, some postAiTick =>
    let responseAge : ℚ :=
      (reads.responseNow.asKst.wall - answer.generatedAt.asKst.wall : ℚ) / DateTime.microsPerSecond
    if preAiTick.price.nonpos then some "price_snapshot_invalid"
    else if inputs.config.maxEntryDeviationPct.lt (priceDrift postAiTick.price preAiTick.price) then
      some "price_moved_during_ai"
    else if responseAge < 0 then some "ai_response_from_future"
    else if reads.maxAiResponseAgeSeconds.any (· < responseAge) then some "ai_response_too_old"
    else none

/-- `_candidate_strategies`. -/
def candidateStrategies (candidates : List String) : List String :=
  (candidates.map Text.strip).filter (· ≠ "")

/-- `assert value is not None`. -/
def asserted {α : Type} : Option α → Except Exn α
  | some a => .ok a
  | none => .error (.other "AssertionError" "")

/-- The prices of a BUY, normalised to the price steps. -/
structure BuyTerms where
  entry : Int
  stop : Int
  take : Int
deriving DecidableEq

/-- What the checks of an answer end with: an approval to ask for, or an order. -/
inductive DirectEntry where
  | approval (terms : BuyTerms) (quantity : Int)
  | order (terms : BuyTerms) (quantity : Int)

/-- The checks before the AI is asked, and the tick they end with. -/
def checkBeforeAi (reads : DirectReads) : EntryCheck MarketTick := do
  refuseIf (reads.candidates.isEmpty && reads.networkClient) "no_deterministic_candidate"
  refuseIf (deadlineReached reads.preAiNow reads.cycleDeadline) "cycle_deadline_exceeded"
  guard (freshnessReason reads.preAiView reads.preAiNow reads.cycle)
  require reads.preAiView.latestTick "stale_tick"

/-- The checks of an answer up to its prices. -/
def checkAnswer (inputs : EntryInputs) (reads : DirectReads) (symbol : String) (preAiTick : MarketTick)
    (answer : AiAnswer) : EntryCheck Unit := do
  let decision := answer.decision
  refuseIf (deadlineReached reads.responseNow reads.cycleDeadline) "cycle_deadline_exceeded"
  guard (aiResponseGuardReason inputs reads preAiTick answer)
  refuseIf (decision.symbol ≠ symbol) "ai_symbol_mismatch"
  refuseIf (decision.action ≠ .buy) ("ai_" ++ decision.action.value.toLower)
  refuseIf (decision.strategy.isNone && reads.networkClient) "ai_strategy_required"
  refuseIf (decision.strategy.any fun strategy => !(candidateStrategies reads.candidates).contains strategy)
    "ai_strategy_not_in_candidates"

/-- The deviation of the entry price from the close is finite and within its limit. -/
def checkDeviation (inputs : EntryInputs) (entry : ℚ) : EntryCheck Unit :=
  match closeDeviationPct entry inputs.latestClose with
  | .error _ => refuse "market_snapshot_invalid"
  | .ok (.fin deviation) =>
    refuseIf (inputs.config.maxEntryDeviationPct.lt (.fin deviation)) "entry_deviation_too_large"
  | .ok _ => refuse "entry_deviation_too_large"

/-- The prices of an answer, checked against the market. -/
def checkTerms (inputs : EntryInputs) (reads : DirectReads) (symbol : String)
    (decision : TradingAIDecision) : EntryCheck BuyTerms := do
  let entryPrice ← raising (asserted decision.entryPrice)
  let stopLossPrice ← raising (asserted decision.stopLossPrice)
  let takeProfitPrice ← raising (asserted decision.takeProfitPrice)
  let entry ← raising (normalizeKrxLimitPrice entryPrice .buy)
  let entryWon ← raising (wonPrice entry)
  guard (postAiLivePriceGuardReason inputs symbol entryWon)
  checkDeviation inputs entry
  refuseIf (decision.confidence.lt reads.minConfidence) "confidence_below_minimum"
  let stop ← raising (normalizeKrxLimitPrice stopLossPrice .buy)
  let take ← raising (normalizeKrxLimitPrice takeProfitPrice .sell)
  let stopWon ← raising (wonPrice stop)
  let takeWon ← raising (wonPrice take)
  validated (validateRiskReward entryWon takeWon stopWon) "invalid_risk_reward"
  pure ⟨entry, stop, take⟩

/-- The size of an order, checked against the risk limits and the budget. -/
def checkSize (inputs : EntryInputs) (reads : DirectReads) (symbol signalId : String)
    (decision : TradingAIDecision) (terms : BuyTerms) : EntryCheck DirectEntry := do
  if decision.highRisk then
    let quantity ← require (riskQuantity inputs symbol signalId decision.confidence terms.entry terms.stop)
      "risk_gate_rejected"
    pure (.approval terms quantity)
  else
    let risk := evaluateOrderIntent inputs.config.risk
      (inputs.portfolio.getD (.ofPositions inputs.paperPositions))
      ⟨symbol, "AI_INTRADAY", signalId, terms.entry, terms.stop, some decision.confidence⟩
    let quantity := min inputs.config.maxQuantity risk.quantity
    refuseIf (!risk.approved) risk.reason
    refuseIf (quantity ≤ 0) "quantity_zero"
    refuseIf (!entryBudgetOk inputs symbol terms.entry quantity) "entry_budget_unavailable_or_insufficient"
    refuseIf (deadlineReached reads.submitNow reads.cycleDeadline) "cycle_deadline_exceeded"
    pure (.order terms quantity)

/-- The checks of an answer. -/
def checkDecision (inputs : EntryInputs) (reads : DirectReads) (symbol signalId : String)
    (preAiTick : MarketTick) (answer : AiAnswer) : EntryCheck DirectEntry := do
  checkAnswer inputs reads symbol preAiTick answer
  let terms ← checkTerms inputs reads symbol answer.decision
  checkSize inputs reads symbol signalId answer.decision terms

/-- `record_ai_decision`: a NaN is stored as NULL, and a row without a confidence is
    ignored. -/
def recordAiDecision (decision : TradingAIDecision) : Tx Unit := do
  Exec.ofExcept (validateSymbol decision.symbol)
  Exec.require (decision.decisionId ≠ "")
    (.valueError "decision_id, action, risk_level, and rationale are required")
  let stored (price : Option PyFloat) : Option PyFloat := price.filter (· ≠ .nan)
  let row : AiDecisionAudit :=
    { decisionId := decision.decisionId, symbol := decision.symbol, action := decision.action.value
      confidence := decision.confidence, entryPrice := stored decision.entryPrice
      takeProfitPrice := stored decision.takeProfitPrice, stopLossPrice := stored decision.stopLossPrice
      maxHoldingSeconds := decision.maxHoldingSeconds }
  if decision.confidence = .nan then pure ()
  else Exec.statement fun db =>
    ((), { db with aiDecisionAudits := (db.aiDecisionAudits.insertOrIgnore row).1 })

/-- The approval request of a decision of high risk. -/
def approvalArgs (inputs : EntryInputs) (symbol signalId requestId : String) (decision : TradingAIDecision)
    (terms : BuyTerms) (quantity : Int) : ApprovalArgs :=
  { requestId, symbol, decisionId := some decision.decisionId, reason := "high_risk_ai_decision"
    status := .pending, signalId := some signalId, quantity := some (.int quantity)
    entryPrice := some (.int terms.entry), takeProfitPrice := some (.int terms.take)
    stopLossPrice := some (.int terms.stop), maxHoldingSeconds := decision.maxHoldingSeconds
    expiresAt := none, createdAt := some inputs.now }

/-- The order of the direct path. -/
def submitDirectOrder (broker : BrokerReplies) (submitter : Submitter) (now : DateTime)
    (symbol signalId decisionId : String) (terms : BuyTerms) (quantity : Int) :
    Tx AutoTradeSymbolResult := do
  let request ← Exec.ofExcept (krxRequest symbol .buy quantity (.int terms.entry))
  let result ← runPipeline broker (submitWithLedger submitter request decisionId
    (some signalId) "ai_approved" now)
  pure ⟨symbol, "BUY", result.submitted, !result.submitted, result.reason, quantity,
    result.brokerOrderId⟩

/-- `_maybe_enter_position` once no approval request of the bar decides. -/
def directEntry (broker : BrokerReplies) (submitter : Submitter) (inputs : EntryInputs)
    (reads : DirectReads) (symbol : String) (barStart : DateTime) : Tx AutoTradeSymbolResult := do
  let signalId := entrySignalId symbol barStart
  if ← .query fun db => (db.brokerOrders.find? (clientOrderIdOf .buy signalId)).isSome then
    pure (.blockedBy symbol "order_already_claimed")
  else
    match ← Exec.ofExcept (checkBeforeAi reads).run with
    | .error reason => pure (.blockedBy symbol reason)
    | .ok preAiTick =>
      let answer ← Exec.ofExcept reads.answer
      recordAiDecision answer.decision
      match ← Exec.ofExcept (checkDecision inputs reads symbol signalId preAiTick answer).run with
      | .error reason => pure (.blockedBy symbol reason)
      | .ok (.approval terms quantity) =>
        let requestId := approvalRequestId symbol barStart
        let _ ← recordApprovalRequest inputs.now
          (approvalArgs inputs symbol signalId requestId answer.decision terms quantity)
        pure (.blockedBy symbol "operator_approval_required")
      | .ok (.order terms quantity) =>
        submitDirectOrder broker submitter inputs.now symbol signalId answer.decision.decisionId terms
          quantity

/-- `_maybe_enter_position`; `barStart` is the start of the last bar, if there is one. -/
def enterPosition (broker : BrokerReplies) (submitter : Submitter) (inputs : EntryInputs)
    (reads : DirectReads) (symbol : String) (barStart : Option DateTime) : Tx AutoTradeSymbolResult :=
  match barStart with
  | none => pure (.blockedBy symbol "missing_bars")
  | some barStart => do
    match ← approvalStage broker submitter inputs symbol barStart
        (deadlineReached reads.preAiNow reads.cycleDeadline) with
    | some result => pure result
    | none => directEntry broker submitter inputs reads symbol barStart

end AutoTrader
