/-
  AutoTrader/Ai/Decision.lean
  ===========================
  **A trading decision of the AI, and the risk plan of a BUY.**

  The client replaces the prices of a BUY by a plan of its own around the entry price:
  a stop 0.8% below and a take-profit 1.6 times as far above, each rounded to a price
  step.  0.992 and 1.6 are exact.
-/
import AutoTrader.Pipeline.EntryRules

namespace AutoTrader

inductive AIDecisionAction where
  | hold
  | buy
  | sell
deriving DecidableEq

inductive AIRiskLevel where
  | low
  | normal
  | high
deriving DecidableEq

/-- The fields of a `TradingAIDecision` that trading reads. -/
structure TradingAIDecision where
  decisionId : String
  symbol : String
  action : AIDecisionAction
  strategy : Option String
  confidence : PyFloat
  entryPrice : Option PyFloat
  takeProfitPrice : Option PyFloat
  stopLossPrice : Option PyFloat
  maxHoldingSeconds : Option Int
  riskLevel : AIRiskLevel
  requiresOperatorApproval : Bool
deriving DecidableEq

def TradingAIDecision.highRisk (decision : TradingAIDecision) : Bool :=
  decision.riskLevel = .high || decision.requiresOperatorApproval

/-- A whole number of won that is positive, as a price. -/
def wonPrice (won : Int) : Except Exn PosRat :=
  if h : (0 : ℚ) < won then .ok ⟨won, h⟩
  else .error (.valueError "price must be a finite positive number")

/-- `_normalize_buy_risk_plan`. -/
def normalizeBuyRiskPlan (decision : TradingAIDecision) : Except Exn TradingAIDecision :=
  match decision.action, decision.entryPrice with
  | .buy, none => .error (.other "AssertionError" "")
  | .buy, some entryPrice => do
    let entry ← normalizeKrxLimitPrice entryPrice .buy
    let stop ← normalizeKrxLimitPrice (.fin (entry * (992 / 1000))) .buy
    let riskPerShare := entry - stop
    let take ← normalizeKrxLimitPrice (.fin (entry + riskPerShare * (16 / 10))) .sell
    validateRiskReward (← wonPrice entry) (← wonPrice take) (← wonPrice stop)
    .ok { decision with
          entryPrice := some (.fin entry)
          stopLossPrice := some (.fin stop)
          takeProfitPrice := some (.fin take) }
  | _, _ => .ok decision

end AutoTrader
