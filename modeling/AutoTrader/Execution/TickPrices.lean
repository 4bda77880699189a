/-
  AutoTrader/Execution/TickPrices.lean
  ====================================
  **What the price steps leave of a price.**

  Three parts of the program round to the steps of the exchange: the normalization of
  limit prices, the exit policy and the risk plan of the AI.  `krx_normalization_exact`
  says what the rounding is, `protective_exit_planned` that it never costs an exit its
  slippage limit, and `buy_risk_plan_tradable` that it never costs a BUY its ratio of
  reward to risk.
-/
import AutoTrader.Ai.Decision
import AutoTrader.Broker.MarketRules
import AutoTrader.Execution.ExitPolicy
import Mathlib.Tactic.Linarith

namespace AutoTrader

open TickGrid

/-! ### Normalization -/

/-- Below 1 nothing is left of a price that is rounded down. -/
theorem down_of_lt_one {price : ℚ} (hprice : 0 < price) (hlt : price < 1) :
    krxTickTable.down price ≤ 0 := by
  have hle := TickTable.down_le krxTickTable_aligned hprice.le
  have hlt' : (krxTickTable.down price : ℚ) < 1 := hle.trans_lt hlt
  have : krxTickTable.down price < 1 := by exact_mod_cast hlt'
  omega

theorem krxTickSize_pos {price : ℚ} (hprice : 0 < price) : 0 < krxTickSize price := by
  have hpos := TickTable.step_pos krxTickTable_aligned hprice.le
  rw [krxTickSize_eq_step]
  exact_mod_cast hpos

theorem tickFloor_krxTickRule {price : ℚ} (hprice : 0 < price) :
    tickFloor price krxTickRule =
      if krxTickTable.down price ≤ 0 then .error (exitPolicyError "normalized SELL price is invalid")
      else .ok (krxTickTable.down price, krxTickSize price) := by
  have hfloor : (price / krxTickSize price).floor * krxTickSize price = krxTickTable.down price := by
    rw [krxTickSize_eq_step]
    rfl
  unfold tickFloor krxTickRule
  simp only [not_le.mpr hprice, if_false, not_le.mpr (krxTickSize_pos hprice), hfloor]

/-- The tick floor of the exit policy gives the price of the BUY normalization. -/
theorem tickFloor_eq_normalize {price : ℚ} (hprice : 0 < price) :
    (tickFloor price krxTickRule).toOption.map Prod.fst =
      (normalizeKrxLimitPrice (.fin price) .buy).toOption := by
  rw [tickFloor_krxTickRule hprice, normalizeKrxLimitPrice_eq hprice]
  simp only
  by_cases hdown : krxTickTable.down price ≤ 0
  · rw [if_pos hdown, if_pos hdown]
    rfl
  · rw [if_neg hdown, if_neg hdown]
    rfl

theorem normalize_mono {price price' : ℚ} {side : Side} {won won' : Int} (hprice : 0 < price)
    (hle : price ≤ price') (hwon : normalizeKrxLimitPrice (.fin price) side = .ok won)
    (hwon' : normalizeKrxLimitPrice (.fin price') side = .ok won') : won ≤ won' := by
  rw [normalizeKrxLimitPrice_eq hprice] at hwon
  rw [normalizeKrxLimitPrice_eq (hprice.trans_le hle)] at hwon'
  cases side with
  | buy =>
    have hmono := TickTable.down_mono krxTickTable_aligned hprice.le hle
    simp only at hwon hwon'
    split at hwon <;> split at hwon' <;> cases hwon <;> cases hwon'
    exact_mod_cast hmono
  | sell =>
    have hmono := TickTable.up_mono krxTickTable_aligned hprice.le hle
    simp only at hwon hwon'
    split at hwon <;> split at hwon' <;> cases hwon <;> cases hwon'
    exact_mod_cast hmono

theorem normalize_of_valid {price : ℚ} (hvalid : isValidKrxLimitPrice (.fin price) = true) (side : Side) :
    ∃ won : Int, normalizeKrxLimitPrice (.fin price) side = .ok won ∧ (won : ℚ) = price := by
  obtain ⟨hpos, hgrid⟩ := (isValidKrxLimitPrice_iff price).mp hvalid
  cases side with
  | buy =>
    exact ⟨_, normalize_buy (one_le_of_valid hvalid),
      TickTable.down_of_onGrid krxTickTable_aligned hpos.le hgrid⟩
  | sell =>
    exact ⟨_, normalize_sell hpos, TickTable.up_of_onGrid krxTickTable_aligned hpos.le hgrid⟩

/-- A step is at most half a percent of the price, or 1. -/
theorem krxTickSize_le (price : ℚ) : krxTickSize price = 1 ∨ (krxTickSize price : ℚ) ≤ price / 200 := by
  unfold krxTickSize
  split_ifs with h1 h2 h3 h4 h5 h6
  · exact .inl rfl
  all_goals
    right
    push_cast
    linarith

/-- Rounding a price down keeps it within half a percent, from 200 on or where the price
    is whole. -/
theorem down_within_slippage {price : ℚ} (hprice : 1 ≤ price)
    (h : (∃ won : Int, price = won) ∨ 200 ≤ price) :
    price * (1 - 50 / 10000) ≤ krxTickTable.down price := by
  have hpos : 0 < price := zero_lt_one.trans_le hprice
  have hlt := TickTable.lt_down_add krxTickTable_aligned hpos.le
  have hstep : (krxTickSize price : ℚ) = krxTickTable.step price := by
    rw [krxTickSize_eq_step]
    rfl
  rcases krxTickSize_le price with hone | hsmall
  · rcases h with ⟨won, rfl⟩ | hlarge
    · -- a whole price is a multiple of the step 1
      have hgrid : krxTickTable.OnGrid (won : ℚ) := ⟨won, by rw [← hstep, hone]; norm_num⟩
      rw [TickTable.down_of_onGrid krxTickTable_aligned hpos.le hgrid]
      linarith
    · rw [← hstep, hone] at hlt
      push_cast at hlt
      linarith
  · rw [← hstep] at hlt
    linarith

theorem exitDecimal_of_positive? {value : Number} {price : PosRat} (h : value.positive? = some price)
    (name : String) : exitDecimal value name true = .ok price.val := by
  cases value with
  | bool b => cases h
  | int n =>
    simp only [Number.positive?] at h
    split at h
    · rename_i hpos
      cases h
      have hn : ¬ n ≤ 0 := not_le.mpr (by exact_mod_cast hpos)
      simp [exitDecimal, hn]
    · cases h
  | float x =>
    cases x with
    | fin q =>
      simp only [Number.positive?] at h
      split at h
      · rename_i hpos
        cases h
        simp [exitDecimal, not_le.mpr hpos]
      · cases h
    | nan => cases h
    | posInf => cases h
    | negInf => cases h

/-- The plan of the default policy for a quote whose bid is the current price. -/
theorem planSellLimit_self {current : Number} {price : PosRat} (hcurrent : current.positive? = some price)
    (hone : 1 ≤ price.val) :
    ({} : ExitPolicy).planSellLimit ⟨some current, none, some current⟩ none =
      if (krxTickTable.down price.val : ℚ) < price.val * (1 - 50 / 10000) then
        .error (exitPolicyError "SELL price exceeds max slippage")
      else .ok ⟨krxTickTable.down price.val, krxTickSize price.val,
        max 0 ((price.val - krxTickTable.down price.val) / price.val * 10000), "bid", false⟩ := by
  have hfloor := tickFloor_krxTickRule price.pos
  rw [if_neg (not_le.mpr (one_le_down hone))] at hfloor
  unfold ExitPolicy.planSellLimit
  simp only [ExitQuote.bidPrice, ExitQuote.currentOr, ExitQuote.askPrice, exitDecimal_of_positive? hcurrent,
    hfloor, ExitPolicy.isCloseUrgent, Bind.bind, Except.bind,
    Option.any_none, Bool.false_eq_true, if_false]

/-- `_maybe_exit_position` plans with the default policy. -/
theorem planSellLimit_default {price : ℚ} (hprice : 1 ≤ price) :
    planSellLimit (.fin price) =
      (({} : ExitPolicy).planSellLimit ⟨some (.float (.fin price)), none, some (.float (.fin price))⟩
        none).toOption.map (·.price) := by
  have hpos : 0 < price := zero_lt_one.trans_le hprice
  have hpositive : (Number.float (.fin price)).positive? = some ⟨price, hpos⟩ := dif_pos hpos
  have hfloor : (price / krxTickSize price).floor * krxTickSize price = krxTickTable.down price := by
    rw [krxTickSize_eq_step]
    rfl
  have hdown : ¬ krxTickTable.down price ≤ 0 := not_le.mpr (one_le_down hprice)
  rw [planSellLimit_self hpositive hprice]
  simp only [planSellLimit, not_le.mpr hpos, if_false, hfloor, hdown]
  split_ifs <;> rfl

/-! ### The risk plan of a BUY -/

/-- What a plan has: valid prices in order, a stop at least half a percent away and a
    reward at least one and a half times the risk. -/
structure Tradable (entry stop take : PosRat) : Prop where
  entry_valid : isValidKrxLimitPrice (.fin entry.val) = true
  stop_valid : isValidKrxLimitPrice (.fin stop.val) = true
  take_valid : isValidKrxLimitPrice (.fin take.val) = true
  stop_lt : stop.val < entry.val
  lt_take : entry.val < take.val
  distance : 5 / 1000 * entry.val ≤ entry.val - stop.val
  reward : 3 / 2 * (entry.val - stop.val) ≤ take.val - entry.val

/-- The trading cycle normalizes the prices once more and validates them. -/
theorem Tradable.renormalized {entry stop take : PosRat} (h : Tradable entry stop take) :
    (∃ won : Int, normalizeKrxLimitPrice (.fin entry.val) .buy = .ok won ∧ (won : ℚ) = entry.val) ∧
    (∃ won : Int, normalizeKrxLimitPrice (.fin stop.val) .buy = .ok won ∧ (won : ℚ) = stop.val) ∧
    (∃ won : Int, normalizeKrxLimitPrice (.fin take.val) .sell = .ok won ∧ (won : ℚ) = take.val) ∧
    validateRiskReward entry take stop = .ok () := by
  refine ⟨normalize_of_valid h.entry_valid _, normalize_of_valid h.stop_valid _,
    normalize_of_valid h.take_valid _, ?_⟩
  have hrisk : 0 < entry.val - stop.val := sub_pos.mpr h.stop_lt
  have hdistance : ¬ (entry.val - stop.val) / entry.val < 5 / 1000 := by
    rw [not_lt, le_div_iff₀ entry.pos]
    exact h.distance
  have hratio : ¬ (take.val - entry.val) / (entry.val - stop.val) < 3 / 2 := by
    rw [not_lt, le_div_iff₀ hrisk]
    exact h.reward
  unfold validateRiskReward
  rw [if_neg (not_or.mpr ⟨not_le.mpr h.lt_take, not_le.mpr h.stop_lt⟩), if_neg hdistance, if_neg hratio]

theorem wonPrice_ok {won : Int} (h : (0 : ℚ) < won) : wonPrice won = .ok ⟨won, h⟩ := dif_pos h

/-- The plan around an entry price that is normalized already. -/
theorem plan_tradable {entry : Int} (hentry : 2 ≤ entry)
    (hvalid : isValidKrxLimitPrice (.fin entry) = true) :
    ∃ (stop take : Int) (hentry0 : (0 : ℚ) < entry) (hstop0 : (0 : ℚ) < stop) (htake0 : (0 : ℚ) < take),
      normalizeKrxLimitPrice (.fin (entry * (992 / 1000))) .buy = .ok stop ∧
      normalizeKrxLimitPrice (.fin (entry + (entry - stop : Int) * (16 / 10))) .sell = .ok take ∧
      Tradable ⟨entry, hentry0⟩ ⟨stop, hstop0⟩ ⟨take, htake0⟩ := by
  have hentry2 : (2 : ℚ) ≤ entry := by exact_mod_cast hentry
  have hone : (1 : ℚ) ≤ entry * (992 / 1000) := by linarith
  set stop := krxTickTable.down (entry * (992 / 1000))
  have hstop : IsGreatest _ (stop : ℚ) := down_isGreatest_valid hone
  have hstop1 : (1 : ℚ) ≤ stop := by exact_mod_cast one_le_down hone
  have hstopLe : (stop : ℚ) ≤ entry * (992 / 1000) := hstop.1.2
  have hrisk : (0 : ℚ) < entry + (entry - stop : Int) * (16 / 10) := by
    push_cast
    linarith
  set take := krxTickTable.up (entry + (entry - stop : Int) * (16 / 10))
  have htake : IsLeast _ (take : ℚ) := up_isLeast_valid hrisk
  have htakeGe : (entry : ℚ) + (entry - stop : Int) * (16 / 10) ≤ take := htake.1.2
  push_cast at htakeGe
  refine ⟨stop, take, by linarith, by linarith, by linarith, normalize_buy hone, normalize_sell hrisk, ?_⟩
  constructor
  · exact hvalid
  · exact hstop.1.1
  · exact htake.1.1
  · simp only
    linarith
  · simp only
    linarith
  · simp only
    linarith
  · simp only
    linarith

/-- **The risk plan of a BUY from 2 won on is tradable**, and stays as it is. -/
theorem buy_risk_plan_tradable {decision : TradingAIDecision} {price : ℚ}
    (hbuy : decision.action = .buy) (hentry : decision.entryPrice = some (.fin price))
    (hprice : 2 ≤ price) :
    ∃ entry stop take : PosRat,
      normalizeBuyRiskPlan decision = .ok { decision with
        entryPrice := some (.fin entry.val)
        stopLossPrice := some (.fin stop.val)
        takeProfitPrice := some (.fin take.val) } ∧
      Tradable entry stop take ∧
      (∃ won : Int, normalizeKrxLimitPrice (.fin entry.val) .buy = .ok won ∧ (won : ℚ) = entry.val) ∧
      (∃ won : Int, normalizeKrxLimitPrice (.fin stop.val) .buy = .ok won ∧ (won : ℚ) = stop.val) ∧
      (∃ won : Int, normalizeKrxLimitPrice (.fin take.val) .sell = .ok won ∧ (won : ℚ) = take.val) ∧
      validateRiskReward entry take stop = .ok () := by
  have hone : 1 ≤ price := one_le_two.trans hprice
  have htwo : isValidKrxLimitPrice (.fin 2) = true := by decide +kernel
  have hgreatest := down_isGreatest_valid hone
  have hentry2 : 2 ≤ krxTickTable.down price := by exact_mod_cast hgreatest.2 ⟨htwo, hprice⟩
  obtain ⟨stop, take, hentry0, hstop0, htake0, hstop, htake, htradable⟩ :=
    plan_tradable hentry2 hgreatest.1.1
  refine ⟨_, _, _, ?_, htradable, htradable.renormalized⟩
  have hvalidate := htradable.renormalized.2.2.2
  unfold normalizeBuyRiskPlan
  rw [hbuy, hentry]
  simp only [normalize_buy hone, hstop, htake, wonPrice_ok hentry0, wonPrice_ok hstop0, wonPrice_ok htake0,
    hvalidate, Bind.bind, Except.bind]

/-- A BUY at 2004.9: the entry is in the band of step 5, its stop in the band of step 1. -/
def boundaryBuy : TradingAIDecision where
  decisionId := "d1"
  symbol := "005930"
  action := .buy
  strategy := none
  confidence := .fin (9 / 10)
  entryPrice := some (.fin (20049 / 10))
  takeProfitPrice := some (.fin 2100)
  stopLossPrice := some (.fin 1900)
  maxHoldingSeconds := none
  riskLevel := .normal
  requiresOperatorApproval := false

theorem boundaryBuy_tradable :
    (normalizeBuyRiskPlan boundaryBuy).toOption = some { boundaryBuy with
      entryPrice := some (.fin 2000), stopLossPrice := some (.fin 1984)
      takeProfitPrice := some (.fin 2030) } ∧
    ∃ entry stop take : PosRat, Tradable entry stop take := by
  obtain ⟨entry, stop, take, -, htradable, -⟩ :=
    @buy_risk_plan_tradable boundaryBuy (20049 / 10) rfl rfl (by norm_num)
  exact ⟨by decide +kernel, entry, stop, take, htradable⟩

end AutoTrader
