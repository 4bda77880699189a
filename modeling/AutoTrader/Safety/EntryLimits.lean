/-
  AutoTrader/Safety/EntryLimits.lean
  ==================================
  **The limits of an entry order.**

  An entry order leaves the cycle on two paths, with the prices the AI has just named or
  with those of an approval request.  Either way its price, size and stop are checked
  against the market and the risk limits, and `WithinLimits` is what these checks leave
  of an order.

  The direct path refuses a deviation from the close that is not finite; the approved
  path only compares it with its limit.  So without a price checker an approved order
  goes out on a close that is infinite or negative.  `entry_limits_iff` says what of
  the inputs decides whether every order keeps its limits.
-/
import AutoTrader.Execution.TickPrices
import AutoTrader.Pipeline.DirectEntry
import AutoTrader.Safety.FailedApproval

namespace AutoTrader

open Relational Transactional Interleave EntryCheck

/-! ### What an order has to keep -/

/-- The prices of a BUY, normalised. -/
def normalizedTerms (entryPrice stopLossPrice takeProfitPrice : PyFloat) : Except Exn BuyTerms := do
  let entry ← normalizeKrxLimitPrice entryPrice .buy
  let stop ← normalizeKrxLimitPrice stopLossPrice .buy
  let take ← normalizeKrxLimitPrice takeProfitPrice .sell
  .ok ⟨entry, stop, take⟩

/-- The portfolio the risk engine is asked about. -/
def EntryInputs.heldPortfolio (inputs : EntryInputs) : PortfolioState :=
  inputs.portfolio.getD (.ofPositions inputs.paperPositions)

/-- A size that keeps the limits of the configuration. -/
structure SizeWithin (config : EntryConfig) (terms : BuyTerms) (quantity : Int) : Prop where
  one_le : 1 ≤ quantity
  le_max : quantity ≤ config.maxQuantity
  position_cap : (quantity : ℚ) * terms.entry ≤
    config.risk.allocatedKrw * config.risk.maxPositionPct / 100
  risk_budget : (quantity : ℚ) * (terms.entry - terms.stop) ≤
    config.risk.allocatedKrw * config.risk.riskPerTradePct / 100

/-- Prices in order, with a reward of at least one and a half times the risk. -/
structure BuyTerms.Rewarding (terms : BuyTerms) : Prop where
  stop_lt : terms.stop < terms.entry
  lt_take : terms.entry < terms.take
  reward : (3 / 2 : ℚ) * (terms.entry - terms.stop) ≤ terms.take - terms.entry

/-- The price is within the deviation limit of the latest close. -/
def NearClose (inputs : EntryInputs) (price : ℚ) : Prop :=
  ∃ close : ℚ, inputs.latestClose = .fin close ∧ 0 < close ∧
    (deviationPct price close).le inputs.config.maxEntryDeviationPct = true

/-- The order of an entry with these prices and this confidence keeps every limit. -/
structure WithinLimits (inputs : EntryInputs) (symbol : String) (terms : BuyTerms)
    (confidence : PyFloat) (request : OrderRequest) : Prop where
  symbol_eq : request.symbol = symbol
  side_eq : request.side = .buy
  price_eq : request.price.value = .fin terms.entry
  price_valid : isValidKrxLimitPrice request.price.value = true
  near_close : NearClose inputs terms.entry
  sized : ∃ quantity, request.quantity = .int quantity ∧ SizeWithin inputs.config terms quantity
  rewarding : terms.Rewarding
  confident : inputs.config.risk.minimumConfidence.le confidence = true
  not_held : symbol ∉ inputs.heldPortfolio.openPositions

/-- The request carries the terms of the BUY decision it was made for. -/
structure RecordedTerms (db : Database) (symbol : String) (approval : ApprovalRequest)
    (audit : AiDecisionAudit) (terms : BuyTerms) : Prop where
  audit_eq : db.decisionAudit approval = some audit
  symbol_eq : audit.symbol = symbol
  action_eq : audit.action = "BUY"
  normalized : ∃ entry stop take, audit.entryPrice = some entry ∧ audit.stopLossPrice = some stop ∧
    audit.takeProfitPrice = some take ∧ normalizedTerms entry stop take = .ok terms
  entry_eq : approval.entryPrice.map (·.val) = some (terms.entry : ℚ)
  stop_eq : approval.stopLossPrice.map (·.val) = some (terms.stop : ℚ)
  take_eq : approval.takeProfitPrice.map (·.val) = some (terms.take : ℚ)

/-- The orders an entry on the bar may send: on the terms of the answer, or of the
    approved request of the bar. -/
inductive AllowedEntry (inputs : EntryInputs) (reads : DirectReads) (symbol : String)
    (barStart : DateTime) (db : Database) (request : OrderRequest) : Prop
  | decided (answer : AiAnswer) (entry stop take : PyFloat) (terms : BuyTerms) :
    reads.answer = .ok answer → answer.decision.symbol = symbol → answer.decision.action = .buy →
    answer.decision.entryPrice = some entry → answer.decision.stopLossPrice = some stop →
    answer.decision.takeProfitPrice = some take → normalizedTerms entry stop take = .ok terms →
    WithinLimits inputs symbol terms answer.decision.confidence request → AllowedEntry ..
  | approved (approval : ApprovalRequest) (audit : AiDecisionAudit) (terms : BuyTerms) :
    db.approvalRequests.find? (approvalRequestId symbol barStart) = some approval →
    approval.status = .approved → RecordedTerms db symbol approval audit terms →
    WithinLimits inputs symbol terms audit.confidence request → AllowedEntry ..

/-- The path passes only requests within `P` to its submitter: what a submitter does
    with any other makes no difference. -/
def PassesOnly (P : OrderRequest → Prop) {α : Type} (path : Submitter → Tx α) (db : Database) : Prop :=
  ∀ s₁ s₂ : Submitter, (∀ id request, P request → s₁ id request = s₂ id request) →
    (path s₁).run db = (path s₂).run db

/-- The confidence of an answer is validated, `Field(ge=0, le=1)`. -/
def DirectReads.Validated (reads : DirectReads) : Prop :=
  ∀ answer, reads.answer = .ok answer →
    ∃ confidence : ℚ, answer.decision.confidence = .fin confidence ∧ 0 ≤ confidence ∧ confidence ≤ 1

/-- The column `confidence` is NOT NULL, and a NaN is stored as NULL. -/
def Database.AuditsStored (db : Database) : Prop :=
  ∀ id audit, db.aiDecisionAudits.find? id = some audit → audit.confidence ≠ .nan

/-- Every entry with this close, with or without a price checker, and with limits that
    are NaN or not, keeps its limits. -/
def EntriesKeepLimits (close : PyFloat) (checked deviationNan confidenceNan : Bool) : Prop :=
  ∀ (broker : BrokerReplies) (inputs : EntryInputs) (reads : DirectReads) (symbol : String)
    (barStart : Option DateTime) (db : Database),
    inputs.latestClose = close → inputs.postAiPriceChecker.isSome = checked →
    decide (inputs.config.maxEntryDeviationPct = .nan) = deviationNan →
    decide (inputs.config.risk.minimumConfidence = .nan) = confidenceNan →
    reads.Validated → db.AuditsStored →
    PassesOnly (fun request => ∃ start ∈ barStart, AllowedEntry inputs reads symbol start db request)
      (fun submitter => enterPosition broker submitter inputs reads symbol barStart) db

/-! ### The risk engine -/

section Risk

variable {config : RiskConfig} {portfolio : PortfolioState} {intent : OrderIntent}

/-- A size is cut at the position cap and at the risk budget. -/
theorem calculateQuantity_within {entry stop : ℚ} (hpos : 0 < calculateQuantity config entry stop)
    {quantity : Int} (hquantity : quantity ≤ calculateQuantity config entry stop) :
    (quantity : ℚ) * entry ≤ config.allocatedKrw * config.maxPositionPct / 100 ∧
      (quantity : ℚ) * (entry - stop) ≤ config.allocatedKrw * config.riskPerTradePct / 100 := by
  simp only [calculateQuantity] at hpos hquantity
  split_ifs at hpos hquantity with hprices hbudget
  · exact absurd hpos (lt_irrefl 0)
  · exact absurd hpos (lt_irrefl 0)
  · simp only [not_or, not_le] at hprices
    set byRisk := (config.allocatedKrw * config.riskPerTradePct / 100 / (entry - stop)).floor with hrisk
    set byCap := (config.allocatedKrw * config.maxPositionPct / 100 / entry).floor with hcap
    have hleRisk : (quantity : ℚ) ≤ byRisk := by exact_mod_cast (show quantity ≤ byRisk by omega)
    have hleCap : (quantity : ℚ) ≤ byCap := by exact_mod_cast (show quantity ≤ byCap by omega)
    constructor
    · rw [← le_div_iff₀ hprices.1]
      exact hleCap.trans (Int.floor_le _)
    · rw [← le_div_iff₀ (sub_pos.mpr hprices.2.2)]
      exact hleRisk.trans (Int.floor_le _)

/-- What an approved intent has passed. -/
theorem evaluateOrderIntent_approved
    (happroved : (evaluateOrderIntent config portfolio intent).approved = true) :
    belowConfidence config intent.confidence = false ∧ intent.symbol ∉ portfolio.openPositions ∧
      0 < calculateQuantity config intent.entryPrice intent.stopLoss ∧
      (evaluateOrderIntent config portfolio intent).quantity =
        calculateQuantity config intent.entryPrice intent.stopLoss := by
  unfold evaluateOrderIntent at happroved ⊢
  split_ifs at happroved ⊢ with hintent hprices hconfidence
  · exact absurd happroved Bool.false_ne_true
  · exact absurd happroved Bool.false_ne_true
  · exact absurd happroved Bool.false_ne_true
  cases hlimit : portfolioLimit config portfolio intent.symbol with
  | some reason =>
    rw [hlimit] at happroved
    exact absurd happroved Bool.false_ne_true
  | none =>
    rw [hlimit] at happroved
    simp only at happroved ⊢
    have hheld : intent.symbol ∉ portfolio.openPositions := by
      intro hmem
      unfold portfolioLimit at hlimit
      rw [if_pos (List.contains_iff_mem.mpr hmem)] at hlimit
      cases hlimit
    split_ifs at happroved ⊢ with hzero hexposure
    · exact absurd happroved Bool.false_ne_true
    · exact absurd happroved Bool.false_ne_true
    · exact ⟨Bool.eq_false_iff.mpr hconfidence, hheld, not_le.mp hzero, rfl⟩

end Risk

section Checks

variable {inputs : EntryInputs} {symbol signalId : String} {terms : BuyTerms} {confidence : PyFloat}

/-- The cut at `max_quantity` keeps what the risk engine approved. -/
theorem sizeWithin_of_approved {strategy : String} {quantity : Int}
    (happroved : (evaluateOrderIntent inputs.config.risk inputs.heldPortfolio
      ⟨symbol, strategy, signalId, terms.entry, terms.stop, some confidence⟩).approved = true)
    (hquantity : quantity = min inputs.config.maxQuantity (evaluateOrderIntent inputs.config.risk
      inputs.heldPortfolio ⟨symbol, strategy, signalId, terms.entry, terms.stop, some confidence⟩).quantity)
    (hpos : 0 < quantity) :
    SizeWithin inputs.config terms quantity ∧
      confidence.lt inputs.config.risk.minimumConfidence = false ∧
      symbol ∉ inputs.heldPortfolio.openPositions := by
  obtain ⟨hconfidence, hheld, hcalculated, heq⟩ := evaluateOrderIntent_approved happroved
  rw [heq] at hquantity
  have hle : quantity ≤ calculateQuantity inputs.config.risk terms.entry terms.stop := by
    rw [hquantity]
    exact min_le_right _ _
  obtain ⟨hcap, hbudget⟩ := calculateQuantity_within hcalculated hle
  refine ⟨⟨hpos, ?_, hcap, hbudget⟩, hconfidence, hheld⟩
  rw [hquantity]
  exact min_le_left _ _

theorem sizeWithin_of_riskQuantity {quantity : Int}
    (h : riskQuantity inputs symbol signalId confidence terms.entry terms.stop = some quantity) :
    SizeWithin inputs.config terms quantity ∧
      confidence.lt inputs.config.risk.minimumConfidence = false ∧
      symbol ∉ inputs.heldPortfolio.openPositions := by
  simp only [riskQuantity] at h
  split_ifs at h with happroved hpos
  cases h
  exact sizeWithin_of_approved (Bool.not_eq_false _ ▸ happroved) rfl hpos

/-- A confidence that is not below a minimum; neither is NaN. -/
theorem PyFloat.le_of_not_lt {x limit : PyFloat} (hx : x ≠ .nan) (hlimit : limit ≠ .nan)
    (h : limit.lt x = false) : x.le limit = true := by
  cases x <;> cases limit <;> simp_all [PyFloat.le, PyFloat.lt]

theorem rewarding_of_validated {entry take stop : PosRat} (hentry : entry.val = terms.entry)
    (htake : take.val = terms.take) (hstop : stop.val = terms.stop)
    (h : validateRiskReward entry take stop = .ok ()) : terms.Rewarding := by
  unfold validateRiskReward at h
  split_ifs at h with hladder hdistance hratio
  simp only [not_or, not_le, not_lt, hentry, htake, hstop] at hladder hratio
  refine ⟨by exact_mod_cast hladder.2, by exact_mod_cast hladder.1, ?_⟩
  rwa [le_div_iff₀ (sub_pos.mpr hladder.2)] at hratio

theorem valid_of_normalize {price : PyFloat} {won : Int}
    (h : normalizeKrxLimitPrice price .buy = .ok won) : isValidKrxLimitPrice (.fin won) = true := by
  cases price with
  | fin q =>
    by_cases hone : 1 ≤ q
    · rw [normalize_buy hone] at h
      cases h
      exact (down_isGreatest_valid hone).1.1
    · by_cases hpos : 0 < q
      · rw [normalizeKrxLimitPrice_eq hpos] at h
        simp only [if_pos (down_of_lt_one hpos (not_le.mp hone))] at h
        cases h
      · simp only [normalizeKrxLimitPrice, if_pos (not_lt.mp hpos)] at h
        cases h
  | nan => cases h
  | posInf => cases h
  | negInf => cases h

/-- A price checker that lets an entry pass has seen a positive close. -/
theorem close_of_checked {entryPrice : PosRat} (hchecked : inputs.postAiPriceChecker.isSome = true)
    (h : postAiLivePriceGuardReason inputs symbol entryPrice = none) :
    inputs.latestClose.price?.isSome = true := by
  obtain ⟨checker, hchecker⟩ := Option.isSome_iff_exists.mp hchecked
  unfold postAiLivePriceGuardReason at h
  rw [hchecker] at h
  simp only at h
  cases hfresh : checker symbol with
  | error e =>
    rw [hfresh] at h
    cases h
  | ok fresh =>
    rw [hfresh] at h
    simp only at h
    cases hpositive : fresh.positive? with
    | none =>
      rw [hpositive] at h
      cases h
    | some price =>
      rw [hpositive] at h
      cases hclose : inputs.latestClose with
      | fin close =>
        rw [hclose] at h
        simp only at h
        split_ifs at h with hnonpos
        simp [PyFloat.price?, not_le.mp hnonpos]
      | nan | posInf | negInf =>
        rw [hclose] at h
        cases h

/-- The inputs on which the checks keep every limit: a positive close with limits that
    are numbers, or a close on which no order goes out. -/
structure LimitsHold (inputs : EntryInputs) : Prop where
  numbers : inputs.latestClose.price?.isSome = true →
    inputs.config.maxEntryDeviationPct ≠ .nan ∧ inputs.config.risk.minimumConfidence ≠ .nan
  otherwise : inputs.latestClose.price? = none →
    inputs.latestClose = .fin 0 ∨ inputs.postAiPriceChecker.isSome = true

/-- The deviation tests of both paths, on such inputs. -/
theorem LimitsHold.nearClose (h : LimitsHold inputs) {entryPrice : PosRat} {deviation : PyFloat}
    (hguard : postAiLivePriceGuardReason inputs symbol entryPrice = none)
    (hdeviation : closeDeviationPct entryPrice.val inputs.latestClose = .ok deviation)
    (hlimit : inputs.config.maxEntryDeviationPct.lt deviation = false) :
    NearClose inputs entryPrice.val := by
  cases hprice : inputs.latestClose.price? with
  | none =>
    rcases h.otherwise hprice with hzero | hchecked
    · rw [hzero] at hdeviation
      cases hdeviation
    · have hsome := close_of_checked hchecked hguard
      rw [hprice] at hsome
      cases hsome
  | some close =>
    have hclose := PyFloat.price?_eq_some hprice
    obtain ⟨hnumber, -⟩ := h.numbers (by rw [hprice]; rfl)
    rw [hclose, closeDeviationPct, if_neg close.pos.ne'] at hdeviation
    cases hdeviation
    exact ⟨close.val, hclose, close.pos, PyFloat.le_of_not_lt nofun hnumber hlimit⟩

/-- What the checks of either path leave of an order. -/
theorem LimitsHold.withinLimits (h : LimitsHold inputs) {price : Number} {quantity : Int}
    {request : OrderRequest} (hrequest : krxRequest symbol .buy quantity price = .ok request)
    (hprice : price.value = .fin terms.entry)
    (hvalid : isValidKrxLimitPrice (.fin terms.entry) = true) (hnear : NearClose inputs terms.entry)
    (hrewarding : terms.Rewarding) (hnumber : confidence ≠ .nan)
    (hsize : SizeWithin inputs.config terms quantity ∧
      confidence.lt inputs.config.risk.minimumConfidence = false ∧
      symbol ∉ inputs.heldPortfolio.openPositions) :
    WithinLimits inputs symbol terms confidence request := by
  have hclose : inputs.latestClose.price?.isSome = true := by
    obtain ⟨close, hclose, hpos, -⟩ := hnear
    simp [hclose, PyFloat.price?, hpos]
  unfold krxRequest at hrequest
  split_ifs at hrequest
  cases hrequest
  constructor
  · rfl
  · rfl
  · exact hprice
  · rw [hprice]
    exact hvalid
  · exact hnear
  · exact ⟨quantity, rfl, hsize.1⟩
  · exact hrewarding
  · exact PyFloat.le_of_not_lt (h.numbers hclose).2 hnumber hsize.2.1
  · exact hsize.2.2

end Checks

/-! ### The approved path -/

section Approved

variable {inputs : EntryInputs} {symbol signalId : String} {approval : ApprovalRequest} {db : Database}

theorem approvalTerms_eq_some {terms : ApprovalTerms} (h : approvalTerms approval = some terms) :
    approval.entryPrice = some terms.entryPrice ∧ approval.stopLossPrice = some terms.stopLossPrice ∧
      approval.takeProfitPrice = some terms.takeProfitPrice ∧ approval.quantity = some terms.quantity := by
  unfold approvalTerms at h
  obtain ⟨entry, hentry, h⟩ := Option.bind_eq_some_iff.mp h
  obtain ⟨stop, hstop, h⟩ := Option.bind_eq_some_iff.mp h
  obtain ⟨take, htake, h⟩ := Option.bind_eq_some_iff.mp h
  obtain ⟨quantity, hquantity, h⟩ := Option.bind_eq_some_iff.mp h
  cases h
  exact ⟨hentry, hstop, htake, hquantity⟩

theorem buyAudit_eq_some {audit? : Option AiDecisionAudit} {audit : AiDecisionAudit}
    (h : buyAudit symbol audit? = some audit) :
    audit? = some audit ∧ audit.symbol = symbol ∧ audit.action = "BUY" := by
  obtain ⟨haudit, hkept⟩ := Option.filter_eq_some_iff.mp h
  simp only [Bool.and_eq_true, decide_eq_true_eq] at hkept
  exact ⟨haudit, hkept⟩

/-- The terms of the request are the normalised ones. -/
theorem termsUnchanged_true {terms : ApprovalTerms} {entry stop take : PyFloat}
    (h : termsUnchanged terms entry stop take = .ok true) :
    ∃ buy : BuyTerms, normalizedTerms entry stop take = .ok buy ∧ terms.entryPrice.val = buy.entry ∧
      terms.stopLossPrice.val = buy.stop ∧ terms.takeProfitPrice.val = buy.take := by
  unfold termsUnchanged at h
  obtain ⟨entryWon, hentry, h⟩ := Except.bind_eq_ok h
  obtain ⟨stopWon, hstop, h⟩ := Except.bind_eq_ok h
  obtain ⟨takeWon, htake, h⟩ := Except.bind_eq_ok h
  simp only [Except.ok.injEq, Bool.and_eq_true, decide_eq_true_eq] at h
  refine ⟨⟨entryWon, stopWon, takeWon⟩, ?_, h.1.1, h.1.2, h.2⟩
  simp only [normalizedTerms, hentry, hstop, htake, Bind.bind, Except.bind]

theorem normalizedTerms_valid {entry stop take : PyFloat} {terms : BuyTerms}
    (h : normalizedTerms entry stop take = .ok terms) :
    isValidKrxLimitPrice (.fin terms.entry) = true := by
  unfold normalizedTerms at h
  obtain ⟨entryWon, hentry, h⟩ := Except.bind_eq_ok h
  obtain ⟨stopWon, hstop, h⟩ := Except.bind_eq_ok h
  obtain ⟨takeWon, htake, h⟩ := Except.bind_eq_ok h
  cases h
  exact valid_of_normalize hentry

/-- An approved entry that passes its checks. -/
theorem LimitsHold.approved (h : LimitsHold inputs) (hstored : db.AuditsStored) {order : ApprovedOrder}
    (hpasses : Passes (checkApprovedEntry inputs symbol signalId approval (db.decisionAudit approval))
      order) :
    ∃ audit terms, RecordedTerms db symbol approval audit terms ∧ ∀ request,
      krxRequest symbol .buy order.quantity (.float (.fin order.entryPrice.val)) = .ok request →
      WithinLimits inputs symbol terms audit.confidence request := by
  simp only [checkApprovedEntry, passes_bind, passes_refuseIf, passes_raising, passes_require,
    passes_guard, passes_validated, passes_pure] at hpasses
  obtain ⟨-, -, -, -, audit, haudit, terms, hterms, entry, hentry, stop, hstop, take, htake, unchanged,
    htermsEq, -, hunchanged, -, hguard, -, hvalidated, deviation, hdeviation, -, hlimit, -, hexpected,
    -, -, rfl⟩ := hpasses
  obtain ⟨hfound, hsymbol, haction⟩ := buyAudit_eq_some haudit
  rw [Bool.not_eq_false'] at hunchanged
  subst hunchanged
  obtain ⟨buy, hbuy, hentryEq, hstopEq, htakeEq⟩ := termsUnchanged_true htermsEq
  obtain ⟨hentry', hstop', htake', -⟩ := approvalTerms_eq_some hterms
  refine ⟨audit, buy, ⟨hfound, hsymbol, haction, ⟨entry, stop, take, hentry, hstop, htake, hbuy⟩,
    ?_, ?_, ?_⟩, fun request hrequest => ?_⟩
  · rw [hentry', Option.map_some, hentryEq]
  · rw [hstop', Option.map_some, hstopEq]
  · rw [htake', Option.map_some, htakeEq]
  · have hnear := h.nearClose hguard hdeviation hlimit
    rw [decide_eq_false_iff_not, not_not, hentryEq, hstopEq] at hexpected
    rw [hentryEq] at hnear
    refine h.withinLimits hrequest ?_ (normalizedTerms_valid hbuy) hnear
      (rewarding_of_validated hentryEq htakeEq hstopEq hvalidated) (hstored _ audit hfound)
      (sizeWithin_of_riskQuantity hexpected)
    rw [Number.value, hentryEq]

end Approved

/-! ### The direct path -/

section Direct

variable {inputs : EntryInputs} {reads : DirectReads} {symbol signalId : String}

theorem wonPrice_val {won : Int} {price : PosRat} (h : wonPrice won = .ok price) : price.val = won := by
  unfold wonPrice at h
  split_ifs at h
  cases h
  rfl

theorem asserted_eq_ok {α : Type} {value : Option α} {a : α} (h : asserted value = .ok a) :
    value = some a := by
  cases value with
  | none => cases h
  | some b =>
    cases h
    rfl

theorem checkDeviation_passes {entry : ℚ} {u : Unit} (h : Passes (checkDeviation inputs entry) u) :
    ∃ deviation, closeDeviationPct entry inputs.latestClose = .ok deviation ∧
      inputs.config.maxEntryDeviationPct.lt deviation = false := by
  unfold checkDeviation at h
  rcases hdeviation : closeDeviationPct entry inputs.latestClose with e | deviation
  · rw [hdeviation] at h
    cases h
  · rw [hdeviation] at h
    cases deviation with
    | fin q => exact ⟨.fin q, rfl, passes_refuseIf.mp h⟩
    | nan | posInf | negInf => cases h

/-- Prices that pass their checks. -/
theorem LimitsHold.terms (h : LimitsHold inputs) {decision : TradingAIDecision} {terms : BuyTerms}
    (hpasses : Passes (checkTerms inputs reads symbol decision) terms) :
    (∃ entry stop take, decision.entryPrice = some entry ∧ decision.stopLossPrice = some stop ∧
      decision.takeProfitPrice = some take ∧ normalizedTerms entry stop take = .ok terms) ∧
    NearClose inputs terms.entry ∧ terms.Rewarding := by
  simp only [checkTerms, passes_bind, passes_refuseIf, passes_raising, passes_guard, passes_validated,
    passes_pure] at hpasses
  obtain ⟨entryPrice, hentryPrice, stopLossPrice, hstopLossPrice, takeProfitPrice, htakeProfitPrice,
    entry, hentry, entryWon, hentryWon, -, hguard, _, hdeviation, -, -, stop, hstop, take, htake,
    stopWon, hstopWon, takeWon, htakeWon, -, hvalidated, rfl⟩ := hpasses
  refine ⟨⟨entryPrice, stopLossPrice, takeProfitPrice, asserted_eq_ok hentryPrice,
    asserted_eq_ok hstopLossPrice, asserted_eq_ok htakeProfitPrice, ?_⟩, ?_, ?_⟩
  · simp only [normalizedTerms, hentry, hstop, htake, Bind.bind, Except.bind]
  · obtain ⟨deviation, hdeviation, hlimit⟩ := checkDeviation_passes hdeviation
    have hval := wonPrice_val hentryWon
    rw [← hval] at hdeviation ⊢
    exact h.nearClose hguard hdeviation hlimit
  · exact rewarding_of_validated (wonPrice_val hentryWon) (wonPrice_val htakeWon) (wonPrice_val hstopWon)
      hvalidated

/-- A size that passes its checks. -/
theorem checkSize_order {decision : TradingAIDecision} {terms terms' : BuyTerms} {quantity : Int}
    (hpasses : Passes (checkSize inputs reads symbol signalId decision terms) (.order terms' quantity)) :
    terms' = terms ∧ SizeWithin inputs.config terms quantity ∧
      decision.confidence.lt inputs.config.risk.minimumConfidence = false ∧
      symbol ∉ inputs.heldPortfolio.openPositions := by
  simp only [checkSize] at hpasses
  split_ifs at hpasses
  · simp only [passes_bind, passes_require, passes_pure] at hpasses
    obtain ⟨_, -, hno⟩ := hpasses
    cases hno
  · simp only [passes_bind, passes_refuseIf, passes_pure] at hpasses
    obtain ⟨-, happroved, -, hpos, -, -, -, -, heq⟩ := hpasses
    cases heq
    rw [Bool.not_eq_false'] at happroved
    rw [decide_eq_false_iff_not, not_le] at hpos
    exact ⟨rfl, sizeWithin_of_approved happroved rfl hpos⟩

theorem checkAnswer_passes {tick : MarketTick} {answer : AiAnswer} {u : Unit}
    (hpasses : Passes (checkAnswer inputs reads symbol tick answer) u) :
    answer.decision.symbol = symbol ∧ answer.decision.action = .buy := by
  simp only [checkAnswer, passes_bind, passes_refuseIf, passes_guard, decide_eq_false_iff_not,
    not_not] at hpasses
  obtain ⟨-, -, -, -, -, hsymbol, -, haction, -⟩ := hpasses
  exact ⟨hsymbol, haction⟩

/-- An answer that passes its checks with an order. -/
theorem LimitsHold.decided (h : LimitsHold inputs) (hvalidated : reads.Validated) {barStart : DateTime}
    {db : Database} {tick : MarketTick} {answer : AiAnswer} (hanswer : reads.answer = .ok answer)
    {terms : BuyTerms} {quantity : Int}
    (hpasses : Passes (checkDecision inputs reads symbol signalId tick answer) (.order terms quantity))
    {request : OrderRequest} (hrequest : krxRequest symbol .buy quantity (.int terms.entry) = .ok request) :
    AllowedEntry inputs reads symbol barStart db request := by
  simp only [checkDecision, passes_bind] at hpasses
  obtain ⟨_, hchecked, terms', hterms, hsize⟩ := hpasses
  obtain ⟨rfl, hsized⟩ := checkSize_order hsize
  obtain ⟨hsymbol, haction⟩ := checkAnswer_passes hchecked
  obtain ⟨⟨entry, stop, take, hentry, hstop, htake, hnormalized⟩, hnear, hrewarding⟩ := h.terms hterms
  have hnumber : answer.decision.confidence ≠ .nan := by
    obtain ⟨confidence, hconfidence, -⟩ := hvalidated answer hanswer
    rw [hconfidence]
    exact nofun
  exact .decided answer entry stop take terms hanswer hsymbol haction hentry hstop htake hnormalized
    (h.withinLimits hrequest rfl (normalizedTerms_valid hnormalized) hnear hrewarding hnumber hsized)

end Direct

/-! ### The submitter -/

section Submitter

variable {P : OrderRequest → Prop} {α β : Type} {db : Database}

theorem PassesOnly.const (m : Tx α) : PassesOnly P (fun _ => m) db := fun _ _ _ => rfl

/-- A path after a step that does not submit. -/
theorem PassesOnly.after {m : Tx α} {path : α → Submitter → Tx β}
    (h : ∀ a db', m.run db = (.ok a, db') → PassesOnly P (path a) db') :
    PassesOnly P (fun submitter => m >>= fun a => path a submitter) db := by
  intro s₁ s₂ hsame
  rw [Exec.run_bind, Exec.run_bind]
  rcases hrun : m.run db with ⟨e | a, db'⟩
  · rfl
  · exact h a db' hrun s₁ s₂ hsame

/-- A path followed by steps that do not submit. -/
theorem PassesOnly.then {path : Submitter → Tx α} (h : PassesOnly P path db) (rest : α → Tx β) :
    PassesOnly P (fun submitter => path submitter >>= rest) db := by
  intro s₁ s₂ hsame
  rw [Exec.run_bind, Exec.run_bind, h s₁ s₂ hsame]

theorem PassesOnly.submit (broker : BrokerReplies) {request : OrderRequest} (h : P request)
    (signalId : String) (key : Option String) (reason : String) (now : DateTime) :
    PassesOnly P (fun submitter =>
      runPipeline broker (submitWithLedger submitter request signalId key reason now)) db := by
  intro s₁ s₂ hsame
  have hcall : ∀ id, s₁ id request = s₂ id request := fun id => hsame id request h
  simp only [submitWithLedger, submitClaimed, hcall]

end Submitter

section Paths

variable {inputs : EntryInputs} {reads : DirectReads} {symbol : String} {db : Database}

theorem LimitsHold.executeApprovedEntry (h : LimitsHold inputs) (broker : BrokerReplies)
    (hstored : db.AuditsStored) {barStart : DateTime} (signalId : String) {approval : ApprovalRequest}
    (hfind : db.approvalRequests.find? (approvalRequestId symbol barStart) = some approval)
    (hstatus : approval.status = .approved) :
    PassesOnly (AllowedEntry inputs reads symbol barStart db)
      (fun submitter => AutoTrader.executeApprovedEntry broker submitter inputs symbol signalId approval)
      db := by
  unfold AutoTrader.executeApprovedEntry
  refine PassesOnly.after fun audit db₁ haudit => ?_
  cases haudit
  refine PassesOnly.after fun checked db₂ hchecked => ?_
  cases checked with
  | error reason => exact PassesOnly.const _
  | ok order =>
    obtain ⟨audit, terms, hrecorded, hwithin⟩ := h.approved hstored (congrArg Prod.fst hchecked)
    refine PassesOnly.after fun consumed db₃ _ => ?_
    cases consumed with
    | false => exact PassesOnly.const _
    | true =>
      refine PassesOnly.after fun request db₄ hrequest => ?_
      have hallowed : AllowedEntry inputs reads symbol barStart db request :=
        .approved approval audit terms hfind hstatus hrecorded
          (hwithin request (congrArg Prod.fst hrequest))
      exact (PassesOnly.submit broker hallowed _ _ _ _).then _

theorem LimitsHold.directEntry (h : LimitsHold inputs) (broker : BrokerReplies)
    (hvalidated : reads.Validated) (barStart : DateTime) (db db₀ : Database) :
    PassesOnly (AllowedEntry inputs reads symbol barStart db₀)
      (fun submitter => AutoTrader.directEntry broker submitter inputs reads symbol barStart) db := by
  unfold AutoTrader.directEntry
  refine PassesOnly.after fun claimed db₁ _ => ?_
  cases claimed with
  | true => exact PassesOnly.const _
  | false =>
    refine PassesOnly.after fun before db₂ _ => ?_
    cases before with
    | error reason => exact PassesOnly.const _
    | ok tick =>
      refine PassesOnly.after fun answer db₃ hanswer => ?_
      refine PassesOnly.after fun _ db₄ _ => ?_
      refine PassesOnly.after fun checked db₅ hchecked => ?_
      rcases checked with reason | ⟨terms, quantity⟩ | ⟨terms, quantity⟩
      · exact PassesOnly.const _
      · exact PassesOnly.const _
      · refine PassesOnly.after fun request db₆ hrequest => ?_
        have hallowed : AllowedEntry inputs reads symbol barStart db₀ request :=
          h.decided hvalidated (congrArg Prod.fst hanswer) (congrArg Prod.fst hchecked)
            (congrArg Prod.fst hrequest)
        exact (PassesOnly.submit broker hallowed _ _ _ _).then _

/-- The expiring call on a request that is PENDING leaves it PENDING or expires it. -/
theorem status_of_expired {now : DateTime} {id : String} {pending approval : ApprovalRequest}
    {db' : Database} {expired : Nat} (hfind : db.approvalRequests.find? id = some pending)
    (hpending : pending.status = .pending)
    (hrun : (expirePendingApprovals now (some now)).run db = (.ok expired, db'))
    (hfind' : db'.approvalRequests.find? id = some approval) : approval.status ≠ .approved := by
  have hafter := find?_exec hfind (.expire now (some now))
  have hexec : (ApprovalCall.expire now (some now)).exec db = db' := congrArg Prod.snd hrun
  rw [hexec, hfind', Option.some.injEq] at hafter
  rw [hafter]
  simp only [ApprovalCall.next, ApprovalCall.requestId?, true_or, if_true, ApprovalCall.onRow]
  split_ifs
  · intro happroved
    cases happroved
  · rw [hpending]
    intro happroved
    cases happroved

theorem LimitsHold.approvalStage (h : LimitsHold inputs) (broker : BrokerReplies)
    (hstored : db.AuditsStored) (barStart : DateTime) (deadline : Bool) :
    PassesOnly (AllowedEntry inputs reads symbol barStart db)
      (fun submitter => AutoTrader.approvalStage broker submitter inputs symbol barStart deadline) db := by
  unfold AutoTrader.approvalStage
  refine PassesOnly.after fun found db₁ hfound => ?_
  cases hfound
  by_cases hpending : (db.approvalRequests.find? (approvalRequestId symbol barStart)).any
    (·.status = .pending) = true
  · simp only [hpending, if_true]
    obtain ⟨pending, hfind, hstatus⟩ := (Option.any_eq_true _ _).mp hpending
    refine PassesOnly.after fun expired db₁ hexpired => ?_
    refine PassesOnly.after fun found db₂ hfound => ?_
    cases hfound
    cases hafter : db₁.approvalRequests.find? (approvalRequestId symbol barStart) with
    | none =>
      simp only [hafter]
      exact PassesOnly.const _
    | some approval =>
      have hnot := status_of_expired hfind (of_decide_eq_true hstatus) hexpired hafter
      simp only [hafter, hnot, if_false]
      exact PassesOnly.const _
  · simp only [hpending]
    refine PassesOnly.after fun found db₁ hfound => ?_
    cases hfound
    cases hfind : db.approvalRequests.find? (approvalRequestId symbol barStart) with
    | none =>
      simp only [hfind]
      exact PassesOnly.const _
    | some approval =>
      by_cases hstatus : approval.status = .approved
      · have hrunning : approval.status ≠ .pending := by
          rw [hstatus]
          intro hpending'
          cases hpending'
        cases deadline with
        | true =>
          simp only [hfind, hrunning, if_true, if_false]
          exact PassesOnly.const _
        | false =>
          simp only [hfind, hrunning, if_pos hstatus, if_false, Bool.false_eq_true]
          exact (h.executeApprovedEntry broker hstored _ hfind hstatus).then _
      · simp only [hfind, hstatus, if_false]
        exact PassesOnly.const _

/-- On such inputs an entry keeps every limit. -/
theorem LimitsHold.enterPosition (h : LimitsHold inputs) (broker : BrokerReplies)
    (hvalidated : reads.Validated) (hstored : db.AuditsStored) (barStart : DateTime) :
    PassesOnly (AllowedEntry inputs reads symbol barStart db)
      (fun submitter => AutoTrader.enterPosition broker submitter inputs reads symbol (some barStart)) db := by
  intro s₁ s₂ hsame
  have hstage := h.approvalStage broker hstored barStart (deadlineReached reads.preAiNow reads.cycleDeadline)
    s₁ s₂ hsame
  simp only [AutoTrader.enterPosition, Exec.run_bind, hstage]
  rcases (AutoTrader.approvalStage broker s₂ inputs symbol barStart
    (deadlineReached reads.preAiNow reads.cycleDeadline)).run db with ⟨e | _ | result, db'⟩
  · rfl
  · exact h.directEntry broker hvalidated barStart db' db s₁ s₂ hsame
  · rfl

end Paths

/-! ### Where an order leaves its limits -/

/-- The broker's submitter, but for one request. -/
def withholding (withheld : OrderRequest) : Submitter := fun id request =>
  if request = withheld then throw (.other "RuntimeError" "withheld") else brokerSubmitter id request

/-- A request is within `P` when withholding it makes a difference. -/
theorem PassesOnly.allows {P : OrderRequest → Prop} {α : Type} {path : Submitter → Tx α} {db : Database}
    (h : PassesOnly P path db) {request : OrderRequest}
    (hne : (path brokerSubmitter).run db ≠ (path (withholding request)).run db) : P request := by
  by_contra hP
  refine hne (h _ _ fun id r hr => ?_)
  have hother : r ≠ request := fun heq => hP (heq ▸ hr)
  unfold withholding
  rw [if_neg hother]

/-- The approved path after its checks. -/
def consumeAndSubmit (broker : BrokerReplies) (submitter : Submitter) (now : DateTime)
    (symbol signalId requestId : String) (order : ApprovedOrder) : Tx AutoTradeSymbolResult := do
  if ← consumeApprovalRequest now requestId (some now) then
    submitApprovedOrder broker submitter now symbol signalId requestId order
  else pure (.blockedBy symbol "approval_not_available")

/-- An approved request of the bar whose checks pass is consumed and submitted. -/
theorem enterPosition_approved (broker : BrokerReplies) (submitter : Submitter) {inputs : EntryInputs}
    {reads : DirectReads} {symbol : String} {barStart : DateTime} {db : Database}
    {approval : ApprovalRequest} {order : ApprovedOrder}
    (hfind : db.approvalRequests.find? (approvalRequestId symbol barStart) = some approval)
    (hstatus : approval.status = .approved)
    (hdeadline : deadlineReached reads.preAiNow reads.cycleDeadline = false)
    (hpasses : Passes (checkApprovedEntry inputs symbol (entrySignalId symbol barStart) approval
      (db.decisionAudit approval)) order) :
    (enterPosition broker submitter inputs reads symbol (some barStart)).run db =
      (consumeAndSubmit broker submitter inputs.now symbol (entrySignalId symbol barStart)
        approval.requestId order).run db := by
  have hrunning : ¬ approval.status = .pending := by
    rw [hstatus]
    exact nofun
  have hexecute : (executeApprovedEntry broker submitter inputs symbol (entrySignalId symbol barStart)
      approval).run db = (consumeAndSubmit broker submitter inputs.now symbol
        (entrySignalId symbol barStart) approval.requestId order).run db := by
    unfold executeApprovedEntry consumeAndSubmit
    rw [Exec.run_query_bind, hpasses, Exec.run_ofExcept_ok_bind]
  have hstage : (approvalStage broker submitter inputs symbol barStart false).run db =
      ((executeApprovedEntry broker submitter inputs symbol (entrySignalId symbol barStart) approval) >>=
        fun result => pure (some result)).run db := by
    unfold approvalStage
    rw [Exec.run_query_bind, hfind]
    simp only [Option.any_some, hrunning, decide_false, Bool.false_eq_true, if_false]
    rw [Exec.run_query_bind, hfind]
    simp only [if_neg hrunning, if_pos hstatus]
  unfold enterPosition
  simp only [hdeadline]
  rw [Exec.run_bind, hstage, Exec.run_bind, hexecute]
  rcases (consumeAndSubmit broker submitter inputs.now symbol (entrySignalId symbol barStart)
    approval.requestId order).run db with ⟨e | result, db'⟩
  · rfl
  · rfl

namespace ApprovedRun

open RefusedEntry

/-- The approved request of `RefusedEntry`, with a close and limits of its own. -/
def inputs (close limit minimum : PyFloat) (checker : Option (String → Except Exn Number)) : EntryInputs where
  config := ⟨⟨3000000, 3 / 10, 10, 20, 2, 1, 3, none, 3, minimum⟩, 1, limit⟩
  now := opening
  latestClose := close
  portfolio := none
  paperPositions := []
  entryBudgetChecker := none
  postAiPriceChecker := checker

/-- The AI is not asked. -/
def reads : DirectReads where
  cycle := ⟨true, true, 10, 90, 3⟩
  minConfidence := .fin (3 / 4)
  maxAiResponseAgeSeconds := none
  networkClient := false
  candidates := []
  cycleDeadline := none
  preAiNow := opening
  preAiView := ⟨none, none⟩
  answer := .error (.other "RuntimeError" "not asked")
  responseNow := opening
  postAiView := ⟨none, none⟩
  submitNow := opening

def sent : OrderRequest := ⟨"005930", .buy, .int 1, .float (.fin 100000), "KRX"⟩

variable {close limit minimum : PyFloat} {checker : Option (String → Except Exn Number)}

/-- The quantity depends on the risk limits only. -/
theorem quantity_one (hminimum : minimum = .fin (3 / 4) ∨ minimum = .nan) :
    riskQuantity (inputs close limit minimum checker) "005930" (entrySignalId "005930" barStart)
      (.fin (9 / 10)) 100000 99000 = some 1 := by
  have hsame : ∀ minimum, riskQuantity (inputs close limit minimum checker) "005930"
      (entrySignalId "005930" barStart) (.fin (9 / 10)) 100000 99000 =
      riskQuantity (inputs .nan .nan minimum none) "005930" (entrySignalId "005930" barStart)
        (.fin (9 / 10)) 100000 99000 := fun _ => rfl
  rw [hsame]
  rcases hminimum with rfl | rfl
  · decide +kernel
  · decide +kernel

def audit : AiDecisionAudit :=
  ⟨"d1", "005930", "BUY", .fin (9 / 10), some (.fin 100000), some (.fin 102000), some (.fin 99000), some 600⟩

def terms : ApprovalTerms :=
  ⟨⟨100000, by norm_num⟩, ⟨99000, by norm_num⟩, ⟨102000, by norm_num⟩, 1⟩

def order : ApprovedOrder := ⟨"d1", terms.quantity, terms.entryPrice⟩

/-- The approved request passes its checks on every close whose deviation is not seen to
    be above the limit. -/
theorem passes {deviation : PyFloat} (hminimum : minimum = .fin (3 / 4) ∨ minimum = .nan)
    (hguard : postAiLivePriceGuardReason (inputs close limit minimum checker) "005930" terms.entryPrice = none)
    (hdeviation : closeDeviationPct terms.entryPrice.val close = .ok deviation)
    (hlimit : limit.lt deviation = false) :
    Passes (checkApprovedEntry (inputs close limit minimum checker) "005930"
      (entrySignalId "005930" barStart) approval (approved.decisionAudit approval)) order := by
  have hunchanged : termsUnchanged terms (.fin 100000) (.fin 99000) (.fin 102000) = .ok true :=
    Except.eq_ok_of_toOption (by decide +kernel)
  have hreward : validateRiskReward terms.entryPrice terms.takeProfitPrice terms.stopLossPrice = .ok () :=
    Except.eq_ok_of_toOption (by decide +kernel)
  have hquantity : riskQuantity (inputs close limit minimum checker) "005930"
      (entrySignalId "005930" barStart) audit.confidence terms.entryPrice.val terms.stopLossPrice.val =
      some 1 := quantity_one hminimum
  simp only [checkApprovedEntry, passes_bind, passes_refuseIf, passes_raising, passes_require,
    passes_guard, passes_validated, passes_pure]
  refine ⟨(), ?_, (), ?_, audit, ?_, terms, rfl, .fin 100000, rfl, .fin 99000, rfl, .fin 102000, rfl,
    true, hunchanged, (), rfl, (), hguard, (), hreward, deviation, hdeviation, (), hlimit, (), ?_,
    (), rfl, rfl⟩
  · decide +kernel
  · rfl
  · rfl
  · rw [hquantity]
    rfl

/-- What the run sends is within whatever its submitter may be passed. -/
theorem sent_allowed {P : OrderRequest → Prop} {deviation : PyFloat}
    (hminimum : minimum = .fin (3 / 4) ∨ minimum = .nan)
    (hguard : postAiLivePriceGuardReason (inputs close limit minimum checker) "005930" terms.entryPrice = none)
    (hdeviation : closeDeviationPct terms.entryPrice.val close = .ok deviation)
    (hlimit : limit.lt deviation = false)
    (h : PassesOnly P (fun submitter => enterPosition accepting submitter
      (inputs close limit minimum checker) reads "005930" (some barStart)) approved) : P sent := by
  have hfind : approved.approvalRequests.find? (approvalRequestId "005930" barStart) = some approval := by
    decide +kernel
  have hpasses := passes hminimum hguard hdeviation hlimit
  have hdeadline : deadlineReached reads.preAiNow reads.cycleDeadline = false := by decide +kernel
  have hrun : ∀ submitter, (enterPosition accepting submitter (inputs close limit minimum checker) reads
      "005930" (some barStart)).run approved =
      (consumeAndSubmit accepting submitter opening "005930" (entrySignalId "005930" barStart)
        approval.requestId order).run approved := by
    intro submitter
    have hstatus : approval.status = .approved := rfl
    have hnow : (inputs close limit minimum checker).now = opening := rfl
    have hentry := enterPosition_approved accepting submitter hfind hstatus hdeadline hpasses
    rw [hnow] at hentry
    exact hentry
  apply h.allows
  rw [hrun, hrun]
  intro hsame
  have hsubmitted := congrArg (fun r => r.1.toOption.map (·.submitted)) hsame
  revert hsubmitted
  decide +kernel

/-- Limits that are NaN or not. -/
def limitOf (nan : Bool) : PyFloat := if nan then .nan else .posInf

def minimumOf (nan : Bool) : PyFloat := if nan then .nan else .fin (3 / 4)

def checkerOf (checked : Bool) : Option (String → Except Exn Number) :=
  if checked then some fun _ => .ok (.int 100000) else none

theorem limit_lt (nan : Bool) (deviation : PyFloat) : (limitOf nan).lt deviation = false := by
  cases nan <;> cases deviation <;> rfl

theorem minimum_cases (nan : Bool) : minimumOf nan = .fin (3 / 4) ∨ minimumOf nan = .nan := by
  cases nan with
  | true => exact .inr rfl
  | false => exact .inl rfl

theorem guard_none {checked nan : Bool} (h : ¬ (close.price? = none ∧ checked = true)) :
    postAiLivePriceGuardReason (inputs close (limitOf nan) minimum (checkerOf checked)) "005930"
      terms.entryPrice = none := by
  cases checked with
  | false => rfl
  | true =>
    obtain ⟨price, hprice⟩ := Option.ne_none_iff_exists'.mp fun hnone => h ⟨hnone, rfl⟩
    rw [PyFloat.price?_eq_some hprice]
    have hfresh : (Number.int 100000).positive? = some terms.entryPrice := by decide +kernel
    simp only [postAiLivePriceGuardReason, inputs, checkerOf, if_true, hfresh, not_le.mpr price.pos,
      if_false, limit_lt, Bool.false_eq_true]

theorem validated : reads.Validated := by
  intro answer hanswer
  have herror : reads.answer = .error (.other "RuntimeError" "not asked") := rfl
  rw [herror] at hanswer
  cases hanswer

theorem auditsStored : approved.AuditsStored := by
  intro id stored hfind
  have hmem := approved.aiDecisionAudits.mem_of_find? hfind
  have hrows : approved.aiDecisionAudits.rows = [audit] := by decide +kernel
  rw [hrows, List.mem_singleton] at hmem
  rw [hmem]
  exact nofun

end ApprovedRun

theorem AllowedEntry.within {inputs : EntryInputs} {reads : DirectReads} {symbol : String}
    {barStart : DateTime} {db : Database} {request : OrderRequest}
    (h : AllowedEntry inputs reads symbol barStart db request) :
    ∃ terms confidence, WithinLimits inputs symbol terms confidence request := by
  cases h with
  | decided answer entry stop take terms _ _ _ _ _ _ _ hwithin => exact ⟨terms, _, hwithin⟩
  | approved approval audit terms _ _ _ hwithin => exact ⟨terms, _, hwithin⟩

theorem closeDeviationPct_ok (entryPrice : ℚ) {close : PyFloat} (hclose : close ≠ .fin 0) :
    ∃ deviation, closeDeviationPct entryPrice close = .ok deviation := by
  cases close with
  | fin q =>
    have hq : q ≠ 0 := fun h => hclose (h ▸ rfl)
    exact ⟨_, if_neg hq⟩
  | nan | posInf | negInf => exact ⟨_, rfl⟩

/-- **Every entry keeps its limits exactly where** the close is positive and the two
    limits are numbers, or the close lets no order go out: it is 0, or it is not positive
    and a price checker is given. -/
theorem entry_limits_iff (close : PyFloat) (checked deviationNan confidenceNan : Bool) :
    EntriesKeepLimits close checked deviationNan confidenceNan ↔
      (close.price?.isSome = true ∧ deviationNan = false ∧ confidenceNan = false) ∨
      (close.price? = none ∧ (close = .fin 0 ∨ checked = true)) := by
  constructor
  · intro hkeep
    by_cases hzero : close = .fin 0
    · exact .inr ⟨by rw [hzero]; rfl, .inl hzero⟩
    by_cases hblocked : close.price? = none ∧ checked = true
    · exact .inr ⟨hblocked.1, .inr hblocked.2⟩
    obtain ⟨deviation, hdeviation⟩ := closeDeviationPct_ok ApprovedRun.terms.entryPrice.val hzero
    have hpasses := hkeep RefusedEntry.accepting
      (ApprovedRun.inputs close (ApprovedRun.limitOf deviationNan) (ApprovedRun.minimumOf confidenceNan)
        (ApprovedRun.checkerOf checked))
      ApprovedRun.reads "005930" (some RefusedEntry.barStart) RefusedEntry.approved rfl
      (by cases checked <;> rfl) (by cases deviationNan <;> rfl) (by cases confidenceNan <;> rfl)
      ApprovedRun.validated ApprovedRun.auditsStored
    obtain ⟨start, -, hallowed⟩ := ApprovedRun.sent_allowed (ApprovedRun.minimum_cases confidenceNan)
      (ApprovedRun.guard_none hblocked) hdeviation (ApprovedRun.limit_lt deviationNan deviation) hpasses
    obtain ⟨terms, confidence, hwithin⟩ := hallowed.within
    obtain ⟨c, hclose, hpos, hnear⟩ := hwithin.near_close
    refine .inl ⟨?_, ?_, ?_⟩
    · rw [show close = .fin c from hclose]
      simp [PyFloat.price?, hpos]
    · cases deviationNan with
      | false => rfl
      | true => exact absurd hnear Bool.false_ne_true
    · cases confidenceNan with
      | false => rfl
      | true => exact absurd hwithin.confident Bool.false_ne_true
  · intro hcondition broker inputs reads symbol barStart db hclose hchecked hdeviation hconfidence
      hvalidated hstored
    have hlimits : LimitsHold inputs := by
      constructor
      · intro hsome
        rw [hclose] at hsome
        rcases hcondition with ⟨-, rfl, rfl⟩ | ⟨hnone, -⟩
        · exact ⟨of_decide_eq_false hdeviation, of_decide_eq_false hconfidence⟩
        · rw [hnone] at hsome
          cases hsome
      · intro hnone
        rw [hclose] at hnone
        rcases hcondition with ⟨hsome, -⟩ | ⟨-, hzero | hchecked'⟩
        · rw [hnone] at hsome
          cases hsome
        · exact .inl (hclose.trans hzero)
        · exact .inr (hchecked.trans hchecked')
    cases barStart with
    | none => exact PassesOnly.const _
    | some start =>
      intro s₁ s₂ hsame
      exact hlimits.enterPosition broker hvalidated hstored start s₁ s₂
        fun id request hrequest => hsame id request ⟨start, rfl, hrequest⟩

/-- With the default limits and no price checker, the approved order goes out on an
    infinite close: its deviation is NaN, which is not above the limit. -/
theorem infinite_close_sent :
    ApprovedRun.reads.Validated ∧ RefusedEntry.approved.AuditsStored ∧
    ¬ PassesOnly
      (fun request => ∃ start ∈ some RefusedEntry.barStart,
        AllowedEntry (ApprovedRun.inputs .posInf (.fin 1) (.fin (3 / 4)) none) ApprovedRun.reads "005930"
          start RefusedEntry.approved request)
      (fun submitter => enterPosition RefusedEntry.accepting submitter
        (ApprovedRun.inputs .posInf (.fin 1) (.fin (3 / 4)) none) ApprovedRun.reads "005930"
        (some RefusedEntry.barStart)) RefusedEntry.approved := by
  refine ⟨ApprovedRun.validated, ApprovedRun.auditsStored, fun hpasses => ?_⟩
  have hguard : postAiLivePriceGuardReason (ApprovedRun.inputs .posInf (.fin 1) (.fin (3 / 4)) none) "005930"
      ApprovedRun.terms.entryPrice = none := rfl
  have hdeviation : closeDeviationPct ApprovedRun.terms.entryPrice.val .posInf = .ok .nan := rfl
  obtain ⟨start, -, hallowed⟩ := ApprovedRun.sent_allowed (.inl rfl) hguard hdeviation rfl hpasses
  obtain ⟨terms, confidence, hwithin⟩ := hallowed.within
  obtain ⟨c, hclose, -⟩ := hwithin.near_close
  have hinfinite : PyFloat.posInf = .fin c := hclose
  cases hinfinite

end AutoTrader
