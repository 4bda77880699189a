/-
  AutoTrader/Safety/PaperShadow.lean
  ==================================
  **Dry runs and paper sessions keep the risk limits.**

  A dry run and a shadow cycle over the same bars judge alike (`dry_run_agrees`).  Over any sequence
  of paper sessions, shadow cycles and sales a symbol is bought once, no more symbols are bought
  than positions are allowed, and every purchase keeps the caps (`paper_limits`): a position that
  is sold out still counts as one.
-/
import AutoTrader.Pipeline.ShadowCycle
import AutoTrader.Safety.EntryPaths
import Mathlib.Data.List.TakeWhile

namespace AutoTrader.Market

open Relational Lifecycle PaperJournal

/-! ### What a judgement is -/

theorem finalState_eq (approved : Bool) : finalState approved = .ok (if approved then .long else .flat) := by
  cases approved with
  | false => rfl
  | true => rfl

theorem judge_ok {symbol : String} {bars : List MinuteBar} {lookback : Int} {risk : RiskConfig}
    {portfolio : PortfolioState} {judgement : Judgement}
    (h : judge symbol bars lookback risk portfolio = .ok (some judgement)) :
    ∃ last, bars.getLast? = some last ∧ judgement.close = last.close ∧
      buildSignalId judgement.selected.strategy symbol last.start = .ok judgement.signalId ∧
      judgement.decision =
        shadowDecision risk portfolio symbol judgement.signalId judgement.selected judgement.close ∧
      judgement.state = if judgement.decision.approved then .long else .flat := by
  unfold judge at h
  obtain ⟨snapshot, -, h⟩ := Except.bind_eq_ok h
  dsimp only at h
  split at h
  · rename_i first rest last hcandidates hlast
    obtain ⟨signalId, hsignal, h⟩ := Except.bind_eq_ok h
    rw [finalState_eq] at h
    cases h
    exact ⟨last, hlast, rfl, hsignal, rfl, rfl⟩
  · cases h

/-- A purchase at a positive price that keeps the size of a position and, one percent lower, the risk of a
    trade. -/
def WithinCaps (risk : RiskConfig) (price : PyFloat) (quantity : Int) : Prop :=
  ∃ entry : ℚ, price = .fin entry ∧ 0 < entry ∧
    quantity * entry ≤ risk.allocatedKrw * risk.maxPositionPct / 100 ∧
    quantity * (entry / 100) ≤ risk.allocatedKrw * risk.riskPerTradePct / 100

/-- An approved decision keeps the limits. -/
structure WithinRisk (risk : RiskConfig) (portfolio : PortfolioState) (symbol : String) (close : PyFloat)
    (quantity : Int) : Prop where
  caps : WithinCaps risk close quantity
  positive : 0 < quantity
  free : symbol ∉ portfolio.openPositions
  room : (portfolio.openPositions.length : Int) < risk.maxPositions

theorem shadowDecision_approved {risk : RiskConfig} {portfolio : PortfolioState} {symbol signalId : String}
    {selected : CandidateSignal} {close : PyFloat}
    (h : (shadowDecision risk portfolio symbol signalId selected close).approved = true) :
    WithinRisk risk portfolio symbol close
      (shadowDecision risk portfolio symbol signalId selected close).quantity := by
  cases close with
  | nan => cases h
  | posInf => cases h
  | negInf => cases h
  | fin entry =>
    unfold shadowDecision at h ⊢
    dsimp only at h ⊢
    obtain ⟨-, hfree, hpos, hquantity⟩ := evaluateOrderIntent_approved h
    obtain ⟨hprice, hroom⟩ := evaluateOrderIntent_room h
    obtain ⟨hcap, hbudget⟩ := calculateQuantity_within hpos (le_refl _)
    rw [hquantity]
    constructor
    · refine ⟨entry, rfl, hprice, hcap, ?_⟩
      have hstop : entry - entry * (99 / 100) = entry / 100 := by ring
      rwa [hstop] at hbudget
    · exact hpos
    · exact hfree
    · exact hroom.positions

/-! ### The dry run -/

theorem strip_of_blank {text : String} (h : Text.blank text = true) : (Text.strip text).toList = [] := by
  have hall : ∀ c ∈ text.toList, Text.isSpace c = true := List.all_eq_true.mp h
  rw [Text.strip, String.toList_ofList, List.dropWhile_eq_nil_iff.mpr hall]
  rfl

/-- A symbol that has a signal id is not blank. -/
theorem not_blank_of_signal {strategy symbol signalId : String} {timestamp : DateTime}
    (h : buildSignalId strategy symbol timestamp = .ok signalId) : Text.blank symbol = false := by
  cases hblank : Text.blank symbol with
  | false => rfl
  | true =>
    have hraises : ∃ e, signalPrefix symbol = .error e := by
      rw [signalPrefix, strip_of_blank hblank]
      exact ⟨_, rfl⟩
    obtain ⟨e, hraises⟩ := hraises
    unfold buildSignalId at h
    obtain ⟨first, -, h⟩ := Except.bind_eq_ok h
    rw [hraises] at h
    cases h

/-- A position opened at a valid price is held at that price. -/
theorem evaluateOpened_holds {symbol : String} {quantity : Int} {entry : ℚ} (openedAt : DateTime)
    (hsymbol : Text.blank symbol = false) (hquantity : 0 < quantity) (hentry : 0 < entry) :
    ∃ decision, evaluateOpened (openedPosition symbol quantity (.fin entry) openedAt) = .ok decision ∧
      decision.action = .hold ∧ decision.reason = "hold" := by
  let position := openedPosition symbol quantity (.fin entry) openedAt
  let prices : PricedPosition :=
    ⟨⟨entry, hentry⟩, ⟨entry, hentry⟩, ⟨entry * (99 / 100), by positivity⟩, ⟨entry * (1005 / 1000), by positivity⟩,
      ⟨entry * (101 / 100), by positivity⟩, 1 / 2, none⟩
  have hprice : ∀ q : ℚ, (hq : 0 < q) → PyFloat.price? (.fin q) = some ⟨q, hq⟩ := fun q hq => PyFloat.price?_fin ⟨q, hq⟩
  have haccepts : Accepts position (.fin entry) openedAt prices := by
    constructor
    · exact hsymbol
    · exact hquantity
    · simp only [ManagedPosition.prices, position, openedPosition, scaledPrice, PyFloat.mul_fin]
      rw [hprice entry hentry, hprice (entry * (99 / 100)) (by positivity),
        hprice (entry * (1005 / 1000)) (by positivity), hprice (entry * (101 / 100)) (by positivity)]
      rfl
    · simp only [ManagedPosition.ratio?, position, openedPosition]
      rw [if_pos (by norm_num)]
    · show entry * (99 / 100) < entry
      linarith
    · show entry < entry * (1005 / 1000)
      linarith
    · show entry * (1005 / 1000) ≤ entry * (101 / 100)
      linarith
    · rfl
    · rfl
    · simp [precedes_ok_false, position, openedPosition]
  have hrules : TrailingRules.NonNeg {} := by
    refine ⟨?_, ?_, ?_⟩ <;> simp [PyFloat.le, PyFloat.lt]
  have hdecision := (evaluatePosition_ok_iff hrules).mpr ⟨prices, haccepts, rfl⟩
  have hhold : decidePosition position prices openedAt {} =
      ⟨.hold, "hold", 0, none, some false, some (.fin entry)⟩ := by
    have hstop : ¬entry ≤ entry * (99 / 100) := by linarith
    have htp1 : ¬entry * (1005 / 1000) ≤ entry := by linarith
    have htp2 : ¬entry * (101 / 100) ≤ entry := by linarith
    have htrailing : prices.newTrailing position.trailingActive {} = false := by
      simp only [PricedPosition.newTrailing, position, openedPosition, raisedBy, prices, Bool.false_or, PyFloat.le,
        PyFloat.lt, Bool.not_eq_false', decide_eq_true_eq]
      linarith
    have htime : timeStopped position prices openedAt = false := rfl
    simp only [decidePosition, htrailing, htime, PricedPosition.newHighest]
    simp only [prices, hstop, htp1, htp2, if_false, and_false, Bool.false_and, Bool.false_eq_true]
  refine ⟨_, ?_, congrArg PositionDecision.action hhold, congrArg PositionDecision.reason hhold⟩
  show evaluateOpened position = _
  unfold evaluateOpened
  have hentryPrice : position.entryPrice = .fin entry := rfl
  have hopenedAt : position.openedAt = openedAt := rfl
  rw [hentryPrice, hopenedAt, hdecision]
  show (applyPositionDecision position (decidePosition position prices openedAt {}) >>= fun _ => _) = _
  rw [hhold]
  rfl

/-- A dry run and a shadow report that say the same; an approved dry run ends LONG and holds. -/
structure Agrees (dry : DryRunReport) (shadow : ShadowCycleReport) : Prop where
  symbol : dry.symbol = shadow.symbol
  bars : dry.barsCount = shadow.barsCount
  candidates : dry.candidatesCount = shadow.candidatesCount
  strategy : dry.selectedStrategy = shadow.selectedStrategy
  approved : dry.riskApproved = shadow.riskApproved
  reason : dry.riskReason = shadow.riskReason
  quantity : dry.riskQuantity = shadow.riskQuantity
  state : dry.lifecycleFinalState = shadow.lifecycleFinalState
  signal : dry.signalId = shadow.signalId
  held : if dry.riskApproved then
      dry.lifecycleFinalState = .long ∧ dry.positionAction = some .hold ∧ dry.positionReason = some "hold"
    else dry.lifecycleFinalState = .flat ∧ dry.positionAction = none ∧ dry.positionReason = none

theorem runOfflineDryRun_eq {symbol : String} {bars : List MinuteBar} {last : MinuteBar} {risk : RiskConfig}
    {lookback : Int} (hlast : bars.getLast? = some last) (hsymbol : ∀ bar ∈ bars, bar.symbol = symbol) :
    runOfflineDryRun bars risk lookback =
      (judge symbol bars lookback risk (.ofPositions []) >>= dryRunReport symbol bars.length last.start) := by
  have hne : bars ≠ [] := by
    rintro rfl
    cases hlast
  obtain ⟨first, hfirst⟩ : ∃ first, bars.head? = some first := ⟨_, List.head?_eq_some_head hne⟩
  have hname : first.symbol = symbol := hsymbol first (List.mem_of_head? hfirst)
  have hsame : (bars.any fun bar => bar.symbol ≠ first.symbol) = false := by
    rw [List.any_eq_false]
    intro bar hbar
    simp [hname, hsymbol bar hbar]
  unfold runOfflineDryRun
  rw [hfirst, hlast]
  dsimp only
  rw [hsame, if_neg Bool.false_ne_true, hname]

theorem runShadowCycle_eq {symbol : String} {data : ShadowData} {now : DateTime} {config : ShadowCycleConfig}
    {portfolio : PortfolioState} {health : MarketHealth}
    (hhealth : evaluateMarketHealth now config.maxTickAgeSeconds config.maxBarAgeSeconds
      config.websocketAcknowledged data.latestTick data.latestBar = .ok health)
    (hfresh : health.tradingBlocked = false) :
    runShadowCycle symbol data now config portfolio =
      (judge symbol data.bars config.lookback config.risk portfolio >>= fun found =>
        .ok (shadowReport symbol data.bars.length health.status found)) := by
  rw [runShadowCycle, hhealth]
  show (if health.tradingBlocked then _ else _) = _
  rw [hfresh]
  rfl

theorem judgedReport_agrees (symbol : String) (barsCount : Nat) (status : MarketHealthStatus) {judgement : Judgement}
    {action : Option PositionAction} {reason : Option String}
    (h : if judgement.decision.approved then judgement.state = .long ∧ action = some .hold ∧ reason = some "hold"
      else judgement.state = .flat ∧ action = none ∧ reason = none) :
    Agrees (judgedReport symbol barsCount judgement action reason)
      (shadowReport symbol barsCount status (some judgement)) :=
  ⟨rfl, rfl, rfl, rfl, rfl, rfl, rfl, rfl, rfl, h⟩

/-- **On fresh market data a shadow cycle without positions and a dry run over the same bars agree**: both raise
    the same exception, or their reports say the same. -/
theorem dry_run_agrees {symbol : String} (data : ShadowData) {now : DateTime} (config : ShadowCycleConfig)
    (hne : data.bars ≠ []) (hsymbol : ∀ bar ∈ data.bars, bar.symbol = symbol) {health : MarketHealth}
    (hhealth : evaluateMarketHealth now config.maxTickAgeSeconds config.maxBarAgeSeconds
      config.websocketAcknowledged data.latestTick data.latestBar = .ok health)
    (hfresh : health.tradingBlocked = false) :
    (∃ e, runOfflineDryRun data.bars config.risk config.lookback = .error e ∧
        runShadowCycle symbol data now config (.ofPositions []) = .error e) ∨
      ∃ dry shadow, runOfflineDryRun data.bars config.risk config.lookback = .ok dry ∧
        runShadowCycle symbol data now config (.ofPositions []) = .ok shadow ∧ Agrees dry shadow := by
  obtain ⟨last, hlast⟩ : ∃ last, data.bars.getLast? = some last := ⟨_, List.getLast?_eq_getLast_of_ne_nil hne⟩
  rw [runOfflineDryRun_eq hlast hsymbol, runShadowCycle_eq hhealth hfresh]
  rcases hjudge : judge symbol data.bars config.lookback config.risk (.ofPositions []) with e | _ | judgement
  · exact .inl ⟨e, rfl, rfl⟩
  · exact .inr ⟨_, _, rfl, rfl, ⟨rfl, rfl, rfl, rfl, rfl, rfl, rfl, rfl, rfl, ⟨rfl, rfl, rfl⟩⟩⟩
  obtain ⟨last', hlast', hclose, hsignal, hdecision, hstate⟩ := judge_ok hjudge
  rw [hlast, Option.some.injEq] at hlast'
  subst hlast'
  right
  cases happroved : judgement.decision.approved with
  | false =>
    have hdry : dryRunReport symbol data.bars.length last.start (some judgement) =
        .ok (judgedReport symbol data.bars.length judgement none none) := if_pos happroved
    exact ⟨_, _, hdry, rfl, judgedReport_agrees _ _ _ (by simpa [happroved] using hstate)⟩
  | true =>
    have happroved' : (shadowDecision config.risk (.ofPositions []) symbol judgement.signalId judgement.selected
        judgement.close).approved = true := by rw [← hdecision, happroved]
    have hwithin := shadowDecision_approved happroved'
    rw [← hdecision] at hwithin
    obtain ⟨entry, hentry, hpos, -⟩ := hwithin.caps
    obtain ⟨decision, hopened, haction, hreason⟩ := evaluateOpened_holds last.start
      (not_blank_of_signal hsignal) hwithin.positive hpos
    have hdry : dryRunReport symbol data.bars.length last.start (some judgement) =
        .ok (judgedReport symbol data.bars.length judgement (some .hold) (some "hold")) := by
      show (if judgement.decision.approved = false then _ else _) = _
      rw [if_neg (by simp [happroved]), hentry, hopened, ← haction, ← hreason]
      rfl
    exact ⟨_, _, hdry, rfl, judgedReport_agrees _ _ _ (by simpa [happroved] using hstate)⟩

/-- One bar is too little for a candidate: both say so. -/
theorem ClimbingBars.dry_run_agrees_on_one :
    (∃ e, runOfflineDryRun [bar 0] defaultRisk 20 = .error e ∧
        runShadowCycle "005930" ⟨[bar 0], none, some (bar 0)⟩ (bar 0).start (paperConfig (.fin 5) (.fin 90) true)
          (.ofPositions []) = .error e) ∨
      ∃ dry shadow, runOfflineDryRun [bar 0] defaultRisk 20 = .ok dry ∧
        runShadowCycle "005930" ⟨[bar 0], none, some (bar 0)⟩ (bar 0).start (paperConfig (.fin 5) (.fin 90) true)
          (.ofPositions []) = .ok shadow ∧ Agrees dry shadow :=
  dry_run_agrees ⟨[bar 0], none, some (bar 0)⟩ (paperConfig (.fin 5) (.fin 90) true)
    (List.cons_ne_nil _ _) (by simp [bar]) rfl (by simp [healthOf, paperConfig, PyFloat.le, PyFloat.lt])

/-! ### The limits of a paper run -/

/-- The purchases of a journal. -/
def purchases (journal : PaperJournal) : List PaperFillRow := journal.fills.rows.filter fun fill => fill.side = "BUY"

/-- What a journal keeps to: a purchase for every symbol it names, not two for one, no more than positions are
    allowed, each within the caps, and no more sold than bought. -/
structure KeepsLimits (risk : RiskConfig) (journal : PaperJournal) : Prop where
  recorded : ∀ fill ∈ journal.fills.rows, Recorded fill
  bought : ∀ fill ∈ journal.fills.rows, ∃ purchase ∈ purchases journal, purchase.symbol = fill.symbol
  once : ((purchases journal).map (·.symbol)).Nodup
  room : ((purchases journal).length : Int) ≤ max 0 risk.maxPositions
  caps : ∀ purchase ∈ purchases journal, WithinCaps risk purchase.price purchase.quantity
  held : ∀ symbol, 0 ≤ signedQuantity (journal.fillsOf symbol)

/-- An insertion leaves the journal as it is, or appends the fill. -/
theorem insert_cases (journal : PaperJournal) (order : PaperOrderRow) (fill : PaperFillRow) :
    (journal.insert order fill).1 = journal ∨ (journal.insert order fill).1.fills.rows = journal.fills.rows ++ [fill] := by
  unfold PaperJournal.insert
  split
  · exact .inl rfl
  split
  · exact .inl rfl
  · rename_i hfree
    right
    have hnone : journal.fills.find? fill.fillId = none := by
      apply Option.eq_none_iff_forall_ne_some.mpr
      intro found hfound
      exact hfree (.inl (by rw [hfound]; rfl))
    simp [Table.upsert, hnone, Table.insertOrIgnore_of_free hnone]

theorem signedQuantity_snoc (fills : List PaperFillRow) (fill : PaperFillRow) :
    signedQuantity (fills ++ [fill]) =
      signedQuantity fills + if fill.side = "BUY" then fill.quantity else -fill.quantity := by
  simp [signedQuantity]

theorem fillsOf_snoc {journal journal' : PaperJournal} {fill : PaperFillRow}
    (h : journal'.fills.rows = journal.fills.rows ++ [fill]) (symbol : String) :
    journal'.fillsOf symbol = if fill.symbol = symbol then journal.fillsOf symbol ++ [fill] else journal.fillsOf symbol := by
  by_cases hsymbol : fill.symbol = symbol <;> simp [fillsOf, h, hsymbol]

/-- The positions that a cycle reads are the symbols of all fills. -/
theorem symbols_paperPositions {journal : PaperJournal} (h : ∀ fill ∈ journal.fills.rows, Recorded fill) :
    journal.paperPositions.map (·.symbol) = (journal.fills.rows.map (·.symbol)).dedup.insertionSort (· ≤ ·) := by
  have hall : ∀ symbol ∈ (journal.fills.rows.map (·.symbol)).dedup.insertionSort (· ≤ ·),
      ((journal.fillsOf symbol).head?.any fun fill => 0 < fill.quantity) = true := by
    intro symbol hsymbol
    rw [List.mem_insertionSort, List.mem_dedup, List.mem_map] at hsymbol
    obtain ⟨fill, hfill, rfl⟩ := hsymbol
    have hown : fill ∈ journal.fillsOf fill.symbol := by simp [fillsOf, hfill]
    obtain ⟨first, hfirst⟩ : ∃ first, (journal.fillsOf fill.symbol).head? = some first :=
      ⟨_, List.head?_eq_some_head (List.ne_nil_of_mem hown)⟩
    have hpositive := (h first (List.mem_of_mem_filter (List.mem_of_head? hfirst))).positive
    simp [hfirst, hpositive]
  simp only [paperPositions]
  rw [List.filter_eq_self.mpr hall, List.map_map]
  exact List.map_id _

namespace KeepsLimits

variable {risk : RiskConfig} {journal journal' : PaperJournal} {fill : PaperFillRow}

theorem empty (risk : RiskConfig) : KeepsLimits risk .empty := by
  constructor <;> simp [PaperJournal.empty, purchases, fillsOf, signedQuantity]

/-- The symbols that were bought are no more than those that the positions show. -/
theorem purchases_length (h : KeepsLimits risk journal) :
    (purchases journal).length ≤ (journal.paperPositions.map (·.symbol)).length := by
  rw [symbols_paperPositions h.recorded, List.length_insertionSort, ← List.length_map (·.symbol)]
  apply (List.subperm_of_subset h.once _).length_le
  intro symbol hsymbol
  obtain ⟨purchase, hpurchase, rfl⟩ := List.mem_map.mp hsymbol
  rw [List.mem_dedup]
  exact List.mem_map_of_mem (List.mem_of_mem_filter hpurchase)

/-- A purchase within the limits of the positions keeps them. -/
theorem buy (h : KeepsLimits risk journal) (hrows : journal'.fills.rows = journal.fills.rows ++ [fill])
    (hside : fill.side = "BUY")
    (hwithin : WithinRisk risk (.ofPositions (journal.paperPositions.map (·.symbol))) fill.symbol fill.price
      fill.quantity) : KeepsLimits risk journal' := by
  have hpurchases : purchases journal' = purchases journal ++ [fill] := by simp [purchases, hrows, hside]
  have hfree : fill.symbol ∉ journal.fills.rows.map (·.symbol) := by
    have hfree := hwithin.free
    rwa [PortfolioState.ofPositions, symbols_paperPositions h.recorded, List.mem_insertionSort, List.mem_dedup] at hfree
  constructor
  · rw [hrows]
    simp only [List.mem_append, List.mem_singleton]
    rintro other (hother | rfl)
    · exact h.recorded other hother
    · exact ⟨.inl hside, hwithin.positive⟩
  · rw [hrows, hpurchases]
    simp only [List.mem_append, List.mem_singleton]
    rintro other (hother | rfl)
    · obtain ⟨purchase, hpurchase, hsymbol⟩ := h.bought other hother
      exact ⟨purchase, .inl hpurchase, hsymbol⟩
    · exact ⟨other, .inr rfl, rfl⟩
  · rw [hpurchases, List.map_append, List.nodup_append]
    refine ⟨h.once, List.nodup_singleton _, ?_⟩
    intro symbol hsymbol other hother
    obtain ⟨purchase, hpurchase, rfl⟩ := List.mem_map.mp hsymbol
    have hother : other = fill.symbol := by simpa using hother
    rw [hother]
    intro hsame
    exact hfree (hsame ▸ List.mem_map_of_mem (List.mem_of_mem_filter hpurchase))
  · have hroom := hwithin.room
    have hlength := h.purchases_length
    simp only [PortfolioState.ofPositions] at hroom
    rw [hpurchases, List.length_append, List.length_singleton]
    omega
  · rw [hpurchases]
    simp only [List.mem_append, List.mem_singleton]
    rintro purchase (hpurchase | rfl)
    · exact h.caps purchase hpurchase
    · exact hwithin.caps
  · intro symbol
    have hheld := h.held symbol
    have hpositive := hwithin.positive
    rw [fillsOf_snoc hrows]
    split
    · rw [signedQuantity_snoc, if_pos hside]
      omega
    · exact hheld

/-- A sale of no more than a listed position has keeps the limits. -/
theorem sell (h : KeepsLimits risk journal) (hrows : journal'.fills.rows = journal.fills.rows ++ [fill])
    (hside : fill.side = "SELL") (hpositive : 0 < fill.quantity)
    (hlisted : fill.symbol ∈ journal.paperPositions.map (·.symbol))
    (hheld : fill.quantity ≤ signedQuantity (journal.fillsOf fill.symbol)) : KeepsLimits risk journal' := by
  have hpurchases : purchases journal' = purchases journal := by simp [purchases, hrows, hside]
  have hother : ∃ other ∈ journal.fills.rows, other.symbol = fill.symbol := by
    rwa [symbols_paperPositions h.recorded, List.mem_insertionSort, List.mem_dedup, List.mem_map] at hlisted
  constructor
  · rw [hrows]
    simp only [List.mem_append, List.mem_singleton]
    rintro other (hother | rfl)
    · exact h.recorded other hother
    · exact ⟨.inr hside, hpositive⟩
  · rw [hrows, hpurchases]
    simp only [List.mem_append, List.mem_singleton]
    rintro other (hother | rfl)
    · exact h.bought other hother
    · obtain ⟨earlier, hearlier, hsymbol⟩ := hother
      rw [← hsymbol]
      exact h.bought earlier hearlier
  · rw [hpurchases]
    exact h.once
  · rw [hpurchases]
    exact h.room
  · rw [hpurchases]
    exact h.caps
  · intro symbol
    rw [fillsOf_snoc hrows]
    split
    · rename_i hsymbol
      subst hsymbol
      rw [signedQuantity_snoc, hside, if_neg (by decide)]
      omega
    · exact h.held symbol

end KeepsLimits

/-- A report that becomes a record is one that the risk engine approved. -/
theorem report_within {symbol : String} {data : ShadowData} {now : DateTime} {config : ShadowCycleConfig}
    {portfolio : PortfolioState} {report : ShadowCycleReport} {createdAt : Option DateTime} {record : PaperRecord}
    (h : runShadowCycle symbol data now config portfolio = .ok report)
    (hrecord : report.record? createdAt = some record) :
    WithinRisk config.risk portfolio record.symbol record.price.value record.quantity := by
  unfold runShadowCycle at h
  obtain ⟨health, -, h⟩ := Except.bind_eq_ok h
  split at h
  · cases h
    cases hrecord
  obtain ⟨found, hjudge, h⟩ := Except.bind_eq_ok h
  cases h
  cases found with
  | none => cases hrecord
  | some judgement =>
    obtain ⟨last, -, -, -, hdecision, -⟩ := judge_ok hjudge
    simp only [ShadowCycleReport.record?, shadowReport, Bool.false_or] at hrecord
    split at hrecord
    · cases hrecord
    rename_i heligible
    cases hrecord
    have happroved : judgement.decision.approved = true := by simp_all
    rw [hdecision] at happroved ⊢
    exact shadowDecision_approved happroved

/-- A cycle buys nothing, or what the risk engine approves on the positions of the journal. -/
theorem runPaperShadowCycle_keeps {journal : PaperJournal} (config : ShadowCycleConfig)
    (h : KeepsLimits config.risk journal) (symbol : String) (reads : ShadowReads) :
    KeepsLimits config.risk (runPaperShadowCycle symbol journal reads config).1 := by
  unfold runPaperShadowCycle
  dsimp only
  split
  · exact h
  rename_i report hreport
  unfold recordShadowPaperBuy
  split
  · exact h
  rename_i record hrecord
  dsimp only
  unfold recordPaperBuy
  split
  · exact h
  dsimp only
  rcases insert_cases journal (PaperJournal.rowsOf reads.clock record "BUY").1 (PaperJournal.rowsOf reads.clock record "BUY").2 with hsame | hrows
  · rw [hsame]
    exact h
  · exact h.buy hrows rfl (report_within hreport hrecord)

theorem sessionIteration_keeps {journal : PaperJournal} (h : KeepsLimits defaultRisk journal) (config : SessionConfig)
    (iteration : Nat) (input : SessionInput) :
    KeepsLimits defaultRisk (sessionIteration config journal iteration input).1 := by
  unfold sessionIteration
  split
  · exact h
  cases input.collected with
  | error e => exact h
  | ok collected =>
    exact runPaperShadowCycle_keeps (paperConfig config.maxTickAgeSeconds config.maxBarAgeSeconds collected.subscribeAck)
      h _ _

theorem sessionLoop_keeps {journal : PaperJournal} (h : KeepsLimits defaultRisk journal) (config : SessionConfig)
    (iteration : Nat) (inputs : List SessionInput) :
    KeepsLimits defaultRisk (sessionLoop config journal iteration inputs).1 := by
  induction inputs generalizing journal iteration with
  | nil => exact h
  | cons input rest ih =>
    have hstep := sessionIteration_keeps h config iteration input
    unfold sessionLoop
    split
    · rename_i hiteration
      rwa [hiteration] at hstep
    · rename_i hiteration
      rw [hiteration] at hstep
      exact ih hstep _

theorem runPaperSession_keeps {journal : PaperJournal} (h : KeepsLimits defaultRisk journal) (config : SessionConfig)
    (collectSeconds sleepSeconds : Int) (inputs : List SessionInput) :
    KeepsLimits defaultRisk (runPaperSession config collectSeconds sleepSeconds journal inputs).1 := by
  unfold runPaperSession
  split
  · exact h
  split
  · exact h
  · exact sessionLoop_keeps h config 1 inputs

/-- A recorded sale is of no more than the position has. -/
theorem recordPaperSell_keeps {risk : RiskConfig} {journal : PaperJournal} (h : KeepsLimits risk journal)
    (now : DateTime) (record : PaperRecord) : KeepsLimits risk (journal.recordPaperSell now record).1 := by
  unfold recordPaperSell
  split
  · exact h
  rename_i hvalid
  split
  · exact h
  dsimp only
  split
  · exact h
  rename_i hheld
  rcases insert_cases journal (PaperJournal.rowsOf now record "SELL").1 (PaperJournal.rowsOf now record "SELL").2 with hsame | hrows
  · rw [hsame]
    exact h
  obtain ⟨position, hfind, hheld⟩ : ∃ position,
      journal.paperPositions.find? (fun item => item.symbol = record.symbol) = some position ∧
        record.quantity ≤ position.quantity := by
    cases hfind : journal.paperPositions.find? fun item => item.symbol = record.symbol with
    | none => simp [hfind] at hheld
    | some position => exact ⟨position, rfl, by simpa [hfind] using hheld⟩
  have hsymbol : position.symbol = record.symbol := by simpa using List.find?_some hfind
  have hlisted := List.mem_of_find?_eq_some hfind
  apply h.sell hrows rfl (validatePaperRecord_ok hvalid)
  · show record.symbol ∈ _
    rw [← hsymbol]
    exact List.mem_map_of_mem hlisted
  · obtain ⟨symbol, -, rfl⟩ := List.mem_map.mp hlisted
    show record.quantity ≤ signedQuantity (journal.fillsOf record.symbol)
    rwa [← show symbol = record.symbol from hsymbol]

/-- What happens to the paper journal: a session, a cycle of its own, or a sale. -/
inductive PaperEvent where
  | session (config : SessionConfig) (collectSeconds sleepSeconds : Int) (inputs : List SessionInput)
  | cycle (symbol : String) (reads : ShadowReads) (maxTickAge maxBarAge : PyFloat) (websocketAcknowledged : Bool)
  | sell (now : DateTime) (record : PaperRecord)

/-- The journal that an event leaves. -/
def PaperEvent.exec (journal : PaperJournal) : PaperEvent → PaperJournal
  | .session config collectSeconds sleepSeconds inputs =>
    (runPaperSession config collectSeconds sleepSeconds journal inputs).1
  | .cycle symbol reads maxTickAge maxBarAge acknowledged =>
    (runPaperShadowCycle symbol journal reads (paperConfig maxTickAge maxBarAge acknowledged)).1
  | .sell now record => (journal.recordPaperSell now record).1

/-- **However paper sessions, cycles and sales follow one another, the journal keeps the limits of the default
    risk settings**, sales of bought symbols and symbols sold out included. -/
theorem paper_limits (events : List PaperEvent) :
    KeepsLimits defaultRisk (events.foldl PaperEvent.exec PaperJournal.empty) := by
  suffices hrun : ∀ journal, KeepsLimits defaultRisk journal →
      KeepsLimits defaultRisk (events.foldl PaperEvent.exec journal) from hrun _ (.empty defaultRisk)
  induction events with
  | nil => exact fun _ h => h
  | cons event rest ih =>
    intro journal h
    apply ih
    cases event with
    | session config collectSeconds sleepSeconds inputs => exact runPaperSession_keeps h config _ _ inputs
    | cycle symbol reads maxTickAge maxBarAge acknowledged =>
      exact runPaperShadowCycle_keeps (paperConfig maxTickAge maxBarAge acknowledged) h symbol reads
    | sell now record => exact recordPaperSell_keeps h now record

end AutoTrader.Market
