/-
  AutoTrader/Market/Features.lean
  ===============================
  **Indicators and the feature snapshot of completed bars.**

  Moving averages of the closes, the volume-weighted price and the volume of the last bar against
  the average before it.  `build_feature_snapshot` collects them for the last bar of a history.
  The averages lie between the prices they are taken over (`snapshot_within_prices`), and the
  snapshots of a growing history show the series of the whole history (`snapshots_show_series`).
-/
import AutoTrader.Lib.Averages
import AutoTrader.Market.Ticks
import AutoTrader.Python.FloatArithmetic
import Mathlib.Data.List.Induction

namespace AutoTrader

namespace Indicators

/-! ### Moving averages -/

/-- `_validate`. -/
def validate (values : List PyFloat) (period : Int) : Except Exn Unit :=
  if period ≤ 0 then .error (.valueError "period must be positive")
  else if .nan ∈ values then .error (.valueError "values must not contain NaN")
  else .ok ()

/-- `sma`. -/
def sma (values : List PyFloat) (period : Int) : Except Exn (Option PyFloat) := do
  validate values period
  return if values.length < period then none
    else some ((PyFloat.sum (values.drop (values.length - period.toNat))).dividedBy period)

/-- `sma_series`. -/
def smaSeries (values : List PyFloat) (period : Int) : Except Exn (List (Option PyFloat)) := do
  validate values period
  (List.range values.length).mapM fun index => sma (values.take (index + 1)) period

/-- `(value - current) * multiplier + current`. -/
def emaStep (period : Int) (current value : PyFloat) : PyFloat :=
  ((value.minus current).mul (.fin (2 / (period + 1)))).plus current

/-- The average of the first complete window. -/
def emaSeed (values : List PyFloat) (period : Int) : PyFloat :=
  (PyFloat.sum (values.take period.toNat)).dividedBy period

/-- `ema_series`: nothing before the first window is complete. -/
def emaSeries (values : List PyFloat) (period : Int) : Except Exn (List (Option PyFloat)) := do
  validate values period
  return if values.length < period then List.replicate values.length none
    else List.replicate (period.toNat - 1) none ++
      ((values.drop period.toNat).scanl (emaStep period) (emaSeed values period)).map some

/-- `ema`. -/
def ema (values : List PyFloat) (period : Int) : Except Exn (Option PyFloat) := do
  return (← emaSeries values period).getLast?.join

/-! ### Volumes -/

/-- `volume_average`. -/
def volumeAverage (volumes : List Int) (period : Int) : Except Exn (Option ℚ) :=
  if period ≤ 0 then .error (.valueError "period must be positive")
  else .ok (if volumes.length < period then none
    else some ((volumes.drop (volumes.length - period.toNat)).sum / period))

/-- The average before the last bar, or with it where there are not enough bars before. -/
def averageBefore (volumes : List Int) (period : Int) : Except Exn (Option ℚ) := do
  match ← volumeAverage volumes.dropLast period with
  | some average => pure (some average)
  | none => volumeAverage volumes period

/-- `volume_ratio`. -/
def volumeRatio (volumes : List Int) (period : Int) : Except Exn (Option ℚ) :=
  match volumes.getLast? with
  | none => .ok none
  | some last => do
    let average ← averageBefore volumes period
    return (average.filter fun average => 0 < average).map fun average => last / average

/-- `vwap`. -/
def vwap (prices : List PyFloat) (volumes : List Int) : Except Exn (Option PyFloat) :=
  if prices.length ≠ volumes.length then .error (.valueError "prices and volumes must have equal length")
  else .ok (if prices = [] ∨ volumes.sum ≤ 0 then none
    else some ((PyFloat.sum (List.zipWith PyFloat.times prices volumes)).dividedBy volumes.sum))

/-- `(bar.open + bar.high + bar.low + bar.close) / 4`. -/
def representativePrice (bar : Market.MinuteBar) : PyFloat :=
  (((bar.openPrice.plus bar.high).plus bar.low).plus bar.close).dividedBy 4

/-- `vwap_bars`. -/
def vwapBars (bars : List Market.MinuteBar) : Except Exn (Option PyFloat) :=
  vwap (bars.map representativePrice) (bars.map (·.volume))

end Indicators

namespace Market

open Indicators

/-! ### The snapshot -/

structure BarFeatureSnapshot where
  symbol : String
  latestClose : PyFloat
  ema5 : Option PyFloat
  ema10 : Option PyFloat
  ema20 : Option PyFloat
  ma60 : Option PyFloat
  vwap : Option PyFloat
  volumeRatio : Option ℚ
  highN : Option PyFloat
  lowN : Option PyFloat
  distanceFromHighPct : Option PyFloat
  ema20SlopePct : Option PyFloat

/-- The bars before the last one that the range is taken over. -/
def recentBars (bars : List MinuteBar) (lookback : Int) : List MinuteBar :=
  let recent := if 1 < bars.length then (bars.drop (bars.length - 1 - lookback.toNat)).dropLast else bars
  if recent = [] then bars else recent

/-- `max` and `min` over the prices of some bars; there is none over no bar. -/
def extreme (choose : PyFloat → PyFloat → PyFloat) (prices : List PyFloat) : Option PyFloat :=
  prices.head?.map fun first => prices.tail.foldl choose first

/-- `(value - base) / base * 100`, where the base is not zero. -/
def changePct (base value : PyFloat) : Option PyFloat :=
  if base.truthy then some (((value.minus base).quot base).mul (.fin 100)) else none

/-- The change between two entries of a series that are both there. -/
def slopePct (before latest : Option PyFloat) : Option PyFloat :=
  before.bind fun before => latest.bind fun latest => changePct before latest

/-- `build_feature_snapshot`. -/
def buildFeatureSnapshot (bars : List MinuteBar) (lookback : Int) : Except Exn (Option BarFeatureSnapshot) :=
  match bars.getLast? with
  | none => .ok none
  | some last =>
    if lookback ≤ 0 then .error (.valueError "lookback must be positive")
    else do
      let closes := bars.map (·.close)
      let volumes := bars.map (·.volume)
      let recent := recentBars bars lookback
      let high := extreme maxPrice (recent.map (·.high))
      let ema20Values ← emaSeries closes 20
      let ema5 ← ema closes 5
      let ema10 ← ema closes 10
      let ma60 ← sma closes 60
      let vwap ← vwapBars bars
      let ratio ← volumeRatio volumes (min 20 (max 1 (volumes.length - 1)))
      return some {
        symbol := last.symbol
        latestClose := last.close
        ema5 := ema5
        ema10 := ema10
        ema20 := ema20Values.getLast?.join
        ma60 := ma60
        vwap := vwap
        volumeRatio := ratio
        highN := high
        lowN := extreme minPrice (recent.map (·.low))
        distanceFromHighPct := high.bind fun high => changePct high last.close
        ema20SlopePct := slopePct ema20Values.dropLast.getLast?.join ema20Values.getLast?.join }

/-! ### What the averages are -/

theorem validate_ok {values : List PyFloat} {period : Int} (hperiod : 0 < period) (hnan : .nan ∉ values) :
    validate values period = .ok () := by
  rw [validate, if_neg (not_le.mpr hperiod), if_neg hnan]

section Series

variable {values : List PyFloat} {period : Int} (hperiod : 0 < period) (hnan : .nan ∉ values)

include hperiod hnan

theorem sma_eq : sma values period = .ok (if values.length < period then none
    else some ((PyFloat.sum (values.drop (values.length - period.toNat))).dividedBy period)) := by
  rw [sma, validate_ok hperiod hnan]
  rfl

theorem emaSeries_eq : emaSeries values period = .ok (if values.length < period then
      List.replicate values.length none
    else List.replicate (period.toNat - 1) none ++
      ((values.drop period.toNat).scanl (emaStep period) (emaSeed values period)).map some) := by
  rw [emaSeries, validate_ok hperiod hnan]
  rfl

/-- The latest average has gone through every value after the first window. -/
theorem ema_eq : ema values period = .ok (if values.length < period then none
    else some ((values.drop period.toNat).foldl (emaStep period) (emaSeed values period))) := by
  rw [ema, emaSeries_eq hperiod hnan]
  by_cases hshort : values.length < period
  · simp only [if_pos hshort]
    show Except.ok _ = _
    rw [List.getLast?_replicate]
    split
    · rfl
    · rfl
  · simp only [if_neg hshort]
    show Except.ok _ = _
    rw [List.getLast?_append, List.getLast?_map, List.getLast?_scanl]
    rfl

end Series

/-! ### A series is never repainted -/

/-- The series of the beginning of a history is the beginning of its series. -/
theorem emaSeries_take {values : List PyFloat} {period : Int} (hperiod : 0 < period) (hnan : .nan ∉ values)
    {series : List (Option PyFloat)} (h : emaSeries values period = .ok series) (n : Nat) :
    emaSeries (values.take n) period = .ok (series.take n) := by
  have hpart : .nan ∉ values.take n := fun hmem => hnan (List.mem_of_mem_take hmem)
  rw [emaSeries_eq hperiod hnan, Except.ok.injEq] at h
  rw [emaSeries_eq hperiod hpart, ← h, Except.ok.injEq, List.length_take]
  by_cases hlong : values.length < period
  · rw [if_pos hlong, if_pos (by omega), List.take_replicate]
  rw [if_neg hlong]
  have hwindow : period.toNat ≤ values.length := by omega
  by_cases hshort : n < period.toNat
  · -- the first window is not complete yet
    rw [if_pos (by omega), List.take_append_of_le_length (by rw [List.length_replicate]; omega),
      List.take_replicate]
    congr 1
    omega
  · have hseed : emaSeed (values.take n) period = emaSeed values period := by
      rw [emaSeed, emaSeed, List.take_take, min_eq_left (by omega)]
    have hstages : n - (period.toNat - 1) = n - period.toNat + 1 := by omega
    have hblank : (List.replicate (period.toNat - 1) (none : Option PyFloat)).take n =
        List.replicate (period.toNat - 1) none := by
      rw [List.take_replicate, min_eq_right (by omega)]
    rw [if_neg (by omega), hseed, List.take_append, hblank, List.length_replicate, ← List.map_take,
      List.drop_take, hstages, List.take_scanl]

theorem length_emaSeries {values : List PyFloat} {period : Int} (hperiod : 0 < period) (hnan : .nan ∉ values)
    {series : List (Option PyFloat)} (h : emaSeries values period = .ok series) :
    series.length = values.length := by
  rw [emaSeries_eq hperiod hnan, Except.ok.injEq] at h
  rw [← h]
  split
  · rw [List.length_replicate]
  · rw [List.length_append, List.length_replicate, List.length_map, List.length_scanl, List.length_drop]
    omega

/-! ### The averages lie between the prices -/

/-- A finite price between two bounds. -/
def Between (lo hi : ℚ) (x : PyFloat) : Prop := ∃ q, x = .fin q ∧ lo ≤ q ∧ q ≤ hi

theorem exists_finite {lo hi : ℚ} {values : List PyFloat} (h : ∀ x ∈ values, Between lo hi x) :
    ∃ qs : List ℚ, values = qs.map .fin ∧ Averages.Within lo hi qs := by
  induction values with
  | nil => exact ⟨[], rfl, by simp [Averages.Within]⟩
  | cons x rest ih =>
    obtain ⟨q, rfl, hq⟩ := h x (by simp)
    obtain ⟨qs, rfl, hqs⟩ := ih fun y hy => h y (by simp [hy])
    refine ⟨q :: qs, rfl, ?_⟩
    intro y hy
    rcases List.mem_cons.mp hy with rfl | hy
    · exact hq
    · exact hqs y hy

theorem nan_notMem {lo hi : ℚ} {values : List PyFloat} (h : ∀ x ∈ values, Between lo hi x) :
    .nan ∉ values := by
  intro hnan
  obtain ⟨q, hq, -⟩ := h _ hnan
  cases hq

/-- The mean of a part of `n` finite values. -/
theorem mean_between {lo hi : ℚ} {qs : List ℚ} (h : Averages.Within lo hi qs) {n : Int} (hpos : 0 < n)
    (hlength : (qs.length : Int) = n) :
    (PyFloat.sum (qs.map .fin)).dividedBy n = .fin (Averages.mean qs) ∧
      lo ≤ Averages.mean qs ∧ Averages.mean qs ≤ hi := by
  constructor
  · rw [PyFloat.sum_fin, PyFloat.dividedBy_fin, Averages.mean, ← hlength, Int.cast_natCast]
  · apply Averages.mean_within h
    rintro rfl
    simp at hlength
    omega

theorem emaStep_fin (period : Int) (current value : ℚ) :
    emaStep period (.fin current) (.fin value) = .fin (Averages.blend (2 / (period + 1)) current value) := by
  simp [emaStep, Averages.blend]

theorem foldl_emaStep_fin (period : Int) (seed : ℚ) (qs : List ℚ) :
    (qs.map .fin).foldl (emaStep period) (.fin seed) =
      .fin (qs.foldl (Averages.blend (2 / (period + 1))) seed) := by
  induction qs generalizing seed with
  | nil => rfl
  | cons q rest ih => simp only [List.map_cons, List.foldl_cons, emaStep_fin, ih]

section Bounds

variable {lo hi : ℚ} {values : List PyFloat} (h : ∀ x ∈ values, Between lo hi x)
  {period : Int} (hperiod : 0 < period)

include h hperiod

theorem sma_between : ∃ average, sma values period = .ok average ∧
    (average.isSome ↔ period ≤ values.length) ∧ ∀ x ∈ average, Between lo hi x := by
  refine ⟨_, sma_eq hperiod (nan_notMem h), ?_, ?_⟩
  · by_cases hshort : values.length < period
    · simp [hshort]
    · simp [if_neg hshort, not_lt.mp hshort]
  intro x hx
  by_cases hshort : values.length < period
  · rw [if_pos hshort] at hx
    cases hx
  rw [if_neg hshort] at hx
  cases hx
  obtain ⟨qs, rfl, hqs⟩ := exists_finite h
  rw [List.length_map] at hshort ⊢
  rw [← List.map_drop]
  obtain ⟨heq, hmean⟩ := mean_between (hqs.mono (List.drop_subset _ _)) hperiod
    (by rw [List.length_drop]; omega : ((qs.drop (qs.length - period.toNat)).length : Int) = period)
  exact ⟨_, heq, hmean⟩

theorem ema_between : ∃ average, ema values period = .ok average ∧
    (average.isSome ↔ period ≤ values.length) ∧ ∀ x ∈ average, Between lo hi x := by
  refine ⟨_, ema_eq hperiod (nan_notMem h), ?_, ?_⟩
  · by_cases hshort : values.length < period
    · simp [hshort]
    · simp [if_neg hshort, not_lt.mp hshort]
  intro x hx
  by_cases hshort : values.length < period
  · rw [if_pos hshort] at hx
    cases hx
  rw [if_neg hshort] at hx
  cases hx
  obtain ⟨qs, rfl, hqs⟩ := exists_finite h
  rw [List.length_map] at hshort
  obtain ⟨hseed, hmean⟩ := mean_between (hqs.mono (List.take_subset period.toNat _)) hperiod
    (by rw [List.length_take]; omega)
  have hrate : (0 : ℚ) ≤ 2 / ((period : ℚ) + 1) ∧ (2 : ℚ) / ((period : ℚ) + 1) ≤ 1 := by
    have hone : (1 : ℚ) ≤ period := by exact_mod_cast hperiod
    constructor
    · exact div_nonneg (by norm_num) (by linarith)
    · rw [div_le_one (by linarith)]
      linarith
  rw [emaSeed, ← List.map_take, hseed, ← List.map_drop, foldl_emaStep_fin]
  exact ⟨_, rfl, Averages.foldl_blend_within hrate hmean (hqs.mono (List.drop_subset _ _))⟩

end Bounds

/-! ### The volume-weighted price and the volume ratio -/

/-- A bar whose prices lie between two bounds, of a volume that is not negative. -/
structure MinuteBar.PricedWithin (lo hi : ℚ) (bar : MinuteBar) : Prop where
  openPrice : Between lo hi bar.openPrice
  high : Between lo hi bar.high
  low : Between lo hi bar.low
  close : Between lo hi bar.close
  volume : 0 ≤ bar.volume

theorem representativePrice_between {lo hi : ℚ} {bar : MinuteBar} (h : bar.PricedWithin lo hi) :
    Between lo hi (representativePrice bar) := by
  obtain ⟨a, ha, halo, hahi⟩ := h.openPrice
  obtain ⟨b, hb, hblo, hbhi⟩ := h.high
  obtain ⟨c, hc, hclo, hchi⟩ := h.low
  obtain ⟨d, hd, hdlo, hdhi⟩ := h.close
  refine ⟨(a + b + c + d) / 4, by simp [representativePrice, ha, hb, hc, hd], ?_, ?_⟩
  · rw [le_div_iff₀ (by norm_num)]
    linarith
  · rw [div_le_iff₀ (by norm_num)]
    linarith

/-- The bars as prices with weights. -/
theorem exists_items {lo hi : ℚ} {bars : List MinuteBar} (h : ∀ bar ∈ bars, bar.PricedWithin lo hi) :
    ∃ items : List (ℚ × ℚ), (∀ item ∈ items, lo ≤ item.1 ∧ item.1 ≤ hi ∧ 0 ≤ item.2) ∧
      List.zipWith PyFloat.times (bars.map representativePrice) (bars.map (·.volume)) =
        (items.map fun item => item.1 * item.2).map .fin ∧
      (((bars.map (·.volume)).sum : Int) : ℚ) = Averages.totalWeight items := by
  induction bars with
  | nil => exact ⟨[], by simp, rfl, by simp [Averages.totalWeight]⟩
  | cons bar rest ih =>
    obtain ⟨items, hitems, hzip, hweight⟩ := ih fun other hother => h other (by simp [hother])
    obtain ⟨q, hq, hbounds⟩ := representativePrice_between (h bar (by simp))
    have hvolume : (0 : ℚ) ≤ bar.volume := by exact_mod_cast (h bar (by simp)).volume
    refine ⟨(q, (bar.volume : ℚ)) :: items, ?_, ?_, ?_⟩
    · intro item hitem
      rcases List.mem_cons.mp hitem with rfl | hitem
      · exact ⟨hbounds.1, hbounds.2, hvolume⟩
      · exact hitems item hitem
    · simp only [List.map_cons, List.zipWith_cons_cons, hq, hzip, PyFloat.times_fin]
    · simp only [List.map_cons, List.sum_cons, Int.cast_add, Averages.totalWeight_cons, hweight]

theorem vwapBars_total (bars : List MinuteBar) : ∃ price, vwapBars bars = .ok price := by
  rw [vwapBars, Indicators.vwap, if_neg (by simp)]
  exact ⟨_, rfl⟩

theorem vwapBars_between {lo hi : ℚ} {bars : List MinuteBar} (h : ∀ bar ∈ bars, bar.PricedWithin lo hi) :
    ∃ price, vwapBars bars = .ok price ∧ (price.isSome ↔ 0 < (bars.map (·.volume)).sum) ∧
      ∀ x ∈ price, Between lo hi x := by
  obtain ⟨items, hitems, hzip, hweight⟩ := exists_items h
  refine ⟨_, by rw [vwapBars, Indicators.vwap, if_neg (by simp)], ?_, ?_⟩
  · by_cases hnone : bars.map representativePrice = [] ∨ (bars.map (·.volume)).sum ≤ 0
    · rw [if_pos hnone]
      rcases hnone with hnil | hvolume
      · simp [List.map_eq_nil_iff.mp hnil]
      · simp [hvolume]
    · rw [if_neg hnone]
      simp [not_le.mp fun hle => hnone (.inr hle)]
  · intro x hx
    by_cases hnone : bars.map representativePrice = [] ∨ (bars.map (·.volume)).sum ≤ 0
    · rw [if_pos hnone] at hx
      cases hx
    rw [if_neg hnone] at hx
    cases hx
    have hpos : (0 : ℚ) < Averages.totalWeight items := by
      rw [← hweight]
      exact_mod_cast not_le.mp fun hle => hnone (.inr hle)
    refine ⟨Averages.weightedMean items, ?_, Averages.weightedMean_within hitems hpos⟩
    rw [hzip, PyFloat.sum_fin, PyFloat.dividedBy_fin, hweight]
    rfl

theorem volumeAverage_total (volumes : List Int) {period : Int} (hperiod : 0 < period) :
    ∃ average, volumeAverage volumes period = .ok average := by
  rw [volumeAverage, if_neg (not_le.mpr hperiod)]
  exact ⟨_, rfl⟩

theorem volumeRatio_nonneg (volumes : List Int) {period : Int} (hperiod : 0 < period) :
    ∃ ratio, volumeRatio volumes period = .ok ratio ∧ ((∀ v ∈ volumes, 0 ≤ v) → ∀ x ∈ ratio, 0 ≤ x) := by
  unfold volumeRatio
  cases hlast : volumes.getLast? with
  | none => exact ⟨none, rfl, by simp⟩
  | some last =>
    obtain ⟨before, hbefore⟩ := volumeAverage_total volumes.dropLast hperiod
    obtain ⟨whole, hwhole⟩ := volumeAverage_total volumes hperiod
    have haverage : ∃ average, averageBefore volumes period = .ok average := by
      rw [averageBefore, hbefore]
      cases before with
      | none => exact ⟨whole, hwhole⟩
      | some average => exact ⟨some average, rfl⟩
    obtain ⟨average, haverage⟩ := haverage
    refine ⟨_, by rw [haverage]; rfl, ?_⟩
    intro hvolumes x hx
    obtain ⟨base, hbase, rfl⟩ := Option.map_eq_some_iff.mp hx
    have hpos : 0 < base := by simpa using (Option.mem_filter_iff.mp hbase).2
    have hvolume : 0 ≤ last := hvolumes last (List.mem_of_getLast? hlast)
    exact div_nonneg (by exact_mod_cast hvolume) hpos.le

/-! ### The range and the changes -/

theorem extreme_between {lo hi : ℚ} {choose : PyFloat → PyFloat → PyFloat}
    (hchoose : ∀ a b, choose a b = a ∨ choose a b = b) {prices : List PyFloat} (hne : prices ≠ [])
    (h : ∀ x ∈ prices, Between lo hi x) : ∃ x, extreme choose prices = some x ∧ Between lo hi x := by
  cases prices with
  | nil => exact absurd rfl hne
  | cons first rest =>
    refine ⟨_, rfl, ?_⟩
    have hfold : ∀ (rest : List PyFloat) (start : PyFloat), Between lo hi start → (∀ x ∈ rest, Between lo hi x) →
        Between lo hi (rest.foldl choose start) := by
      intro rest
      induction rest with
      | nil => exact fun start hstart _ => hstart
      | cons x rest ih =>
        intro start hstart hrest
        apply ih
        · rcases hchoose start x with heq | heq
          · rwa [heq]
          · rw [heq]
            exact hrest x (by simp)
        · intro y hy
          exact hrest y (by simp [hy])
    exact hfold rest first (h first (by simp)) fun x hx => h x (by simp [hx])

theorem maxPrice_choice (a b : PyFloat) : maxPrice a b = a ∨ maxPrice a b = b := by
  unfold maxPrice
  split
  · exact .inr rfl
  · exact .inl rfl

theorem minPrice_choice (a b : PyFloat) : minPrice a b = a ∨ minPrice a b = b := by
  unfold minPrice
  split
  · exact .inr rfl
  · exact .inl rfl

/-- A change between two positive prices. -/
theorem changePct_between {lo hi : ℚ} (hlo : 0 < lo) {base value : PyFloat} (hbase : Between lo hi base)
    (hvalue : Between lo hi value) :
    ∃ x, changePct base value = some x ∧ Between ((lo / hi - 1) * 100) ((hi / lo - 1) * 100) x := by
  obtain ⟨b, rfl, hb⟩ := hbase
  obtain ⟨v, rfl, hv⟩ := hvalue
  have hbpos : 0 < b := hlo.trans_le hb.1
  have hratio : lo / hi ≤ v / b ∧ v / b ≤ hi / lo := by
    constructor
    · exact div_le_div₀ (hlo.le.trans hv.1) hv.1 hbpos hb.2
    · exact div_le_div₀ (hlo.le.trans (hv.1.trans hv.2)) hv.2 hlo hb.1
  refine ⟨.fin ((v - b) / b * 100), by simp [changePct, PyFloat.truthy, hbpos.ne'], _, rfl, ?_, ?_⟩
  · rw [sub_div, div_self hbpos.ne']
    linarith [hratio.1]
  · rw [sub_div, div_self hbpos.ne']
    linarith [hratio.2]

/-! ### The snapshot of a history -/

theorem recentBars_subset (bars : List MinuteBar) (lookback : Int) : recentBars bars lookback ⊆ bars := by
  have hpart : (if 1 < bars.length then (bars.drop (bars.length - 1 - lookback.toNat)).dropLast else bars) ⊆ bars := by
    split
    · exact fun _ hbar => List.drop_subset _ _ (List.dropLast_subset _ hbar)
    · exact fun _ hbar => hbar
  unfold recentBars
  simp only
  generalize (if 1 < bars.length then (bars.drop (bars.length - 1 - lookback.toNat)).dropLast else bars) = recent at hpart
  split
  · exact fun _ hbar => hbar
  · exact hpart

theorem recentBars_ne_nil {bars : List MinuteBar} (hne : bars ≠ []) (lookback : Int) :
    recentBars bars lookback ≠ [] := by
  unfold recentBars
  simp only
  generalize (if 1 < bars.length then (bars.drop (bars.length - 1 - lookback.toNat)).dropLast else bars) = recent
  split
  · exact hne
  · assumption

theorem ratioPeriod_pos (n : Int) : 0 < min 20 (max 1 n) := by
  omega

/-- What `build_feature_snapshot` returns, by the series of the closes. -/
theorem buildFeatureSnapshot_eq {bars : List MinuteBar} {last : MinuteBar} (hlast : bars.getLast? = some last)
    {lookback : Int} (hlookback : 0 < lookback) {series : List (Option PyFloat)} {ema5 ema10 ma60 vwap : Option PyFloat}
    {ratio : Option ℚ} (hseries : emaSeries (bars.map (·.close)) 20 = .ok series)
    (h5 : ema (bars.map (·.close)) 5 = .ok ema5) (h10 : ema (bars.map (·.close)) 10 = .ok ema10)
    (h60 : sma (bars.map (·.close)) 60 = .ok ma60) (hvwap : vwapBars bars = .ok vwap)
    (hratio : volumeRatio (bars.map (·.volume)) (min 20 (max 1 ((bars.map (·.volume)).length - 1))) = .ok ratio) :
    buildFeatureSnapshot bars lookback = .ok (some {
      symbol := last.symbol
      latestClose := last.close
      ema5 := ema5
      ema10 := ema10
      ema20 := series.getLast?.join
      ma60 := ma60
      vwap := vwap
      volumeRatio := ratio
      highN := extreme maxPrice ((recentBars bars lookback).map (·.high))
      lowN := extreme minPrice ((recentBars bars lookback).map (·.low))
      distanceFromHighPct := (extreme maxPrice ((recentBars bars lookback).map (·.high))).bind fun high =>
        changePct high last.close
      ema20SlopePct := slopePct series.dropLast.getLast?.join series.getLast?.join }) := by
  unfold buildFeatureSnapshot
  rw [hlast]
  dsimp only
  rw [if_neg (not_le.mpr hlookback), hseries, h5, h10, h60, hvwap, hratio]
  rfl

/-- The figures of a snapshot over bars that are priced between two bounds. -/
structure SnapshotWithin (lo hi : ℚ) (bars : List MinuteBar) (snapshot : BarFeatureSnapshot) : Prop where
  ema5 : (snapshot.ema5.isSome ↔ 5 ≤ bars.length) ∧ ∀ x ∈ snapshot.ema5, Between lo hi x
  ema10 : (snapshot.ema10.isSome ↔ 10 ≤ bars.length) ∧ ∀ x ∈ snapshot.ema10, Between lo hi x
  ema20 : (snapshot.ema20.isSome ↔ 20 ≤ bars.length) ∧ ∀ x ∈ snapshot.ema20, Between lo hi x
  ma60 : (snapshot.ma60.isSome ↔ 60 ≤ bars.length) ∧ ∀ x ∈ snapshot.ma60, Between lo hi x
  vwap : (snapshot.vwap.isSome ↔ 0 < (bars.map (·.volume)).sum) ∧ ∀ x ∈ snapshot.vwap, Between lo hi x
  high : ∃ x, snapshot.highN = some x ∧ Between lo hi x
  low : ∃ x, snapshot.lowN = some x ∧ Between lo hi x
  distance : ∃ x, snapshot.distanceFromHighPct = some x ∧ Between ((lo / hi - 1) * 100) ((hi / lo - 1) * 100) x
  slope : (snapshot.ema20SlopePct.isSome ↔ 21 ≤ bars.length) ∧
    ∀ x ∈ snapshot.ema20SlopePct, Between ((lo / hi - 1) * 100) ((hi / lo - 1) * 100) x
  ratio : ∀ x ∈ snapshot.volumeRatio, 0 ≤ x

/-- The slope compares the latest average with that of the history without its last value. -/
theorem slope_eq {values : List PyFloat} {period : Int} (hperiod : 0 < period) (hnan : .nan ∉ values)
    {series : List (Option PyFloat)} (h : emaSeries values period = .ok series) :
    ema values period = .ok series.getLast?.join ∧
      ema (values.take (values.length - 1)) period = .ok series.dropLast.getLast?.join := by
  constructor
  · rw [ema, h]
    rfl
  · rw [ema, emaSeries_take hperiod hnan h, List.dropLast_eq_take, length_emaSeries hperiod hnan h]
    rfl

/-- Of bars priced between two positive bounds there is a snapshot, and all its averages lie between
    the bounds; each is there exactly when the history is long enough. -/
theorem snapshot_within_prices {lo hi : ℚ} (hlo : 0 < lo) {bars : List MinuteBar} (hne : bars ≠ [])
    (h : ∀ bar ∈ bars, bar.PricedWithin lo hi) {lookback : Int} (hlookback : 0 < lookback) :
    ∃ snapshot, buildFeatureSnapshot bars lookback = .ok (some snapshot) ∧ SnapshotWithin lo hi bars snapshot := by
  have hcloses : ∀ x ∈ bars.map (·.close), Between lo hi x := by
    intro x hx
    obtain ⟨bar, hbar, rfl⟩ := List.mem_map.mp hx
    exact (h bar hbar).close
  have hnan := nan_notMem hcloses
  have hlast : bars.getLast? = some (bars.getLast hne) := List.getLast?_eq_getLast_of_ne_nil hne
  have hseries := emaSeries_eq (by decide : (0 : Int) < 20) hnan
  obtain ⟨e5, h5, h5some, h5between⟩ := ema_between hcloses (by decide : (0 : Int) < 5)
  obtain ⟨e10, h10, h10some, h10between⟩ := ema_between hcloses (by decide : (0 : Int) < 10)
  obtain ⟨m60, h60, h60some, h60between⟩ := sma_between hcloses (by decide : (0 : Int) < 60)
  obtain ⟨price, hvwap, hvwapsome, hvwapbetween⟩ := vwapBars_between h
  obtain ⟨ratio, hratio, hrationonneg⟩ := volumeRatio_nonneg (bars.map (·.volume))
    (ratioPeriod_pos ((bars.map (·.volume)).length - 1))
  obtain ⟨e20, h20, h20some, h20between⟩ := ema_between hcloses (by decide : (0 : Int) < 20)
  obtain ⟨before, hbefore, hbeforesome, hbeforebetween⟩ := ema_between
    (fun x hx => hcloses x (List.mem_of_mem_take (i := (bars.map (·.close)).length - 1) hx))
    (by decide : (0 : Int) < 20)
  obtain ⟨hlatest, hprevious⟩ := slope_eq (by decide) hnan hseries
  rw [h20, Except.ok.injEq] at hlatest
  rw [hbefore, Except.ok.injEq] at hprevious
  have hrecent : ∀ bar ∈ recentBars bars lookback, bar.PricedWithin lo hi := fun bar hbar =>
    h bar (recentBars_subset _ _ hbar)
  have hrecentne := recentBars_ne_nil hne lookback
  have hhighs : ∀ x ∈ (recentBars bars lookback).map (·.high), Between lo hi x := by
    intro x hx
    obtain ⟨bar, hbar, rfl⟩ := List.mem_map.mp hx
    exact (hrecent bar hbar).high
  have hlows : ∀ x ∈ (recentBars bars lookback).map (·.low), Between lo hi x := by
    intro x hx
    obtain ⟨bar, hbar, rfl⟩ := List.mem_map.mp hx
    exact (hrecent bar hbar).low
  obtain ⟨high, hhigh, hhighbetween⟩ := extreme_between maxPrice_choice (by simpa using hrecentne) hhighs
  obtain ⟨low, hlow, hlowbetween⟩ := extreme_between minPrice_choice (by simpa using hrecentne) hlows
  obtain ⟨distance, hdistance, hdistancebetween⟩ := changePct_between hlo hhighbetween
    (h _ (List.getLast_mem hne)).close
  refine ⟨_, buildFeatureSnapshot_eq hlast hlookback hseries h5 h10 h60 hvwap hratio, ?_⟩
  simp only [List.length_map] at h5some h10some h60some h20some hbeforesome
  rw [List.length_take, List.length_map] at hbeforesome
  constructor
  · exact ⟨h5some.trans (by omega), h5between⟩
  · exact ⟨h10some.trans (by omega), h10between⟩
  · rw [← hlatest]
    exact ⟨h20some.trans (by omega), h20between⟩
  · exact ⟨h60some.trans (by omega), h60between⟩
  · exact ⟨hvwapsome, hvwapbetween⟩
  · exact ⟨high, hhigh, hhighbetween⟩
  · exact ⟨low, hlow, hlowbetween⟩
  · rw [hhigh]
    exact ⟨distance, hdistance, hdistancebetween⟩
  · dsimp only
    rw [← hlatest, ← hprevious]
    cases before with
    | none =>
      have hshort : ¬21 ≤ bars.length := fun hlong => by simpa using hbeforesome.mpr (by omega)
      simp [slopePct, hshort]
    | some before =>
      have hlong : 20 ≤ bars.length - 1 := by have := hbeforesome.mp rfl; omega
      obtain ⟨latest, rfl⟩ := Option.isSome_iff_exists.mp (h20some.mpr (by omega))
      obtain ⟨slope, hslope, hslopebetween⟩ := changePct_between hlo (hbeforebetween before rfl) (h20between latest rfl)
      simp only [slopePct, Option.bind_some, hslope, Option.isSome_some, true_iff, Option.mem_some_iff]
      refine ⟨by omega, ?_⟩
      rintro x rfl
      exact hslopebetween
  · apply hrationonneg
    intro v hv
    obtain ⟨bar, hbar, rfl⟩ := List.mem_map.mp hv
    exact (h bar hbar).volume

namespace ClimbingBars

/-- A bar a minute, each one won above the one before. -/
def bar (minute : Nat) : MinuteBar :=
  ⟨"005930", ⟨60 * DateTime.microsPerSecond * minute, some 0⟩, .fin (100 + minute), .fin (101 + minute),
    .fin (100 + minute), .fin (101 + minute), 10⟩

def bars : List MinuteBar := (List.range 21).map bar

theorem priced : ∀ bar ∈ bars, bar.PricedWithin 100 121 := by
  intro item hitem
  obtain ⟨minute, hminute, rfl⟩ := List.mem_map.mp hitem
  have hle : ((minute : Nat) : ℚ) ≤ 20 := by
    have := List.mem_range.mp hminute
    exact_mod_cast Nat.lt_succ_iff.mp this
  have hnonneg : (0 : ℚ) ≤ minute := by exact_mod_cast Nat.zero_le minute
  have hprice : ∀ q : ℚ, 100 ≤ q → q ≤ 101 → Between 100 121 (.fin (q + minute)) := by
    intro q hlow hhigh
    exact ⟨_, rfl, by linarith, by linarith⟩
  constructor
  · exact hprice 100 (by norm_num) (by norm_num)
  · exact hprice 101 (by norm_num) (by norm_num)
  · exact hprice 100 (by norm_num) (by norm_num)
  · exact hprice 101 (by norm_num) (by norm_num)
  · exact (by decide : (0 : Int) ≤ 10)

theorem has_snapshot : ∃ snapshot, buildFeatureSnapshot bars 20 = .ok (some snapshot) ∧
    SnapshotWithin 100 121 bars snapshot :=
  snapshot_within_prices (by norm_num) (by decide) priced (by decide)

end ClimbingBars

/-! ### The snapshots of a growing history -/

/-- The snapshots of one minute after the other. -/
def snapshotsOf (bars : List MinuteBar) (lookback : Int) : Except Exn (List (Option BarFeatureSnapshot)) :=
  (List.range bars.length).mapM fun index => buildFeatureSnapshot (bars.take (index + 1)) lookback

theorem mapM_ok {α β ε : Type} {f : α → Except ε β} {g : α → β} {xs : List α} (h : ∀ x ∈ xs, f x = .ok (g x)) :
    xs.mapM f = .ok (xs.map g) := by
  induction xs with
  | nil => rfl
  | cons x rest ih =>
    rw [List.mapM_cons, h x (by simp), ih fun y hy => h y (by simp [hy])]
    rfl

theorem exists_list {β : Type} {P : Nat → β → Prop} {n : Nat} (h : ∀ i, i < n → ∃ x, P i x) :
    ∃ xs : List β, xs.length = n ∧ ∀ i, (hi : i < xs.length) → P i xs[i] := by
  induction n with
  | zero => exact ⟨[], rfl, by simp⟩
  | succ n ih =>
    obtain ⟨xs, hlength, hxs⟩ := ih fun i hi => h i (by omega)
    obtain ⟨x, hx⟩ := h n (by omega)
    refine ⟨xs ++ [x], by simp [hlength], ?_⟩
    intro i hi
    rw [List.length_append, List.length_singleton] at hi
    by_cases hlast : i < xs.length
    · rw [List.getElem_append_left hlast]
      exact hxs i hlast
    · obtain rfl : i = xs.length := by omega
      rw [List.getElem_concat_length rfl, hlength]
      exact hx

/-- A loop over the indexes of a list that computes the entries. -/
theorem mapM_range {β γ ε : Type} {f : Nat → Except ε γ} {g : β → γ} {xs : List β}
    (h : ∀ i, (hi : i < xs.length) → f i = .ok (g xs[i])) :
    (List.range xs.length).mapM f = .ok (xs.map g) := by
  induction xs using List.reverseRecOn with
  | nil => rfl
  | append_singleton xs x ih =>
    have hfront : (List.range xs.length).mapM f = .ok (xs.map g) := by
      apply ih
      intro i hi
      rw [h i (by rw [List.length_append]; omega), List.getElem_append_left hi]
    have hlast := h xs.length (by simp)
    rw [List.getElem_concat_length rfl] at hlast
    rw [List.length_append, List.length_singleton, List.range_succ, List.mapM_append, hfront, List.mapM_cons, List.mapM_nil, hlast,
      List.map_append]
    rfl

/-- The average of a beginning is the entry of the series where it ends. -/
theorem ema_take {values : List PyFloat} {period : Int} (hperiod : 0 < period) (hnan : .nan ∉ values)
    {series : List (Option PyFloat)} (h : emaSeries values period = .ok series) {n : Nat} (hn : n < series.length) :
    ema (values.take (n + 1)) period = .ok series[n] := by
  rw [ema, emaSeries_take hperiod hnan h, List.take_succ_eq_append_getElem hn]
  show Except.ok ((series.take n ++ [series[n]]).getLast?.join) = .ok series[n]
  rw [List.getLast?_concat]
  rfl

/-- The snapshot after `n + 1` bars. -/
structure SnapshotAt (bars : List MinuteBar) (lookback : Int) (s5 s10 s20 s60 : List (Option PyFloat)) (n : Nat)
    (snapshot : BarFeatureSnapshot) : Prop where
  built : buildFeatureSnapshot (bars.take (n + 1)) lookback = .ok (some snapshot)
  ema5 : s5[n]? = some snapshot.ema5
  ema10 : s10[n]? = some snapshot.ema10
  ema20 : s20[n]? = some snapshot.ema20
  ma60 : s60[n]? = some snapshot.ma60
  slope : snapshot.ema20SlopePct = slopePct (s20.take n).getLast?.join snapshot.ema20

theorem smaSeries_eq {values : List PyFloat} {period : Int} (hperiod : 0 < period) (hnan : .nan ∉ values) :
    ∃ series, smaSeries values period = .ok series ∧ series.length = values.length ∧
      ∀ n, (hn : n < series.length) → sma (values.take (n + 1)) period = .ok series[n] := by
  have hpart : ∀ n, .nan ∉ values.take n := fun n hmem => hnan (List.mem_of_mem_take hmem)
  obtain ⟨average, haverage⟩ : ∃ average : Nat → Option PyFloat, ∀ index,
      sma (values.take (index + 1)) period = .ok (average index) :=
    ⟨_, fun index => sma_eq hperiod (hpart (index + 1))⟩
  refine ⟨(List.range values.length).map average, ?_, by simp, ?_⟩
  · rw [smaSeries, validate_ok hperiod hnan]
    exact mapM_ok fun index _ => haverage index
  · intro n hn
    rw [List.getElem_map, List.getElem_range]
    exact haverage n

theorem exists_snapshotAt {bars : List MinuteBar} {lookback : Int} (hlookback : 0 < lookback)
    (hnan : .nan ∉ bars.map (·.close)) {s5 s10 s20 s60 : List (Option PyFloat)}
    (h5 : emaSeries (bars.map (·.close)) 5 = .ok s5) (h10 : emaSeries (bars.map (·.close)) 10 = .ok s10)
    (h20 : emaSeries (bars.map (·.close)) 20 = .ok s20)
    (h60 : ∀ n, (hn : n < s60.length) → sma ((bars.map (·.close)).take (n + 1)) 60 = .ok s60[n])
    (hlength60 : s60.length = bars.length) {n : Nat} (hn : n < bars.length) :
    ∃ snapshot, SnapshotAt bars lookback s5 s10 s20 s60 n snapshot := by
  have hlength : ∀ {period : Int} {series}, 0 < period → emaSeries (bars.map (·.close)) period = .ok series →
      n < series.length := by
    intro period series hperiod hseries
    rw [length_emaSeries hperiod hnan hseries, List.length_map]
    exact hn
  have hn20 := hlength (by decide) h20
  have hne : bars.take (n + 1) ≠ [] := by
    intro hnil
    have := congrArg List.length hnil
    rw [List.length_take, List.length_nil] at this
    omega
  obtain ⟨price, hvwap⟩ := vwapBars_total (bars.take (n + 1))
  obtain ⟨ratio, hratio, -⟩ := volumeRatio_nonneg ((bars.take (n + 1)).map (·.volume))
    (ratioPeriod_pos (((bars.take (n + 1)).map (·.volume)).length - 1))
  have hbuilt := buildFeatureSnapshot_eq (List.getLast?_eq_getLast_of_ne_nil hne) hlookback
    (by rw [List.map_take]; exact emaSeries_take (by decide) hnan h20 (n + 1))
    (by rw [List.map_take]; exact ema_take (by decide) hnan h5 (hlength (by decide) h5))
    (by rw [List.map_take]; exact ema_take (by decide) hnan h10 (hlength (by decide) h10))
    (by rw [List.map_take]; exact h60 n (by omega)) hvwap hratio
  have hlatest : (s20.take (n + 1)).getLast?.join = s20[n] := by
    rw [List.take_succ_eq_append_getElem hn20, List.getLast?_concat]
    rfl
  have hbefore : (s20.take (n + 1)).dropLast = s20.take n := by
    rw [List.take_succ_eq_append_getElem hn20, List.dropLast_concat]
  exact ⟨_, hbuilt, List.getElem?_eq_getElem _, List.getElem?_eq_getElem _,
    by rw [hlatest]; exact List.getElem?_eq_getElem _, List.getElem?_eq_getElem _, by rw [hbefore]⟩

/-- The averages that the snapshots showed minute by minute are the series of the whole history, and every
    slope is the change from the average of the snapshot before. -/
theorem snapshots_show_series {bars : List MinuteBar} {lookback : Int} (hlookback : 0 < lookback)
    (hnan : .nan ∉ bars.map (·.close)) :
    ∃ snapshots : List BarFeatureSnapshot, snapshotsOf bars lookback = .ok (snapshots.map some) ∧
      emaSeries (bars.map (·.close)) 5 = .ok (snapshots.map (·.ema5)) ∧
      emaSeries (bars.map (·.close)) 10 = .ok (snapshots.map (·.ema10)) ∧
      emaSeries (bars.map (·.close)) 20 = .ok (snapshots.map (·.ema20)) ∧
      smaSeries (bars.map (·.close)) 60 = .ok (snapshots.map (·.ma60)) ∧
      snapshots.IsChain fun before snapshot => snapshot.ema20SlopePct = slopePct before.ema20 snapshot.ema20 := by
  obtain ⟨s5, h5⟩ : ∃ series, emaSeries (bars.map (·.close)) 5 = .ok series := ⟨_, emaSeries_eq (by decide) hnan⟩
  obtain ⟨s10, h10⟩ : ∃ series, emaSeries (bars.map (·.close)) 10 = .ok series := ⟨_, emaSeries_eq (by decide) hnan⟩
  obtain ⟨s20, h20⟩ : ∃ series, emaSeries (bars.map (·.close)) 20 = .ok series := ⟨_, emaSeries_eq (by decide) hnan⟩
  obtain ⟨s60, h60, hlength60, hentries60⟩ := smaSeries_eq (by decide : (0 : Int) < 60) hnan
  have hlength5 := length_emaSeries (by decide) hnan h5
  have hlength10 := length_emaSeries (by decide) hnan h10
  have hlength20 := length_emaSeries (by decide) hnan h20
  rw [List.length_map] at hlength5 hlength10 hlength20 hlength60
  have hall : ∀ n, n < bars.length → ∃ snapshot, SnapshotAt bars lookback s5 s10 s20 s60 n snapshot := fun n hn =>
    exists_snapshotAt hlookback hnan h5 h10 h20 hentries60 hlength60 hn
  obtain ⟨snapshots, hlength, hat⟩ := exists_list hall
  have hshown : ∀ {series : List (Option PyFloat)} {field : BarFeatureSnapshot → Option PyFloat},
      series.length = bars.length → (∀ n, (hn : n < snapshots.length) → series[n]? = some (field snapshots[n])) →
      series = snapshots.map field := by
    intro series field hseries hentries
    apply List.ext_getElem?
    intro n
    by_cases hn : n < snapshots.length
    · rw [hentries n hn, List.getElem?_map, List.getElem?_eq_getElem hn]
      rfl
    · rw [List.getElem?_eq_none (by omega), List.getElem?_eq_none (by rw [List.length_map]; omega)]
  have heq20 := hshown hlength20 fun n hn => (hat n hn).ema20
  refine ⟨snapshots, ?_, h5.trans ?_, h10.trans ?_, h20.trans ?_, h60.trans ?_, ?_⟩
  · rw [snapshotsOf, ← hlength]
    exact mapM_range fun n hn => (hat n hn).built
  · rw [← hshown hlength5 fun n hn => (hat n hn).ema5]
  · rw [← hshown hlength10 fun n hn => (hat n hn).ema10]
  · rw [← heq20]
  · rw [← hshown hlength60 fun n hn => (hat n hn).ma60]
  · rw [List.isChain_iff_getElem]
    intro n hn
    have hslope := (hat (n + 1) hn).slope
    have hbefore : n < s20.length := by omega
    rw [List.take_succ_eq_append_getElem hbefore, List.getLast?_concat] at hslope
    rw [hslope]
    have hentry := (hat n (by omega)).ema20
    rw [List.getElem?_eq_getElem hbefore, Option.some.injEq] at hentry
    rw [hentry]
    rfl

theorem ClimbingBars.shown : ∃ snapshots : List BarFeatureSnapshot,
    snapshotsOf bars 20 = .ok (snapshots.map some) ∧
      emaSeries (bars.map (·.close)) 5 = .ok (snapshots.map (·.ema5)) ∧
      emaSeries (bars.map (·.close)) 10 = .ok (snapshots.map (·.ema10)) ∧
      emaSeries (bars.map (·.close)) 20 = .ok (snapshots.map (·.ema20)) ∧
      smaSeries (bars.map (·.close)) 60 = .ok (snapshots.map (·.ma60)) ∧
      snapshots.IsChain fun before snapshot => snapshot.ema20SlopePct = slopePct before.ema20 snapshot.ema20 :=
  snapshots_show_series (by decide) (by
    intro hmem
    obtain ⟨item, hitem, hclose⟩ := List.mem_map.mp hmem
    obtain ⟨q, hq, -⟩ := (priced item hitem).close
    rw [hclose] at hq
    cases hq)

end Market

end AutoTrader
