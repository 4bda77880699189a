/-
  AutoTrader/Market/ReferenceBars.lean
  ====================================
  **What the bars of a window are.**

  A bar is specified by the ticks of its minute: the prices of the first and the last, the
  extremes and the sum of the volumes, whatever the order the ticks are looked at.  The
  bars of a window are those of its minutes that have ended and have a tick.

  `materialize_completed_bars` computes these bars.
-/
import AutoTrader.Market.CompletedBars
import Mathlib.Algebra.BigOperators.Group.List.Basic
import Mathlib.Algebra.Order.Ring.Rat
import Mathlib.Order.WithBot

namespace AutoTrader

namespace PyFloat

/-- The place of a float that is no NaN among the others. -/
def rank : PyFloat → WithBot (WithTop ℚ)
  | .fin q => ((q : WithTop ℚ) : WithBot (WithTop ℚ))
  | .posInf => ((⊤ : WithTop ℚ) : WithBot (WithTop ℚ))
  | .negInf => ⊥
  | .nan => ⊥

theorem lt_iff_rank {a b : PyFloat} (ha : a ≠ .nan) (hb : b ≠ .nan) : a.lt b = true ↔ a.rank < b.rank := by
  cases a <;> cases b <;> simp_all [lt, rank]
  exact WithBot.coe_lt_coe.mpr (WithTop.coe_lt_top _)

theorem rank_injective {a b : PyFloat} (ha : a ≠ .nan) (hb : b ≠ .nan) (h : a.rank = b.rank) : a = b := by
  cases a <;> cases b <;> simp_all [rank]

end PyFloat

namespace Market

open Relational Transactional CompletedBars

theorem rank_le_maxPrice {a b : PyFloat} (ha : a ≠ .nan) (hb : b ≠ .nan) :
    a.rank ≤ (maxPrice a b).rank ∧ b.rank ≤ (maxPrice a b).rank := by
  unfold maxPrice
  split_ifs with h
  · exact ⟨((PyFloat.lt_iff_rank ha hb).mp h).le, le_rfl⟩
  · exact ⟨le_rfl, not_lt.mp fun hlt => h ((PyFloat.lt_iff_rank ha hb).mpr hlt)⟩

theorem minPrice_le_rank {a b : PyFloat} (ha : a ≠ .nan) (hb : b ≠ .nan) :
    (minPrice a b).rank ≤ a.rank ∧ (minPrice a b).rank ≤ b.rank := by
  unfold minPrice
  split_ifs with h
  · exact ⟨((PyFloat.lt_iff_rank hb ha).mp h).le, le_rfl⟩
  · exact ⟨le_rfl, not_lt.mp fun hlt => h ((PyFloat.lt_iff_rank hb ha).mpr hlt)⟩

theorem maxPrice_cases (a b : PyFloat) : maxPrice a b = a ∨ maxPrice a b = b := by
  unfold maxPrice
  split_ifs
  · exact .inr rfl
  · exact .inl rfl

theorem minPrice_cases (a b : PyFloat) : minPrice a b = a ∨ minPrice a b = b := by
  unfold minPrice
  split_ifs
  · exact .inr rfl
  · exact .inl rfl

/-! ### The bar of some ticks -/

/-- The bar has the prices of the first and the last of the rows, their extremes and the sum
    of their volumes. -/
structure IsBarOf (rows : List TickRow) (bar : MinuteBar) : Prop where
  first : ∃ first ∈ rows, bar.openPrice = first.tick.price ∧ ∀ row ∈ rows, first.order ≤ row.order
  last : ∃ last ∈ rows, bar.close = last.tick.price ∧ ∀ row ∈ rows, row.order ≤ last.order
  high : ∃ row ∈ rows, bar.high = row.tick.price
  high_ge : ∀ row ∈ rows, row.tick.price.rank ≤ bar.high.rank
  low : ∃ row ∈ rows, bar.low = row.tick.price
  low_le : ∀ row ∈ rows, bar.low.rank ≤ row.tick.price.rank
  volume : bar.volume = (rows.map fun row => row.tick.volume).sum

/-- Rows with prices, told apart by their order. -/
structure Distinct (rows : List TickRow) : Prop where
  price : ∀ row ∈ rows, row.tick.price ≠ .nan
  order : ∀ row ∈ rows, ∀ row' ∈ rows, row.order = row'.order → row = row'

theorem IsBarOf.perm {rows rows' : List TickRow} {bar : MinuteBar} (h : IsBarOf rows bar)
    (hperm : rows.Perm rows') : IsBarOf rows' bar := by
  have hmem : ∀ {row}, row ∈ rows' ↔ row ∈ rows := hperm.symm.mem_iff
  obtain ⟨first, hfirst, hopen, hleast⟩ := h.first
  obtain ⟨last, hlast, hclose, hgreatest⟩ := h.last
  obtain ⟨top, htop, hhigh⟩ := h.high
  obtain ⟨bottom, hbottom, hlow⟩ := h.low
  exact
    { first := ⟨first, hmem.mpr hfirst, hopen, fun row hrow => hleast row (hmem.mp hrow)⟩
      last := ⟨last, hmem.mpr hlast, hclose, fun row hrow => hgreatest row (hmem.mp hrow)⟩
      high := ⟨top, hmem.mpr htop, hhigh⟩
      high_ge := fun row hrow => h.high_ge row (hmem.mp hrow)
      low := ⟨bottom, hmem.mpr hbottom, hlow⟩
      low_le := fun row hrow => h.low_le row (hmem.mp hrow)
      volume := h.volume.trans (hperm.map _).sum_eq }

/-- The rows determine the figures of the bar. -/
theorem IsBarOf.unique {rows : List TickRow} {bar bar' : MinuteBar} (hdistinct : Distinct rows)
    (h : IsBarOf rows bar) (h' : IsBarOf rows bar') (hsymbol : bar.symbol = bar'.symbol)
    (hstart : bar.start = bar'.start) : bar = bar' := by
  obtain ⟨first, hfirst, hopen, hleast⟩ := h.first
  obtain ⟨first', hfirst', hopen', hleast'⟩ := h'.first
  obtain ⟨last, hlast, hclose, hgreatest⟩ := h.last
  obtain ⟨last', hlast', hclose', hgreatest'⟩ := h'.last
  obtain ⟨top, htop, hhigh⟩ := h.high
  obtain ⟨top', htop', hhigh'⟩ := h'.high
  obtain ⟨bottom, hbottom, hlow⟩ := h.low
  obtain ⟨bottom', hbottom', hlow'⟩ := h'.low
  have hopens : bar.openPrice = bar'.openPrice := by
    rw [hopen, hopen', hdistinct.order first hfirst first' hfirst'
      (le_antisymm (hleast first' hfirst') (hleast' first hfirst))]
  have hcloses : bar.close = bar'.close := by
    rw [hclose, hclose', hdistinct.order last hlast last' hlast'
      (le_antisymm (hgreatest' last hlast) (hgreatest last' hlast'))]
  have hhighs : bar.high = bar'.high := by
    have hle := h.high_ge top' htop'
    have hge := h'.high_ge top htop
    rw [hhigh] at hle ⊢
    rw [hhigh'] at hge ⊢
    exact PyFloat.rank_injective (hdistinct.price top htop) (hdistinct.price top' htop') (le_antisymm hge hle)
  have hlows : bar.low = bar'.low := by
    have hle := h.low_le bottom' hbottom'
    have hge := h'.low_le bottom hbottom
    rw [hlow] at hle ⊢
    rw [hlow'] at hge ⊢
    exact PyFloat.rank_injective (hdistinct.price bottom hbottom) (hdistinct.price bottom' hbottom')
      (le_antisymm hle hge)
  have hvolumes : bar.volume = bar'.volume := h.volume.trans h'.volume.symm
  obtain ⟨_, _, _, _, _, _, _⟩ := bar
  obtain ⟨_, _, _, _, _, _, _⟩ := bar'
  simp_all

/-! ### The aggregate of some rows -/

/-- The aggregate has the figures of the rows, and knows the order of the first and the last. -/
structure Summarizes (rows : List TickRow) (a : MinuteAggregate) : Prop where
  first : ∃ first ∈ rows, a.openPrice = first.tick.price ∧ a.firstOrder = first.order ∧
    ∀ row ∈ rows, first.order ≤ row.order
  last : ∃ last ∈ rows, a.close = last.tick.price ∧ a.lastOrder = last.order ∧
    ∀ row ∈ rows, row.order ≤ last.order
  high : ∃ row ∈ rows, a.high = row.tick.price
  high_ge : ∀ row ∈ rows, row.tick.price.rank ≤ a.high.rank
  low : ∃ row ∈ rows, a.low = row.tick.price
  low_le : ∀ row ∈ rows, a.low.rank ≤ row.tick.price.rank
  volume : a.volume = (rows.map fun row => row.tick.volume).sum

theorem Summarizes.isBarOf {rows : List TickRow} {a : MinuteAggregate} (h : Summarizes rows a) :
    IsBarOf rows a.bar := by
  obtain ⟨first, hfirst, hopen, -, hleast⟩ := h.first
  obtain ⟨last, hlast, hclose, -, hgreatest⟩ := h.last
  exact ⟨⟨first, hfirst, hopen, hleast⟩, ⟨last, hlast, hclose, hgreatest⟩, h.high, h.high_ge, h.low,
    h.low_le, h.volume⟩

theorem summarizes_single (row : TickRow) : Summarizes [row] (.single row) where
  first := ⟨row, List.mem_singleton_self row, rfl, rfl, by simp⟩
  last := ⟨row, List.mem_singleton_self row, rfl, rfl, by simp⟩
  high := ⟨row, List.mem_singleton_self row, rfl⟩
  high_ge := by simp [MinuteAggregate.single]
  low := ⟨row, List.mem_singleton_self row, rfl⟩
  low_le := by simp [MinuteAggregate.single]
  volume := by simp [MinuteAggregate.single]

/-- Each figure of the aggregate follows one more row. -/
theorem Summarizes.add {rows : List TickRow} {a : MinuteAggregate} {row : TickRow} (h : Summarizes rows a)
    (hprices : ∀ r ∈ rows ++ [row], r.tick.price ≠ .nan) : Summarizes (rows ++ [row]) (a.add row) := by
  obtain ⟨first, hfirst, hopen, hfirstOrder, hleast⟩ := h.first
  obtain ⟨last, hlast, hclose, hlastOrder, hgreatest⟩ := h.last
  obtain ⟨top, htop, hhigh⟩ := h.high
  obtain ⟨bottom, hbottom, hlow⟩ := h.low
  have hold : ∀ {r}, r ∈ rows → r ∈ rows ++ [row] := fun hr => List.mem_append_left _ hr
  have hnew : row ∈ rows ++ [row] := List.mem_append_right _ (List.mem_singleton_self row)
  have hrow : row.tick.price ≠ .nan := hprices row hnew
  have hforall : ∀ {P : TickRow → Prop}, (∀ r ∈ rows, P r) → P row → ∀ r ∈ rows ++ [row], P r := by
    intro P hrows hlast r hr
    rcases List.mem_append.mp hr with hr | hr
    · exact hrows r hr
    · exact List.mem_singleton.mp hr ▸ hlast
  refine ⟨?_, ?_, ?_, ?_, ?_, ?_, ?_⟩
  · simp only [MinuteAggregate.add]
    split_ifs with hlt
    · rw [hfirstOrder] at hlt
      exact ⟨row, hnew, rfl, rfl, hforall (fun r hr => hlt.le.trans (hleast r hr)) le_rfl⟩
    · rw [hfirstOrder, not_lt] at hlt
      exact ⟨first, hold hfirst, hopen, hfirstOrder, hforall hleast hlt⟩
  · simp only [MinuteAggregate.add]
    split_ifs with hlt
    · rw [hlastOrder] at hlt
      exact ⟨row, hnew, rfl, rfl, hforall (fun r hr => (hgreatest r hr).trans hlt.le) le_rfl⟩
    · rw [hlastOrder, not_lt] at hlt
      exact ⟨last, hold hlast, hclose, hlastOrder, hforall hgreatest hlt⟩
  · rcases maxPrice_cases a.high row.tick.price with heq | heq
    · exact ⟨top, hold htop, heq.trans hhigh⟩
    · exact ⟨row, hnew, heq⟩
  · have hmax := rank_le_maxPrice (hhigh ▸ hprices top (hold htop)) hrow
    exact hforall (fun r hr => (h.high_ge r hr).trans hmax.1) hmax.2
  · rcases minPrice_cases a.low row.tick.price with heq | heq
    · exact ⟨bottom, hold hbottom, heq.trans hlow⟩
    · exact ⟨row, hnew, heq⟩
  · have hmin := minPrice_le_rank (hlow ▸ hprices bottom (hold hbottom)) hrow
    exact hforall (fun r hr => hmin.1.trans (h.low_le r hr)) hmin.2
  · simp [MinuteAggregate.add, h.volume]

theorem summarizes_summarize {rows : List TickRow} {a : MinuteAggregate}
    (hprices : ∀ row ∈ rows, row.tick.price ≠ .nan)
    (h : Streaming.summarize .single MinuteAggregate.add rows = some a) : Summarizes rows a := by
  induction rows using List.reverseRecOn generalizing a with
  | nil => cases h
  | append_singleton rows row ih =>
    rw [Streaming.summarize_append] at h
    rcases hrows : Streaming.summarize .single MinuteAggregate.add rows with _ | b
    · rw [hrows] at h
      cases h
      have hnil : rows = [] := by
        cases rows with
        | nil => rfl
        | cons first rest => cases hrows
      rw [hnil]
      exact summarizes_single row
    · rw [hrows] at h
      cases h
      exact (ih (fun r hr => hprices r (List.mem_append_left _ hr)) hrows).add hprices

/-- The aggregate carries the key of its rows. -/
theorem key_of_summarize {rows : List TickRow} {a : MinuteAggregate} {key : String × DateTime}
    (hkey : ∀ row ∈ rows, (row.tick.symbol, row.start) = key)
    (h : Streaming.summarize .single MinuteAggregate.add rows = some a) : (a.symbol, a.start) = key := by
  induction rows using List.reverseRecOn generalizing a with
  | nil => cases h
  | append_singleton rows row ih =>
    rw [Streaming.summarize_append] at h
    rcases hrows : Streaming.summarize .single MinuteAggregate.add rows with _ | b
    · rw [hrows] at h
      cases h
      exact hkey row (List.mem_append_right _ (List.mem_singleton_self row))
    · rw [hrows] at h
      cases h
      have hold : (b.symbol, b.start) = key := ih (fun r hr => hkey r (List.mem_append_left _ hr)) hrows
      exact hold

/-! ### The ticks of a window -/

/-- What a run reads: the symbols, and the instants the window goes from and to. -/
structure Window where
  selected : Option (List String)
  lo : Int
  hi : Int

/-- The window of `lookback` minutes before `asOf`. -/
def windowOf (selected : Option (List String)) (asOf : DateTime) (lookback : Int) : Window :=
  ⟨selected, asOf.instant - lookback * minuteMicros, asOf.instant⟩

/-- The first rows of the distinct ticks. -/
def distinctTicks (ticks : List MarketTick) : List TickRow := groups (ticks.zipIdx 1)

def Window.Reads (w : Window) (row : TickRow) : Prop :=
  Wanted w.selected row.tick.symbol ∧ w.lo ≤ row.tick.timestamp.instant ∧ row.tick.timestamp.instant ≤ w.hi

instance (w : Window) (row : TickRow) : Decidable (w.Reads row) := inferInstanceAs (Decidable (_ ∧ _ ∧ _))

/-- The distinct ticks of one symbol and minute in the window. -/
def minuteTicks (ticks : List MarketTick) (w : Window) (symbol : String) (start : DateTime) : List TickRow :=
  (distinctTicks ticks).filter fun row => w.Reads row ∧ row.tick.symbol = symbol ∧ row.start = start

/-- The minute has ended. -/
def Window.Ended (w : Window) (start : DateTime) : Prop := start.instant + minuteMicros ≤ w.hi

instance (w : Window) (start : DateTime) : Decidable (w.Ended start) := inferInstanceAs (Decidable (_ ≤ _))

/-- Sorted by symbol and start, with one bar for each. -/
def barLt (a b : MinuteBar) : Prop :=
  a.symbol < b.symbol ∨ (a.symbol = b.symbol ∧ a.start.instant < b.start.instant)

/-- The bars of a window. -/
structure BarsOfWindow (ticks : List MarketTick) (w : Window) (bars : List MinuteBar) : Prop where
  sorted : bars.Pairwise barLt
  sound : ∀ bar ∈ bars, w.Ended bar.start ∧ IsBarOf (minuteTicks ticks w bar.symbol bar.start) bar
  complete : ∀ symbol start, w.Ended start → minuteTicks ticks w symbol start ≠ [] →
    ∃ bar ∈ bars, bar.symbol = symbol ∧ bar.start = start

/-- A tick as it can be stored: a price that is a number, and a time on the calendar at an
    offset that is in use. -/
structure Stored (tick : MarketTick) : Prop where
  price : tick.price ≠ .nan
  inRange : tick.timestamp.InRange
  kstInRange : tick.timestamp.toKst.InRange
  offset : ∀ o ∈ tick.timestamp.offset, -12 * 3600 ≤ o ∧ o ≤ 14 * 3600

/-! ### Groups -/

theorem mem_groups {rows : List (MarketTick × Nat)} {row : TickRow} :
    row ∈ groups rows ↔ (row.tick, row.firstRowid) ∈ rows ∧
      ∀ r' ∈ rows, SameGroup r'.1 row.tick → row.firstRowid ≤ r'.2 := by
  simp only [groups, List.mem_map, List.mem_filter, decide_eq_true_eq]
  constructor
  · rintro ⟨r, ⟨hr, hfirst⟩, rfl⟩
    exact ⟨hr, hfirst⟩
  · rintro ⟨hr, hfirst⟩
    exact ⟨_, ⟨hr, hfirst⟩, rfl⟩

/-- A condition that a group has as a whole may be checked before or after grouping. -/
theorem groups_filter {P : MarketTick → Prop} [DecidablePred P]
    (hP : ∀ {a b}, SameGroup a b → (P a ↔ P b)) (rows : List (MarketTick × Nat)) :
    groups (rows.filter fun r => P r.1) = (groups rows).filter fun row => P row.tick := by
  rw [groups, groups, List.filter_map, List.filter_filter, List.filter_filter]
  congr 1
  refine List.filter_congr fun r hr => ?_
  rw [Bool.eq_iff_iff]
  simp only [Function.comp, Bool.and_eq_true, decide_eq_true_eq, List.mem_filter]
  constructor
  · rintro ⟨hfirst, hr⟩
    exact ⟨hr, fun r' hr' hsame => hfirst r' ⟨hr', (hP hsame).mpr hr⟩ hsame⟩
  · rintro ⟨hr, hfirst⟩
    exact ⟨fun r' hr' hsame => hfirst r' hr'.1 hsame, hr⟩

theorem tick_mem_of_distinct {ticks : List MarketTick} {row : TickRow} (h : row ∈ distinctTicks ticks) :
    row.tick ∈ ticks :=
  List.fst_mem_of_mem_zipIdx (mem_groups.mp h).1

/-- Row ids tell the rows apart. -/
theorem eq_of_rowid {ticks : List MarketTick} {row row' : TickRow} (h : (row.tick, row.firstRowid) ∈ ticks.zipIdx 1)
    (h' : (row'.tick, row'.firstRowid) ∈ ticks.zipIdx 1) (hid : row.firstRowid = row'.firstRowid) : row = row' := by
  obtain ⟨-, htick⟩ := List.mk_mem_zipIdx_iff_le_and_getElem?_sub.mp h
  obtain ⟨-, htick'⟩ := List.mk_mem_zipIdx_iff_le_and_getElem?_sub.mp h'
  obtain ⟨tick, rowid⟩ := row
  obtain ⟨tick', rowid'⟩ := row'
  obtain rfl : rowid = rowid' := hid
  have heq : tick = tick' := Option.some.inj (htick.symm.trans htick')
  rw [heq]

/-- Their orders do, too. -/
theorem eq_of_order {ticks : List MarketTick} {row row' : TickRow} (h : (row.tick, row.firstRowid) ∈ ticks.zipIdx 1)
    (h' : (row'.tick, row'.firstRowid) ∈ ticks.zipIdx 1) (horder : row.order = row'.order) : row = row' := by
  have hpair : (row.tick.timestamp.instant, row.firstRowid) =
      (row'.tick.timestamp.instant, row'.firstRowid) := toLex.injective horder
  exact eq_of_rowid h h' (Prod.mk.inj hpair).2

theorem mem_minuteTicks {ticks : List MarketTick} {w : Window} {symbol : String} {start : DateTime}
    {row : TickRow} : row ∈ minuteTicks ticks w symbol start ↔
      row ∈ distinctTicks ticks ∧ w.Reads row ∧ row.tick.symbol = symbol ∧ row.start = start := by
  simp [minuteTicks]

theorem distinct_minuteTicks {ticks : List MarketTick} (hticks : ∀ tick ∈ ticks, Stored tick) (w : Window)
    (symbol : String) (start : DateTime) : Distinct (minuteTicks ticks w symbol start) where
  price _ hrow := (hticks _ (tick_mem_of_distinct (mem_minuteTicks.mp hrow).1)).price
  order _ hrow _ hrow' :=
    eq_of_order (mem_groups.mp (mem_minuteTicks.mp hrow).1).1 (mem_groups.mp (mem_minuteTicks.mp hrow').1).1

/-! ### The bars are determined -/

theorem barLt_asymm {a b : MinuteBar} (h : barLt a b) : ¬ barLt b a := by
  rcases h with hlt | ⟨heq, hlt⟩
  · rintro (hgt | ⟨heq', -⟩)
    · exact hlt.not_gt hgt
    · exact hlt.ne heq'.symm
  · rintro (hgt | ⟨-, hgt⟩)
    · exact hgt.ne heq.symm
    · omega

/-- Two lists of the bars of one window have the same bars. -/
theorem BarsOfWindow.subset {ticks : List MarketTick} (hticks : ∀ tick ∈ ticks, Stored tick) {w : Window}
    {bars bars' : List MinuteBar} (h : BarsOfWindow ticks w bars) (h' : BarsOfWindow ticks w bars') :
    ∀ bar ∈ bars, bar ∈ bars' := by
  intro bar hbar
  obtain ⟨hended, hfigures⟩ := h.sound bar hbar
  obtain ⟨first, hfirst, -⟩ := hfigures.first
  obtain ⟨bar', hbar', hsymbol, hstart⟩ :=
    h'.complete bar.symbol bar.start hended (List.ne_nil_of_mem hfirst)
  have hfigures' := (h'.sound bar' hbar').2
  rw [hsymbol, hstart] at hfigures'
  rwa [hfigures.unique (distinct_minuteTicks hticks w _ _) hfigures' hsymbol.symm hstart.symm]

/-- **The bars of a window are determined by its ticks.** -/
theorem BarsOfWindow.unique {ticks : List MarketTick} (hticks : ∀ tick ∈ ticks, Stored tick) {w : Window}
    {bars bars' : List MinuteBar} (h : BarsOfWindow ticks w bars) (h' : BarsOfWindow ticks w bars') :
    bars = bars' := by
  have hnodup : ∀ {bars}, BarsOfWindow ticks w bars → bars.Nodup := by
    intro bars hbars
    refine hbars.sorted.imp ?_
    rintro a b hlt rfl
    exact barLt_asymm hlt hlt
  have hperm : bars.Perm bars' := (List.perm_ext_iff_of_nodup (hnodup h) (hnodup h')).mpr fun bar =>
    ⟨h.subset hticks h' bar, h'.subset hticks h bar⟩
  exact hperm.eq_of_pairwise (fun a b _ _ hab hba => absurd hba (barLt_asymm hab)) h.sorted h'.sorted

end Market

end AutoTrader
