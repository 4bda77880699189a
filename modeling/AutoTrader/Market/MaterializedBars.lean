/-
  AutoTrader/Market/MaterializedBars.lean
  =======================================
  **`materialize_completed_bars` computes the bars of its window.**

  The query bounds the timestamps by texts of dates, a day before the window and a day
  after its last one.  No offset in use moves a wall clock further than that, so the rows
  the loop keeps are the distinct ticks of the window whose minute has ended; each bar is
  then the aggregate of the rows of its minute.
-/
import AutoTrader.Market.ReferenceBars

namespace AutoTrader.Market

open Relational Transactional CompletedBars

/-! ### Times -/

@[simp] theorem toKst_instant (t : DateTime) : t.toKst.instant = t.instant := by
  simp [DateTime.toKst, DateTime.instant]

theorem awareKst_ok {t kst : DateTime} (h : awareKst t = .ok kst) : kst = t.toKst ∧ t.toKst.InRange := by
  unfold awareKst at h
  split_ifs at h with hrange
  exact ⟨(Except.ok.inj h).symm, hrange⟩

theorem add_ok {t t' : DateTime} {delta : Int} (h : t.add delta = .ok t') :
    t' = { t with wall := t.wall + delta } ∧ t'.InRange := by
  unfold DateTime.add at h
  split_ifs at h with hrange
  obtain rfl := Except.ok.inj h
  exact ⟨rfl, hrange⟩

theorem add_instant {t t' : DateTime} {delta : Int} (h : t.add delta = .ok t') :
    t'.instant = t.instant + delta := by
  rw [(add_ok h).1]
  exact add_sub_right_comm _ _ _

theorem shiftDate_ok {date delta date' : Int} (h : shiftDate date delta = .ok date') :
    date' = date + delta ∧ (DateTime.midnight date').InRange := by
  unfold shiftDate at h
  split_ifs at h with hrange
  obtain rfl := Except.ok.inj h
  refine ⟨rfl, ?_⟩
  simp only [DateTime.InRange, DateTime.midnight, DateTime.minWall, DateTime.maxWall,
    DateTime.secondsPerDay, DateTime.microsPerSecond]
  omega

/-- A tick is in the minute of its row. -/
theorem start_le_instant (row : TickRow) : row.start.instant ≤ row.tick.timestamp.instant := by
  simp only [TickRow.start, minuteStart, DateTime.toKst, DateTime.instant, Option.getD_some, minuteMicros,
    DateTime.microsPerSecond]
  omega

theorem instant_lt_of_start (row : TickRow) : row.tick.timestamp.instant < row.start.instant + minuteMicros := by
  simp only [TickRow.start, minuteStart, DateTime.toKst, DateTime.instant, Option.getD_some, minuteMicros,
    DateTime.microsPerSecond]
  omega

/-! ### The loop -/

/-- The row is of the window, and its minute has ended. -/
def Window.Counts (w : Window) (row : TickRow) : Prop :=
  w.lo ≤ row.tick.timestamp.instant ∧ row.tick.timestamp.instant ≤ w.hi ∧ w.Ended row.start

instance (w : Window) (row : TickRow) : Decidable (w.Counts row) := inferInstanceAs (Decidable (_ ∧ _ ∧ _))

/-- The limits of the loop are those of the window. -/
structure Window.Limits (w : Window) (rangeStart watermark : DateTime) : Prop where
  lo : rangeStart.instant = w.lo
  hi : watermark.instant = w.hi

theorem addRow_ok {w : Window} {rangeStart watermark : DateTime} {aggregates aggregates' : Aggregates}
    {row : TickRow} (hw : w.Limits rangeStart watermark)
    (h : addRow rangeStart watermark aggregates row = .ok aggregates') :
    aggregates' = if w.Counts row then fileRow aggregates row else aggregates := by
  rw [addRow] at h
  obtain ⟨timestamp, hkst, h⟩ := Except.bind_eq_ok h
  obtain ⟨rfl, -⟩ := awareKst_ok hkst
  rw [toKst_instant, hw.lo, hw.hi] at h
  by_cases hout : row.tick.timestamp.instant < w.lo ∨ w.hi < row.tick.timestamp.instant
  · rw [if_pos hout] at h
    have hcounts : ¬ w.Counts row := fun hc => by
      rcases hout with hlow | hhigh
      · exact absurd hc.1 (not_le.mpr hlow)
      · exact absurd hc.2.1 (not_le.mpr hhigh)
    rw [if_neg hcounts]
    exact (Except.ok.inj h).symm
  · rw [if_neg hout] at h
    obtain ⟨stop, hstop, h⟩ := Except.bind_eq_ok h
    have hended : stop.instant = row.start.instant + minuteMicros := add_instant hstop
    by_cases hlate : w.hi < stop.instant
    · rw [if_pos hlate] at h
      have hcounts : ¬ w.Counts row := fun hc => absurd hc.2.2 (by
        rw [Window.Ended, ← hended]
        exact not_le.mpr hlate)
      rw [if_neg hcounts]
      exact (Except.ok.inj h).symm
    · rw [if_neg hlate] at h
      have hcounts : w.Counts row := by
        refine ⟨not_lt.mp fun hlt => hout (.inl hlt), not_lt.mp fun hlt => hout (.inr hlt), ?_⟩
        rw [Window.Ended, ← hended]
        exact not_lt.mp hlate
      rw [if_pos hcounts]
      exact (Except.ok.inj h).symm

/-- The loop files the rows that count, whatever the size of its batches. -/
theorem loop_ok {w : Window} {rangeStart watermark : DateTime} {size : Nat} {rows : List TickRow}
    {aggregates : Aggregates} (hw : w.Limits rangeStart watermark) (hsize : 0 < size)
    (h : (Streaming.batches size rows.length rows).foldlM
      (fun aggregates batch => batch.foldlM (addRow rangeStart watermark) aggregates) [] = .ok aggregates) :
    aggregates = (rows.filter fun row => w.Counts row).foldl fileRow [] := by
  have hbatches := (Streaming.foldlM_flatten (addRow rangeStart watermark) _ _).symm.trans h
  rw [Streaming.flatten_batches hsize le_rfl] at hbatches
  exact Streaming.foldlM_eq_ok (g := fileRow) (p := w.Counts) (addRow_ok hw) hbatches

/-- The rows with the key of a symbol and a minute. -/
def rowsOf (rows : List TickRow) (symbol : String) (start : DateTime) : List TickRow :=
  rows.filter fun row => (row.tick.symbol, row.start) = (symbol, start)

theorem mem_rowsOf {rows : List TickRow} {symbol : String} {start : DateTime} {row : TickRow} :
    row ∈ rowsOf rows symbol start ↔ row ∈ rows ∧ row.tick.symbol = symbol ∧ row.start = start := by
  simp [rowsOf]

section Aggregates

variable {rows : List TickRow}

theorem mem_aggregates {symbol : String} {start : DateTime} {a : MinuteAggregate} :
    ((symbol, start), a) ∈ rows.foldl fileRow [] ↔
      Streaming.summarize .single MinuteAggregate.add (rowsOf rows symbol start) = some a := by
  rw [fileRow, Streaming.mem_iff_get? (Streaming.nodup_file _ _ _ rows), Streaming.get?_file, rowsOf]

/-- The aggregate of a key carries it. -/
theorem key_of_aggregates {key : String × DateTime} {a : MinuteAggregate}
    (h : (key, a) ∈ rows.foldl fileRow []) : (a.symbol, a.start) = key :=
  key_of_summarize (fun _ hrow => of_decide_eq_true (List.mem_filter.mp hrow).2) (mem_aggregates.mp h)

theorem start_of_aggregates {key : String × DateTime} {a : MinuteAggregate}
    (h : (key, a) ∈ rows.foldl fileRow []) : ∃ row ∈ rows, row.tick.symbol = a.symbol ∧ row.start = a.start := by
  have hkey := key_of_aggregates h
  obtain rfl : key = (a.symbol, a.start) := hkey.symm
  have hsome := mem_aggregates.mp h
  rcases hrows : rowsOf rows a.symbol a.start with _ | ⟨row, rest⟩
  · rw [hrows] at hsome
    cases hsome
  · have hrow : row ∈ rowsOf rows a.symbol a.start := hrows ▸ List.mem_cons_self
    exact ⟨row, mem_rowsOf.mp hrow⟩

/-- Two starts in KST are equal when their instants are. -/
theorem start_ext {row row' : TickRow} (h : row.start.instant = row'.start.instant) :
    row.start = row'.start := by
  have hwall : row.start.wall = row'.start.wall := by
    simp only [DateTime.instant, TickRow.start, minuteStart, DateTime.toKst] at h ⊢
    omega
  calc row.start = ⟨row.start.wall, some DateTime.kstOffset⟩ := rfl
    _ = ⟨row'.start.wall, some DateTime.kstOffset⟩ := by rw [hwall]
    _ = row'.start := rfl

end Aggregates

/-! ### The bars of the aggregates -/

/-- How the aggregates are sorted. -/
def aggregateLe (a b : MinuteAggregate) : Prop :=
  a.symbol < b.symbol ∨ (a.symbol = b.symbol ∧ a.start.instant ≤ b.start.instant)

instance (a b : MinuteAggregate) : Decidable (aggregateLe a b) := inferInstanceAs (Decidable (_ ∨ _ ∧ _))

theorem aggregateLe_iff (a b : MinuteAggregate) :
    aggregateLe a b ↔ toLex (a.symbol, a.start.instant) ≤ toLex (b.symbol, b.start.instant) := by
  rw [Prod.Lex.toLex_le_toLex]
  rfl

instance : Std.Total aggregateLe where
  total a b := by
    rw [aggregateLe_iff, aggregateLe_iff]
    exact le_total _ _

instance : IsTrans MinuteAggregate aggregateLe where
  trans a b c hab hbc := by
    rw [aggregateLe_iff] at *
    exact hab.trans hbc

theorem barsOf_eq (aggregates : Aggregates) :
    barsOf aggregates = ((aggregates.map Prod.snd).insertionSort aggregateLe).map (·.bar) := by
  rw [barsOf]
  rfl

theorem mem_barsOf {aggregates : Aggregates} {bar : MinuteBar} :
    bar ∈ barsOf aggregates ↔ ∃ key a, (key, a) ∈ aggregates ∧ a.bar = bar := by
  rw [barsOf_eq]
  constructor
  · intro h
    obtain ⟨a, ha, rfl⟩ := List.mem_map.mp h
    obtain ⟨⟨key, a'⟩, hmem, rfl⟩ := List.mem_map.mp ((List.mem_insertionSort aggregateLe).mp ha)
    exact ⟨key, a', hmem, rfl⟩
  · rintro ⟨key, a, hmem, rfl⟩
    exact List.mem_map.mpr ⟨a, (List.mem_insertionSort aggregateLe).mpr
      (List.mem_map.mpr ⟨(key, a), hmem, rfl⟩), rfl⟩

/-- The bars come sorted, with one for each symbol and minute. -/
theorem sorted_barsOf (rows : List TickRow) : (barsOf (rows.foldl fileRow [])).Pairwise barLt := by
  have hperm := List.perm_insertionSort aggregateLe ((rows.foldl fileRow []).map Prod.snd)
  have hmem : ∀ {a}, a ∈ ((rows.foldl fileRow []).map Prod.snd).insertionSort aggregateLe →
      ∃ key, (key, a) ∈ rows.foldl fileRow [] := by
    intro a ha
    obtain ⟨⟨key, a'⟩, hkey, rfl⟩ := List.mem_map.mp (hperm.mem_iff.mp ha)
    exact ⟨key, hkey⟩
  have hkeys : (rows.foldl fileRow []).map Prod.fst =
      ((rows.foldl fileRow []).map Prod.snd).map fun a => (a.symbol, a.start) := by
    rw [List.map_map]
    exact List.map_congr_left fun item hitem => (key_of_aggregates hitem).symm
  have hdistinct : (((rows.foldl fileRow []).map Prod.snd).insertionSort aggregateLe).Pairwise
      fun a b => (a.symbol, a.start) ≠ (b.symbol, b.start) := by
    have hnodup := Streaming.nodup_file (fun row => (row.tick.symbol, row.start)) .single
      MinuteAggregate.add rows
    rw [show (rows.foldl (Streaming.file _ _ _) []).map Prod.fst = _ from hkeys] at hnodup
    exact List.pairwise_map.mp ((hperm.map _).nodup_iff.mpr hnodup)
  rw [barsOf_eq, List.pairwise_map]
  refine ((List.pairwise_insertionSort aggregateLe _).and hdistinct).imp_of_mem ?_
  rintro a b ha hb ⟨hle, hne⟩
  rcases hle with hlt | ⟨heq, hle⟩
  · exact .inl hlt
  · refine .inr ⟨heq, lt_of_le_of_ne hle fun hinstant => hne ?_⟩
    obtain ⟨_, hkeyA⟩ := hmem ha
    obtain ⟨_, hkeyB⟩ := hmem hb
    obtain ⟨row, -, -, hrow⟩ := start_of_aggregates hkeyA
    obtain ⟨row', -, -, hrow'⟩ := start_of_aggregates hkeyB
    have hsame : row.start.instant = row'.start.instant := by
      rw [hrow, hrow']
      exact hinstant
    rw [heq, ← hrow, ← hrow', start_ext hsame]

/-! ### The rows of the query -/

/-- What the window reads and keeps. -/
def Window.rows (w : Window) (ticks : List MarketTick) : List TickRow :=
  (distinctTicks ticks).filter fun row => w.Reads row ∧ w.Ended row.start

theorem wanted_eraseDups {symbols : List String} {symbol : String} :
    Wanted (some symbols.eraseDups) symbol ↔ Wanted (some symbols) symbol := by
  simp [Wanted]

/-- The dates of the query are wide enough for every offset in use. -/
theorem date_of_window {w : Window} {rangeStart watermark : DateTime} {tick : MarketTick}
    (hw : w.Limits rangeStart watermark) (hstart : rangeStart.offset = some DateTime.kstOffset)
    (hend : watermark.offset = some DateTime.kstOffset) (htick : Stored tick)
    (hlo : w.lo ≤ tick.timestamp.instant) (hhi : tick.timestamp.instant ≤ w.hi) :
    rangeStart.date + -1 ≤ tick.timestamp.date ∧ tick.timestamp.date < watermark.date + 2 := by
  have hoffset : -12 * 3600 ≤ tick.timestamp.offset.getD DateTime.kstOffset ∧
      tick.timestamp.offset.getD DateTime.kstOffset ≤ 14 * 3600 := by
    rcases htime : tick.timestamp.offset with _ | o
    · decide
    · exact htick.offset o htime
  have hlo' := hw.lo
  have hhi' := hw.hi
  simp only [DateTime.instant, hstart, hend, Option.getD_some] at hlo hhi hlo' hhi'
  simp only [DateTime.date, DateTime.secondsPerDay, DateTime.microsPerSecond, DateTime.kstOffset] at *
  omega

theorem selectRows_filter {ticks : List MarketTick} (hticks : ∀ tick ∈ ticks, Stored tick) {w : Window}
    {selected : Option (List String)} {rangeStart watermark : DateTime} {sqlStart sqlEnd : Int}
    (hwanted : ∀ symbol, Wanted selected symbol ↔ Wanted w.selected symbol)
    (hw : w.Limits rangeStart watermark) (hstart : rangeStart.offset = some DateTime.kstOffset)
    (hend : watermark.offset = some DateTime.kstOffset) (hsqlStart : shiftDate rangeStart.date (-1) = .ok sqlStart)
    (hsqlEnd : shiftDate watermark.date 2 = .ok sqlEnd) :
    (selectRows ticks selected (DateTime.dateText sqlStart) (DateTime.dateText sqlEnd)).filter
      (fun row => w.Counts row) = w.rows ticks := by
  obtain ⟨rfl, hfirst⟩ := shiftDate_ok hsqlStart
  obtain ⟨rfl, hlast⟩ := shiftDate_ok hsqlEnd
  have hgroups := groups_filter (P := fun tick =>
    DateTime.dateText (rangeStart.date + -1) ≤ tick.timestamp.isoformat ∧
    tick.timestamp.isoformat < DateTime.dateText (watermark.date + 2) ∧ Wanted selected tick.symbol) (by
      rintro a b ⟨hsymbol, htext, -, -⟩
      rw [hsymbol, htext]) (ticks.zipIdx 1)
  rw [selectRows, hgroups, List.filter_filter, Window.rows, distinctTicks]
  refine List.filter_congr fun row hrow => ?_
  have htick := hticks row.tick (tick_mem_of_distinct hrow)
  rw [Bool.eq_iff_iff]
  simp only [Bool.and_eq_true, decide_eq_true_eq, DateTime.dateText_le_iff hfirst htick.inRange,
    DateTime.lt_dateText_iff hlast htick.inRange, hwanted]
  constructor
  · rintro ⟨⟨hlo, hhi, hended⟩, -, -, hsymbol⟩
    exact ⟨⟨hsymbol, hlo, hhi⟩, hended⟩
  · rintro ⟨⟨hsymbol, hlo, hhi⟩, hended⟩
    obtain ⟨hafter, hbefore⟩ := date_of_window hw hstart hend htick hlo hhi
    exact ⟨⟨hlo, hhi, hended⟩, hafter, hbefore, hsymbol⟩

/-- The aggregates of the rows of a window, in any order, are its bars. -/
theorem barsOfWindow_aggregates {ticks : List MarketTick} (hticks : ∀ tick ∈ ticks, Stored tick) {w : Window}
    {rows : List TickRow} (hrows : rows.Perm (w.rows ticks)) :
    BarsOfWindow ticks w (barsOf (rows.foldl fileRow [])) := by
  have hkept : ∀ {row}, row ∈ rows → w.Ended row.start ∧ row.tick.price ≠ .nan := by
    intro row hrow
    obtain ⟨hdistinct, hcond⟩ := List.mem_filter.mp (hrows.mem_iff.mp hrow)
    exact ⟨(of_decide_eq_true hcond).2, (hticks _ (tick_mem_of_distinct hdistinct)).price⟩
  have hminute : ∀ symbol start, w.Ended start →
      (rowsOf rows symbol start).Perm (minuteTicks ticks w symbol start) := by
    intro symbol start hended
    refine (hrows.filter _).trans (List.Perm.of_eq ?_)
    rw [Window.rows, List.filter_filter, minuteTicks]
    refine List.filter_congr fun row _ => ?_
    rw [Bool.eq_iff_iff]
    simp only [Bool.and_eq_true, decide_eq_true_eq, Prod.mk.injEq]
    constructor
    · rintro ⟨⟨hsymbol, hstart⟩, hreads, -⟩
      exact ⟨hreads, hsymbol, hstart⟩
    · rintro ⟨hreads, hsymbol, hstart⟩
      exact ⟨⟨hsymbol, hstart⟩, hreads, hstart ▸ hended⟩
  refine ⟨sorted_barsOf rows, ?_, ?_⟩
  · intro bar hbar
    obtain ⟨key, a, hmem, rfl⟩ := mem_barsOf.mp hbar
    obtain rfl : key = (a.symbol, a.start) := (key_of_aggregates hmem).symm
    obtain ⟨row, hrow, -, hstart⟩ := start_of_aggregates hmem
    have hended : w.Ended a.start := hstart ▸ (hkept hrow).1
    have hfigures := summarizes_summarize (fun r hr => (hkept (mem_rowsOf.mp hr).1).2)
      (mem_aggregates.mp hmem)
    exact ⟨hended, hfigures.isBarOf.perm (hminute _ _ hended)⟩
  · intro symbol start hended hne
    have hne' : rowsOf rows symbol start ≠ [] := fun hnil =>
      hne (List.perm_nil.mp (hnil ▸ (hminute symbol start hended).symm))
    obtain ⟨a, ha⟩ : ∃ a, Streaming.summarize .single MinuteAggregate.add (rowsOf rows symbol start) = some a := by
      rcases hlist : rowsOf rows symbol start with _ | ⟨row, rest⟩
      · exact absurd hlist hne'
      · exact ⟨_, rfl⟩
    have hmem := mem_aggregates.mpr ha
    have hkey := Prod.mk.inj (key_of_aggregates hmem)
    exact ⟨a.bar, mem_barsOf.mpr ⟨_, a, hmem, rfl⟩, hkey.1, hkey.2⟩

/-! ### The bars of a run -/

theorem validateSymbols_ok {symbols selected : Option (List String)} (h : validateSymbols symbols = .ok selected)
    (symbol : String) : Wanted selected symbol ↔ Wanted symbols symbol := by
  rcases symbols with _ | symbols
  · rw [← Except.ok.inj h]
  · rw [validateSymbols] at h
    split_ifs at h
    rw [← Except.ok.inj h]
    exact wanted_eraseDups

theorem checkArguments_ok {asOf : Option DateTime} {batchSize lookback : Int}
    (h : checkArguments asOf batchSize lookback = .ok ()) : 0 < batchSize ∧ 0 < lookback := by
  rw [checkArguments] at h
  split_ifs at h with haware hbatch hlookback
  exact ⟨not_le.mp hbatch, not_le.mp hlookback⟩

theorem timedeltaMinutes_ok {minutes delta : Int} (h : timedeltaMinutes minutes = .ok delta) :
    delta = minutes * minuteMicros := by
  rw [timedeltaMinutes] at h
  split_ifs at h
  exact (Except.ok.inj h).symm

section Run

variable {arrange : List TickRow → List TickRow} {ticks : List MarketTick} {symbols : Option (List String)}
  {now : DateTime} {lookback : Int}

/-- The bars that come back are those of the window. -/
theorem completedBars_ok (harrange : ∀ rows, (arrange rows).Perm rows)
    (hticks : ∀ tick ∈ ticks, Stored tick) {asOf : Option DateTime} {batchSize : Int} {bars : List MinuteBar}
    (h : completedBars arrange ticks symbols asOf now batchSize lookback = .ok bars) :
    BarsOfWindow ticks (windowOf symbols (asOf.getD now) lookback) bars := by
  rw [completedBars] at h
  obtain ⟨selected, hselected, h⟩ := Except.bind_eq_ok h
  obtain ⟨_, hcheck, h⟩ := Except.bind_eq_ok h
  obtain ⟨watermark, hwatermark, h⟩ := Except.bind_eq_ok h
  obtain ⟨delta, hdelta, h⟩ := Except.bind_eq_ok h
  obtain ⟨rangeStart, hrangeStart, h⟩ := Except.bind_eq_ok h
  obtain ⟨sqlStart, hsqlStart, h⟩ := Except.bind_eq_ok h
  obtain ⟨sqlEnd, hsqlEnd, h⟩ := Except.bind_eq_ok h
  obtain ⟨aggregates, haggregates, hbars⟩ := Except.bind_eq_ok h
  have hsize : 0 < batchSize.toNat := by
    have hbatch := (checkArguments_ok hcheck).1
    omega
  obtain ⟨rfl, -⟩ := awareKst_ok hwatermark
  obtain rfl := timedeltaMinutes_ok hdelta
  have hw : (windowOf symbols (asOf.getD now) lookback).Limits rangeStart (asOf.getD now).toKst :=
    ⟨by rw [add_instant hrangeStart, toKst_instant, windowOf, sub_eq_add_neg], toKst_instant _⟩
  have hstart : rangeStart.offset = some DateTime.kstOffset := by rw [(add_ok hrangeStart).1]; rfl
  rw [← Except.ok.inj hbars, loop_ok hw hsize haggregates]
  refine barsOfWindow_aggregates hticks ?_
  rw [← selectRows_filter hticks (validateSymbols_ok hselected) hw hstart rfl hsqlStart hsqlEnd]
  exact (harrange _).filter _

/-! ### A run that returns -/

/-- The symbols are codes of six digits, if they are given. -/
def SixDigits (symbols : Option (List String)) : Prop :=
  ∀ codes ∈ symbols, codes ≠ [] ∧ ∀ code ∈ codes, Text.isdigit code = true ∧ code.length = 6

/-- The day before the window and the second day after it are on the calendar. -/
structure OnCalendar (asOf : DateTime) (lookback : Int) : Prop where
  first : -719161 ≤ (⟨asOf.toKst.wall - lookback * minuteMicros, none⟩ : DateTime).date
  last : asOf.toKst.date ≤ 2932894

theorem validateSymbols_total (h : SixDigits symbols) : ∃ selected, validateSymbols symbols = .ok selected := by
  rcases symbols with _ | codes
  · exact ⟨none, rfl⟩
  · obtain ⟨hne, hcodes⟩ := h codes rfl
    have hany : ¬ (codes.any fun code => !Text.isdigit code || code.length ≠ 6) = true := by
      simpa using hcodes
    exact ⟨_, by rw [validateSymbols, if_neg hany, if_neg hne]⟩

theorem addRow_total {rangeStart watermark : DateTime} (hend : watermark.offset = some DateTime.kstOffset)
    (hlast : watermark.date ≤ 2932894) (aggregates : Aggregates) {row : TickRow} (hrow : row.tick.timestamp.toKst.InRange) :
    ∃ aggregates', addRow rangeStart watermark aggregates row = .ok aggregates' := by
  rw [addRow, awareKst, if_pos hrow]
  by_cases hout : row.tick.timestamp.toKst.instant < rangeStart.instant ∨
      watermark.instant < row.tick.timestamp.toKst.instant
  · exact ⟨aggregates, by simp only [bind, Except.bind, if_pos hout]; rfl⟩
  · have hstop : DateTime.minWall ≤ (minuteStart row.tick.timestamp.toKst).wall + minuteMicros ∧
        (minuteStart row.tick.timestamp.toKst).wall + minuteMicros ≤ DateTime.maxWall := by
      have hlow := hrow.1
      simp only [DateTime.instant, hend, DateTime.toKst, Option.getD_some, DateTime.date, minuteStart,
        minuteMicros, DateTime.minWall, DateTime.maxWall, DateTime.secondsPerDay,
        DateTime.microsPerSecond] at *
      omega
    simp only [bind, Except.bind, if_neg hout, DateTime.add, if_pos hstop]
    split_ifs
    · exact ⟨_, rfl⟩
    · exact ⟨_, rfl⟩

theorem completedBars_total (now : DateTime) {asOf : DateTime} {batchSize : Int}
    (harrange : ∀ rows, (arrange rows).Perm rows) (hticks : ∀ tick ∈ ticks, Stored tick)
    (hsymbols : SixDigits symbols) (haware : asOf.offset ≠ none) (hbatch : 0 < batchSize)
    (hlookback : 0 < lookback) (hcalendar : OnCalendar asOf lookback) :
    ∃ bars, completedBars arrange ticks symbols (some asOf) now batchSize lookback = .ok bars := by
  obtain ⟨hfirst, hlast⟩ := hcalendar
  simp only [DateTime.date, DateTime.secondsPerDay, DateTime.microsPerSecond, minuteMicros] at hfirst
  have hlast' := hlast
  simp only [DateTime.date, DateTime.secondsPerDay, DateTime.microsPerSecond] at hlast'
  obtain ⟨selected, hselected⟩ := validateSymbols_total hsymbols
  have hcheck : checkArguments (some asOf) batchSize lookback = .ok () := by
    rw [checkArguments, if_neg (by simpa using haware), if_neg (not_le.mpr hbatch), if_neg (not_le.mpr hlookback)]
  have hkst : asOf.toKst.InRange := by
    simp only [DateTime.InRange, DateTime.minWall, DateTime.maxWall, DateTime.secondsPerDay,
      DateTime.microsPerSecond]
    omega
  have hwatermark : awareKst asOf = .ok asOf.toKst := if_pos hkst
  have hdelta : timedeltaMinutes lookback = .ok (lookback * minuteMicros) := by
    rw [timedeltaMinutes, if_neg (by omega), if_neg (by omega)]
  obtain ⟨rangeStart, hrangeStart⟩ : ∃ rangeStart, asOf.toKst.add (-(lookback * minuteMicros)) = .ok rangeStart := by
    refine ⟨_, if_pos ?_⟩
    simp only [DateTime.minWall, DateTime.maxWall, DateTime.secondsPerDay, DateTime.microsPerSecond, minuteMicros]
    omega
  have hrange := (add_ok hrangeStart).1
  obtain ⟨sqlStart, hsqlStart⟩ : ∃ sqlStart, shiftDate rangeStart.date (-1) = .ok sqlStart := by
    refine ⟨_, if_pos ?_⟩
    rw [hrange]
    simp only [DateTime.date, DateTime.secondsPerDay, DateTime.microsPerSecond, minuteMicros]
    omega
  obtain ⟨sqlEnd, hsqlEnd⟩ : ∃ sqlEnd, shiftDate asOf.toKst.date 2 = .ok sqlEnd := by
    refine ⟨_, if_pos ?_⟩
    simp only [DateTime.date, DateTime.secondsPerDay, DateTime.microsPerSecond]
    omega
  have hloop : ∀ rows : List TickRow, (∀ row ∈ rows, row.tick ∈ ticks) →
      ∃ aggregates, (Streaming.batches batchSize.toNat rows.length rows).foldlM
        (fun aggregates batch => batch.foldlM (addRow rangeStart asOf.toKst) aggregates) [] = .ok aggregates := by
    intro rows hrows
    rw [Streaming.foldlM_flatten, Streaming.flatten_batches (by omega) le_rfl]
    exact Streaming.foldlM_total (fun aggregates row hrow =>
      addRow_total rfl hlast aggregates (hticks _ (hrows row hrow)).kstInRange) []
  obtain ⟨aggregates, haggregates⟩ :=
    hloop (arrange (selectRows ticks selected (DateTime.dateText sqlStart) (DateTime.dateText sqlEnd))) (by
      intro row hrow
      have hmem := (mem_groups.mp ((harrange _).mem_iff.mp hrow)).1
      exact List.fst_mem_of_mem_zipIdx (List.mem_filter.mp hmem).1)
  refine ⟨barsOf aggregates, ?_⟩
  rw [completedBars, hselected]
  simp only [bind, Except.bind, hcheck, Option.getD_some, hwatermark, hdelta, hrangeStart, hsqlStart, hsqlEnd]
  rw [haggregates]
  rfl

end Run

/-! ### Saving them -/

theorem IsBarOf.numeric {rows : List TickRow} {bar : MinuteBar} (h : IsBarOf rows bar)
    (hprices : ∀ row ∈ rows, row.tick.price ≠ .nan) : bar.Numeric := by
  obtain ⟨first, hfirst, hopen, -⟩ := h.first
  obtain ⟨last, hlast, hclose, -⟩ := h.last
  obtain ⟨top, htop, hhigh⟩ := h.high
  obtain ⟨bottom, hbottom, hlow⟩ := h.low
  exact
    { openPrice := hopen ▸ hprices first hfirst
      high := hhigh ▸ hprices top htop
      low := hlow ▸ hprices bottom hbottom
      close := hclose ▸ hprices last hlast }

/-- The table after one bar was saved. -/
def replaceBar (table : Table MinuteBar fun bar => (bar.symbol, bar.start)) (bar : MinuteBar) :
    Table MinuteBar fun bar => (bar.symbol, bar.start) :=
  table.upsert { bar with start := bar.start.asKst }

theorem saveBars_run {bars : List MinuteBar} (hbars : ∀ bar ∈ bars, bar.Numeric ∧ storable bar.volume = true)
    (store : MarketStore) :
    (bars.forM saveBar).run store = (.ok (), { store with bars := bars.foldl replaceBar store.bars }) := by
  induction bars generalizing store with
  | nil => rfl
  | cons bar rest ih =>
    obtain ⟨hnumeric, hvolume⟩ := hbars bar List.mem_cons_self
    rw [List.forM, Exec.run_bind_ok (saveBar_ok store hnumeric hvolume),
      ih (fun b hb => hbars b (List.mem_cons_of_mem _ hb))]
    rfl

/-- **The bars that come back are those of the window**, in any order of the rows and with
    any size of the batches, and they are saved. -/
theorem materialize_barsOfWindow {store : MarketStore} {symbols : Option (List String)} {asOf : DateTime}
    {lookback : Int} (hticks : ∀ tick ∈ store.ticks, Stored tick) (hsymbols : SixDigits symbols)
    (haware : asOf.offset ≠ none) (hlookback : 0 < lookback) (hcalendar : OnCalendar asOf lookback)
    (hvolumes : ∀ symbol start, (windowOf symbols asOf lookback).Ended start →
      storable ((minuteTicks store.ticks (windowOf symbols asOf lookback) symbol start).map
        fun row => row.tick.volume).sum = true) :
    ∃ bars, BarsOfWindow store.ticks (windowOf symbols asOf lookback) bars ∧
      ∀ (arrange : List TickRow → List TickRow) (now : DateTime) (batchSize : Int),
        (∀ rows, (arrange rows).Perm rows) → 0 < batchSize →
        (materializeCompletedBars arrange symbols (some asOf) now batchSize lookback).run store =
          (.ok bars, { store with bars := bars.foldl replaceBar store.bars }) := by
  obtain ⟨bars, hbars⟩ := completedBars_total asOf (fun rows => List.Perm.refl rows) hticks hsymbols
    haware one_pos hlookback hcalendar
  have hwindow := completedBars_ok (fun rows => List.Perm.refl rows) hticks hbars
  refine ⟨bars, hwindow, fun arrange now batchSize harrange hbatch => ?_⟩
  obtain ⟨bars', hbars'⟩ := completedBars_total now harrange hticks hsymbols haware hbatch hlookback
    hcalendar
  obtain rfl := (completedBars_ok harrange hticks hbars').unique hticks hwindow
  have hsave : ∀ bar ∈ bars', bar.Numeric ∧ storable bar.volume = true := by
    intro bar hbar
    obtain ⟨hended, hfigures⟩ := hwindow.sound bar hbar
    refine ⟨hfigures.numeric (distinct_minuteTicks hticks _ _ _).price, ?_⟩
    rw [hfigures.volume]
    exact hvolumes _ _ hended
  rw [materializeCompletedBars, Exec.run_query_bind, hbars', Exec.run_ofExcept_ok_bind,
    Exec.run_bind_ok (saveBars_run hsave store)]
  rfl

/-! ### Two ticks of a minute -/

namespace TwoOffsets

/-- A naive tick, and one in UTC 25 seconds later. -/
def ticks : List MarketTick :=
  [⟨"005930", .combine 20635 9 0 5 none, .fin 70000, 10⟩, ⟨"005930", .combine 20635 0 0 30 (some 0), .fin 70100, 5⟩]

def store : MarketStore := ⟨ticks, .empty⟩

def asOf : DateTime := .combine 20635 9 5 0 (some DateTime.kstOffset)

theorem stored : ∀ tick ∈ ticks, Stored tick := by
  intro tick htick
  rcases List.mem_cons.mp htick with rfl | htick
  · exact ⟨by decide, by decide, by decide, by decide⟩
  · obtain rfl := List.mem_singleton.mp htick
    exact ⟨by decide, by decide, by decide, by decide⟩

theorem volumes (w : Window) (symbol : String) (start : DateTime) :
    storable ((minuteTicks ticks w symbol start).map fun row => row.tick.volume).sum = true := by
  have hrows : distinctTicks ticks = (ticks.zipIdx 1).map fun r => ⟨r.1, r.2⟩ := by decide +kernel
  rw [minuteTicks, hrows]
  simp only [ticks, List.zipIdx, List.map_cons, List.map_nil, List.filter_cons, List.filter_nil]
  split_ifs <;> decide

theorem bars_of_ticks : ∃ bars, BarsOfWindow ticks (windowOf none asOf 360) bars ∧
    ∀ (arrange : List TickRow → List TickRow) (now : DateTime) (batchSize : Int),
      (∀ rows, (arrange rows).Perm rows) → 0 < batchSize →
      (materializeCompletedBars arrange none (some asOf) now batchSize 360).run store =
        (.ok bars, { store with bars := bars.foldl replaceBar store.bars }) :=
  @materialize_barsOfWindow store none asOf 360 stored (fun _ h => by cases h) (by decide) (by decide)
    ⟨by decide, by decide⟩ fun symbol start _ => volumes _ symbol start

example : completedBars List.reverse ticks none (some asOf) asOf 1 360 =
    .ok [⟨"005930", .combine 20635 9 0 0 (some DateTime.kstOffset), .fin 70000, .fin 70100, .fin 70000,
      .fin 70100, 15⟩] := Except.eq_ok_of_toOption (by decide +kernel)

/-- A look back that leaves the calendar, and a volume that SQLite cannot hold, raise. -/
theorem calendar_and_volume_raise :
    ((materializeCompletedBars id none (some asOf) asOf 1000 (10 ^ 10)).run store).1 = .error overflow ∧
    ((materializeCompletedBars id none (some asOf) asOf 1000 360).run
      ⟨[⟨"005930", .combine 20635 9 0 5 none, .fin 70000, 2 ^ 63 - 1⟩,
        ⟨"005930", .combine 20635 9 0 6 none, .fin 70000, 1⟩], .empty⟩).1 =
      .error (.other "OverflowError" "Python int too large to convert to SQLite INTEGER") :=
  ⟨Except.eq_error_of_exn? (by decide +kernel), Except.eq_error_of_exn? (by decide +kernel)⟩

end TwoOffsets

end AutoTrader.Market
