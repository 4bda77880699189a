/-
  AutoTrader/Market/StableBars.lean
  =================================
  **A later run over the same ticks, and the bars of an earlier one.**

  Every run computes the bars of its window from the ticks in it and writes them over the
  stored ones.  The window of a later run begins later, and it can begin within a minute:
  the ticks of this minute before it are cut off, and the bar of the rest replaces the bar
  of the whole minute.
-/
import AutoTrader.Market.MaterializedBars

namespace AutoTrader.Market

open Relational Transactional CompletedBars

/-! ### The bar of what is left -/

/-- Without these ticks the bar is the same: they add no volume, their prices are within
    those of the rest, and the first of them has the price of the first of the rest. -/
structure Harmless (cut kept : List TickRow) : Prop where
  volume : (cut.map fun row => row.tick.volume).sum = 0
  high : ∀ row ∈ cut, ∃ r ∈ kept, row.tick.price.rank ≤ r.tick.price.rank
  low : ∀ row ∈ cut, ∃ r ∈ kept, r.tick.price.rank ≤ row.tick.price.rank
  first : ∀ row ∈ cut, (∀ other ∈ cut, row.order ≤ other.order) →
    ∀ r ∈ kept, (∀ other ∈ kept, r.order ≤ other.order) → row.tick.price = r.tick.price

theorem harmless_nil (kept : List TickRow) : Harmless [] kept :=
  ⟨rfl, by simp, by simp, by simp⟩

section Cut

variable {rows cut kept : List TickRow} {bar bar' : MinuteBar}

/-- **The bar of the rest is the bar of all if what was cut off is harmless.** -/
theorem IsBarOf.of_harmless (hperm : (cut ++ kept).Perm rows)
    (hbefore : ∀ row ∈ cut, ∀ r ∈ kept, row.order < r.order) (h : IsBarOf rows bar)
    (h' : IsBarOf kept bar') (hharmless : Harmless cut kept) : IsBarOf rows bar' := by
  have hmem : ∀ {row}, row ∈ rows ↔ row ∈ cut ∨ row ∈ kept := hperm.symm.mem_iff.trans List.mem_append
  obtain ⟨first, hfirst, hopen, hleast⟩ := h'.first
  obtain ⟨last, hlast, hclose, hgreatest⟩ := h'.last
  obtain ⟨top, htop, hhigh⟩ := h'.high
  obtain ⟨bottom, hbottom, hlow⟩ := h'.low
  refine ⟨?_, ⟨last, hmem.mpr (.inr hlast), hclose, ?_⟩, ⟨top, hmem.mpr (.inr htop), hhigh⟩, ?_,
    ⟨bottom, hmem.mpr (.inr hbottom), hlow⟩, ?_, ?_⟩
  · obtain ⟨start, hstart, -, hstartLeast⟩ := h.first
    rcases hmem.mp hstart with hcut | hkept
    · -- the first of all was cut off, and has the price of the first that is left
      have hprice := hharmless.first start hcut (fun r hr => hstartLeast r (hmem.mpr (.inl hr))) first hfirst
        hleast
      exact ⟨start, hstart, hopen.trans hprice.symm, hstartLeast⟩
    · refine ⟨first, hmem.mpr (.inr hfirst), hopen, fun row hrow => ?_⟩
      exact (hleast start hkept).trans (hstartLeast row hrow)
  · intro row hrow
    rcases hmem.mp hrow with hcut | hkept
    · exact (hbefore row hcut last hlast).le
    · exact hgreatest row hkept
  · intro row hrow
    rcases hmem.mp hrow with hcut | hkept
    · obtain ⟨r, hr, hle⟩ := hharmless.high row hcut
      exact hle.trans (h'.high_ge r hr)
    · exact h'.high_ge row hkept
  · intro row hrow
    rcases hmem.mp hrow with hcut | hkept
    · obtain ⟨r, hr, hle⟩ := hharmless.low row hcut
      exact (h'.low_le r hr).trans hle
    · exact h'.low_le row hkept
  · rw [h'.volume, ← (hperm.map _).sum_eq, List.map_append, List.sum_append, hharmless.volume, zero_add]

/-- What was cut off is harmless if the bar is the same. -/
theorem IsBarOf.harmless (hdistinct : Distinct rows) (hperm : (cut ++ kept).Perm rows)
    (hbefore : ∀ row ∈ cut, ∀ r ∈ kept, row.order < r.order) (h : IsBarOf rows bar) (h' : IsBarOf kept bar) :
    Harmless cut kept := by
  have hmem : ∀ {row}, row ∈ rows ↔ row ∈ cut ∨ row ∈ kept := hperm.symm.mem_iff.trans List.mem_append
  obtain ⟨top, htop, hhigh⟩ := h'.high
  obtain ⟨bottom, hbottom, hlow⟩ := h'.low
  refine ⟨?_, fun row hrow => ⟨top, htop, ?_⟩, fun row hrow => ⟨bottom, hbottom, ?_⟩, ?_⟩
  · have hsum := h.volume
    rw [h'.volume, ← (hperm.map _).sum_eq, List.map_append, List.sum_append] at hsum
    omega
  · rw [← hhigh]
    exact h.high_ge row (hmem.mpr (.inl hrow))
  · rw [← hlow]
    exact h.low_le row (hmem.mpr (.inl hrow))
  · intro row hrow hrowLeast r hr hrLeast
    obtain ⟨start, hstart, hopen, hstartLeast⟩ := h.first
    obtain ⟨first, hfirst, hopen', hleast⟩ := h'.first
    have hall : ∀ other ∈ rows, row.order ≤ other.order := by
      intro other hother
      rcases hmem.mp hother with hcut | hkept
      · exact hrowLeast other hcut
      · exact (hbefore row hrow other hkept).le
    have hrowStart : row = start := hdistinct.order row (hmem.mpr (.inl hrow)) start hstart
      (le_antisymm (hall start hstart) (hstartLeast row (hmem.mpr (.inl hrow))))
    have hrFirst : r = first := hdistinct.order r (hmem.mpr (.inr hr)) first (hmem.mpr (.inr hfirst))
      (le_antisymm (hrLeast first hfirst) (hleast r hr))
    rw [hrowStart, hrFirst, ← hopen, ← hopen']

end Cut

/-! ### What a run stores -/

section Store

variable {store store' : MarketStore}

theorem saveBar_run_ok {bar : MinuteBar} (h : (saveBar bar).run store = (.ok (), store')) :
    store' = { store with bars := replaceBar store.bars bar } := by
  simp only [saveBar, bindInt, notNull, Exec.run_require_bind, Exec.run_statement] at h
  split_ifs at h <;> simp only [Prod.mk.injEq, reduceCtorEq, false_and] at h
  exact h.2.symm

theorem saveBars_run_ok {bars : List MinuteBar} (h : (bars.forM saveBar).run store = (.ok (), store')) :
    store' = { store with bars := bars.foldl replaceBar store.bars } := by
  induction bars generalizing store with
  | nil => exact (Prod.mk.inj h).2.symm
  | cons bar rest ih =>
    rw [List.forM] at h
    obtain ⟨_, between, hbar, hrest⟩ := Exec.run_bind_eq_ok h
    rw [ih hrest, saveBar_run_ok hbar]
    rfl

theorem materialize_run_ok {arrange : List TickRow → List TickRow} {symbols : Option (List String)}
    {asOf : Option DateTime} {now : DateTime} {batchSize lookback : Int} {bars : List MinuteBar}
    (h : (materializeCompletedBars arrange symbols asOf now batchSize lookback).run store = (.ok bars, store')) :
    completedBars arrange store.ticks symbols asOf now batchSize lookback = .ok bars ∧
      store' = { store with bars := bars.foldl replaceBar store.bars } := by
  rw [materializeCompletedBars, Exec.run_query_bind] at h
  obtain ⟨bars', between, hbars, hsave⟩ := Exec.run_bind_eq_ok h
  obtain ⟨_, after, hafter, hreturn⟩ := Exec.run_bind_eq_ok hsave
  rw [Exec.run_ofExcept] at hbars
  obtain ⟨hcomputed, rfl⟩ := Prod.mk.inj hbars
  obtain ⟨hsame, rfl⟩ := Prod.mk.inj hreturn
  rw [Except.ok.inj hsame] at hcomputed hafter
  exact ⟨hcomputed, saveBars_run_ok hafter⟩

end Store

/-- The key of a bar in `bars_1m`. -/
def storedKey (bar : MinuteBar) : String × DateTime := (bar.symbol, bar.start.asKst)

section Replace

variable {table : Table MinuteBar fun bar => (bar.symbol, bar.start)} {bars : List MinuteBar}

theorem find?_replaceBars_of_ne {key : String × DateTime} (h : ∀ bar ∈ bars, storedKey bar ≠ key) :
    (bars.foldl replaceBar table).find? key = table.find? key := by
  induction bars generalizing table with
  | nil => rfl
  | cons bar rest ih =>
    rw [List.foldl_cons, ih fun b hb => h b (List.mem_cons_of_mem _ hb)]
    exact Table.find?_upsert_ne table (Ne.symm (h bar List.mem_cons_self))

theorem find?_replaceBars_of_mem {bar : MinuteBar} (hkeys : bars.Pairwise fun a b => storedKey a ≠ storedKey b)
    (h : bar ∈ bars) :
    (bars.foldl replaceBar table).find? (storedKey bar) = some { bar with start := bar.start.asKst } := by
  induction bars generalizing table with
  | nil => exact absurd h List.not_mem_nil
  | cons first rest ih =>
    obtain ⟨hfirst, hrest⟩ := List.pairwise_cons.mp hkeys
    rw [List.foldl_cons]
    rcases List.mem_cons.mp h with rfl | hmem
    · rw [find?_replaceBars_of_ne fun b hb => (hfirst b hb).symm]
      exact Table.find?_upsert_self table _
    · exact ih hrest hmem

end Replace

/-! ### Minutes -/

theorem start_asKst (row : TickRow) : row.start.asKst = ⟨row.start.wall, none⟩ := by
  simp [TickRow.start, minuteStart, DateTime.toKst, DateTime.asKst, DateTime.instant]

section Minutes

variable {ticks : List MarketTick} {w w' : Window}

theorem BarsOfWindow.start_eq {bars : List MinuteBar} (h : BarsOfWindow ticks w bars) {bar : MinuteBar}
    (hbar : bar ∈ bars) : ∃ row : TickRow, row.start = bar.start := by
  obtain ⟨first, hfirst, -⟩ := (h.sound bar hbar).2.first
  exact ⟨first, (mem_minuteTicks.mp hfirst).2.2.2⟩

theorem storedKey_eq_iff {bar bar' : MinuteBar} (h : ∃ row : TickRow, row.start = bar.start)
    (h' : ∃ row : TickRow, row.start = bar'.start) :
    storedKey bar = storedKey bar' ↔ bar.symbol = bar'.symbol ∧ bar.start = bar'.start := by
  obtain ⟨row, hrow⟩ := h
  obtain ⟨row', hrow'⟩ := h'
  constructor
  · intro heq
    obtain ⟨hsymbol, hstart⟩ := Prod.mk.inj heq
    rw [← hrow, ← hrow', start_asKst, start_asKst] at hstart
    have hwall : row.start.wall = row'.start.wall := (DateTime.mk.inj hstart).1
    have hinstant : row.start.instant = row'.start.instant := by
      simp only [DateTime.instant, hwall]
      rfl
    exact ⟨hsymbol, by rw [← hrow, ← hrow', start_ext hinstant]⟩
  · rintro ⟨hsymbol, hstart⟩
    rw [storedKey, storedKey, hsymbol, hstart]

theorem BarsOfWindow.storedKeys {bars : List MinuteBar} (h : BarsOfWindow ticks w bars) :
    bars.Pairwise fun a b => storedKey a ≠ storedKey b := by
  refine h.sorted.imp_of_mem ?_
  intro a b ha hb hlt heq
  obtain ⟨hsymbol, hstart⟩ := (storedKey_eq_iff (h.start_eq ha) (h.start_eq hb)).mp heq
  rcases hlt with hlt | ⟨-, hlt⟩
  · exact hlt.ne hsymbol
  · rw [hstart] at hlt
    exact lt_irrefl _ hlt

/-- The ticks of a minute that a window does not reach back to. -/
def cutTicks (ticks : List MarketTick) (w : Window) (lo : Int) (symbol : String) (start : DateTime) : List TickRow :=
  (minuteTicks ticks w symbol start).filter fun row => row.tick.timestamp.instant < lo

/-- A later window with the same symbols. -/
structure Window.Later (w w' : Window) : Prop where
  selected : w'.selected = w.selected
  lo : w.lo ≤ w'.lo
  hi : w.hi ≤ w'.hi

/-- Of a minute that has ended the later window cuts off the ticks before it. -/
theorem cutTicks_perm (hlater : w.Later w') {symbol : String} {start : DateTime} (hended : w.Ended start) :
    (cutTicks ticks w w'.lo symbol start ++ minuteTicks ticks w' symbol start).Perm
      (minuteTicks ticks w symbol start) := by
  have hkept : minuteTicks ticks w' symbol start = (minuteTicks ticks w symbol start).filter
      fun row => !decide (row.tick.timestamp.instant < w'.lo) := by
    rw [minuteTicks, minuteTicks, List.filter_filter]
    refine List.filter_congr fun row _ => ?_
    rw [Bool.eq_iff_iff]
    simp only [Bool.and_eq_true, decide_eq_true_eq, Bool.not_eq_true', decide_eq_false_iff_not, not_lt]
    simp only [Window.Reads, hlater.selected]
    constructor
    · rintro ⟨⟨hwanted, hlo, -⟩, hsymbol, hstart⟩
      have hminute := instant_lt_of_start row
      rw [hstart] at hminute
      exact ⟨hlo, ⟨hwanted, hlater.lo.trans hlo, (hminute.le.trans hended)⟩, hsymbol, hstart⟩
    · rintro ⟨hlo, ⟨hwanted, -, hhi⟩, hsymbol, hstart⟩
      exact ⟨⟨hwanted, hlo, hhi.trans hlater.hi⟩, hsymbol, hstart⟩
  rw [hkept]
  exact List.filter_append_perm _ _

theorem cutTicks_before {symbol : String} {start : DateTime} :
    ∀ row ∈ cutTicks ticks w w'.lo symbol start, ∀ r ∈ minuteTicks ticks w' symbol start, row.order < r.order := by
  intro row hrow r hr
  have hcut : row.tick.timestamp.instant < w'.lo := of_decide_eq_true (List.mem_filter.mp hrow).2
  have hkept : w'.lo ≤ r.tick.timestamp.instant := (mem_minuteTicks.mp hr).2.1.2.1
  rw [TickRow.order, TickRow.order, Prod.Lex.toLex_lt_toLex]
  exact .inl (hcut.trans_le hkept)

end Minutes

/-! ### Two runs -/

/-- The bars of the later window leave those of the earlier one alone if every minute that
    the later one begins in lost harmless ticks only. -/
theorem BarsOfWindow.agree_iff {ticks : List MarketTick} (hticks : ∀ tick ∈ ticks, Stored tick) {w w' : Window}
    (hlater : w.Later w') {bars bars' : List MinuteBar} (h : BarsOfWindow ticks w bars)
    (h' : BarsOfWindow ticks w' bars') :
    (∀ bar ∈ bars, ∀ bar' ∈ bars', bar'.symbol = bar.symbol → bar'.start = bar.start → bar' = bar) ↔
      ∀ symbol start, w.Ended start → minuteTicks ticks w' symbol start ≠ [] →
        Harmless (cutTicks ticks w w'.lo symbol start) (minuteTicks ticks w' symbol start) := by
  constructor
  · intro hagree symbol start hended hne
    have hperm : (cutTicks ticks w w'.lo symbol start ++ minuteTicks ticks w' symbol start).Perm
        (minuteTicks ticks w symbol start) := cutTicks_perm hlater hended
    have hended' : w'.Ended start := le_trans hended hlater.hi
    obtain ⟨bar', hbar', rfl, rfl⟩ := h'.complete symbol start hended' hne
    have hne' : minuteTicks ticks w bar'.symbol bar'.start ≠ [] := by
      intro hnil
      rw [hnil] at hperm
      exact hne (List.append_eq_nil_iff.mp (List.perm_nil.mp hperm)).2
    obtain ⟨bar, hbar, hsymbol, hstart⟩ := h.complete bar'.symbol bar'.start hended hne'
    have hfigures := (h.sound bar hbar).2
    rw [hsymbol, hstart, ← hagree bar hbar bar' hbar' hsymbol.symm hstart.symm] at hfigures
    exact hfigures.harmless (distinct_minuteTicks hticks w _ _) hperm cutTicks_before (h'.sound bar' hbar').2
  · intro hharmless bar hbar bar' hbar' hsymbol hstart
    obtain ⟨hended, hfigures⟩ := h.sound bar hbar
    have hfigures' := (h'.sound bar' hbar').2
    rw [hsymbol, hstart] at hfigures'
    obtain ⟨first, hfirst, -⟩ := hfigures'.first
    have hsame := hfigures.of_harmless (cutTicks_perm hlater hended) cutTicks_before hfigures'
      (hharmless _ _ hended (List.ne_nil_of_mem hfirst))
    exact hsame.unique (distinct_minuteTicks hticks w _ _) hfigures hsymbol hstart

/-- **A later run leaves the bars of an earlier one exactly as they were if and only if every
    minute it reads the end of lost harmless ticks only.** -/
theorem materialize_stable_iff {store store₁ store₂ : MarketStore} {arrange₁ arrange₂ : List TickRow → List TickRow}
    {symbols : Option (List String)} {asOf₁ asOf₂ now₁ now₂ : DateTime} {batchSize₁ batchSize₂ lookback : Int}
    {bars₁ bars₂ : List MinuteBar} (hticks : ∀ tick ∈ store.ticks, Stored tick)
    (harrange₁ : ∀ rows, (arrange₁ rows).Perm rows) (harrange₂ : ∀ rows, (arrange₂ rows).Perm rows)
    (hlater : asOf₁.instant ≤ asOf₂.instant)
    (hrun₁ : (materializeCompletedBars arrange₁ symbols (some asOf₁) now₁ batchSize₁ lookback).run store =
      (.ok bars₁, store₁))
    (hrun₂ : (materializeCompletedBars arrange₂ symbols (some asOf₂) now₂ batchSize₂ lookback).run store₁ =
      (.ok bars₂, store₂)) :
    (∀ bar ∈ bars₁, store₂.bars.find? (storedKey bar) = store₁.bars.find? (storedKey bar)) ↔
      ∀ symbol start, (windowOf symbols asOf₁ lookback).Ended start →
        minuteTicks store.ticks (windowOf symbols asOf₂ lookback) symbol start ≠ [] →
        Harmless (cutTicks store.ticks (windowOf symbols asOf₁ lookback)
            (windowOf symbols asOf₂ lookback).lo symbol start)
          (minuteTicks store.ticks (windowOf symbols asOf₂ lookback) symbol start) := by
  obtain ⟨hbars₁, hstore₁⟩ := materialize_run_ok hrun₁
  obtain ⟨hbars₂, hstore₂⟩ := materialize_run_ok hrun₂
  have hsame : store₁.ticks = store.ticks := by rw [hstore₁]
  rw [hsame] at hbars₂
  have h₁ := completedBars_ok harrange₁ hticks hbars₁
  have h₂ := completedBars_ok harrange₂ hticks hbars₂
  have hwindow : (windowOf symbols asOf₁ lookback).Later (windowOf symbols asOf₂ lookback) :=
    ⟨rfl, Int.sub_le_sub_right hlater _, hlater⟩
  rw [← BarsOfWindow.agree_iff hticks hwindow h₁ h₂]
  have hstored : ∀ bar ∈ bars₁, store₁.bars.find? (storedKey bar) =
      some { bar with start := bar.start.asKst } := by
    intro bar hbar
    rw [hstore₁]
    exact find?_replaceBars_of_mem h₁.storedKeys hbar
  have hkept : store₂.bars = bars₂.foldl replaceBar store₁.bars := by rw [hstore₂]
  constructor
  · intro hstable bar hbar bar' hbar' hsymbol hstart
    have hkey : storedKey bar' = storedKey bar := by rw [storedKey, storedKey, hsymbol, hstart]
    have hfind := hstable bar hbar
    rw [hkept, ← hkey, find?_replaceBars_of_mem h₂.storedKeys hbar', hkey, hstored bar hbar] at hfind
    have hfigures := MinuteBar.mk.inj (Option.some.inj hfind)
    obtain ⟨_, _, _, _, _, _, _⟩ := bar
    obtain ⟨_, _, _, _, _, _, _⟩ := bar'
    simp_all
  · intro hagree bar hbar
    rw [hkept]
    by_cases hmem : ∃ bar' ∈ bars₂, storedKey bar' = storedKey bar
    · obtain ⟨bar', hbar', hkey⟩ := hmem
      obtain ⟨hsymbol, hstart⟩ := (storedKey_eq_iff (h₂.start_eq hbar') (h₁.start_eq hbar)).mp hkey
      obtain rfl := hagree bar hbar bar' hbar' hsymbol hstart
      rw [find?_replaceBars_of_mem h₂.storedKeys hbar', hstored bar' hbar]
    · exact find?_replaceBars_of_ne fun bar' hbar' hkey => hmem ⟨bar', hbar', hkey⟩

/-! ### A window that begins within a minute -/

namespace CutMinute

def ticks : List MarketTick :=
  [⟨"005930", .combine 20635 9 0 5 none, .fin 100, 10⟩, ⟨"005930", .combine 20635 9 0 30 none, .fin 110, 5⟩]

def store : MarketStore := ⟨ticks, .empty⟩

/-- A run over the five minutes before 09:05 and some seconds. -/
def run (seconds : Nat) (store : MarketStore) : Except Exn (List MinuteBar) × MarketStore :=
  (materializeCompletedBars id none (some (.combine 20635 9 5 seconds (some DateTime.kstOffset)))
    (.combine 20635 9 5 seconds none) 1000 5).run store

def bar (first : PyFloat) (volume : Int) : MinuteBar :=
  ⟨"005930", .combine 20635 9 0 0 (some DateTime.kstOffset), first, .fin 110, first, .fin 110, volume⟩

/-- The minute is stored whole, and ten seconds later its second half is stored over it. -/
theorem second_half_replaces_minute :
    (run 0 store).2.bars.rows = [{ bar (.fin 100) 15 with start := .combine 20635 9 0 0 none }] ∧
    (run 10 (run 0 store).2).2.bars.rows = [{ bar (.fin 110) 5 with start := .combine 20635 9 0 0 none }] := by
  constructor <;> decide +kernel

theorem stored : ∀ tick ∈ ticks, Stored tick := by
  intro tick htick
  rcases List.mem_cons.mp htick with rfl | htick
  · exact ⟨by decide, by decide, by decide, by decide⟩
  · obtain rfl := List.mem_singleton.mp htick
    exact ⟨by decide, by decide, by decide, by decide⟩

theorem stable_iff :
    (∀ b ∈ [bar (.fin 100) 15], (run 10 (run 0 store).2).2.bars.find? (storedKey b) =
      (run 0 store).2.bars.find? (storedKey b)) ↔
    ∀ symbol start, (windowOf none (.combine 20635 9 5 0 (some DateTime.kstOffset)) 5).Ended start →
      minuteTicks ticks (windowOf none (.combine 20635 9 5 10 (some DateTime.kstOffset)) 5) symbol start ≠ [] →
      Harmless (cutTicks ticks (windowOf none (.combine 20635 9 5 0 (some DateTime.kstOffset)) 5)
          (windowOf none (.combine 20635 9 5 10 (some DateTime.kstOffset)) 5).lo symbol start)
        (minuteTicks ticks (windowOf none (.combine 20635 9 5 10 (some DateTime.kstOffset)) 5) symbol start) := by
  have hrun : (run 0 store).1 = .ok [bar (.fin 100) 15] := Except.eq_ok_of_toOption (by decide +kernel)
  have hrun' : (run 10 (run 0 store).2).1 = .ok [bar (.fin 110) 5] := Except.eq_ok_of_toOption (by decide +kernel)
  exact @materialize_stable_iff store _ _ id id none _ _ _ _ 1000 1000 5 _ _ stored
    (fun rows => List.Perm.refl rows) (fun rows => List.Perm.refl rows) (by decide) (Prod.ext hrun rfl)
    (Prod.ext hrun' rfl)

end CutMinute

end AutoTrader.Market
