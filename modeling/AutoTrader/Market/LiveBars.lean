/-
  AutoTrader/Market/LiveBars.lean
  ===============================
  **The bars built from a stream and the bars made from the stored ticks.**

  A `MinuteBarBuilder` adds every tick it is given; `materialize_completed_bars` counts
  stored ticks that look the same once.  The two agree on open, high and low of every
  minute, and on the whole bar if no two ticks of the minute look the same.
-/
import AutoTrader.Market.StableBars

namespace AutoTrader.Market

open Relational Transactional CompletedBars

/-! ### The builder on a stream -/

/-- The builder on the ticks of a stream, with the bars it completes. -/
def buildBars (stream : List MarketTick) : Except Exn (Option MinuteBar × List MinuteBar) :=
  stream.foldlM (fun state tick =>
    (updateBuilder state.1 tick).map fun built => (some built.1, state.2 ++ built.2.toList)) (none, [])

/-- A stream of ticks of one symbol in the order of their times: all naive, or all aware at
    offsets of whole minutes. -/
structure Chronological (symbol : String) (stream : List MarketTick) : Prop where
  symbol_eq : ∀ tick ∈ stream, tick.symbol = symbol
  aware : ∀ a ∈ stream, ∀ b ∈ stream, a.timestamp.offset.isSome = b.timestamp.offset.isSome
  minutes : ∀ tick ∈ stream, ∀ o ∈ tick.timestamp.offset, o % 60 = 0
  ordered : stream.Pairwise fun a b => a.timestamp.instant ≤ b.timestamp.instant

/-- The instant the minute of the tick begins. -/
def MarketTick.minute (tick : MarketTick) : Int := tick.start.instant

/-- The ticks of a minute. -/
def minuteOf (stream : List MarketTick) (minute : Int) : List MarketTick :=
  stream.filter fun tick => tick.minute = minute

/-- The bar of some ticks that come one after another. -/
def liveBar (ticks : List MarketTick) : Option MinuteBar := Streaming.summarize MarketTick.firstBar MinuteBar.add ticks

theorem kst_minute {o : Int} (h : o % 60 = 0) : o * DateTime.microsPerSecond % minuteMicros = 0 := by
  simp only [minuteMicros, DateTime.microsPerSecond]
  omega

/-- The minute of a tick is the minute of its time in KST. -/
theorem minute_eq {tick : MarketTick} (h : ∀ o ∈ tick.timestamp.offset, o % 60 = 0) :
    tick.minute = tick.timestamp.instant - (tick.timestamp.toKst.wall % minuteMicros) := by
  simp only [MarketTick.minute, MarketTick.start, DateTime.instant, DateTime.toKst]
  rcases hoffset : tick.timestamp.offset with _ | o
  · simp only [Option.getD_none, sub_add_cancel, minuteMicros]
    omega
  · have hwhole := h o hoffset
    simp only [Option.getD_some, DateTime.microsPerSecond, DateTime.kstOffset, minuteMicros]
    omega

theorem minute_mono {a b : MarketTick} (ha : ∀ o ∈ a.timestamp.offset, o % 60 = 0)
    (hb : ∀ o ∈ b.timestamp.offset, o % 60 = 0) (hle : a.timestamp.instant ≤ b.timestamp.instant) :
    a.minute ≤ b.minute := by
  rw [minute_eq ha, minute_eq hb]
  simp only [DateTime.toKst, minuteMicros, DateTime.microsPerSecond] at *
  omega

section Builder

variable {symbol : String} {stream : List MarketTick} {tick : MarketTick} {bar : MinuteBar}

/-- Two times of one kind compare by their instants. -/
theorem utcInstant_sub {a b : DateTime} (h : a.offset.isSome = b.offset.isSome) :
    a.utcInstant - b.utcInstant = a.instant - b.instant := by
  simp only [DateTime.utcInstant, DateTime.instant]
  rcases ha : a.offset with _ | oa <;> rcases hb : b.offset with _ | ob <;> rw [ha, hb] at h
  · simp only [Option.getD_none]
    omega
  · cases h
  · cases h
  · rfl

theorem updateBuilder_eq (hsymbol : tick.symbol = bar.symbol)
    (haware : tick.start.offset.isSome = bar.start.offset.isSome) :
    updateBuilder (some bar) tick =
      if tick.minute < bar.start.instant then .error (.valueError "ticks must be chronological")
      else if tick.minute = bar.start.instant then .ok (bar.add tick, none)
      else .ok (tick.firstBar, some bar) := by
  have hsub := utcInstant_sub haware
  have hbefore : before tick.start bar.start = .ok (decide (tick.minute < bar.start.instant)) := by
    rw [before, if_pos haware]
    congr 1
    rw [decide_eq_decide, MarketTick.minute]
    omega
  have hsame : tick.start.utcInstant = bar.start.utcInstant ↔ tick.minute = bar.start.instant := by
    rw [MarketTick.minute]
    omega
  unfold updateBuilder
  simp only [hsymbol, ne_eq, not_true_eq_false, if_false, hbefore, Bind.bind, Except.bind,
    decide_eq_true_eq, hsame]

/-- The state of the builder after the ticks of a stream. -/
structure Builds (stream : List MarketTick) (building : Option MinuteBar) (completed : List MinuteBar) : Prop where
  none_iff : building = none ↔ stream = []
  current : ∀ bar ∈ building, liveBar (minuteOf stream bar.start.instant) = some bar ∧
    ∀ tick ∈ stream, tick.minute ≤ bar.start.instant
  done : ∀ bar ∈ completed, liveBar (minuteOf stream bar.start.instant) = some bar ∧
    ∀ current ∈ building, bar.start.instant < current.start.instant

theorem builds_nil : Builds [] none [] := by
  refine ⟨by simp, ?_, ?_⟩
  · intro bar hbar
    cases hbar
  · intro bar hbar
    exact absurd hbar List.not_mem_nil

/-- The bar of a list carries the symbol, the start and the kind of time of its first tick. -/
theorem liveBar_start {ticks : List MarketTick} (h : liveBar ticks = some bar) :
    ∃ first ∈ ticks, bar.symbol = first.symbol ∧ bar.start = first.start := by
  induction ticks using List.reverseRecOn generalizing bar with
  | nil => cases h
  | append_singleton ticks tick ih =>
    rw [liveBar, Streaming.summarize_append] at h
    rcases hticks : Streaming.summarize MarketTick.firstBar MinuteBar.add ticks with _ | before
    · rw [hticks] at h
      cases h
      exact ⟨tick, List.mem_append_right _ (List.mem_singleton_self tick), rfl, rfl⟩
    · rw [hticks] at h
      cases h
      obtain ⟨first, hfirst, hsymbol, hstart⟩ := ih hticks
      exact ⟨first, List.mem_append_left _ hfirst, hsymbol, hstart⟩

theorem minuteOf_append (stream : List MarketTick) (tick : MarketTick) (minute : Int) :
    minuteOf (stream ++ [tick]) minute =
      if tick.minute = minute then minuteOf stream minute ++ [tick] else minuteOf stream minute := by
  rw [minuteOf, List.filter_append, List.filter_singleton]
  by_cases h : tick.minute = minute <;> simp [h, minuteOf]

theorem Chronological.of_append (h : Chronological symbol (stream ++ [tick])) : Chronological symbol stream where
  symbol_eq t ht := h.symbol_eq t (List.mem_append_left _ ht)
  aware a ha b hb := h.aware a (List.mem_append_left _ ha) b (List.mem_append_left _ hb)
  minutes t ht := h.minutes t (List.mem_append_left _ ht)
  ordered := (List.pairwise_append.mp h.ordered).1

/-- The last tick of a stream is of its last minute. -/
theorem Chronological.minute_le (h : Chronological symbol (stream ++ [tick])) :
    ∀ t ∈ stream, t.minute ≤ tick.minute := by
  intro t ht
  have hlast : tick ∈ stream ++ [tick] := List.mem_append_right _ (List.mem_singleton_self tick)
  exact minute_mono (h.minutes t (List.mem_append_left _ ht)) (h.minutes tick hlast)
    ((List.pairwise_append.mp h.ordered).2.2 t ht tick (List.mem_singleton_self tick))

/-- One more tick belongs to the bar being built, or completes it. -/
theorem Builds.step {building : Option MinuteBar} {completed : List MinuteBar}
    (hbuilds : Builds stream building completed) (h : Chronological symbol (stream ++ [tick])) :
    ∃ bar finished, updateBuilder building tick = .ok (bar, finished) ∧
      Builds (stream ++ [tick]) (some bar) (completed ++ finished.toList) := by
  have hnonempty : ∀ bar : MinuteBar, some bar = none ↔ stream ++ [tick] = [] := by simp
  rcases building with _ | current
  · obtain rfl := hbuilds.none_iff.mp rfl
    have hcompleted : completed = [] := by
      rcases completed with _ | ⟨done, rest⟩
      · rfl
      · exact absurd (hbuilds.done done List.mem_cons_self).1 (by simp [minuteOf, liveBar, Streaming.summarize])
    subst hcompleted
    refine ⟨tick.firstBar, none, rfl, hnonempty _, ?_, ?_⟩
    · intro bar hbar
      obtain rfl := Option.some.inj hbar
      have hown : tick.minute = tick.firstBar.start.instant := rfl
      rw [minuteOf_append, if_pos hown]
      refine ⟨rfl, fun t ht => ?_⟩
      rw [List.mem_singleton.mp ht]
      exact hown.le
    · intro bar hbar
      exact absurd hbar List.not_mem_nil
  · obtain ⟨hcurrent, hlatest⟩ := hbuilds.current current rfl
    obtain ⟨first, hfirst, hsymbol, hstart⟩ := liveBar_start hcurrent
    have hmem : first ∈ stream := (List.mem_filter.mp hfirst).1
    have hlast : tick ∈ stream ++ [tick] := List.mem_append_right _ (List.mem_singleton_self tick)
    have hsame : tick.symbol = current.symbol := by
      rw [hsymbol, h.symbol_eq tick hlast, h.symbol_eq first (List.mem_append_left _ hmem)]
    have haware : tick.start.offset.isSome = current.start.offset.isSome := by
      rw [hstart]
      exact h.aware tick hlast first (List.mem_append_left _ hmem)
    have hle : current.start.instant ≤ tick.minute := by
      rw [hstart]
      exact h.minute_le first hmem
    -- the bars of the minutes before are those of the same ticks
    have hearlier : ∀ bar : MinuteBar, bar.start.instant < tick.minute →
        minuteOf (stream ++ [tick]) bar.start.instant = minuteOf stream bar.start.instant := by
      intro bar hlt
      rw [minuteOf_append, if_neg hlt.ne']
    rw [updateBuilder_eq hsame haware, if_neg (not_lt.mpr hle)]
    by_cases hminute : tick.minute = current.start.instant
    · refine ⟨current.add tick, none, if_pos hminute, hnonempty _, ?_, ?_⟩
      · intro bar hbar
        obtain rfl := Option.some.inj hbar
        have hstart' : (current.add tick).start = current.start := rfl
        rw [hstart', minuteOf_append, if_pos hminute, liveBar, Streaming.summarize_append]
        rw [liveBar] at hcurrent
        rw [hcurrent]
        refine ⟨rfl, fun t ht => ?_⟩
        rcases List.mem_append.mp ht with ht | ht
        · exact hlatest t ht
        · rw [List.mem_singleton.mp ht, hminute]
      · intro bar hbar
        rw [Option.toList_none, List.append_nil] at hbar
        obtain ⟨hdone, hbefore⟩ := hbuilds.done bar hbar
        have hlt := hbefore current rfl
        rw [hearlier bar (hlt.trans_eq hminute.symm)]
        refine ⟨hdone, fun b hb => ?_⟩
        obtain rfl := Option.some.inj hb
        exact hlt
    · have hlt : current.start.instant < tick.minute := lt_of_le_of_ne hle (Ne.symm hminute)
      refine ⟨tick.firstBar, some current, if_neg hminute, hnonempty _, ?_, ?_⟩
      · intro bar hbar
        obtain rfl := Option.some.inj hbar
        have hown : tick.minute = tick.firstBar.start.instant := rfl
        have hnone : minuteOf stream tick.firstBar.start.instant = [] := by
          refine List.filter_eq_nil_iff.mpr fun t ht => ?_
          rw [decide_eq_true_eq, ← hown]
          exact (lt_of_le_of_lt (hlatest t ht) hlt).ne
        rw [minuteOf_append, if_pos hown, hnone]
        refine ⟨rfl, fun t ht => ?_⟩
        rcases List.mem_append.mp ht with ht | ht
        · exact (lt_of_le_of_lt (hlatest t ht) hlt).le
        · rw [List.mem_singleton.mp ht]
          exact hown.le
      · intro bar hbar
        have hbar' : bar.start.instant < tick.minute ∧ liveBar (minuteOf stream bar.start.instant) = some bar := by
          rcases List.mem_append.mp hbar with hbar | hbar
          · obtain ⟨hdone, hbefore⟩ := hbuilds.done bar hbar
            exact ⟨(hbefore current rfl).trans hlt, hdone⟩
          · obtain rfl : bar = current := by simpa using hbar
            exact ⟨hlt, hcurrent⟩
        rw [hearlier bar hbar'.1]
        refine ⟨hbar'.2, fun b hb => ?_⟩
        obtain rfl := Option.some.inj hb
        exact hbar'.1

/-- **The builder takes a stream in order, and every bar it completes is that of the ticks of
    its minute.** -/
theorem buildBars_builds (h : Chronological symbol stream) :
    ∃ building completed, buildBars stream = .ok (building, completed) ∧ Builds stream building completed := by
  induction stream using List.reverseRecOn with
  | nil => exact ⟨none, [], rfl, builds_nil⟩
  | append_singleton stream tick ih =>
    obtain ⟨building, completed, hrun, hbuilds⟩ := ih h.of_append
    obtain ⟨bar, finished, hstep, hbuilds'⟩ := hbuilds.step h
    refine ⟨some bar, completed ++ finished.toList, ?_, hbuilds'⟩
    rw [buildBars] at hrun ⊢
    rw [List.foldlM_append, hrun]
    simp only [bind, Except.bind, List.foldlM, hstep, Except.map, pure, Except.pure]

end Builder

/-! ### The ticks as they are stored -/

/-- The tick as `save_tick` stores it. -/
def MarketTick.canonical (tick : MarketTick) : MarketTick := { tick with timestamp := tick.timestamp.asKst }

theorem saveTick_run_ok {store store' : MarketStore} {tick : MarketTick}
    (h : (saveTick tick).run store = (.ok (), store')) :
    store' = { store with ticks := store.ticks ++ [tick.canonical] } := by
  simp only [saveTick, bindInt, notNull, Exec.run_require_bind, Exec.run_statement] at h
  split_ifs at h <;> simp only [Prod.mk.injEq, reduceCtorEq, false_and] at h
  exact h.2.symm

theorem saveTicks_run_ok {store store' : MarketStore} {ticks : List MarketTick}
    (h : (ticks.forM saveTick).run store = (.ok (), store')) :
    store'.ticks = store.ticks ++ ticks.map MarketTick.canonical := by
  induction ticks generalizing store with
  | nil =>
    rw [← (Prod.mk.inj h).2]
    simp
  | cons tick rest ih =>
    rw [List.forM] at h
    obtain ⟨_, between, htick, hrest⟩ := Exec.run_bind_eq_ok h
    rw [ih hrest, saveTick_run_ok htick]
    simp

/-- A bar as `save_bar` stores it. -/
def MinuteBar.canonical (bar : MinuteBar) : MinuteBar := { bar with start := bar.start.asKst }

theorem canonical_start {tick : MarketTick} (h : ∀ o ∈ tick.timestamp.offset, o % 60 = 0) :
    tick.canonical.start = tick.start.asKst := by
  rcases hoffset : tick.timestamp.offset with _ | o
  · simp [MarketTick.canonical, MarketTick.start, DateTime.asKst, hoffset]
  · have hwhole := h o hoffset
    simp only [MarketTick.canonical, MarketTick.start, DateTime.asKst, hoffset, DateTime.toKst,
      DateTime.instant, Option.getD_some, DateTime.mk.injEq, and_true, DateTime.microsPerSecond,
      DateTime.kstOffset]
    omega

theorem canonical_instant (tick : MarketTick) : tick.canonical.timestamp.instant = tick.timestamp.instant := by
  rcases hoffset : tick.timestamp.offset with _ | o
  · simp [MarketTick.canonical, DateTime.asKst, hoffset]
  · simp [MarketTick.canonical, DateTime.asKst, hoffset, DateTime.toKst, DateTime.instant]

theorem canonical_offset (tick : MarketTick) : tick.canonical.timestamp.offset = none := by
  rcases hoffset : tick.timestamp.offset with _ | o
  · simp [MarketTick.canonical, DateTime.asKst, hoffset]
  · simp [MarketTick.canonical, DateTime.asKst, hoffset]

theorem foldl_canonical (rest : List MarketTick) (bar : MinuteBar) :
    (rest.map MarketTick.canonical).foldl MinuteBar.add bar.canonical = (rest.foldl MinuteBar.add bar).canonical := by
  induction rest generalizing bar with
  | nil => rfl
  | cons tick rest ih => exact ih (bar.add tick)

/-- The bar of the stored ticks is the bar of the ticks, as it is stored. -/
theorem liveBar_canonical {ticks : List MarketTick} (h : ∀ tick ∈ ticks, ∀ o ∈ tick.timestamp.offset, o % 60 = 0) :
    liveBar (ticks.map MarketTick.canonical) = (liveBar ticks).map MinuteBar.canonical := by
  cases ticks with
  | nil => rfl
  | cons first rest =>
    have hfirst : first.canonical.firstBar = first.firstBar.canonical := by
      have hstart := canonical_start (h first List.mem_cons_self)
      simp only [MarketTick.firstBar, MinuteBar.canonical, hstart]
      rfl
    rw [List.map_cons, liveBar, Streaming.summarize, hfirst, foldl_canonical]
    rfl

/-! ### The rows of a minute -/

/-- The stored ticks of a symbol and minute, with their rows. -/
def minuteRows (ticks : List MarketTick) (symbol : String) (start : DateTime) : List TickRow :=
  ((ticks.zipIdx 1).map fun r => (⟨r.1, r.2⟩ : TickRow)).filter fun row =>
    row.tick.symbol = symbol ∧ row.start = start

section Rows

variable {ticks : List MarketTick} {symbol : String} {start : DateTime} {w : Window}

theorem mem_minuteRows {row : TickRow} : row ∈ minuteRows ticks symbol start ↔
    (row.tick, row.firstRowid) ∈ ticks.zipIdx 1 ∧ row.tick.symbol = symbol ∧ row.start = start := by
  rw [minuteRows, List.mem_filter, decide_eq_true_eq, List.mem_map]
  constructor
  · rintro ⟨⟨r, hr, rfl⟩, hkey⟩
    exact ⟨hr, hkey⟩
  · rintro ⟨hr, hkey⟩
    exact ⟨⟨_, hr, rfl⟩, hkey⟩

theorem ticks_of_minuteRows : (minuteRows ticks symbol start).map (·.tick) =
    ticks.filter fun tick => tick.symbol = symbol ∧ minuteStart tick.timestamp.toKst = start := by
  have hticks : ((ticks.zipIdx 1).map fun r => (⟨r.1, r.2⟩ : TickRow)).map (·.tick) = ticks := by
    rw [List.map_map]
    exact List.zipIdx_map_fst 1 ticks
  conv_rhs => rw [← hticks, List.filter_map]
  rfl

theorem ids_of_minuteRows (ticks : List MarketTick) (symbol : String) (start : DateTime) : (minuteRows ticks symbol start).Pairwise fun a b => a.firstRowid < b.firstRowid := by
  refine List.Pairwise.filter _ (List.pairwise_map.mpr ?_)
  have hids : ((ticks.zipIdx 1).map Prod.snd).Pairwise (· < ·) := by
    rw [List.zipIdx_map_snd]
    exact List.pairwise_lt_range'
  exact List.pairwise_map.mp hids

/-- A group has a first row. -/
theorem exists_first {rows : List (MarketTick × Nat)} {tick : MarketTick} {rowid : Nat} (h : (tick, rowid) ∈ rows) :
    ∃ row ∈ groups rows, SameGroup row.tick tick ∧ row.firstRowid ≤ rowid := by
  induction rowid using Nat.strong_induction_on generalizing tick with
  | _ rowid ih =>
    by_cases hfirst : ∀ r' ∈ rows, SameGroup r'.1 tick → rowid ≤ r'.2
    · exact ⟨⟨tick, rowid⟩, mem_groups.mpr ⟨h, hfirst⟩, ⟨rfl, rfl, rfl, rfl⟩, le_rfl⟩
    · push Not at hfirst
      obtain ⟨⟨tick', rowid'⟩, hmem, hsame, hlt⟩ := hfirst
      obtain ⟨row, hrow, hgroup, hle⟩ := ih rowid' hlt hmem
      obtain ⟨hsymbol, htext, hprice, hvolume⟩ := hsame
      obtain ⟨hsymbol', htext', hprice', hvolume'⟩ := hgroup
      exact ⟨row, hrow, ⟨hsymbol'.trans hsymbol, htext'.trans htext, hprice'.trans hprice,
        hvolume'.trans hvolume⟩, hle.trans hlt.le⟩

/-- The minute is inside the window. -/
structure Window.Covers (w : Window) (symbol : String) (start : DateTime) : Prop where
  wanted : Wanted w.selected symbol
  lo : w.lo ≤ start.instant
  ended : w.Ended start

theorem mem_minuteTicks_of_covers (h : w.Covers symbol start) {row : TickRow} :
    row ∈ minuteTicks ticks w symbol start ↔
      row ∈ distinctTicks ticks ∧ row.tick.symbol = symbol ∧ row.start = start := by
  rw [mem_minuteTicks]
  constructor
  · rintro ⟨hdistinct, -, hkey⟩
    exact ⟨hdistinct, hkey⟩
  · rintro ⟨hdistinct, hsymbol, hstart⟩
    have hlt := instant_lt_of_start row
    have hge : row.start.instant ≤ row.tick.timestamp.instant := start_le_instant row
    rw [hstart] at hlt hge
    exact ⟨hdistinct, ⟨hsymbol ▸ h.wanted, h.lo.trans hge, hlt.le.trans h.ended⟩, hsymbol, hstart⟩

theorem minuteTicks_subset {row : TickRow} (h : row ∈ minuteTicks ticks w symbol start) :
    row ∈ minuteRows ticks symbol start := by
  obtain ⟨hdistinct, -, hkey⟩ := mem_minuteTicks.mp h
  exact mem_minuteRows.mpr ⟨(mem_groups.mp hdistinct).1, hkey⟩

/-- In a group the texts of the timestamps, and with them the times, are the same. -/
theorem timestamp_of_sameGroup {a b : MarketTick} (h : SameGroup a b) (ha : a.timestamp.offset = none)
    (hb : b.timestamp.offset = none) (harange : a.timestamp.InRange) (hbrange : b.timestamp.InRange) :
    a.timestamp = b.timestamp := by
  have hle := (DateTime.isoformat_le_iff harange hbrange ha (.inl hb)).mp h.2.1.le
  have hge := (DateTime.isoformat_le_iff hbrange harange hb (.inl ha)).mp h.2.1.ge
  calc a.timestamp = ⟨a.timestamp.wall, none⟩ := by rw [← ha]
    _ = ⟨b.timestamp.wall, none⟩ := by rw [le_antisymm hle hge]
    _ = b.timestamp := by rw [← hb]

section Naive

variable (hnaive : ∀ tick ∈ ticks, tick.symbol = symbol → tick.timestamp.offset = none ∧ tick.timestamp.InRange)
include hnaive

theorem timestamp_of_mem {a b : MarketTick} (h : SameGroup a b) (ha : a ∈ ticks) (hb : b ∈ ticks)
    (hsymbol : a.symbol = symbol) : a.timestamp = b.timestamp := by
  have hna := hnaive a ha hsymbol
  have hnb := hnaive b hb (h.1.symm.trans hsymbol)
  exact timestamp_of_sameGroup h hna.1 hnb.1 hna.2 hnb.2

/-- Every row of a minute has a distinct tick with its price that is not after it. -/
theorem exists_minuteTick (hw : w.Covers symbol start) {row : TickRow} (h : row ∈ minuteRows ticks symbol start) :
    ∃ d ∈ minuteTicks ticks w symbol start, d.order ≤ row.order ∧ d.tick.price = row.tick.price := by
  obtain ⟨hmem, hsymbol, hstart⟩ := mem_minuteRows.mp h
  obtain ⟨d, hd, hsame, hle⟩ := exists_first hmem
  have hdmem := tick_mem_of_distinct hd
  have hdsymbol : d.tick.symbol = symbol := hsame.1.trans hsymbol
  have htime := timestamp_of_mem hnaive hsame hdmem (List.fst_mem_of_mem_zipIdx hmem) hdsymbol
  refine ⟨d, (mem_minuteTicks_of_covers hw).mpr ⟨hd, hdsymbol, ?_⟩, ?_, hsame.2.2.1⟩
  · rw [← hstart, TickRow.start, TickRow.start, htime]
  · rw [TickRow.order, TickRow.order, Prod.Lex.toLex_le_toLex, htime]
    exact .inr ⟨rfl, hle⟩

/-- All rows are distinct ticks if no two of them look the same. -/
theorem minuteRows_subset (hw : w.Covers symbol start)
    (hunlike : (minuteRows ticks symbol start).Pairwise fun a b => ¬ SameGroup a.tick b.tick) :
    ∀ row ∈ minuteRows ticks symbol start, row ∈ minuteTicks ticks w symbol start := by
  intro row hrow
  obtain ⟨hmem, hsymbol, hstart⟩ := mem_minuteRows.mp hrow
  refine (mem_minuteTicks_of_covers hw).mpr ⟨mem_groups.mpr ⟨hmem, ?_⟩, hsymbol, hstart⟩
  rintro ⟨tick, rowid⟩ hother hsame
  have hrow' : (⟨tick, rowid⟩ : TickRow) ∈ minuteRows ticks symbol start := by
    have htime := timestamp_of_mem hnaive hsame (List.fst_mem_of_mem_zipIdx hother)
      (List.fst_mem_of_mem_zipIdx hmem) (hsame.1.trans hsymbol)
    refine mem_minuteRows.mpr ⟨hother, hsame.1.trans hsymbol, ?_⟩
    rw [← hstart, TickRow.start, TickRow.start, htime]
  by_contra hlt
  have hne : (⟨tick, rowid⟩ : TickRow) ≠ row := by
    rintro rfl
    exact hlt le_rfl
  -- rows come with their ids in order, so the other row is before this one
  obtain ⟨front, back, hsplit⟩ := List.append_of_mem hrow
  have hids := ids_of_minuteRows ticks symbol start
  rw [hsplit] at hids hrow' hunlike
  rcases List.mem_append.mp hrow' with hfront | hback
  · exact (List.pairwise_append.mp hunlike).2.2 _ hfront row List.mem_cons_self hsame
  · rcases List.mem_cons.mp hback with heq | hback
    · exact hne heq
    · have hafter := (List.pairwise_cons.mp (List.pairwise_append.mp hids).2.1).1 _ hback
      exact hlt hafter.le

end Naive

theorem ids_of_minuteTicks (ticks : List MarketTick) (w : Window) (symbol : String) (start : DateTime) :
    (minuteTicks ticks w symbol start).Pairwise fun a b => a.firstRowid < b.firstRowid := by
  refine List.Pairwise.filter _ (List.pairwise_map.mpr (List.Pairwise.filter _ ?_))
  have hids : ((ticks.zipIdx 1).map Prod.snd).Pairwise (· < ·) := by
    rw [List.zipIdx_map_snd]
    exact List.pairwise_lt_range'
  exact List.pairwise_map.mp hids

theorem nodup_of_ids {rows : List TickRow} (h : rows.Pairwise fun a b => a.firstRowid < b.firstRowid) :
    rows.Nodup := by
  refine h.imp ?_
  rintro a b hlt rfl
  exact lt_irrefl _ hlt

end Rows

/-! ### The bar of the rows -/

section Figures

variable {rows : List TickRow} {bar bar' : MinuteBar}

/-- On rows in order an aggregate grows like a bar. -/
theorem aggregate_of_live (hprices : ∀ row ∈ rows, row.tick.price ≠ .nan)
    (hordered : rows.Pairwise fun a b => a.order < b.order) (h : liveBar (rows.map (·.tick)) = some bar) :
    ∃ a, Streaming.summarize .single MinuteAggregate.add rows = some a ∧
      { a.bar with symbol := bar.symbol, start := bar.start } = bar := by
  induction rows using List.reverseRecOn generalizing bar with
  | nil => cases h
  | append_singleton rows row ih =>
    obtain ⟨hrows, -, hlast⟩ := List.pairwise_append.mp hordered
    rw [List.map_append, List.map_singleton, liveBar, Streaming.summarize_append] at h
    rw [Streaming.summarize_append]
    rcases hlive : Streaming.summarize MarketTick.firstBar MinuteBar.add (rows.map (·.tick)) with _ | before
    · rw [hlive] at h
      cases h
      have hnil : rows = [] := by
        cases rows with
        | nil => rfl
        | cons first rest => cases hlive
      subst hnil
      exact ⟨_, rfl, rfl⟩
    · rw [hlive] at h
      cases h
      have hprices' : ∀ r ∈ rows, r.tick.price ≠ .nan := fun r hr => hprices r (List.mem_append_left _ hr)
      obtain ⟨a, ha, hfigures⟩ := ih hprices' hrows hlive
      obtain ⟨⟨first, hfirst, -, hfirstOrder, -⟩, ⟨last, hlastMem, -, hlastOrder, -⟩, -⟩ :=
        summarizes_summarize hprices' ha
      have hfront : ¬ row.order < a.firstOrder := by
        rw [hfirstOrder]
        exact (hlast first hfirst row (List.mem_singleton_self row)).not_gt
      have hback : a.lastOrder < row.order := by
        rw [hlastOrder]
        exact hlast last hlastMem row (List.mem_singleton_self row)
      refine ⟨a.add row, by rw [ha]; rfl, ?_⟩
      rw [← hfigures]
      simp only [Option.elim_some, MinuteAggregate.add, MinuteAggregate.bar, MinuteBar.add, if_neg hfront,
        if_pos hback]

theorem isBarOf_live (hprices : ∀ row ∈ rows, row.tick.price ≠ .nan)
    (hordered : rows.Pairwise fun a b => a.order < b.order) (h : liveBar (rows.map (·.tick)) = some bar) :
    IsBarOf rows bar := by
  obtain ⟨a, ha, hfigures⟩ := aggregate_of_live hprices hordered h
  obtain ⟨hfirst, hlast, hhigh, hhighGe, hlow, hlowLe, hvolume⟩ := (summarizes_summarize hprices ha).isBarOf
  rw [← hfigures]
  exact ⟨hfirst, hlast, hhigh, hhighGe, hlow, hlowLe, hvolume⟩

/-- Fewer rows with the same prices, the first of each kept, have the same open, high and low. -/
theorem IsBarOf.open_high_low {kept : List TickRow} (hdistinct : Distinct rows)
    (hsubset : ∀ row ∈ kept, row ∈ rows)
    (hrep : ∀ row ∈ rows, ∃ d ∈ kept, d.order ≤ row.order ∧ d.tick.price = row.tick.price)
    (h : IsBarOf rows bar) (h' : IsBarOf kept bar') :
    bar'.openPrice = bar.openPrice ∧ bar'.high = bar.high ∧ bar'.low = bar.low := by
  obtain ⟨first, hfirst, hopen, hleast⟩ := h.first
  obtain ⟨first', hfirst', hopen', hleast'⟩ := h'.first
  obtain ⟨top, htop, hhigh⟩ := h.high
  obtain ⟨top', htop', hhigh'⟩ := h'.high
  obtain ⟨bottom, hbottom, hlow⟩ := h.low
  obtain ⟨bottom', hbottom', hlow'⟩ := h'.low
  refine ⟨?_, ?_, ?_⟩
  · obtain ⟨d, hd, hle, -⟩ := hrep first hfirst
    have heq : first' = first := hdistinct.order first' (hsubset first' hfirst') first hfirst
      (le_antisymm ((hleast' d hd).trans hle) (hleast first' (hsubset first' hfirst')))
    rw [hopen, hopen', heq]
  · obtain ⟨d, hd, -, hprice⟩ := hrep top htop
    have hge := h'.high_ge d hd
    have hle := h.high_ge top' (hsubset top' htop')
    rw [hprice, hhigh'] at hge
    rw [hhigh] at hle
    rw [hhigh, hhigh']
    exact PyFloat.rank_injective (hdistinct.price top' (hsubset top' htop')) (hdistinct.price top htop)
      (le_antisymm hle hge)
  · obtain ⟨d, hd, -, hprice⟩ := hrep bottom hbottom
    have hle := h'.low_le d hd
    have hge := h.low_le bottom' (hsubset bottom' hbottom')
    rw [hprice, hlow'] at hle
    rw [hlow] at hge
    rw [hlow, hlow']
    exact PyFloat.rank_injective (hdistinct.price bottom' (hsubset bottom' hbottom'))
      (hdistinct.price bottom hbottom) (le_antisymm hle hge)

end Figures

/-! ### The two bars of a minute -/

/-- No two ticks have the same time, price and volume. -/
def Unlike (ticks : List MarketTick) : Prop :=
  ticks.Pairwise fun a b => ¬ (a.timestamp.instant = b.timestamp.instant ∧ a.price = b.price ∧ a.volume = b.volume)

section Agreement

variable {symbol : String} {stream ticks : List MarketTick}

/-- The rows of a minute of the stream are its ticks, as they are stored. -/
theorem rows_of_stream (hstream : Chronological symbol stream)
    (hsaved : (ticks.filter fun tick => tick.symbol = symbol) = stream.map MarketTick.canonical)
    {first : MarketTick} (hfirst : first ∈ stream) :
    (minuteRows ticks symbol (minuteStart first.canonical.timestamp.toKst)).map (·.tick) =
      (minuteOf stream first.minute).map MarketTick.canonical := by
  have hfilter : (ticks.filter fun tick => tick.symbol = symbol ∧
      minuteStart tick.timestamp.toKst = minuteStart first.canonical.timestamp.toKst) =
      (ticks.filter fun tick => tick.symbol = symbol).filter fun tick =>
        minuteStart tick.timestamp.toKst = minuteStart first.canonical.timestamp.toKst := by
    rw [List.filter_filter]
    exact List.filter_congr fun tick _ => by rw [Bool.and_comm, Bool.decide_and]
  rw [ticks_of_minuteRows, hfilter, hsaved, List.filter_map, minuteOf]
  congr 1
  refine List.filter_congr fun tick htick => ?_
  rw [Function.comp, decide_eq_decide, minute_eq (hstream.minutes tick htick),
    minute_eq (hstream.minutes first hfirst)]
  simp only [minuteStart, DateTime.toKst, canonical_instant, DateTime.mk.injEq, and_true]
  omega

theorem ordered_rows (hstream : Chronological symbol stream) {minute : Int} {start : DateTime}
    (hrows : (minuteRows ticks symbol start).map (·.tick) = (minuteOf stream minute).map MarketTick.canonical) :
    (minuteRows ticks symbol start).Pairwise fun a b => a.order < b.order := by
  have htimes : ((minuteRows ticks symbol start).map (·.tick)).Pairwise
      fun a b => a.timestamp.instant ≤ b.timestamp.instant := by
    rw [hrows, List.pairwise_map]
    refine (hstream.ordered.filter _).imp ?_
    intro a b hle
    rw [canonical_instant, canonical_instant]
    exact hle
  refine ((List.pairwise_map.mp htimes).and (ids_of_minuteRows ticks symbol start)).imp ?_
  rintro a b ⟨htime, hid⟩
  rw [TickRow.order, TickRow.order, Prod.Lex.toLex_lt_toLex]
  rcases htime.lt_or_eq with hlt | heq
  · exact .inl hlt
  · exact .inr ⟨heq, hid⟩

theorem distinct_minuteRows (hticks : ∀ tick ∈ ticks, Stored tick) (symbol : String) (start : DateTime) :
    Distinct (minuteRows ticks symbol start) where
  price _ hrow := (hticks _ (List.fst_mem_of_mem_zipIdx (mem_minuteRows.mp hrow).1)).price
  order _ hrow _ hrow' := eq_of_order (mem_minuteRows.mp hrow).1 (mem_minuteRows.mp hrow').1

/-- The minute of a bar, as the loop over the stored ticks sees it. -/
theorem minute_of_bar (hstream : Chronological symbol stream)
    (hsaved : (ticks.filter fun tick => tick.symbol = symbol) = stream.map MarketTick.canonical)
    {bar : MinuteBar} (hlive : liveBar (minuteOf stream bar.start.instant) = some bar) :
    bar.symbol = symbol ∧ ∃ start : DateTime, start.asKst = bar.start.asKst ∧ start.instant = bar.start.instant ∧
      (minuteRows ticks symbol start).map (·.tick) =
        (minuteOf stream bar.start.instant).map MarketTick.canonical := by
  obtain ⟨first, hfirst, hsymbol, hstart⟩ := liveBar_start hlive
  obtain ⟨hmem, -⟩ := List.mem_filter.mp hfirst
  have hminute : first.minute = bar.start.instant := by
    rw [hstart]
    rfl
  have hrows := rows_of_stream hstream hsaved hmem
  rw [hminute] at hrows
  refine ⟨hsymbol.trans (hstream.symbol_eq first hmem), _, ?_, ?_, hrows⟩
  · rw [hstart, ← canonical_start (hstream.minutes first hmem)]
    simp only [minuteStart, DateTime.asKst, MarketTick.start, canonical_offset, DateTime.toKst,
      DateTime.instant, Option.getD_some, Option.getD_none, sub_add_cancel, minuteMicros]
  · have hcanonical := canonical_instant first
    rw [← hminute, minute_eq (hstream.minutes first hmem), ← hcanonical]
    simp only [minuteStart, DateTime.toKst, hcanonical]
    simp only [DateTime.instant, Option.getD_some]
    omega

/-- The bar of the stored ticks of a minute, beside the bar of the stream. -/
theorem agree_of_window (hticks : ∀ tick ∈ ticks, Stored tick) (hstream : Chronological symbol stream)
    (hsaved : (ticks.filter fun tick => tick.symbol = symbol) = stream.map MarketTick.canonical)
    {bar : MinuteBar} (hlive : liveBar (minuteOf stream bar.start.instant) = some bar) {w : Window}
    {bars : List MinuteBar} (hbars : BarsOfWindow ticks w bars) (hcovers : w.Covers symbol bar.start) :
    ∃ bar' ∈ bars, bar'.symbol = bar.symbol ∧ bar'.start.asKst = bar.start.asKst ∧
      bar'.openPrice = bar.openPrice ∧ bar'.high = bar.high ∧ bar'.low = bar.low ∧
      (Unlike (minuteOf stream bar.start.instant) → bar'.canonical = bar.canonical) := by
  obtain ⟨hsymbol, start, hkst, hinstant, hrows⟩ := minute_of_bar hstream hsaved hlive
  have hended : w.Ended start := by
    rw [Window.Ended, hinstant]
    exact hcovers.ended
  have hw : w.Covers symbol start := ⟨hcovers.wanted, hinstant ▸ hcovers.lo, hended⟩
  have hnaive : ∀ tick ∈ ticks, tick.symbol = symbol →
      tick.timestamp.offset = none ∧ tick.timestamp.InRange := by
    intro tick htick hname
    have hin : tick ∈ stream.map MarketTick.canonical :=
      hsaved ▸ List.mem_filter.mpr ⟨htick, decide_eq_true hname⟩
    obtain ⟨arrived, -, rfl⟩ := List.mem_map.mp hin
    exact ⟨canonical_offset arrived, (hticks _ htick).inRange⟩
  have hwhole : ∀ tick ∈ minuteOf stream bar.start.instant, ∀ o ∈ tick.timestamp.offset, o % 60 = 0 :=
    fun tick htick => hstream.minutes tick (List.mem_filter.mp htick).1
  have hlive' : liveBar ((minuteRows ticks symbol start).map (·.tick)) = some bar.canonical := by
    rw [hrows, liveBar_canonical hwhole, hlive]
    rfl
  have hdistinct := distinct_minuteRows hticks symbol start
  have hfigures := isBarOf_live hdistinct.price (ordered_rows hstream hrows) hlive'
  obtain ⟨first, hfirst, -⟩ := hfigures.first
  obtain ⟨d, hd, -⟩ := exists_minuteTick hnaive hw hfirst
  obtain ⟨bar', hbar', hsymbol', hstart'⟩ := hbars.complete symbol start hended (List.ne_nil_of_mem hd)
  have hfigures' := (hbars.sound bar' hbar').2
  rw [hsymbol', hstart'] at hfigures'
  have hshared := hfigures.open_high_low hdistinct (fun row => minuteTicks_subset)
    (fun row hrow => exists_minuteTick hnaive hw hrow) hfigures'
  refine ⟨bar', hbar', hsymbol'.trans hsymbol.symm, by rw [hstart', hkst], hshared.1, hshared.2.1, hshared.2.2,
    fun hunlike => ?_⟩
  have hrowsUnlike : (minuteRows ticks symbol start).Pairwise fun a b => ¬ SameGroup a.tick b.tick := by
    have hpairs : ((minuteRows ticks symbol start).map (·.tick)).Pairwise fun a b =>
        ¬ (a.timestamp.instant = b.timestamp.instant ∧ a.price = b.price ∧ a.volume = b.volume) := by
      rw [hrows, List.pairwise_map]
      refine hunlike.imp ?_
      intro a b hne
      rw [canonical_instant, canonical_instant]
      exact hne
    refine (List.pairwise_map.mp hpairs).imp_of_mem ?_
    intro a b ha hb hne hsame
    have htime := timestamp_of_mem hnaive hsame (List.fst_mem_of_mem_zipIdx (mem_minuteRows.mp ha).1)
      (List.fst_mem_of_mem_zipIdx (mem_minuteRows.mp hb).1) (mem_minuteRows.mp ha).2.1
    exact hne ⟨by rw [htime], hsame.2.2.1, hsame.2.2.2⟩
  have hperm : (minuteTicks ticks w symbol start).Perm (minuteRows ticks symbol start) :=
    (List.perm_ext_iff_of_nodup (nodup_of_ids (ids_of_minuteTicks ticks w symbol start))
      (nodup_of_ids (ids_of_minuteRows ticks symbol start))).mpr fun row =>
      ⟨minuteTicks_subset, minuteRows_subset hnaive hw hrowsUnlike row⟩
  have hstored : IsBarOf (minuteRows ticks symbol start) bar'.canonical :=
    let h := hfigures'.perm hperm
    ⟨h.first, h.last, h.high, h.high_ge, h.low, h.low_le, h.volume⟩
  refine hstored.unique hdistinct hfigures (hsymbol'.trans hsymbol.symm) ?_
  rw [MinuteBar.canonical, MinuteBar.canonical, hstart', hkst]

end Agreement

/-- **The bar a builder completes and the bar made from the stored ticks have the same open,
    high and low, and are the same if no two ticks of the minute look the same.** -/
theorem live_and_stored_agree {symbol : String} {arrivals : List MarketTick} {store₀ store : MarketStore}
    (hfresh : ∀ tick ∈ store₀.ticks, tick.symbol ≠ symbol)
    (hsave : (arrivals.forM saveTick).run store₀ = (.ok (), store))
    (hticks : ∀ tick ∈ store.ticks, Stored tick)
    (hstream : Chronological symbol (arrivals.filter fun tick => tick.symbol = symbol)) :
    ∃ building completed,
      buildBars (arrivals.filter fun tick => tick.symbol = symbol) = .ok (building, completed) ∧
      ∀ bar ∈ completed, ∀ (arrange : List TickRow → List TickRow) (symbols : Option (List String))
        (asOf : Option DateTime) (now : DateTime) (batchSize lookback : Int) (bars : List MinuteBar)
        (store' : MarketStore), (∀ rows, (arrange rows).Perm rows) →
        (materializeCompletedBars arrange symbols asOf now batchSize lookback).run store = (.ok bars, store') →
        (windowOf symbols (asOf.getD now) lookback).Covers symbol bar.start →
        ∃ bar' ∈ bars, bar'.symbol = bar.symbol ∧ bar'.start.asKst = bar.start.asKst ∧
          bar'.openPrice = bar.openPrice ∧ bar'.high = bar.high ∧ bar'.low = bar.low ∧
          (Unlike (minuteOf (arrivals.filter fun tick => tick.symbol = symbol) bar.start.instant) →
            bar'.canonical = bar.canonical) := by
  obtain ⟨building, completed, hbuild, hbuilds⟩ := buildBars_builds hstream
  refine ⟨building, completed, hbuild, fun bar hbar arrange symbols asOf now batchSize lookback bars store'
    harrange hrun hcovers => ?_⟩
  have hsaved : (store.ticks.filter fun tick => tick.symbol = symbol) =
      (arrivals.filter fun tick => tick.symbol = symbol).map MarketTick.canonical := by
    rw [saveTicks_run_ok hsave, List.filter_append, List.filter_eq_nil_iff.mpr (by simpa using hfresh),
      List.nil_append, List.filter_map]
    rfl
  obtain ⟨hbars, -⟩ := materialize_run_ok hrun
  exact agree_of_window hticks hstream hsaved (hbuilds.done bar hbar).1
    (completedBars_ok harrange hticks hbars) hcovers

/-! ### Two trades in one second -/

namespace EqualTrades

/-- Two equal trades in one second, and a trade of the next minute. -/
def arrivals : List MarketTick :=
  [⟨"005930", .combine 20635 9 0 5 none, .fin 100, 3⟩, ⟨"005930", .combine 20635 9 0 5 none, .fin 100, 3⟩,
    ⟨"005930", .combine 20635 9 1 0 none, .fin 101, 1⟩]

def store : MarketStore := ((arrivals.forM saveTick).run ⟨[], .empty⟩).2

def minuteBar (start : DateTime) (volume : Int) : MinuteBar :=
  ⟨"005930", start, .fin 100, .fin 100, .fin 100, .fin 100, volume⟩

/-- The builder counts both trades, the stored bar counts one. -/
theorem builder_counts_both :
    (buildBars arrivals).map Prod.snd = .ok [minuteBar (.combine 20635 9 0 0 none) 6] ∧
    completedBars id store.ticks none (some (.combine 20635 9 1 0 (some DateTime.kstOffset)))
      (.combine 20635 9 1 0 none) 1000 360 =
      .ok [minuteBar (.combine 20635 9 0 0 (some DateTime.kstOffset)) 3] :=
  ⟨Except.eq_ok_of_toOption (by decide +kernel), Except.eq_ok_of_toOption (by decide +kernel)⟩

theorem store_ticks : store.ticks = arrivals := by decide +kernel

theorem stored : ∀ tick ∈ store.ticks, Stored tick := by
  rw [store_ticks]
  intro tick htick
  simp only [arrivals, List.mem_cons, List.not_mem_nil, or_false] at htick
  rcases htick with rfl | rfl | rfl <;> exact ⟨by decide, by decide, by decide, by decide⟩

theorem agree : ∃ building completed,
    buildBars (arrivals.filter fun tick => tick.symbol = "005930") = .ok (building, completed) ∧
    ∀ bar ∈ completed, ∀ (arrange : List TickRow → List TickRow) (symbols : Option (List String))
      (asOf : Option DateTime) (now : DateTime) (batchSize lookback : Int) (bars : List MinuteBar)
      (store' : MarketStore), (∀ rows, (arrange rows).Perm rows) →
      (materializeCompletedBars arrange symbols asOf now batchSize lookback).run store = (.ok bars, store') →
      (windowOf symbols (asOf.getD now) lookback).Covers "005930" bar.start →
      ∃ bar' ∈ bars, bar'.symbol = bar.symbol ∧ bar'.start.asKst = bar.start.asKst ∧
        bar'.openPrice = bar.openPrice ∧ bar'.high = bar.high ∧ bar'.low = bar.low ∧
        (Unlike (minuteOf (arrivals.filter fun tick => tick.symbol = "005930") bar.start.instant) →
          bar'.canonical = bar.canonical) :=
  @live_and_stored_agree "005930" arrivals ⟨[], .empty⟩ store (by simp) (Prod.ext rfl rfl) stored
    ⟨by decide, by decide, by decide, by decide⟩

end EqualTrades

end AutoTrader.Market
