/-
  AutoTrader/Market/ConservedBars.lean
  ====================================
  **A bar builder conserves its stream.**

  `update` hands a bar out one tick late and `flush` hands out the last one.  The ticks
  that were taken fall into groups, one for each minute; the bars returned and the bar
  that is being built are those of the groups (`Conserves`), whatever gaps the stream has
  and however many late ticks were refused in between.
-/
import AutoTrader.Lib.Grouping
import AutoTrader.Market.LiveBars

namespace AutoTrader.Market

open Streaming

/-! ### A builder in use -/

/-- `MinuteBarBuilder.flush`: the bar it returns, and the bar that is being built afterwards. -/
def flush (building : Option MinuteBar) : Option MinuteBar × Option MinuteBar := (building, none)

/-- The bar being built, the bars `update` returned and the ticks it took. -/
structure Building where
  building : Option MinuteBar
  returned : List MinuteBar
  accepted : List MarketTick

namespace Building

def fresh : Building := ⟨none, [], []⟩

/-- One call of `update`; a call that raises leaves the builder as it is. -/
def update (b : Building) (tick : MarketTick) : Building :=
  match updateBuilder b.building tick with
  | .ok (bar, completed) => ⟨some bar, b.returned ++ completed.toList, b.accepted ++ [tick]⟩
  | .error _ => b

def feed (ticks : List MarketTick) : Building := ticks.foldl update fresh

/-- The bars of the calls and of the `flush` after them. -/
def bars (b : Building) : List MinuteBar := b.returned ++ (flush b.building).1.toList

end Building

/-- The instant the minute of a tick begins. -/
def MarketTick.opens (tick : MarketTick) : Int := tick.start.utcInstant

/-! ### The figures of a minute -/

/-- The bar of some ticks that come one after another. -/
structure MinuteFigures (ticks : List MarketTick) (bar : MinuteBar) : Prop where
  openPrice : (ticks.head?).map (·.price) = some bar.openPrice
  close : (ticks.getLast?).map (·.price) = some bar.close
  high : bar.high ∈ ticks.map (·.price)
  low : bar.low ∈ ticks.map (·.price)
  volume : bar.volume = (ticks.map (·.volume)).sum
  extremes : (∀ tick ∈ ticks, tick.price ≠ .nan) →
    ∀ tick ∈ ticks, bar.low.rank ≤ tick.price.rank ∧ tick.price.rank ≤ bar.high.rank

/-- The figures of a bar lie between its low and its high. -/
structure MinuteBar.Ordered (bar : MinuteBar) : Prop where
  open_low : bar.low.le bar.openPrice = true
  open_high : bar.openPrice.le bar.high = true
  close_low : bar.low.le bar.close = true
  close_high : bar.close.le bar.high = true

theorem le_of_rank {a b : PyFloat} (ha : a ≠ .nan) (hb : b ≠ .nan) (h : a.rank ≤ b.rank) :
    a.le b = true := by
  have hlt : b.lt a = false := by
    rw [Bool.eq_false_iff]
    exact fun hlt => h.not_gt ((PyFloat.lt_iff_rank hb ha).mp hlt)
  cases a <;> cases b <;> simp_all [PyFloat.le]

/-- Numbers as prices put a bar in order. -/
theorem MinuteFigures.ordered {ticks : List MarketTick} {bar : MinuteBar} (h : MinuteFigures ticks bar)
    (hprices : ∀ tick ∈ ticks, tick.price ≠ .nan) : bar.Ordered := by
  have hmember : ∀ price ∈ ticks.map (·.price), price ≠ .nan ∧
      bar.low.rank ≤ price.rank ∧ price.rank ≤ bar.high.rank := by
    intro price hprice
    obtain ⟨tick, htick, rfl⟩ := List.mem_map.mp hprice
    exact ⟨hprices tick htick, h.extremes hprices tick htick⟩
  obtain ⟨first, hfirst, hopen⟩ := Option.map_eq_some_iff.mp h.openPrice
  obtain ⟨last, hlast, hclose⟩ := Option.map_eq_some_iff.mp h.close
  have hfirst' := hmember _ (List.mem_map_of_mem (List.mem_of_mem_head? hfirst))
  have hlast' := hmember _ (List.mem_map_of_mem (List.mem_of_mem_getLast? hlast))
  obtain ⟨hhigh, -⟩ := hmember _ h.high
  obtain ⟨hlow, -⟩ := hmember _ h.low
  rw [hopen] at hfirst'
  rw [hclose] at hlast'
  exact ⟨le_of_rank hlow hfirst'.1 hfirst'.2.1, le_of_rank hfirst'.1 hhigh hfirst'.2.2,
    le_of_rank hlow hlast'.1 hlast'.2.1, le_of_rank hlast'.1 hhigh hlast'.2.2⟩

theorem figures_first (tick : MarketTick) : MinuteFigures [tick] tick.firstBar where
  openPrice := rfl
  close := rfl
  high := List.mem_singleton_self _
  low := List.mem_singleton_self _
  volume := by simp [MarketTick.firstBar]
  extremes := by
    intro _ t ht
    rw [List.mem_singleton.mp ht]
    exact ⟨le_rfl, le_rfl⟩

theorem MinuteFigures.add {ticks : List MarketTick} {bar : MinuteBar} (h : MinuteFigures ticks bar)
    (tick : MarketTick) : MinuteFigures (ticks ++ [tick]) (bar.add tick) where
  openPrice := by
    obtain ⟨first, hfirst, hopen⟩ := Option.map_eq_some_iff.mp h.openPrice
    rw [List.head?_append, hfirst]
    exact congrArg some hopen
  close := by
    rw [List.getLast?_append]
    rfl
  high := by
    rw [List.map_append, List.mem_append]
    rcases maxPrice_cases bar.high tick.price with heq | heq
    · exact .inl (by rw [MinuteBar.add, heq]; exact h.high)
    · exact .inr (by rw [MinuteBar.add, heq]; exact List.mem_singleton_self _)
  low := by
    rw [List.map_append, List.mem_append]
    rcases minPrice_cases bar.low tick.price with heq | heq
    · exact .inl (by rw [MinuteBar.add, heq]; exact h.low)
    · exact .inr (by rw [MinuteBar.add, heq]; exact List.mem_singleton_self _)
  volume := by
    rw [List.map_append, List.sum_append, ← h.volume]
    simp [MinuteBar.add]
  extremes := by
    intro hprices
    have hbefore : ∀ t ∈ ticks, t.price ≠ .nan := fun t ht => hprices t (List.mem_append_left _ ht)
    have hown : tick.price ≠ .nan := hprices tick (List.mem_append_right _ (List.mem_singleton_self _))
    have hextreme : ∀ price ∈ ticks.map (·.price), price ≠ .nan := by
      intro price hprice
      obtain ⟨t, ht, rfl⟩ := List.mem_map.mp hprice
      exact hbefore t ht
    have hmax := rank_le_maxPrice (hextreme _ h.high) hown
    have hmin := minPrice_le_rank (hextreme _ h.low) hown
    intro t ht
    rcases List.mem_append.mp ht with ht | ht
    · obtain ⟨hlow, hhigh⟩ := h.extremes hbefore t ht
      exact ⟨hmin.1.trans hlow, hhigh.trans hmax.1⟩
    · rw [List.mem_singleton.mp ht]
      exact ⟨hmin.2, hmax.2⟩

theorem figures_of_liveBar {ticks : List MarketTick} {bar : MinuteBar} (h : liveBar ticks = some bar) :
    MinuteFigures ticks bar := by
  induction ticks using List.reverseRecOn generalizing bar with
  | nil => cases h
  | append_singleton ticks tick ih =>
    rw [liveBar, summarize_append] at h
    rcases hbefore : summarize MarketTick.firstBar MinuteBar.add ticks with _ | before
    · rw [hbefore] at h
      have hnil : ticks = [] := by
        cases ticks with
        | nil => rfl
        | cons first rest => cases hbefore
      subst hnil
      obtain rfl := Option.some.inj h
      exact figures_first tick
    · rw [hbefore] at h
      obtain rfl := Option.some.inj h
      exact (ih hbefore).add tick

/-! ### The bars of a stream -/

/-- The bars returned and the bar being built are those of the groups of the ticks. -/
def Building.Conserves (b : Building) : Prop :=
  match b.building with
  | none => b = .fresh
  | some current => ∃ done last, Grouped MarketTick.opens (done ++ [(current.start.utcInstant, last)]) b.accepted ∧
      liveBar last = some current ∧ done.map (fun group => liveBar group.2) = b.returned.map some

/-- The ticks that were taken are of one symbol and of one kind of time. -/
structure Uniform (symbol : String) (ticks : List MarketTick) : Prop where
  symbol_eq : ∀ tick ∈ ticks, tick.symbol = symbol
  aware : ∀ a ∈ ticks, ∀ b ∈ ticks, a.timestamp.offset.isSome = b.timestamp.offset.isSome

section Step

variable {symbol : String} {b : Building} {tick : MarketTick} {current : MinuteBar}

/-- The bar that is being built is that of ticks that were taken. -/
theorem current_of_conserves (h : b.Conserves) (hcurrent : b.building = some current) :
    ∃ first ∈ b.accepted, current.symbol = first.symbol ∧ current.start = first.start := by
  rw [Building.Conserves, hcurrent] at h
  obtain ⟨done, last, hgroups, hlast, -⟩ := h
  obtain ⟨first, hfirst, hsymbol, hstart⟩ := liveBar_start hlast
  refine ⟨first, ?_, hsymbol, hstart⟩
  rw [← hgroups.rows_eq, List.flatMap_append]
  exact List.mem_append_right _ (by simpa using hfirst)

/-- What a call of `update` does with a tick of the symbol. -/
theorem update_cases (h : b.Conserves) (hticks : Uniform symbol b.accepted) (hsymbol : tick.symbol = symbol) :
    (∃ e, updateBuilder b.building tick = .error e ∧ b.update tick = b) ∨
    (b.building = none ∧ b.update tick = ⟨some tick.firstBar, [], [tick]⟩) ∨
    (∃ current, b.building = some current ∧ tick.start.offset.isSome = current.start.offset.isSome ∧
      ((tick.opens = current.start.utcInstant ∧
          b.update tick = ⟨some (current.add tick), b.returned, b.accepted ++ [tick]⟩) ∨
        (current.start.utcInstant < tick.opens ∧
          b.update tick = ⟨some tick.firstBar, b.returned ++ [current], b.accepted ++ [tick]⟩))) := by
  unfold Building.update
  cases hcurrent : b.building with
  | none =>
    rw [Building.Conserves, hcurrent] at h
    subst h
    exact .inr (.inl ⟨rfl, rfl⟩)
  | some current =>
    obtain ⟨first, hfirst, hsame, -⟩ := current_of_conserves h hcurrent
    have hown : tick.symbol = current.symbol := by rw [hsame, hticks.symbol_eq first hfirst, hsymbol]
    by_cases haware : tick.start.offset.isSome = current.start.offset.isSome
    · simp only [updateBuilder, hown, ne_eq, not_true_eq_false, if_false, before, if_pos haware, Bind.bind,
        Except.bind, decide_eq_true_eq]
      by_cases hlate : tick.start.utcInstant < current.start.utcInstant
      · exact .inl ⟨_, if_pos hlate, by rw [if_pos hlate]⟩
      · refine .inr (.inr ⟨current, rfl, haware, ?_⟩)
        rw [if_neg hlate]
        by_cases hsame : tick.start.utcInstant = current.start.utcInstant
        · refine .inl ⟨hsame, ?_⟩
          rw [if_pos hsame]
          simp only [Option.toList_none, List.append_nil]
        · refine .inr ⟨lt_of_le_of_ne (not_lt.mp hlate) (Ne.symm hsame), ?_⟩
          rw [if_neg hsame]
          rfl
    · have hraised : updateBuilder (some current) tick =
          .error (.typeError "can't compare offset-naive and offset-aware datetimes") := by
        simp only [updateBuilder, hown, ne_eq, not_true_eq_false, if_false, before, if_neg haware, Bind.bind,
          Except.bind]
      rw [hraised]
      exact .inl ⟨_, rfl, rfl⟩

theorem Uniform.snoc (hticks : Uniform symbol b.accepted) (hsymbol : tick.symbol = symbol)
    (haware : ∀ t ∈ b.accepted, tick.timestamp.offset.isSome = t.timestamp.offset.isSome) :
    Uniform symbol (b.accepted ++ [tick]) where
  symbol_eq := by
    intro t ht
    rcases List.mem_append.mp ht with ht | ht
    · exact hticks.symbol_eq t ht
    · rw [List.mem_singleton.mp ht]
      exact hsymbol
  aware := by
    intro t ht t' ht'
    rcases List.mem_append.mp ht with ht | ht <;> rcases List.mem_append.mp ht' with ht' | ht'
    · exact hticks.aware t ht t' ht'
    · rw [List.mem_singleton.mp ht']
      exact (haware t ht).symm
    · rw [List.mem_singleton.mp ht]
      exact haware t' ht'
    · rw [List.mem_singleton.mp ht, List.mem_singleton.mp ht']

/-- One more tick is refused, joins the bar being built or opens the next one. -/
theorem Building.Conserves.update (h : b.Conserves) (hticks : Uniform symbol b.accepted)
    (hsymbol : tick.symbol = symbol) :
    (b.update tick).Conserves ∧ Uniform symbol (b.update tick).accepted := by
  rcases update_cases h hticks hsymbol with ⟨e, -, hsame⟩ | ⟨hnone, hfirst⟩ | ⟨current, hcurrent, haware, hstep⟩
  · rw [hsame]
    exact ⟨h, hticks⟩
  · rw [hfirst]
    refine ⟨⟨[], [tick], Grouped.nil.start (fun group hgroup => absurd hgroup List.not_mem_nil), rfl, rfl⟩, ?_⟩
    refine ⟨fun t ht => ?_, fun t ht t' ht' => ?_⟩
    · rw [List.mem_singleton.mp ht]
      exact hsymbol
    · rw [List.mem_singleton.mp ht, List.mem_singleton.mp ht']
  · obtain ⟨first, hfirst, -, hstart⟩ := current_of_conserves h hcurrent
    have hkind : ∀ t ∈ b.accepted, tick.timestamp.offset.isSome = t.timestamp.offset.isSome := by
      intro t ht
      have hown : tick.timestamp.offset.isSome = first.timestamp.offset.isSome := by
        rw [hstart] at haware
        exact haware
      exact hown.trans (hticks.aware first hfirst t ht)
    have huniform := hticks.snoc hsymbol hkind
    rw [Building.Conserves, hcurrent] at h
    obtain ⟨done, last, hgroups, hlast, hdone⟩ := h
    rcases hstep with ⟨hsame, hadded⟩ | ⟨hlater, hopened⟩
    · rw [hadded]
      refine ⟨⟨done, last ++ [tick], hgroups.extend hsame, ?_, hdone⟩, huniform⟩
      rw [liveBar] at hlast
      rw [liveBar, summarize_append, hlast]
      rfl
    · rw [hopened]
      refine ⟨⟨done ++ [(current.start.utcInstant, last)], [tick], hgroups.start ?_, rfl, ?_⟩, huniform⟩
      · intro group hgroup
        rcases List.mem_append.mp hgroup with hgroup | hgroup
        · exact (hgroups.lt_last group hgroup).trans hlater
        · rw [List.mem_singleton.mp hgroup]
          exact hlater
      · rw [List.map_append, hdone, List.map_append, List.map_singleton, hlast, List.map_singleton]

end Step

theorem feed_conserves {symbol : String} {ticks : List MarketTick} (hsymbol : ∀ tick ∈ ticks, tick.symbol = symbol) :
    (Building.feed ticks).Conserves ∧ Uniform symbol (Building.feed ticks).accepted := by
  induction ticks using List.reverseRecOn with
  | nil => exact ⟨rfl, fun t ht => absurd ht List.not_mem_nil, fun t ht => absurd ht List.not_mem_nil⟩
  | append_singleton ticks tick ih =>
    obtain ⟨hconserves, huniform⟩ := ih fun t ht => hsymbol t (List.mem_append_left _ ht)
    have hlast := hsymbol tick (List.mem_append_right _ (List.mem_singleton_self tick))
    rw [Building.feed, List.foldl_append]
    exact hconserves.update huniform hlast

/-- The groups of the ticks that were taken, with their bars. -/
theorem groups_of_conserves {b : Building} (h : b.Conserves) :
    ∃ groups, Grouped MarketTick.opens groups b.accepted ∧
      groups.map (fun group => liveBar group.2) = b.bars.map some := by
  rw [Building.Conserves] at h
  cases hcurrent : b.building with
  | none =>
    rw [hcurrent] at h
    subst h
    exact ⟨[], .nil, rfl⟩
  | some current =>
    rw [hcurrent] at h
    obtain ⟨done, last, hgroups, hlast, hdone⟩ := h
    refine ⟨_, hgroups, ?_⟩
    rw [List.map_append, hdone, List.map_singleton, hlast, Building.bars, flush, hcurrent, List.map_append]
    rfl

/-- What the calls returned for the ticks that were taken. -/
structure Conserved (accepted : List MarketTick) (bars : List MinuteBar) : Prop where
  increasing : bars.Pairwise fun a b => before a.start b.start = .ok true
  minutes : ∀ opens, (∃ bar ∈ bars, bar.start.utcInstant = opens) ↔ ∃ tick ∈ accepted, tick.opens = opens
  figures : ∀ bar ∈ bars,
    MinuteFigures (accepted.filter fun tick => tick.opens = bar.start.utcInstant) bar
  volume : (bars.map (·.volume)).sum = (accepted.map (·.volume)).sum

theorem Building.Conserves.conserved {symbol : String} {b : Building} (h : b.Conserves)
    (hticks : Uniform symbol b.accepted) : Conserved b.accepted b.bars := by
  obtain ⟨groups, hgroups, hbars⟩ := groups_of_conserves h
  have hread : ∀ {M : Type} (ofBar : MinuteBar → M) (ofGroup : Int × List MarketTick → M),
      (∀ group ∈ groups, ∀ bar, liveBar group.2 = some bar → ofBar bar = ofGroup group) →
      b.bars.map ofBar = groups.map ofGroup := by
    intro M ofBar ofGroup hof
    refine List.map_injective_iff.mpr (Option.some_injective M) ?_
    calc (b.bars.map ofBar).map some = (b.bars.map some).map (Option.map ofBar) := by simp
      _ = groups.map fun group => (liveBar group.2).map ofBar := by rw [← hbars, List.map_map]; rfl
      _ = groups.map fun group => some (ofGroup group) := by
        refine List.map_congr_left fun group hgroup => ?_
        have hmem : liveBar group.2 ∈ b.bars.map some := hbars ▸ List.mem_map_of_mem hgroup
        obtain ⟨bar, -, hbar⟩ := List.mem_map.mp hmem
        rw [← hbar, Option.map_some, hof group hgroup bar hbar.symm]
      _ = (groups.map ofGroup).map some := by rw [List.map_map]; rfl
  have hgroup : ∀ bar ∈ b.bars, ∃ group ∈ groups, liveBar group.2 = some bar := by
    intro bar hbar
    have hmem : some bar ∈ groups.map fun group => liveBar group.2 := hbars ▸ List.mem_map_of_mem hbar
    exact List.mem_map.mp hmem
  have hstart : ∀ group ∈ groups, ∀ bar, liveBar group.2 = some bar → bar.start.utcInstant = group.1 := by
    intro group hmem bar hbar
    obtain ⟨first, hfirst, -, hstarts⟩ := liveBar_start hbar
    rw [hstarts]
    exact hgroups.key_eq group hmem first hfirst
  have hkeys := hread (·.start.utcInstant) Prod.fst hstart
  refine ⟨?_, ?_, ?_, ?_⟩
  · have hincreasing := hgroups.increasing
    rw [← hkeys] at hincreasing
    refine List.Pairwise.imp_of_mem ?_ (List.pairwise_map.mp hincreasing)
    intro x y hx hy hlt
    have hkind : ∀ bar ∈ b.bars, ∃ tick ∈ b.accepted, bar.start.offset = tick.timestamp.offset := by
      intro bar hbar
      obtain ⟨group, hmem, hlive⟩ := hgroup bar hbar
      obtain ⟨first, hfirst, -, hstarts⟩ := liveBar_start hlive
      refine ⟨first, ?_, by rw [hstarts]; rfl⟩
      rw [← hgroups.rows_eq]
      exact List.mem_flatMap.mpr ⟨group, hmem, hfirst⟩
    obtain ⟨tx, htx, hox⟩ := hkind x hx
    obtain ⟨ty, hty, hoy⟩ := hkind y hy
    rw [before, if_pos (by rw [hox, hoy]; exact hticks.aware tx htx ty hty), decide_eq_true hlt]
  · intro opens
    rw [← hgroups.key_mem_iff, ← hkeys]
    exact List.mem_map.symm
  · intro bar hbar
    obtain ⟨group, hmem, hlive⟩ := hgroup bar hbar
    rw [hstart group hmem bar hlive, ← hgroups.group_eq hmem]
    exact figures_of_liveBar hlive
  · rw [hread (·.volume) (fun group => (group.2.map (·.volume)).sum)
      fun group _ bar hlive => (figures_of_liveBar hlive).volume]
    exact hgroups.sum _

/-- **The bars of a stream.**  Over any ticks of one symbol the bars start at increasing
    minutes, one for each minute of the ticks that were taken, with the figures of those
    ticks, and no volume is lost or counted twice.  A tick of an earlier minute is refused
    and changes nothing, every other one is taken. -/
theorem live_bars_conserve {symbol : String} {ticks : List MarketTick}
    (hsymbol : ∀ tick ∈ ticks, tick.symbol = symbol) :
    Conserved (Building.feed ticks).accepted (Building.feed ticks).bars ∧
    (∀ bar ∈ (Building.feed ticks).bars,
      (∀ tick ∈ (Building.feed ticks).accepted, tick.opens = bar.start.utcInstant → tick.price ≠ .nan) →
      bar.Ordered) ∧
    (∀ tick current, tick.symbol = symbol → (Building.feed ticks).building = some current →
      before tick.start current.start = .ok true →
      updateBuilder (Building.feed ticks).building tick =
        .error (.valueError "ticks must be chronological") ∧
      (Building.feed ticks).update tick = Building.feed ticks) ∧
    (∀ tick, tick.symbol = symbol →
      (∀ current ∈ (Building.feed ticks).building, before tick.start current.start = .ok false) →
      ((Building.feed ticks).update tick).accepted = (Building.feed ticks).accepted ++ [tick]) := by
  obtain ⟨hconserves, hticks⟩ := feed_conserves hsymbol
  generalize Building.feed ticks = b at hconserves hticks ⊢
  have hconserved := hconserves.conserved hticks
  refine ⟨hconserved, ?_, ?_, ?_⟩
  · intro bar hbar hprices
    refine (hconserved.figures bar hbar).ordered fun tick htick => ?_
    obtain ⟨hmem, hopens⟩ := List.mem_filter.mp htick
    exact hprices tick hmem (of_decide_eq_true hopens)
  · intro tick current hown hcurrent hbefore
    obtain ⟨first, hfirst, hsame, -⟩ := current_of_conserves hconserves hcurrent
    have hsymbols : tick.symbol = current.symbol := by rw [hsame, hticks.symbol_eq first hfirst, hown]
    have hraised : updateBuilder b.building tick = .error (.valueError "ticks must be chronological") := by
      rw [hcurrent]
      simp only [updateBuilder, hsymbols, ne_eq, not_true_eq_false, if_false, hbefore, Bind.bind, Except.bind,
        if_true]
    refine ⟨hraised, ?_⟩
    rw [Building.update, hraised]
  · intro tick hown hbefore
    rcases update_cases hconserves hticks hown with ⟨e, hraised, -⟩ | ⟨hnone, hfirst⟩ | ⟨current, -, -, hstep⟩
    · cases hcurrent : b.building with
      | none =>
        rw [hcurrent] at hraised
        cases hraised
      | some current =>
        obtain ⟨first, hfirst, hsame, -⟩ := current_of_conserves hconserves hcurrent
        have hsymbols : tick.symbol = current.symbol := by rw [hsame, hticks.symbol_eq first hfirst, hown]
        have hnot := hbefore current hcurrent
        rw [hcurrent] at hraised
        simp only [updateBuilder, hsymbols, ne_eq, not_true_eq_false, if_false, hnot, Bind.bind, Except.bind,
          Bool.false_eq_true] at hraised
        split at hraised <;> cases hraised
    · rw [Building.Conserves, hnone] at hconserves
      rw [hfirst, hconserves]
      rfl
    · rcases hstep with ⟨-, hadded⟩ | ⟨-, hopened⟩
      · rw [hadded]
      · rw [hopened]

/-! ### A stream with a gap and a late tick -/

namespace GappedStream

def tick (minute second : Nat) (price : PyFloat) (volume : Int) : MarketTick :=
  ⟨"005930", .combine 20000 9 minute second none, price, volume⟩

/-- The fourth tick is late, and nothing is traded in the minute after it. -/
def ticks : List MarketTick :=
  [tick 0 1 (.fin 100) 2, tick 0 30 (.fin 105) 3, tick 1 0 (.fin 98) 4, tick 0 59 (.fin 90) 7,
   tick 3 0 (.fin 99) 1]

def bar (minute : Nat) (first high low last : PyFloat) (volume : Int) : MinuteBar :=
  ⟨"005930", .combine 20000 9 minute 0 none, first, high, low, last, volume⟩

theorem ticks_symbol : ∀ tick ∈ ticks, tick.symbol = "005930" := by decide

theorem gapped_stream_conserved :
    (Building.feed ticks).bars = [bar 0 (.fin 100) (.fin 105) (.fin 100) (.fin 105) 5,
      bar 1 (.fin 98) (.fin 98) (.fin 98) (.fin 98) 4, bar 3 (.fin 99) (.fin 99) (.fin 99) (.fin 99) 1] ∧
    (Building.feed ticks).accepted.length = 4 ∧
    Conserved (Building.feed ticks).accepted (Building.feed ticks).bars :=
  ⟨by decide +kernel, by decide +kernel, (live_bars_conserve ticks_symbol).1⟩

/-- A price that is no number is below nothing, itself included. -/
theorem nan_price_unordered :
    ∃ ticks : List MarketTick, (∀ tick ∈ ticks, tick.symbol = "005930") ∧
      ∃ bar ∈ (Building.feed ticks).bars, bar.low.le bar.openPrice = false :=
  ⟨[tick 0 1 .nan 2], by decide, bar 0 .nan .nan .nan .nan 2, by decide +kernel, by decide⟩

end GappedStream

end AutoTrader.Market
