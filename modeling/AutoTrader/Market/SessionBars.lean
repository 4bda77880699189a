/-
  AutoTrader/Market/SessionBars.lean
  ==================================
  **The bars an entry is decided on, and the cleanup of old rows.**

  `_maybe_enter_position` loads the last 120 bars of a symbol and keeps the ones at their end that
  follow each other minute by minute on one day (`session_bars_longest`).  `_cleanup_market_data`
  deletes old ticks and bars once a day; it never changes the bars of a later day's entry.
-/
import AutoTrader.Lib.LatestRun
import AutoTrader.Lib.SortedRows
import AutoTrader.Market.Features
import AutoTrader.Market.LiveBars
import AutoTrader.Python.IsoOrder

namespace AutoTrader.Market

open Relational Transactional

/-! ### Reading the bars -/

namespace MarketStore

variable (store : MarketStore)

/-- `load_bars(symbol)`: the texts in `start` order as the wall clocks do. -/
def loadBars (symbol : String) : List MinuteBar :=
  (store.bars.rows.filter fun bar => bar.symbol = symbol).insertionSort fun a b => a.start.wall ≤ b.start.wall

/-- `load_bars(symbol, limit)`: the last bars, in the same order. -/
def loadRecentBars (symbol : String) (limit : Nat) : List MinuteBar :=
  (store.loadBars symbol).drop ((store.loadBars symbol).length - limit)

end MarketStore

/-- The loop of `_latest_contiguous_session_bars`: from the newest bar back, as long as a bar starts when it
    is expected, on the latest day. -/
def takeContiguous (latestDay : Int) : Int → List MinuteBar → List MinuteBar
  | _, [] => []
  | expected, bar :: rest =>
    if bar.start.asKst.date ≠ latestDay ∨ bar.start.asKst.wall ≠ expected then []
    else bar :: takeContiguous latestDay (expected - CompletedBars.minuteMicros) rest

/-- `_latest_contiguous_session_bars`. -/
def latestContiguousSessionBars (bars : List MinuteBar) : List MinuteBar :=
  match bars.reverse with
  | [] => []
  | last :: older =>
    (last :: takeContiguous last.start.asKst.date (last.start.asKst.wall - CompletedBars.minuteMicros) older).reverse

/-- The bars an entry is decided on. -/
def MarketStore.entryBars (store : MarketStore) (symbol : String) : List MinuteBar :=
  latestContiguousSessionBars (store.loadRecentBars symbol 120)

/-! ### They are the latest unbroken run -/

/-- A bar starts one minute before the next one, on its day. -/
def MinuteBar.precedes (bar next : MinuteBar) : Prop :=
  bar.start.asKst.wall + CompletedBars.minuteMicros = next.start.asKst.wall ∧ bar.start.asKst.date = next.start.asKst.date

instance : DecidableRel MinuteBar.precedes := by
  intro bar next
  unfold MinuteBar.precedes
  infer_instance

theorem takeContiguous_eq (newer : MinuteBar) (bars : List MinuteBar) :
    takeContiguous newer.start.asKst.date (newer.start.asKst.wall - CompletedBars.minuteMicros) bars =
      Runs.runFrom MinuteBar.precedes newer bars := by
  induction bars generalizing newer with
  | nil => rfl
  | cons bar rest ih =>
    rw [takeContiguous, Runs.runFrom]
    by_cases hjoined : bar.precedes newer
    · have hexpected : bar.start.asKst.wall = newer.start.asKst.wall - CompletedBars.minuteMicros := by
        rw [← hjoined.1, add_sub_cancel_right]
      have hkept : ¬(bar.start.asKst.date ≠ newer.start.asKst.date ∨
          bar.start.asKst.wall ≠ newer.start.asKst.wall - CompletedBars.minuteMicros) := by
        simp [hjoined.2, hexpected]
      rw [if_pos hjoined, if_neg hkept, ← ih bar, hjoined.2, hexpected]
    · rw [if_neg hjoined, if_pos]
      by_contra hkept
      simp only [not_or, not_not] at hkept
      exact hjoined ⟨by rw [hkept.2, sub_add_cancel], hkept.1⟩

theorem latestContiguousSessionBars_eq (bars : List MinuteBar) :
    latestContiguousSessionBars bars = Runs.latestRun MinuteBar.precedes bars := by
  unfold latestContiguousSessionBars Runs.latestRun
  cases bars.reverse with
  | nil => rfl
  | cons last older => simp only [takeContiguous_eq]

/-- The bars of an entry end the loaded bars, follow each other minute by minute on one day, and no longer
    end of the loaded bars does. -/
theorem session_bars_longest (store : MarketStore) (symbol : String) :
    store.entryBars symbol <:+ store.loadRecentBars symbol 120 ∧
      (store.entryBars symbol).IsChain MinuteBar.precedes ∧
      ∀ part, part <:+ store.loadRecentBars symbol 120 → part.IsChain MinuteBar.precedes →
        part <:+ store.entryBars symbol := by
  rw [MarketStore.entryBars, latestContiguousSessionBars_eq]
  exact ⟨Runs.latestRun_suffix _, Runs.isChain_latestRun _, fun part => Runs.suffix_latestRun⟩

/-- All bars of an unbroken run are of one day. -/
theorem date_of_chain {bars : List MinuteBar} (h : bars.IsChain MinuteBar.precedes) {bar last : MinuteBar}
    (hbar : bar ∈ bars) (hlast : bars.getLast? = some last) : bar.start.asKst.date = last.start.asKst.date := by
  induction bars generalizing bar with
  | nil => cases hbar
  | cons first rest ih =>
    cases rest with
    | nil =>
      rw [List.getLast?_singleton, Option.some.injEq] at hlast
      rw [List.mem_singleton.mp hbar, hlast]
    | cons second others =>
      obtain ⟨hjoined, hrest⟩ := List.isChain_cons_cons.mp h
      rw [List.getLast?_cons_cons] at hlast
      rcases List.mem_cons.mp hbar with rfl | hbar
      · exact hjoined.2.trans (ih hrest List.mem_cons_self hlast)
      · exact ih hrest hbar hlast

/-! ### The cleanup -/

/-- What `_cleanup_market_data` works on: the tables and `market_retention:last_cleanup_day`. -/
structure Retention where
  store : MarketStore
  lastDay : Option String

/-- `DELETE FROM bars_1m WHERE start < ?`. -/
def MarketStore.withoutBarsBefore (store : MarketStore) (cutoff : Int) : MarketStore :=
  { store with bars := ⟨store.bars.rows.filter fun bar => cutoff ≤ bar.start.wall,
      store.bars.nodup.sublist ((List.filter_sublist).map _)⟩ }

/-- `DELETE FROM market_ticks WHERE timestamp < ?`. -/
def MarketStore.withoutTicksBefore (store : MarketStore) (cutoff : Int) : MarketStore :=
  { store with ticks := store.ticks.filter fun tick => cutoff ≤ tick.timestamp.wall }

/-- `delete_old_ticks`; all rows are naive, so their texts are ordered as the wall clocks are. -/
def deleteOldTicks (cutoff : DateTime) : Exec Retention Exn Nat :=
  .statement fun state =>
    let kept := state.store.withoutTicksBefore cutoff.asKst.wall
    (state.store.ticks.length - kept.ticks.length, { state with store := kept })

/-- `delete_old_bars`. -/
def deleteOldBars (cutoff : DateTime) : Exec Retention Exn Nat :=
  .statement fun state =>
    let kept := state.store.withoutBarsBefore cutoff.asKst.wall
    (state.store.bars.rows.length - kept.bars.rows.length, { state with store := kept })

/-- `now.replace(tzinfo=KST)` of a naive `datetime`. -/
def awareNow (now : DateTime) : DateTime :=
  if now.offset.isSome then now else { now with offset := some DateTime.kstOffset }

/-- `timedelta(days=n)` in microseconds. -/
def daysMicros (n : Int) : Int := n * (DateTime.secondsPerDay * DateTime.microsPerSecond)

/-- `_cleanup_market_data`: the numbers of deleted rows, or nothing on a day that had its cleanup. -/
def cleanupMarketData (now : DateTime) (tickDays barDays : Int) : Exec Retention Exn (Option (Nat × Nat)) := do
  let day := DateTime.dateText (awareNow now).toKst.date
  if ← .query fun state => decide (state.lastDay = some day) then pure none
  else do
    let tickCutoff ← .ofExcept ((awareNow now).add (-daysMicros tickDays))
    let tickCount ← deleteOldTicks tickCutoff
    let barCutoff ← .ofExcept ((awareNow now).add (-daysMicros barDays))
    let barCount ← deleteOldBars barCutoff
    .statement fun state => (some (tickCount, barCount), { state with lastDay := some day })

/-! ### The cleanup keeps the bars of a day that is not over -/

namespace MarketStore

variable (store : MarketStore)

theorem pairwise_loadBars (symbol : String) :
    (store.loadBars symbol).Pairwise fun a b => a.start.wall ≤ b.start.wall := by
  have _ : Std.Total fun a b : MinuteBar => a.start.wall ≤ b.start.wall := ⟨fun a b => le_total _ _⟩
  have _ : IsTrans MinuteBar fun a b : MinuteBar => a.start.wall ≤ b.start.wall := ⟨fun _ _ _ hab hbc => hab.trans hbc⟩
  exact List.pairwise_insertionSort _ _

theorem mem_loadBars {symbol : String} {bar : MinuteBar} :
    bar ∈ store.loadBars symbol ↔ bar ∈ store.bars.rows ∧ bar.symbol = symbol := by
  rw [loadBars, List.mem_insertionSort, List.mem_filter, decide_eq_true_eq]

theorem loadBars_withoutBarsBefore (symbol : String) (cutoff : Int) :
    (store.withoutBarsBefore cutoff).loadBars symbol =
      (store.loadBars symbol).filter fun bar => decide (cutoff ≤ bar.start.wall) := by
  have hsort := SortedRows.filter_insertionSort (fun a b : MinuteBar => a.start.wall ≤ b.start.wall)
    (fun _ _ _ hab hbc => le_trans hab hbc) (fun a b => le_total _ _)
    (fun bar => decide (cutoff ≤ bar.start.wall)) (store.bars.rows.filter fun bar => bar.symbol = symbol)
  rw [loadBars, loadBars, hsort]
  simp only [withoutBarsBefore, List.filter_filter, Bool.and_comm]

/-- The last bars of a suffix are a suffix of the last bars. -/
theorem recent_suffix {part bars : List MinuteBar} (h : part <:+ bars) (limit : Nat) :
    part.drop (part.length - limit) <:+ bars.drop (bars.length - limit) := by
  have hpart := (List.drop_suffix (part.length - limit) part).trans h
  apply List.suffix_of_suffix_length_le hpart (List.drop_suffix (bars.length - limit) bars)
  have := h.length_le
  rw [List.length_drop, List.length_drop]
  omega

/-- The bars of an entry are unchanged by a cutoff that none of them is before. -/
theorem entryBars_withoutBarsBefore {symbol : String} {cutoff : Int}
    (h : ∀ bar ∈ store.entryBars symbol, cutoff ≤ bar.start.wall) :
    (store.withoutBarsBefore cutoff).entryBars symbol = store.entryBars symbol := by
  have hkept := store.loadBars_withoutBarsBefore symbol cutoff
  have hsuffix := SortedRows.filter_suffix (store.pairwise_loadBars symbol) cutoff
  have hrecent := recent_suffix hsuffix 120
  rw [← hkept] at hsuffix hrecent
  have hrun : store.entryBars symbol <:+ store.loadRecentBars symbol 120 := (session_bars_longest store symbol).1
  have hloaded := hrun.trans (List.drop_suffix _ (store.loadBars symbol))
  have hpart : store.entryBars symbol <:+ (store.withoutBarsBefore cutoff).loadBars symbol := by
    rw [hkept]
    have hfilter := hloaded.filter fun bar => decide (cutoff ≤ bar.start.wall)
    rwa [List.filter_eq_self.mpr fun bar hbar => decide_eq_true (h bar hbar)] at hfilter
  have hends : store.entryBars symbol <:+ (store.withoutBarsBefore cutoff).loadRecentBars symbol 120 := by
    apply List.suffix_of_suffix_length_le hpart (List.drop_suffix _ _)
    have hlong := hrun.length_le
    have hshort := hpart.length_le
    rw [loadRecentBars, List.length_drop] at hlong
    rw [List.length_drop]
    omega
  rw [entryBars, entryBars, latestContiguousSessionBars_eq, latestContiguousSessionBars_eq]
  rw [entryBars, latestContiguousSessionBars_eq] at hends
  exact Runs.latestRun_of_suffix hrecent hends

/-- The stored rows are naive. -/
def Naive : Prop := ∀ bar ∈ store.bars.rows, bar.start.offset = none

/-- The last bar of a symbol is of a day. -/
def TradedOn (symbol : String) (day : Int) : Prop :=
  ∃ last, (store.loadBars symbol).getLast? = some last ∧ last.start.date = day

variable {store}

theorem asKst_of_naive (hnaive : store.Naive) {bar : MinuteBar} (hbar : bar ∈ store.bars.rows) :
    bar.start.asKst = bar.start := by
  rw [DateTime.asKst, hnaive bar hbar]

/-- The bars of an entry are those of the day of the last bar. -/
theorem day_of_entryBars (hnaive : store.Naive) {symbol : String} {day : Int} (h : store.TradedOn symbol day)
    {bar : MinuteBar} (hbar : bar ∈ store.entryBars symbol) : bar.start.date = day := by
  obtain ⟨last, hlast, hday⟩ := h
  obtain ⟨hsuffix, hchain, -⟩ := session_bars_longest store symbol
  have hloaded := hsuffix.trans (List.drop_suffix _ (store.loadBars symbol))
  have hstored : ∀ bar ∈ store.entryBars symbol, bar ∈ store.bars.rows := fun bar hbar =>
    (store.mem_loadBars.mp (hloaded.subset hbar)).1
  have hlast' : (store.entryBars symbol).getLast? = some last := by
    obtain ⟨front, hfront⟩ := hloaded
    rw [← hfront, List.getLast?_append] at hlast
    cases hentry : (store.entryBars symbol).getLast? with
    | none =>
      rw [List.getLast?_eq_none_iff.mp hentry] at hbar
      cases hbar
    | some other =>
      rw [hentry] at hlast
      exact hlast
  have hsame := date_of_chain hchain hbar hlast'
  rwa [asKst_of_naive hnaive (hstored bar hbar), asKst_of_naive hnaive (hstored last (List.mem_of_getLast? hlast')),
    hday] at hsame

end MarketStore

/-- A cutoff at least a day back is before the midnight of today. -/
theorem cutoff_before_today {now cutoff : DateTime} {days : Int} (hdays : 1 ≤ days)
    (h : (awareNow now).add (-daysMicros days) = .ok cutoff) :
    cutoff.asKst.wall ≤ (awareNow now).toKst.date * (DateTime.secondsPerDay * DateTime.microsPerSecond) := by
  unfold DateTime.add at h
  split at h
  · cases h
    have haware : ∃ offset, (awareNow now).offset = some offset := by
      unfold awareNow
      split
      · rename_i hsome
        exact Option.isSome_iff_exists.mp hsome
      · exact ⟨_, rfl⟩
    obtain ⟨offset, hoffset⟩ := haware
    simp only [DateTime.asKst, DateTime.toKst, DateTime.instant, DateTime.date, hoffset, daysMicros,
      DateTime.secondsPerDay, DateTime.microsPerSecond, Option.getD_some]
    omega
  · cases h

/-! ### Runs of the market tables -/

inductive MarketEvent where
  | saveTick (tick : MarketTick)
  | saveBar (bar : MinuteBar)
  | cleanup (now : DateTime) (tickDays barDays : Int)

namespace Retention

/-- What an event leaves. -/
def exec (state : Retention) : MarketEvent → Retention
  | .saveTick tick => { state with store := ((saveTick tick).run state.store).2 }
  | .saveBar bar => { state with store := ((saveBar bar).run state.store).2 }
  | .cleanup now tickDays barDays => ((cleanupMarketData now tickDays barDays).run state).2

/-- The day of a cleanup that deletes rows to its end. -/
def completes (state : Retention) : MarketEvent → Option Int
  | .cleanup now tickDays barDays =>
    match ((cleanupMarketData now tickDays barDays).run state).1 with
    | .ok (some _) => some (awareNow now).toKst.date
    | _ => none
  | _ => none

/-- The days of the cleanups of a run that complete. -/
def completions (state : Retention) : List MarketEvent → List Int
  | [] => []
  | event :: rest => (state.completes event).toList ++ (state.exec event).completions rest

def run (state : Retention) (events : List MarketEvent) : Retention := events.foldl exec state

end Retention

/-- The day a cleanup runs on. -/
def MarketEvent.day : MarketEvent → Option Int
  | .cleanup now _ _ => some (awareNow now).toKst.date
  | _ => none

/-- What a cleanup does: nothing on a day that had one; else it deletes the rows before two cutoffs and keeps
    the day, unless a cutoff is out of range. -/
theorem cleanup_cases (state : Retention) (now : DateTime) (tickDays barDays : Int) :
    (state.completes (.cleanup now tickDays barDays) = none ∧
        (state.exec (.cleanup now tickDays barDays)).lastDay = state.lastDay ∨
      state.lastDay ≠ some (DateTime.dateText (awareNow now).toKst.date) ∧
        state.completes (.cleanup now tickDays barDays) = some (awareNow now).toKst.date ∧
        (state.exec (.cleanup now tickDays barDays)).lastDay =
          some (DateTime.dateText (awareNow now).toKst.date)) ∧
      ((state.exec (.cleanup now tickDays barDays)).store.bars = state.store.bars ∨
        ∃ cutoff, (awareNow now).add (-daysMicros barDays) = .ok cutoff ∧
          (state.exec (.cleanup now tickDays barDays)).store.bars =
            (state.store.withoutBarsBefore cutoff.asKst.wall).bars) := by
  simp only [Retention.completes, Retention.exec]
  by_cases hday : state.lastDay = some (DateTime.dateText (awareNow now).toKst.date)
  · simp [cleanupMarketData, hday]
  cases hticks : (awareNow now).add (-daysMicros tickDays) with
  | error e => simp [cleanupMarketData, hday, hticks]
  | ok tickCutoff =>
    cases hbars : (awareNow now).add (-daysMicros barDays) with
    | error e =>
      simp [cleanupMarketData, hday, hticks, hbars, deleteOldTicks, MarketStore.withoutTicksBefore]
    | ok barCutoff =>
      simp [cleanupMarketData, hday, hticks, hbars, deleteOldTicks, deleteOldBars, MarketStore.withoutTicksBefore,
        MarketStore.withoutBarsBefore]

theorem completes_save (state : Retention) {event : MarketEvent} (h : event.day = none) :
    state.completes event = none ∧ (state.exec event).lastDay = state.lastDay := by
  cases event with
  | saveTick tick => exact ⟨rfl, rfl⟩
  | saveBar bar => exact ⟨rfl, rfl⟩
  | cleanup now tickDays barDays => cases h

/-- After the cleanup of a day every cleanup that completes is on a later day. -/
theorem completions_after {events : List MarketEvent} {state : Retention} {day : Int}
    (hlast : state.lastDay = some (DateTime.dateText day))
    (hdays : (events.filterMap MarketEvent.day).Pairwise (· ≤ ·))
    (hafter : ∀ d ∈ events.filterMap MarketEvent.day, day ≤ d) :
    (∀ d ∈ state.completions events, day < d) ∧ (state.completions events).Pairwise (· < ·) := by
  induction events generalizing state day with
  | nil => exact ⟨by simp [Retention.completions], List.Pairwise.nil⟩
  | cons event rest ih =>
    cases hday : event.day with
    | none =>
      obtain ⟨hnone, hkept⟩ := completes_save state hday
      rw [List.filterMap_cons_none hday] at hdays hafter
      rw [Retention.completions, hnone]
      exact ih (hkept.trans hlast) hdays hafter
    | some today =>
      rw [List.filterMap_cons_some hday] at hdays hafter
      obtain ⟨htoday, hrest⟩ := List.pairwise_cons.mp hdays
      cases event with
      | saveTick tick => cases hday
      | saveBar bar => cases hday
      | cleanup now tickDays barDays =>
        cases hday
        rcases (cleanup_cases state now tickDays barDays).1 with ⟨hnone, hkept⟩ | ⟨hnew, hdone, hset⟩
        · rw [Retention.completions, hnone]
          exact ih (hkept.trans hlast) hrest fun d hd => hafter d (List.mem_cons_of_mem _ hd)
        · have hlater : day < (awareNow now).toKst.date := by
            apply lt_of_le_of_ne (hafter _ List.mem_cons_self)
            rintro rfl
            exact hnew hlast
          obtain ⟨hrests, hincreasing⟩ := ih hset hrest htoday
          rw [Retention.completions, hdone]
          constructor
          · intro d hd
            rcases List.mem_cons.mp hd with rfl | hd
            · exact hlater
            · exact hlater.trans (hrests d hd)
          · exact List.pairwise_cons.mpr ⟨hrests, hincreasing⟩

/-- No day has two cleanups that complete. -/
theorem completions_increasing {events : List MarketEvent} (state : Retention)
    (hdays : (events.filterMap MarketEvent.day).Pairwise (· ≤ ·)) :
    (state.completions events).Pairwise (· < ·) := by
  induction events generalizing state with
  | nil => exact List.Pairwise.nil
  | cons event rest ih =>
    cases hday : event.day with
    | none =>
      rw [List.filterMap_cons_none hday] at hdays
      rw [Retention.completions, (completes_save state hday).1]
      exact ih _ hdays
    | some today =>
      rw [List.filterMap_cons_some hday] at hdays
      obtain ⟨htoday, hrest⟩ := List.pairwise_cons.mp hdays
      cases event with
      | saveTick tick => cases hday
      | saveBar bar => cases hday
      | cleanup now tickDays barDays =>
        cases hday
        rcases (cleanup_cases state now tickDays barDays).1 with ⟨hnone, -⟩ | ⟨-, hdone, hset⟩
        · rw [Retention.completions, hnone]
          exact ih _ hrest
        · obtain ⟨hrests, hincreasing⟩ := completions_after hset hrest htoday
          rw [Retention.completions, hdone]
          exact List.pairwise_cons.mpr ⟨hrests, hincreasing⟩

theorem offset_asKst (t : DateTime) : t.asKst.offset = none := by
  cases hoffset : t.offset with
  | none => rw [DateTime.asKst, hoffset]; exact hoffset
  | some offset => rw [DateTime.asKst, hoffset]

theorem saveBar_naive {store : MarketStore} (h : store.Naive) (bar : MinuteBar) :
    ((saveBar bar).run store).2.Naive := by
  have hcases : ((saveBar bar).run store).2 = store ∨ ((saveBar bar).run store).2 =
      { store with bars := store.bars.upsert { bar with start := bar.start.asKst } } := by
    simp only [saveBar, bindInt, notNull, Exec.run_require_bind]
    split
    · split
      · split
        · split
          · split
            · exact .inr rfl
            · exact .inl rfl
          · exact .inl rfl
        · exact .inl rfl
      · exact .inl rfl
    · exact .inl rfl
  rcases hcases with heq | heq
  · rwa [heq]
  · rw [heq]
    intro other hother
    have hfind := Table.find?_of_mem _ hother
    rw [Table.find?_upsert] at hfind
    split at hfind
    · cases hfind
      exact offset_asKst bar.start
    · exact h other (Table.mem_of_find? _ hfind)

theorem exec_naive {state : Retention} (h : state.store.Naive) (event : MarketEvent) :
    (state.exec event).store.Naive := by
  cases event with
  | saveTick tick =>
    have hbars : ((saveTick tick).run state.store).2.bars = state.store.bars := by
      simp only [saveTick, bindInt, notNull, Exec.run_require_bind]
      split
      · split
        · rfl
        · rfl
      · rfl
    intro bar hbar
    exact h bar (hbars ▸ hbar)
  | saveBar bar => exact saveBar_naive h bar
  | cleanup now tickDays barDays =>
    intro bar hbar
    rcases (cleanup_cases state now tickDays barDays).2 with heq | ⟨cutoff, -, heq⟩
    · rw [heq] at hbar
      exact h bar hbar
    · rw [heq] at hbar
      exact h bar (List.mem_filter.mp hbar).1

theorem run_naive {start : Retention} (h : start.store.Naive) (events : List MarketEvent) :
    (start.run events).store.Naive := by
  induction events generalizing start with
  | nil => exact h
  | cons event rest ih => exact ih (exec_naive h event)

theorem run_snoc (start : Retention) (front : List MarketEvent) (event : MarketEvent) :
    start.run (front ++ [event]) = (start.run front).exec event := by
  rw [Retention.run, List.foldl_append, List.foldl_cons, List.foldl_nil, Retention.run]

theorem midnight_le_wall (t : DateTime) : t.date * (DateTime.secondsPerDay * DateTime.microsPerSecond) ≤ t.wall := by
  simp only [DateTime.date, DateTime.secondsPerDay, DateTime.microsPerSecond]
  omega

theorem entryBars_congr {store other : MarketStore} (h : store.bars = other.bars) (symbol : String) :
    store.entryBars symbol = other.entryBars symbol := by
  simp only [MarketStore.entryBars, MarketStore.loadRecentBars, MarketStore.loadBars, h]

/-- While the days do not go back no day has two cleanups that complete, and no cleanup that keeps at least a
    day of bars changes the bars of an entry in a symbol that has traded on its day. -/
theorem cleanup_keeps_entries {start : Retention} (hnaive : start.store.Naive) {events : List MarketEvent}
    (hdays : (events.filterMap MarketEvent.day).Pairwise (· ≤ ·)) :
    (start.completions events).Pairwise (· < ·) ∧
      ∀ front now tickDays barDays back symbol, events = front ++ .cleanup now tickDays barDays :: back → 1 ≤ barDays →
        (start.run front).store.TradedOn symbol (awareNow now).toKst.date →
        (start.run (front ++ [.cleanup now tickDays barDays])).store.entryBars symbol =
          (start.run front).store.entryBars symbol := by
  refine ⟨completions_increasing start hdays, ?_⟩
  intro front now tickDays barDays back symbol _ hbarDays htraded
  have hstored := run_naive hnaive front
  rw [run_snoc]
  rcases (cleanup_cases (start.run front) now tickDays barDays).2 with heq | ⟨cutoff, hcutoff, heq⟩
  · exact entryBars_congr heq symbol
  rw [entryBars_congr heq]
  apply MarketStore.entryBars_withoutBarsBefore
  intro bar hbar
  have hday := MarketStore.day_of_entryBars hstored htraded hbar
  have hbefore := cutoff_before_today hbarDays hcutoff
  rw [← hday] at hbefore
  exact hbefore.trans (midnight_le_wall bar.start)

namespace ClimbingBars

def empty : Retention := ⟨⟨[], .empty⟩, none⟩

/-- Two bars, and the cleanup of their day. -/
def saved : List MarketEvent := [.saveBar (bar 0), .saveBar (bar 1)]

def afternoon : DateTime := ⟨6 * 3600 * DateTime.microsPerSecond, some 0⟩

theorem saved_today : (empty.run saved).store.TradedOn "005930" (awareNow afternoon).toKst.date :=
  ⟨{ bar 1 with start := (bar 1).start.asKst }, rfl, by decide⟩

theorem cleanup_harmless :
    (empty.completions (saved ++ [MarketEvent.cleanup afternoon 7 365])).Pairwise (· < ·) ∧
      (empty.run (saved ++ [MarketEvent.cleanup afternoon 7 365])).store.entryBars "005930" =
        (empty.run saved).store.entryBars "005930" := by
  have hnaive : empty.store.Naive := fun other hother => absurd hother List.not_mem_nil
  have hdays : ((saved ++ [MarketEvent.cleanup afternoon 7 365]).filterMap MarketEvent.day).Pairwise (· ≤ ·) :=
    List.pairwise_singleton _ _
  obtain ⟨honce, hkept⟩ := cleanup_keeps_entries hnaive hdays
  exact ⟨honce, hkept saved afternoon 7 365 [] "005930" rfl (by decide) saved_today⟩

end ClimbingBars

end AutoTrader.Market
