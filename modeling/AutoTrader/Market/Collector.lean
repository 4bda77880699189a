/-
  AutoTrader/Market/Collector.lean
  ================================
  **The streaming collector, and the ticks a feed leaves behind.**

  `_consume` takes the texts of a websocket one by one: heartbeats are sent back, price
  frames become ticks in the database and go into the bar builder of their symbol.

  A price frame gives one tick however many records it carries, and the tick is saved
  before the bar builder is asked, which raises for a tick of an earlier minute.
  `collection_complete_iff` says on which feeds every well-formed record becomes a tick
  and nothing is raised.
-/
import AutoTrader.Market.Frames
import Mathlib.Data.List.Induction

namespace AutoTrader.Market

open Relational Transactional

/-- What a collector is started with: its symbols and the date of its ticks. -/
structure Feed where
  symbols : List String
  tradingDate : Int

/-- A `StreamingCollector` while it runs, with its bar builders, its database and the
    texts it has sent. -/
structure Collector where
  building : String → Option MinuteBar
  store : MarketStore
  acknowledged : Bool
  lastTickAt : Option DateTime
  ticksSaved : Nat
  barsSaved : Nat
  sent : List String

namespace Collector

/-- A collector at the start of `run`, on a database as it is. -/
def start (store : MarketStore) : Collector := ⟨fun _ => none, store, false, none, 0, 0, []⟩

/-- A statement on the database. -/
def onStore (m : Exec MarketStore Exn Unit) : Exec Collector Exn Unit :=
  ⟨fun c => ((m.run c.store).1, { c with store := (m.run c.store).2 })⟩

def modify (f : Collector → Collector) : Exec Collector Exn Unit := .statement fun c => ((), f c)

def countTick (tick : MarketTick) (c : Collector) : Collector :=
  { c with ticksSaved := c.ticksSaved + 1, lastTickAt := some tick.timestamp }

def build (symbol : String) (bar : MinuteBar) (c : Collector) : Collector :=
  { c with building := Function.update c.building symbol (some bar) }

def countBar (c : Collector) : Collector := { c with barsSaved := c.barsSaved + 1 }

/-- The part of `_consume` after the conversion of a price to a tick. -/
def acceptTick (tick : MarketTick) : Exec Collector Exn Unit := do
  onStore (saveTick tick)
  modify (countTick tick)
  let building ← .query fun c => c.building tick.symbol
  let (bar, completed) ← .ofExcept (updateBuilder building tick)
  modify (build tick.symbol bar)
  match completed with
  | none => pure ()
  | some completed =>
    onStore (saveBar completed)
    modify countBar

/-- The part of `_consume` for a text that is no message of the server. -/
def consumeData (feed : Feed) (text : String) : Exec Collector Exn Unit :=
  match parseRealtimePrice text with
  | none => pure ()
  | some price =>
    if price.symbol ∈ feed.symbols then do
      let tick ← .ofExcept (realtimePriceToMarketTick price feed.tradingDate)
      acceptTick tick
    else pure ()

/-- One turn of the loop of `_consume`. -/
def consumeFrame (json : JsonModule) (feed : Feed) (text : String) : Exec Collector Exn Unit := do
  match ← Exec.ofExcept (frameKind json text) with
  | .pingpong => modify fun c => { c with sent := c.sent ++ [text] }
  | .acknowledgement => modify fun c => { c with acknowledged := true }
  | .data => consumeData feed text

/-- `_consume` on the texts it receives until it is stopped. -/
def consume (json : JsonModule) (feed : Feed) : List String → Exec Collector Exn Unit
  | [] => pure ()
  | text :: rest => do
    consumeFrame json feed text
    consume json feed rest

end Collector

/-- The ticks of the well-formed records of subscribed symbols. -/
def ticksOf (feed : Feed) (records : List (List String)) : List MarketTick :=
  (records.filterMap (recordTick feed.tradingDate)).filter fun tick => tick.symbol ∈ feed.symbols

/-- The ticks a text has to leave behind. -/
def expectedTicks (feed : Feed) (text : String) : List MarketTick := ticksOf feed (frameRecords text)

/-- However far the feed has come, nothing was raised and the ticks stored are those
    that the texts had to leave behind. -/
def CollectionComplete (json : JsonModule) (feed : Feed) (c : Collector) (texts : List String) : Prop :=
  ∀ received, received <+: texts → ∃ c', (Collector.consume json feed received).run c = (.ok (), c') ∧
    c'.store.ticks = c.store.ticks ++ received.flatMap (expectedTicks feed)

/-! ### When a text is collected -/

/-- The builder takes a tick: its minute is not before the bar being built, and a bar it
    completes can be stored. -/
def Fits (building : Option MinuteBar) (tick : MarketTick) : Prop :=
  ∀ bar ∈ building, bar.start.wall ≤ tick.start.wall ∧
    (bar.start.wall < tick.start.wall → storable bar.volume = true)

theorem fits_none (tick : MarketTick) : Fits none tick := by
  intro bar hbar
  cases hbar

/-- A text is collected in the state it arrives in. -/
structure FrameMet (json : JsonModule) (feed : Feed) (c : Collector) (text : String) : Prop where
  /-- Reading its JSON raises nothing but a `JSONDecodeError`. -/
  quiet : ∃ kind, frameKind json text = .ok kind
  /-- No record but the first is a well-formed one of a subscribed symbol. -/
  single : ∀ record ∈ (frameRecords text).tail, ∀ tick, recordTick feed.tradingDate record = some tick →
    tick.symbol ∉ feed.symbols
  /-- What the parser reads for a subscribed symbol is its first record, is well formed and fits. -/
  first : ∀ price, parseRealtimePrice text = some price → price.symbol ∈ feed.symbols →
    (∃ record rest, frameRecords text = record :: rest ∧ 14 ≤ record.length) ∧
    price.wellFormed = true ∧
    ∀ tick, realtimePriceToMarketTick price feed.tradingDate = .ok tick →
      Fits (c.building price.symbol) tick

/-- The bars being built are those of their symbols, on naive times and without a NaN. -/
def Collector.Sound (c : Collector) : Prop :=
  ∀ symbol bar, c.building symbol = some bar →
    bar.symbol = symbol ∧ bar.start.offset = none ∧ bar.Numeric

theorem Collector.sound_start (store : MarketStore) : (start store).Sound := by
  intro symbol bar hbuilding
  exact (Option.some_ne_none bar hbuilding.symm).elim

/-! ### One tick -/

section Tick

variable {tick : MarketTick} {c : Collector}

/-- On naive times a tick is late, belongs to the bar or completes it. -/
theorem updateBuilder_naive {bar : MinuteBar} (hsymbol : tick.symbol = bar.symbol)
    (htick : tick.timestamp.offset = none) (hbar : bar.start.offset = none) :
    updateBuilder (some bar) tick =
      if tick.start.wall < bar.start.wall then .error (.valueError "ticks must be chronological")
      else if tick.start.wall = bar.start.wall then .ok (bar.add tick, none)
      else .ok (tick.firstBar, some bar) := by
  have hstart : tick.start.offset = none := htick
  have hbefore : before tick.start bar.start = .ok (decide (tick.start.wall < bar.start.wall)) := by
    unfold before DateTime.utcInstant
    rw [hstart, hbar, if_pos rfl, Option.getD_none, zero_mul, sub_zero, sub_zero]
  have hsame : tick.start.utcInstant = bar.start.utcInstant ↔ tick.start.wall = bar.start.wall := by
    unfold DateTime.utcInstant
    rw [hstart, hbar, Option.getD_none, zero_mul, sub_zero, sub_zero]
  unfold updateBuilder
  simp only [hsymbol, ne_eq, not_true_eq_false, if_false, hbefore, Bind.bind, Except.bind,
    decide_eq_true_eq, hsame]

theorem Collector.Sound.build (hsound : c.Sound) {bar : MinuteBar} (hsymbol : bar.symbol = tick.symbol)
    (hstart : bar.start.offset = none) (hnumeric : bar.Numeric) : (c.build tick.symbol bar).Sound := by
  intro symbol other hother
  unfold Collector.build at hother
  by_cases hsame : symbol = tick.symbol
  · subst hsame
    simp only [Function.update_self, Option.some.injEq] at hother
    subst hother
    exact ⟨hsymbol, hstart, hnumeric⟩
  · simp only [Function.update_of_ne hsame] at hother
    exact hsound symbol other hother

theorem run_onStore {m : Exec MarketStore Exn Unit} {r : Except Exn Unit} {store : MarketStore}
    (h : m.run c.store = (r, store)) : (Collector.onStore m).run c = (r, { c with store := store }) := by
  simp only [Collector.onStore, h]

@[simp] theorem run_modify (f : Collector → Collector) :
    (Collector.modify f).run c = (.ok (), f c) := rfl

@[simp] theorem run_modify_bind {α : Type} (f : Collector → Collector) (rest : Unit → Exec Collector Exn α) :
    (Collector.modify f >>= rest).run c = (rest ()).run (f c) := rfl

/-- Saving a bar changes no tick and no builder. -/
theorem run_saveBar {bar : MinuteBar} (hbar : bar.Numeric) (hvolume : storable bar.volume = true) :
    ∃ c', (Collector.onStore (saveBar bar)).run c = (.ok (), c') ∧ c'.store.ticks = c.store.ticks ∧
      c'.building = c.building :=
  ⟨_, run_onStore (saveBar_ok c.store hbar hvolume), rfl, rfl⟩

/-- The collector once a tick is saved. -/
def Collector.saved (tick : MarketTick) (c : Collector) : Collector :=
  { c with
    store := { c.store with ticks := c.store.ticks ++ [tick] }
    ticksSaved := c.ticksSaved + 1
    lastTickAt := some tick.timestamp }

/-- What is left of `acceptTick` once the tick is saved. -/
theorem acceptTick_saved (hnaive : tick.timestamp.offset = none) (hvolume : storable tick.volume = true)
    (hprice : tick.price ≠ .nan) :
    (Collector.acceptTick tick).run c =
      (Exec.ofExcept (updateBuilder (c.building tick.symbol) tick) >>= fun built =>
        Collector.modify (Collector.build tick.symbol built.1) >>= fun _ =>
        match built.2 with
        | none => pure ()
        | some completed =>
          Collector.onStore (saveBar completed) >>= fun _ => Collector.modify Collector.countBar).run
        (c.saved tick) := by
  have hsave := run_onStore (saveTick_ok c.store hvolume hprice hnaive)
  unfold Collector.acceptTick
  rw [Exec.run_bind_ok hsave, run_modify_bind, Exec.run_query_bind]
  rfl

/-- A tick that the database and the builder take is stored. -/
theorem acceptTick_fits (hsound : c.Sound) (hnaive : tick.timestamp.offset = none)
    (hvolume : storable tick.volume = true) (hprice : tick.price ≠ .nan)
    (hfits : Fits (c.building tick.symbol) tick) :
    ∃ c', (Collector.acceptTick tick).run c = (.ok (), c') ∧
      c'.store.ticks = c.store.ticks ++ [tick] ∧ c'.Sound := by
  have hsaved : (c.saved tick).Sound := hsound
  have hfirst : ((c.saved tick).build tick.symbol tick.firstBar).Sound :=
    hsaved.build rfl hnaive (tick.firstBar_numeric hprice)
  rw [acceptTick_saved hnaive hvolume hprice]
  cases hbuilding : c.building tick.symbol with
  | none => exact ⟨_, rfl, rfl, hfirst⟩
  | some bar =>
    obtain ⟨hsymbol, hstart, hnumeric⟩ := hsound _ _ hbuilding
    obtain ⟨hle, hcompleted⟩ := hfits bar hbuilding
    rw [updateBuilder_naive hsymbol.symm hnaive hstart, if_neg (not_lt.mpr hle)]
    by_cases hsame : tick.start.wall = bar.start.wall
    · rw [if_pos hsame, Exec.run_ofExcept_ok_bind]
      exact ⟨_, rfl, rfl, hsaved.build hsymbol hstart (hnumeric.add hprice)⟩
    · rw [if_neg hsame, Exec.run_ofExcept_ok_bind]
      have hvolume' := hcompleted (lt_of_le_of_ne hle (Ne.symm hsame))
      obtain ⟨c', hrun, hticks, hbuilders⟩ :=
        run_saveBar (c := (c.saved tick).build tick.symbol tick.firstBar) hnumeric hvolume'
      refine ⟨c'.countBar, ?_, hticks, ?_⟩
      · rw [run_modify_bind]
        exact Exec.run_bind_ok hrun
      · unfold Collector.Sound Collector.countBar
        rw [hbuilders]
        exact hfirst

/-- A tick that one of them does not take raises. -/
theorem acceptTick_raises (hsound : c.Sound) (hnaive : tick.timestamp.offset = none)
    (h : ¬ (storable tick.volume = true ∧ tick.price ≠ .nan ∧ Fits (c.building tick.symbol) tick)) :
    ∃ e c', (Collector.acceptTick tick).run c = (.error e, c') := by
  by_cases hstored : storable tick.volume = true ∧ tick.price ≠ .nan
  · have hfits : ¬ Fits (c.building tick.symbol) tick := fun hfits => h ⟨hstored.1, hstored.2, hfits⟩
    rw [acceptTick_saved hnaive hstored.1 hstored.2]
    cases hbuilding : c.building tick.symbol with
    | none =>
      rw [hbuilding] at hfits
      exact absurd (fits_none tick) hfits
    | some bar =>
      obtain ⟨hsymbol, hstart, hnumeric⟩ := hsound _ _ hbuilding
      rw [updateBuilder_naive hsymbol.symm hnaive hstart]
      by_cases hlate : tick.start.wall < bar.start.wall
      · rw [if_pos hlate, Exec.run_ofExcept_error_bind]
        exact ⟨_, _, rfl⟩
      · have hcompleted : ¬ (tick.start.wall = bar.start.wall) ∧ ¬ storable bar.volume = true := by
          constructor
          · intro hsame
            refine hfits fun other hother => ?_
            rw [hbuilding] at hother
            cases hother
            exact ⟨hsame.ge, fun hlt => absurd hsame hlt.ne'⟩
          · intro hvolume
            refine hfits fun other hother => ?_
            rw [hbuilding] at hother
            cases hother
            exact ⟨not_lt.mp hlate, fun _ => hvolume⟩
        obtain ⟨e, hsave⟩ := saveBar_error (c.saved tick).store hcompleted.2
        rw [if_neg hlate, if_neg hcompleted.1, Exec.run_ofExcept_ok_bind, run_modify_bind]
        exact ⟨e, _, Exec.run_bind_error (run_onStore hsave)⟩
  · obtain ⟨e, hsave⟩ := saveTick_error c.store hstored
    exact ⟨e, _, Exec.run_bind_error (run_onStore hsave)⟩

end Tick

/-! ### The records of one text -/

section Text

variable {feed : Feed} {text : String}

theorem ticksOf_cons (record : List String) (rest : List (List String)) :
    ticksOf feed (record :: rest) = ticksOf feed [record] ++ ticksOf feed rest := by
  unfold ticksOf
  rw [← List.filter_append, ← List.filterMap_append, List.singleton_append]

theorem mem_ticksOf {records : List (List String)} {tick : MarketTick} :
    tick ∈ ticksOf feed records ↔
      ∃ record ∈ records, recordTick feed.tradingDate record = some tick ∧ tick.symbol ∈ feed.symbols := by
  unfold ticksOf
  rw [List.mem_filter, List.mem_filterMap, decide_eq_true_eq]
  constructor
  · rintro ⟨⟨record, hrecord, htick⟩, hsymbol⟩
    exact ⟨record, hrecord, htick, hsymbol⟩
  · rintro ⟨record, hrecord, htick, hsymbol⟩
    exact ⟨⟨record, hrecord, htick⟩, hsymbol⟩

theorem ticksOf_eq_nil_iff {records : List (List String)} :
    ticksOf feed records = [] ↔
      ∀ record ∈ records, ∀ tick, recordTick feed.tradingDate record = some tick →
        tick.symbol ∉ feed.symbols := by
  rw [List.eq_nil_iff_forall_not_mem]
  constructor
  · intro h record hrecord tick htick hsymbol
    exact h tick (mem_ticksOf.mpr ⟨record, hrecord, htick, hsymbol⟩)
  · intro h tick hmem
    obtain ⟨record, hrecord, htick, hsymbol⟩ := mem_ticksOf.mp hmem
    exact h record hrecord tick htick hsymbol

/-- What the parser reads of a frame is its first record, where that is wide enough. -/
theorem parse_first {record : List String} {rest : List (List String)}
    (h : frameRecords text = record :: rest) (hwidth : 14 ≤ record.length) :
    parseRealtimePrice text = readPrice record := by
  obtain ⟨⟨count, more, hframe⟩, -⟩ := frameRecords_eq_cons h
  unfold parseRealtimePrice
  rw [hframe, Option.bind_some]
  exact readPrice_append more hwidth

theorem tick_fields {price : RealtimePrice} {tick : MarketTick} {tradingDate : Int}
    (h : realtimePriceToMarketTick price tradingDate = .ok tick) :
    tick.symbol = price.symbol ∧ tick.price = price.price ∧ tick.volume = price.volume ∧
      tick.timestamp.offset = none := by
  obtain ⟨tick', htick', hfields⟩ :=
    realtimePriceToMarketTick_of_clockTime tradingDate (clockTime_of_ok h)
  cases h.symm.trans htick'
  exact hfields

/-- A record with a tick is what the parser reads, where it is the first. -/
theorem parse_of_recordTick {record : List String} {rest : List (List String)} {tick : MarketTick}
    (h : frameRecords text = record :: rest) (htick : recordTick feed.tradingDate record = some tick) :
    ∃ price, parseRealtimePrice text = some price ∧ price.symbol = tick.symbol ∧ price.wellFormed = true ∧
      realtimePriceToMarketTick price feed.tradingDate = .ok tick := by
  obtain ⟨price, hprice, hformed, hconverted⟩ := recordTick_eq_some htick
  refine ⟨price, ?_, (tick_fields hconverted).1.symm, hformed, hconverted⟩
  rw [parse_first h (readPrice_price hprice).1, hprice]

/-- A frame whose records are too short has no tick. -/
theorem expectedTicks_short {record : List String} {rest : List (List String)}
    (h : frameRecords text = record :: rest) (hshort : ¬ 14 ≤ record.length) :
    expectedTicks feed text = [] := by
  refine ticksOf_eq_nil_iff.mpr fun other hother tick htick _ => ?_
  obtain ⟨price, hprice, -, -⟩ := recordTick_eq_some htick
  have hwide := (readPrice_price hprice).1
  rw [(frameRecords_eq_cons h).2 other hother] at hwide
  exact hshort hwide

/-- A text of which the parser reads nothing subscribed has to leave nothing behind exactly
    when no record but the first has a tick. -/
theorem expectedTicks_unread (hread : ∀ price, parseRealtimePrice text = some price →
    price.symbol ∉ feed.symbols) :
    expectedTicks feed text = [] ↔ ticksOf feed (frameRecords text).tail = [] := by
  unfold expectedTicks
  cases hrecords : frameRecords text with
  | nil => rfl
  | cons record rest =>
    have hfirst : ticksOf feed [record] = [] := by
      refine ticksOf_eq_nil_iff.mpr fun other hother tick htick hsymbol => ?_
      rw [List.mem_singleton.mp hother] at htick
      obtain ⟨price, hprice, hsame, -⟩ := parse_of_recordTick hrecords htick
      exact hread price hprice (hsame ▸ hsymbol)
    rw [ticksOf_cons, hfirst, List.nil_append, List.tail_cons]

/-- The tick of a well-formed price. -/
theorem tick_of_wellFormed {price : RealtimePrice} (hformed : price.wellFormed = true) :
    ∃ tick, realtimePriceToMarketTick price feed.tradingDate = .ok tick ∧ tick.symbol = price.symbol ∧
      storable tick.volume = true ∧ tick.price ≠ .nan ∧ tick.timestamp.offset = none := by
  unfold RealtimePrice.wellFormed at hformed
  rw [Bool.and_eq_true, Bool.and_eq_true] at hformed
  obtain ⟨⟨hclock, hfinite⟩, hvolume⟩ := hformed
  obtain ⟨tick, htick, hsymbol, hprice, hvolume', hnaive⟩ :=
    realtimePriceToMarketTick_of_clockTime feed.tradingDate hclock
  refine ⟨tick, htick, hsymbol, by rw [hvolume']; exact hvolume, ?_, hnaive⟩
  rw [hprice]
  intro hnan
  rw [hnan] at hfinite
  cases hfinite

/-- A well-formed price read from a first record that is wide enough is the tick of that record. -/
theorem ticksOf_first {record : List String} {rest : List (List String)} {price : RealtimePrice}
    {tick : MarketTick} (h : frameRecords text = record :: rest) (hwidth : 14 ≤ record.length)
    (hprice : parseRealtimePrice text = some price) (hformed : price.wellFormed = true)
    (htick : realtimePriceToMarketTick price feed.tradingDate = .ok tick)
    (hsymbol : tick.symbol ∈ feed.symbols) : ticksOf feed [record] = [tick] := by
  rw [parse_first h hwidth] at hprice
  have hrecord : recordTick feed.tradingDate record = some tick := by
    unfold recordTick
    rw [hprice]
    simp only [hformed, if_true, htick]
    rfl
  unfold ticksOf
  rw [List.filterMap_cons_some hrecord, List.filterMap_nil, List.filter_cons_of_pos (by simpa using hsymbol),
    List.filter_nil]

end Text

/-! ### One text -/

section Frame

variable {json : JsonModule} {feed : Feed} {text : String} {c : Collector}

/-- A text without a price of a subscribed symbol changes nothing. -/
theorem consumeData_unread (hread : ∀ price, parseRealtimePrice text = some price →
    price.symbol ∉ feed.symbols) : (Collector.consumeData feed text).run c = (.ok (), c) := by
  unfold Collector.consumeData
  cases hprice : parseRealtimePrice text with
  | none => rfl
  | some price =>
    simp only [if_neg (hread price hprice)]
    rfl

theorem consumeData_read {price : RealtimePrice} (hprice : parseRealtimePrice text = some price)
    (hsymbol : price.symbol ∈ feed.symbols) :
    (Collector.consumeData feed text).run c =
      (Exec.ofExcept (realtimePriceToMarketTick price feed.tradingDate) >>= Collector.acceptTick).run c := by
  unfold Collector.consumeData
  rw [hprice]
  simp only [if_pos hsymbol]

/-- A price frame of a subscribed symbol is its tick. -/
theorem consumeFrame_read {price : RealtimePrice} {tick : MarketTick} (hdata : opensObject text = false)
    (hprice : parseRealtimePrice text = some price) (hsymbol : price.symbol ∈ feed.symbols)
    (htick : realtimePriceToMarketTick price feed.tradingDate = .ok tick) :
    (Collector.consumeFrame json feed text).run c = (Collector.acceptTick tick).run c := by
  unfold Collector.consumeFrame
  rw [frameKind_of_data json hdata, Exec.run_ofExcept_ok_bind]
  dsimp only
  rw [consumeData_read hprice hsymbol, htick, Exec.run_ofExcept_ok_bind]

/-- A text that meets its condition leaves its ticks behind. -/
theorem consumeData_met (hsound : c.Sound) (h : FrameMet json feed c text) :
    ∃ c', (Collector.consumeData feed text).run c = (.ok (), c') ∧
      c'.store.ticks = c.store.ticks ++ expectedTicks feed text ∧ c'.Sound := by
  have hsingle : ticksOf feed (frameRecords text).tail = [] := ticksOf_eq_nil_iff.mpr h.single
  by_cases hread : ∀ price, parseRealtimePrice text = some price → price.symbol ∉ feed.symbols
  · refine ⟨c, consumeData_unread hread, ?_, hsound⟩
    rw [(expectedTicks_unread hread).mpr hsingle, List.append_nil]
  · simp only [not_forall, not_not] at hread
    obtain ⟨price, hprice, hsymbol⟩ := hread
    obtain ⟨⟨record, rest, hrecords, hwidth⟩, hformed, hfits⟩ := h.first price hprice hsymbol
    obtain ⟨tick, htick, hsame, hvolume, hnan, hnaive⟩ :=
      @tick_of_wellFormed feed _ hformed
    have hfit := hfits tick htick
    rw [← hsame] at hfit hsymbol
    obtain ⟨c', hrun, hticks, hsound'⟩ := acceptTick_fits hsound hnaive hvolume hnan hfit
    refine ⟨c', ?_, ?_, hsound'⟩
    · rw [consumeData_read hprice (hsame ▸ hsymbol), htick, Exec.run_ofExcept_ok_bind, hrun]
    · rw [hrecords, List.tail_cons] at hsingle
      unfold expectedTicks
      rw [hticks, hrecords, ticksOf_cons, hsingle, List.append_nil,
        ticksOf_first hrecords hwidth hprice hformed htick hsymbol]

/-- A text that leaves its ticks behind meets its condition. -/
theorem met_of_consumeData (hsound : c.Sound) (hquiet : ∃ kind, frameKind json text = .ok kind)
    {c' : Collector} (hrun : (Collector.consumeData feed text).run c = (.ok (), c'))
    (hticks : c'.store.ticks = c.store.ticks ++ expectedTicks feed text) : FrameMet json feed c text := by
  by_cases hread : ∀ price, parseRealtimePrice text = some price → price.symbol ∉ feed.symbols
  · rw [consumeData_unread hread] at hrun
    cases hrun
    have hnone : expectedTicks feed text = [] := List.self_eq_append_right.mp hticks
    exact ⟨hquiet, ticksOf_eq_nil_iff.mp ((expectedTicks_unread hread).mp hnone),
      fun price hprice hsymbol => absurd hsymbol (hread price hprice)⟩
  · simp only [not_forall, not_not] at hread
    obtain ⟨price, hprice, hsymbol⟩ := hread
    rw [consumeData_read hprice hsymbol] at hrun
    obtain ⟨tick, c₁, hconvert, haccept⟩ := Exec.run_bind_eq_ok hrun
    obtain ⟨htick, rfl⟩ := Prod.mk.inj hconvert
    obtain ⟨hsame, hpriceEq, hvolumeEq, hnaive⟩ := tick_fields htick
    have htaken : storable tick.volume = true ∧ tick.price ≠ .nan ∧ Fits (c.building tick.symbol) tick := by
      by_contra hrefused
      obtain ⟨e, c₂, hraise⟩ := acceptTick_raises hsound hnaive hrefused
      rw [hraise] at haccept
      cases haccept
    obtain ⟨c₂, hstored, hone, -⟩ := acceptTick_fits hsound hnaive htaken.1 htaken.2.1 htaken.2.2
    rw [hstored] at haccept
    cases haccept
    have hexpected : expectedTicks feed text = [tick] :=
      (List.append_cancel_left (hone.symm.trans hticks)).symm
    have hformed : price.wellFormed = true := by
      have hmem : tick ∈ ticksOf feed (frameRecords text) := by
        change tick ∈ expectedTicks feed text
        rw [hexpected]
        exact List.mem_singleton_self tick
      obtain ⟨other, -, hother, -⟩ := mem_ticksOf.mp hmem
      obtain ⟨price', -, hformed', htick'⟩ := recordTick_eq_some hother
      unfold RealtimePrice.wellFormed at hformed' ⊢
      simp only [Bool.and_eq_true] at hformed' ⊢
      rw [← hpriceEq, ← hvolumeEq, (tick_fields htick').2.1]
      exact ⟨⟨clockTime_of_ok htick, hformed'.1.2⟩, htaken.1⟩
    cases hrecords : frameRecords text with
    | nil =>
      unfold expectedTicks at hexpected
      rw [hrecords] at hexpected
      cases hexpected
    | cons record rest =>
      have hwidth : 14 ≤ record.length := by
        by_contra hshort
        rw [expectedTicks_short hrecords hshort] at hexpected
        cases hexpected
      have hfirst := ticksOf_first hrecords hwidth hprice hformed htick (hsame ▸ hsymbol)
      unfold expectedTicks at hexpected
      rw [hrecords, ticksOf_cons, hfirst] at hexpected
      have hrest : ticksOf feed rest = [] := List.self_eq_append_right.mp hexpected.symm
      refine ⟨hquiet, ?_, fun price' hprice' hsymbol' => ?_⟩
      · rw [hrecords, List.tail_cons]
        exact ticksOf_eq_nil_iff.mp hrest
      · rw [hprice] at hprice'
        cases hprice'
        refine ⟨⟨record, rest, hrecords, hwidth⟩, hformed, fun tick' htick' => ?_⟩
        rw [htick] at htick'
        cases htick'
        rw [← hsame]
        exact htaken.2.2

/-- A text that is read leaves the builders sound. -/
theorem consumeData_sound (hsound : c.Sound) {c' : Collector}
    (hrun : (Collector.consumeData feed text).run c = (.ok (), c')) : c'.Sound := by
  by_cases hread : ∀ price, parseRealtimePrice text = some price → price.symbol ∉ feed.symbols
  · rw [consumeData_unread hread] at hrun
    cases hrun
    exact hsound
  · simp only [not_forall, not_not] at hread
    obtain ⟨price, hprice, hsymbol⟩ := hread
    rw [consumeData_read hprice hsymbol] at hrun
    obtain ⟨tick, c₁, hconvert, haccept⟩ := Exec.run_bind_eq_ok hrun
    obtain ⟨htick, rfl⟩ := Prod.mk.inj hconvert
    obtain ⟨-, -, -, hnaive⟩ := tick_fields htick
    by_cases htaken : storable tick.volume = true ∧ tick.price ≠ .nan ∧ Fits (c.building tick.symbol) tick
    · obtain ⟨c₂, hstored, -, hsound'⟩ := acceptTick_fits hsound hnaive htaken.1 htaken.2.1 htaken.2.2
      rw [hstored] at haccept
      cases haccept
      exact hsound'
    · obtain ⟨e, c₂, hraise⟩ := acceptTick_raises hsound hnaive htaken
      rw [hraise] at haccept
      cases haccept

theorem expectedTicks_of_object (h : opensObject text = true) : expectedTicks feed text = [] := by
  unfold expectedTicks
  rw [frameRecords_of_object h]
  rfl

/-- A message of the server is no price frame. -/
theorem object_of_kind {kind : FrameKind} (h : frameKind json text = .ok kind) (hkind : kind ≠ .data) :
    opensObject text = true := by
  by_contra hno
  rw [Bool.not_eq_true] at hno
  rw [frameKind_of_data json hno] at h
  cases h
  exact hkind rfl

theorem met_of_object (hobject : opensObject text = true) {kind : FrameKind}
    (hkind : frameKind json text = .ok kind) : FrameMet json feed c text := by
  have hunread : parseRealtimePrice text = none := by
    unfold parseRealtimePrice
    rw [priceFrame?_of_object hobject, Option.bind_none]
  refine ⟨⟨kind, hkind⟩, ?_, fun price hprice => ?_⟩
  · rw [frameRecords_of_object hobject]
    exact fun record hrecord => absurd hrecord List.not_mem_nil
  · rw [hunread] at hprice
    cases hprice

/-- One turn of the loop on a text. -/
theorem consumeFrame_met (hsound : c.Sound) (h : FrameMet json feed c text) :
    ∃ c', (Collector.consumeFrame json feed text).run c = (.ok (), c') ∧
      c'.store.ticks = c.store.ticks ++ expectedTicks feed text := by
  obtain ⟨kind, hkind⟩ := h.quiet
  unfold Collector.consumeFrame
  rw [hkind, Exec.run_ofExcept_ok_bind]
  cases kind with
  | data =>
    obtain ⟨c', hrun, hticks, -⟩ := consumeData_met hsound h
    dsimp only
    exact ⟨c', hrun, hticks⟩
  | pingpong =>
    rw [expectedTicks_of_object (object_of_kind hkind (by decide))]
    exact ⟨_, rfl, (List.append_nil _).symm⟩
  | acknowledgement =>
    rw [expectedTicks_of_object (object_of_kind hkind (by decide))]
    exact ⟨_, rfl, (List.append_nil _).symm⟩

theorem met_of_consumeFrame (hsound : c.Sound) {c' : Collector}
    (hrun : (Collector.consumeFrame json feed text).run c = (.ok (), c')) :
    c'.Sound ∧ (c'.store.ticks = c.store.ticks ++ expectedTicks feed text → FrameMet json feed c text) := by
  unfold Collector.consumeFrame at hrun
  obtain ⟨kind, c₁, hread, hrun⟩ := Exec.run_bind_eq_ok hrun
  obtain ⟨hkind, rfl⟩ := Prod.mk.inj hread
  cases kind with
  | data =>
    dsimp only at hrun
    exact ⟨consumeData_sound hsound hrun, met_of_consumeData hsound ⟨_, hkind⟩ hrun⟩
  | pingpong =>
    cases hrun
    exact ⟨hsound, fun _ => met_of_object (object_of_kind hkind (by decide)) hkind⟩
  | acknowledgement =>
    cases hrun
    exact ⟨hsound, fun _ => met_of_object (object_of_kind hkind (by decide)) hkind⟩

end Frame

/-! ### A feed -/

section Run

variable {json : JsonModule} {feed : Feed} {c : Collector}

/-- The last text is consumed after the others. -/
theorem consume_concat (received : List String) (text : String) (c : Collector) :
    (Collector.consume json feed (received ++ [text])).run c =
      (Collector.consume json feed received >>= fun _ => Collector.consumeFrame json feed text).run c := by
  induction received generalizing c with
  | nil =>
    rw [List.nil_append, Collector.consume, Collector.consume, Exec.run_pure_bind, Exec.run_bind]
    rcases (Collector.consumeFrame json feed text).run c with ⟨e | _, c'⟩ <;> rfl
  | cons first rest ih =>
    rw [List.cons_append, Collector.consume, Collector.consume, Exec.run_bind, Exec.run_bind, Exec.run_bind]
    rcases (Collector.consumeFrame json feed first).run c with ⟨e | _, c'⟩
    · rfl
    · exact (ih c').trans (Exec.run_bind ..)

theorem consume_sound (hsound : c.Sound) {received : List String} {c' : Collector}
    (hrun : (Collector.consume json feed received).run c = (.ok (), c')) : c'.Sound := by
  induction received generalizing c with
  | nil =>
    cases hrun
    exact hsound
  | cons text rest ih =>
    obtain ⟨_, c₁, hframe, hrest⟩ := Exec.run_bind_eq_ok hrun
    exact ih (met_of_consumeFrame hsound hframe).1 hrest

/-- **A feed is collected completely exactly when** every text meets its condition in the
    state it arrives in. -/
theorem collection_complete_iff (json : JsonModule) (feed : Feed) (store : MarketStore)
    (texts : List String) :
    CollectionComplete json feed (Collector.start store) texts ↔
      ∀ received text, received ++ [text] <+: texts →
        FrameMet json feed ((Collector.consume json feed received).run (Collector.start store)).2 text := by
  have hstart := Collector.sound_start store
  constructor
  · intro hcomplete received text hprefix
    obtain ⟨c₁, hrun₁, hticks₁⟩ := hcomplete received ((List.prefix_append _ _).trans hprefix)
    obtain ⟨c₂, hrun₂, hticks₂⟩ := hcomplete _ hprefix
    rw [consume_concat, Exec.run_bind_ok hrun₁] at hrun₂
    rw [hrun₁]
    refine (met_of_consumeFrame (consume_sound hstart hrun₁) hrun₂).2 ?_
    rw [hticks₂, hticks₁, List.flatMap_append, List.flatMap_singleton, List.append_assoc]
  · intro hmet received
    induction received using List.reverseRecOn with
    | nil =>
      intro _
      exact ⟨_, rfl, (List.append_nil _).symm⟩
    | append_singleton received text ih =>
      intro hprefix
      obtain ⟨c₁, hrun₁, hticks₁⟩ := ih ((List.prefix_append _ _).trans hprefix)
      have hframe := hmet received text hprefix
      rw [hrun₁] at hframe
      obtain ⟨c₂, hrun₂, hticks₂⟩ := consumeFrame_met (consume_sound hstart hrun₁) hframe
      refine ⟨c₂, ?_, ?_⟩
      · rw [consume_concat, Exec.run_bind_ok hrun₁, hrun₂]
      · rw [hticks₂, hticks₁, List.flatMap_append, List.flatMap_singleton, List.append_assoc]

theorem consume_singleton (text : String) (c : Collector) :
    (Collector.consume json feed [text]).run c = (Collector.consumeFrame json feed text).run c :=
  (consume_concat [] text c).trans (Exec.run_pure_bind _ _ c)

theorem CollectionComplete.run {texts : List String} (h : CollectionComplete json feed c texts) :
    Except.exn? ((Collector.consume json feed texts).run c).1 = none ∧
      ((Collector.consume json feed texts).run c).2.store.ticks =
        c.store.ticks ++ texts.flatMap (expectedTicks feed) := by
  obtain ⟨c', hrun, hticks⟩ := h texts List.prefix_rfl
  rw [hrun]
  exact ⟨rfl, hticks⟩

end Run

namespace LateTick

def feed : Feed := ⟨["005930"], 20000⟩

/-- The `json` module on texts that are not JSON. -/
def json : JsonModule := ⟨fun _ => .error (.other "JSONDecodeError" "Expecting value"), fun _ => .ok "", fun _ => .ok ""⟩

/-- The fields of a trade of 3 shares at 100. -/
def fields (time : String) : List String :=
  ["005930", time, "100", "2", "100", "0.1", "100", "100", "100", "100", "100", "100", "3", "100"]

def frame (count : String) (fields : List String) : String := "0|H0STCNT0|" ++ count ++ "|" ++ "^".intercalate fields

def price (time : String) : RealtimePrice := ⟨"005930", time, .fin 100, 3, 100⟩

def tick (hour minute second : Nat) : MarketTick :=
  ⟨"005930", .combine 20000 hour minute second none, .fin 100, 3⟩

/-- A trade of 09:01:00, and one of 09:00:30. -/
def first : String := frame "001" (fields "090100")
def second : String := frame "001" (fields "090030")

/-- Two trades in one frame. -/
def pair : String := frame "002" (fields "090100" ++ fields "090101")

def opened : Collector := .start ⟨[], .empty⟩

theorem readPrice_fields {time : String} (htime : time ≠ "") : readPrice (fields time) = some (price time) := by
  have hdigits : ∀ c ∈ ['1', '0', '0'], c.isDigit = true := List.all_eq_true.mp rfl
  have hprice : Text.toFloat? "100" = some (.fin 100) :=
    Text.toFloat?_digits hdigits (by decide) (by decide) (by decide)
  have hvolume : Text.toLimitedInt? "3" = some 3 := by decide
  have htotal : Text.toLimitedInt? "100" = some 100 := by decide
  have hsymbol : Text.isdigit "005930" = true := by decide
  have hlength : "005930".length = 6 := by decide
  simp [readPrice, fields, hprice, hvolume, htotal, hsymbol, hlength, htime, PyFloat.nonpos, price]

/-- What the parser reads of a frame that begins with such fields. -/
theorem parse_fields {text count time : String} {rest : List String} (htime : time ≠ "")
    (h : priceFrame? text = some (count, fields time ++ rest)) :
    parseRealtimePrice text = some (price time) := by
  unfold parseRealtimePrice
  rw [h, Option.bind_some, readPrice_append rest (show 14 ≤ (fields time).length from le_refl 14),
    readPrice_fields htime]

theorem recordTick_fields {time : String} {tick : MarketTick} (htime : time ≠ "")
    (hformed : (price time).wellFormed = true)
    (htick : realtimePriceToMarketTick (price time) feed.tradingDate = .ok tick) :
    recordTick feed.tradingDate (fields time) = some tick := by
  unfold recordTick
  rw [readPrice_fields htime]
  simp only [hformed, if_true, htick]
  rfl

theorem tick_first : realtimePriceToMarketTick (price "090100") feed.tradingDate = .ok (tick 9 1 0) :=
  Except.eq_ok_of_toOption (by decide)

theorem run_first (c : Collector) :
    (Collector.consumeFrame json feed first).run c = (Collector.acceptTick (tick 9 1 0)).run c := by
  have hframe : priceFrame? first = some ("001", fields "090100" ++ []) := by decide
  exact consumeFrame_read (by decide) (parse_fields (by decide) hframe) (by decide) tick_first

theorem run_second (c : Collector) :
    (Collector.consumeFrame json feed second).run c = (Collector.acceptTick (tick 9 0 30)).run c := by
  have hframe : priceFrame? second = some ("001", fields "090030" ++ []) := by decide
  exact consumeFrame_read (by decide) (parse_fields (by decide) hframe) (by decide)
    (Except.eq_ok_of_toOption (by decide))

theorem run_pair (c : Collector) :
    (Collector.consumeFrame json feed pair).run c = (Collector.acceptTick (tick 9 1 0)).run c := by
  have hframe : priceFrame? pair = some ("002", fields "090100" ++ fields "090101") := by decide +kernel
  exact consumeFrame_read (by decide +kernel) (parse_fields (by decide) hframe) (by decide) tick_first

theorem expected_pair : expectedTicks feed pair = [tick 9 1 0, tick 9 1 1] := by
  have hrecords : frameRecords pair = [fields "090100", fields "090101"] := by decide +kernel
  have hfirst : recordTick feed.tradingDate (fields "090100") = some (tick 9 1 0) :=
    recordTick_fields (by decide) (by decide) tick_first
  have hsecond : recordTick feed.tradingDate (fields "090101") = some (tick 9 1 1) :=
    recordTick_fields (by decide) (by decide) (Except.eq_ok_of_toOption (by decide))
  unfold expectedTicks ticksOf
  rw [hrecords, List.filterMap_cons_some hfirst, List.filterMap_cons_some hsecond, List.filterMap_nil]
  decide

theorem run_late (c : Collector) :
    (Collector.consume json feed [first, second]).run c =
      (Collector.acceptTick (tick 9 1 0) >>= fun _ => Collector.acceptTick (tick 9 0 30)).run c := by
  rw [show [first, second] = [first] ++ [second] from rfl, consume_concat, Exec.run_bind, Exec.run_bind,
    consume_singleton, run_first]
  rcases (Collector.acceptTick (tick 9 1 0)).run c with ⟨e | _, c'⟩
  · rfl
  · exact run_second c'

/-- The late trade raises after its tick is stored, and of two trades in one frame only
    the first is stored. -/
theorem late_tick_raises :
    Except.exn? ((Collector.consume json feed [first, second]).run opened).1 =
      some (.valueError "ticks must be chronological") ∧
    ¬ CollectionComplete json feed opened [first, second] ∧
    ((Collector.consume json feed [pair]).run opened).2.store.ticks = [tick 9 1 0] ∧
    ¬ CollectionComplete json feed opened [pair] := by
  have hraise : Except.exn? ((Collector.consume json feed [first, second]).run opened).1 =
      some (.valueError "ticks must be chronological") := by
    rw [run_late]
    decide
  have hstored : ((Collector.consume json feed [pair]).run opened).2.store.ticks = [tick 9 1 0] := by
    rw [consume_singleton, run_pair]
    decide
  refine ⟨hraise, fun hcomplete => ?_, hstored, fun hcomplete => ?_⟩
  · exact (Option.some_ne_none _ (hraise.symm.trans hcomplete.run.1)).elim
  · have hticks := hcomplete.run.2
    rw [hstored, List.flatMap_singleton, expected_pair] at hticks
    exact absurd (congrArg List.length hticks) (by decide)

end LateTick

end AutoTrader.Market
