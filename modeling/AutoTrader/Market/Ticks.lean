/-
  AutoTrader/Market/Ticks.lean
  ============================
  **Ticks, the bars built from them, and their two tables.**

  A `MinuteBarBuilder` folds the ticks of one symbol into one-minute bars and hands a bar
  out when a tick of a later minute arrives.  `save_tick` and `save_bar` write
  `market_ticks` and `bars_1m`: SQLite takes integers of 64 bits only, and a NaN becomes a
  NULL, which the columns refuse.
-/
import AutoTrader.Lib.Exec
import AutoTrader.Lib.Table
import AutoTrader.Python.Time

namespace AutoTrader.Market

open Relational Transactional

structure MarketTick where
  symbol : String
  timestamp : DateTime
  price : PyFloat
  volume : Int
deriving DecidableEq

structure MinuteBar where
  symbol : String
  start : DateTime
  openPrice : PyFloat
  high : PyFloat
  low : PyFloat
  close : PyFloat
  volume : Int
deriving DecidableEq

/-! ### The bar builder -/

/-- `max(a, b)` of two floats: `a` unless `b` is above it. -/
def maxPrice (a b : PyFloat) : PyFloat := if a.lt b then b else a

/-- `min(a, b)` of two floats: `a` unless `b` is below it. -/
def minPrice (a b : PyFloat) : PyFloat := if b.lt a then b else a

/-- `a < b`; a naive `datetime` and an aware one cannot be compared. -/
def before (a b : DateTime) : Except Exn Bool :=
  if a.offset.isSome = b.offset.isSome then .ok (a.utcInstant < b.utcInstant)
  else .error (.typeError "can't compare offset-naive and offset-aware datetimes")

namespace MarketTick

/-- `tick.timestamp.replace(second=0, microsecond=0)`. -/
def start (tick : MarketTick) : DateTime :=
  { tick.timestamp with wall := tick.timestamp.wall - tick.timestamp.wall % (60 * DateTime.microsPerSecond) }

/-- The bar that begins with a tick. -/
def firstBar (tick : MarketTick) : MinuteBar :=
  ⟨tick.symbol, tick.start, tick.price, tick.price, tick.price, tick.price, tick.volume⟩

end MarketTick

/-- A bar after one more tick of its minute. -/
def MinuteBar.add (bar : MinuteBar) (tick : MarketTick) : MinuteBar :=
  ⟨bar.symbol, bar.start, bar.openPrice, maxPrice bar.high tick.price, minPrice bar.low tick.price,
    tick.price, bar.volume + tick.volume⟩

/-- `MinuteBarBuilder.update`: the bar that is being built afterwards, and the bar that
    is completed.  An exception leaves the builder as it is. -/
def updateBuilder (building : Option MinuteBar) (tick : MarketTick) :
    Except Exn (MinuteBar × Option MinuteBar) :=
  match building with
  | none => .ok (tick.firstBar, none)
  | some bar =>
    if tick.symbol ≠ bar.symbol then .error (.valueError "bar builder accepts one symbol")
    else do
      if ← before tick.start bar.start then .error (.valueError "ticks must be chronological")
      else if tick.start.utcInstant = bar.start.utcInstant then .ok (bar.add tick, none)
      else .ok (tick.firstBar, some bar)

/-! ### The tables -/

/-- `market_ticks` in the order of its rows, and `bars_1m`. -/
structure MarketStore where
  ticks : List MarketTick
  bars : Table MinuteBar fun bar => (bar.symbol, bar.start)

/-- An integer that SQLite can hold. -/
def storable (n : Int) : Bool := -2 ^ 63 ≤ n && n < 2 ^ 63

/-- Binding an integer to a statement. -/
def bindInt (n : Int) : Exec MarketStore Exn Unit :=
  .require (storable n) (.other "OverflowError" "Python int too large to convert to SQLite INTEGER")

/-- A `NOT NULL` column of numbers. -/
def notNull (column : String) (x : PyFloat) : Exec MarketStore Exn Unit :=
  .require (x ≠ .nan) (.integrityError ("NOT NULL constraint failed: " ++ column))

/-- `save_tick`. -/
def saveTick (tick : MarketTick) : Exec MarketStore Exn Unit := do
  bindInt tick.volume
  notNull "market_ticks.price" tick.price
  .statement fun store =>
    ((), { store with ticks := store.ticks ++ [{ tick with timestamp := tick.timestamp.asKst }] })

/-- `save_bar`: a bar of the same minute is replaced. -/
def saveBar (bar : MinuteBar) : Exec MarketStore Exn Unit := do
  bindInt bar.volume
  notNull "bars_1m.open" bar.openPrice
  notNull "bars_1m.high" bar.high
  notNull "bars_1m.low" bar.low
  notNull "bars_1m.close" bar.close
  .statement fun store =>
    ((), { store with bars := store.bars.upsert { bar with start := bar.start.asKst } })

/-! ### What they do -/

/-- A bar without a NaN can be stored if its volume can. -/
structure MinuteBar.Numeric (bar : MinuteBar) : Prop where
  openPrice : bar.openPrice ≠ .nan
  high : bar.high ≠ .nan
  low : bar.low ≠ .nan
  close : bar.close ≠ .nan

theorem maxPrice_ne_nan {a b : PyFloat} (ha : a ≠ .nan) (hb : b ≠ .nan) : maxPrice a b ≠ .nan := by
  unfold maxPrice
  split
  · exact hb
  · exact ha

theorem minPrice_ne_nan {a b : PyFloat} (ha : a ≠ .nan) (hb : b ≠ .nan) : minPrice a b ≠ .nan := by
  unfold minPrice
  split
  · exact hb
  · exact ha

theorem MarketTick.firstBar_numeric {tick : MarketTick} (h : tick.price ≠ .nan) :
    tick.firstBar.Numeric := ⟨h, h, h, h⟩

theorem MinuteBar.Numeric.add {bar : MinuteBar} {tick : MarketTick} (h : bar.Numeric)
    (htick : tick.price ≠ .nan) : (bar.add tick).Numeric :=
  ⟨h.openPrice, maxPrice_ne_nan h.high htick, minPrice_ne_nan h.low htick, htick⟩

section Store

variable (store : MarketStore)

theorem saveTick_ok {tick : MarketTick} (hvolume : storable tick.volume = true)
    (hprice : tick.price ≠ .nan) (hnaive : tick.timestamp.offset = none) :
    (saveTick tick).run store = (.ok (), { store with ticks := store.ticks ++ [tick] }) := by
  have hkst : tick.timestamp.asKst = tick.timestamp := by
    unfold DateTime.asKst
    rw [hnaive]
  simp [saveTick, bindInt, notNull, hvolume, hprice, hkst]

theorem bindInt_error {α : Type} {n : Int} {rest : Unit → Exec MarketStore Exn α}
    (h : ¬ storable n = true) :
    (bindInt n >>= rest).run store =
      (.error (.other "OverflowError" "Python int too large to convert to SQLite INTEGER"), store) := by
  simp [bindInt, h]

theorem saveTick_error {tick : MarketTick} (h : ¬ (storable tick.volume = true ∧ tick.price ≠ .nan)) :
    ∃ e, (saveTick tick).run store = (.error e, store) := by
  by_cases hvolume : storable tick.volume = true
  · have hprice : tick.price = .nan := by
      by_contra hprice
      exact h ⟨hvolume, hprice⟩
    refine ⟨.integrityError ("NOT NULL constraint failed: " ++ "market_ticks.price"), ?_⟩
    simp [saveTick, bindInt, notNull, hvolume, hprice]
  · exact ⟨_, bindInt_error store hvolume⟩

theorem saveBar_ok {bar : MinuteBar} (hbar : bar.Numeric) (hvolume : storable bar.volume = true) :
    (saveBar bar).run store =
      (.ok (), { store with bars := store.bars.upsert { bar with start := bar.start.asKst } }) := by
  simp [saveBar, bindInt, notNull, hvolume, hbar.openPrice, hbar.high, hbar.low, hbar.close]

theorem saveBar_error {bar : MinuteBar} (hvolume : ¬ storable bar.volume = true) :
    ∃ e, (saveBar bar).run store = (.error e, store) :=
  ⟨_, bindInt_error store hvolume⟩

end Store

end AutoTrader.Market
