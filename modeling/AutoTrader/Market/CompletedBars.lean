/-
  AutoTrader/Market/CompletedBars.lean
  ====================================
  **One-minute bars made from the stored ticks.**

  `materialize_completed_bars` reads the ticks of a window in the order SQLite returns
  them, without exact duplicates, and keeps one aggregate for each symbol and minute.  The
  aggregate carries the order of its first and last tick, so that the bars are those of the
  ticks themselves: neither the batches nor the order of the rows show in them.

  SQLite chooses the order of the grouped rows; it is a parameter, and all that is known of
  it is that it is a permutation.
-/
import AutoTrader.Lib.Streaming
import AutoTrader.Market.Ticks
import AutoTrader.Python.IsoOrder
import Mathlib.Data.List.Sort
import Mathlib.Data.Prod.Lex

namespace AutoTrader.Market

open Relational Transactional

namespace CompletedBars

def minuteMicros : Int := 60 * DateTime.microsPerSecond

def overflow : Exn := .other "OverflowError" "date value out of range"

/-- `_aware_kst`: a naive time is in KST, and the conversion of another can leave the calendar. -/
def awareKst (t : DateTime) : Except Exn DateTime :=
  if t.toKst.InRange then .ok t.toKst else .error overflow

/-- `_minute_start` of a time in KST. -/
def minuteStart (t : DateTime) : DateTime := { t with wall := t.wall - t.wall % minuteMicros }

/-- `timedelta(minutes=minutes)` in microseconds. -/
def timedeltaMinutes (minutes : Int) : Except Exn Int :=
  let days := minutes / 1440
  if 2147483647 < days then .error (.other "OverflowError" "Python int too large to convert to C int")
  else if 999999999 < days then
    .error (.other "OverflowError" ("days=" ++ toString days ++ "; must have magnitude <= 999999999"))
  else .ok (minutes * minuteMicros)

/-- `date + timedelta(days=delta)`. -/
def shiftDate (date delta : Int) : Except Exn Int :=
  if -719162 ≤ date + delta ∧ date + delta ≤ 2932896 then .ok (date + delta) else .error overflow

def validateSymbols : Option (List String) → Except Exn (Option (List String))
  | none => .ok none
  | some symbols =>
    if symbols.any fun symbol => !Text.isdigit symbol || symbol.length ≠ 6 then
      .error (.valueError "domestic stock symbols must be six-digit codes")
    else if symbols = [] then .error (.valueError "symbols must not be empty")
    else .ok (some symbols.eraseDups)

def checkArguments (asOf : Option DateTime) (batchSize lookbackMinutes : Int) : Except Exn Unit :=
  if asOf.any (·.offset.isNone) then .error (.valueError "as_of must be timezone-aware")
  else if batchSize ≤ 0 then .error (.valueError "batch_size must be a positive integer")
  else if lookbackMinutes ≤ 0 then .error (.valueError "lookback_minutes must be a positive integer")
  else .ok ()

/-- A row of the grouped query. -/
structure TickRow where
  tick : MarketTick
  firstRowid : Nat
deriving DecidableEq

namespace TickRow

/-- `(timestamp.astimezone(timezone.utc), first_rowid)`; tuples compare like a dictionary. -/
def order (row : TickRow) : ℤ ×ₗ ℕ := toLex (row.tick.timestamp.instant, row.firstRowid)

/-- The minute of the row. -/
def start (row : TickRow) : DateTime := minuteStart row.tick.timestamp.toKst

end TickRow

/-- `GROUP BY symbol, timestamp, price, volume`. -/
def SameGroup (a b : MarketTick) : Prop :=
  a.symbol = b.symbol ∧ a.timestamp.isoformat = b.timestamp.isoformat ∧ a.price = b.price ∧
    a.volume = b.volume

instance (a b : MarketTick) : Decidable (SameGroup a b) :=
  inferInstanceAs (Decidable (_ ∧ _ ∧ _ ∧ _))

/-- The groups of some numbered ticks, each with its first row. -/
def groups (rows : List (MarketTick × Nat)) : List TickRow :=
  (rows.filter fun r => ∀ r' ∈ rows, SameGroup r'.1 r.1 → r.2 ≤ r'.2).map fun r => ⟨r.1, r.2⟩

/-- `symbols` is not given, or the symbol is among them. -/
def Wanted (selected : Option (List String)) (symbol : String) : Prop := ∀ symbols ∈ selected, symbol ∈ symbols

instance (selected : Option (List String)) (symbol : String) : Decidable (Wanted selected symbol) :=
  match selected with
  | none => isTrue nofun
  | some symbols => decidable_of_iff (symbol ∈ symbols) (by simp [Wanted])

/-- The query, but for the order of its rows. -/
def selectRows (ticks : List MarketTick) (selected : Option (List String)) (sqlStart sqlEnd : String) :
    List TickRow :=
  groups ((ticks.zipIdx 1).filter fun r =>
    sqlStart ≤ r.1.timestamp.isoformat ∧ r.1.timestamp.isoformat < sqlEnd ∧ Wanted selected r.1.symbol)

structure MinuteAggregate where
  symbol : String
  start : DateTime
  openPrice : PyFloat
  high : PyFloat
  low : PyFloat
  close : PyFloat
  volume : Int
  firstOrder : ℤ ×ₗ ℕ
  lastOrder : ℤ ×ₗ ℕ
deriving DecidableEq

namespace MinuteAggregate

def single (row : TickRow) : MinuteAggregate :=
  ⟨row.tick.symbol, row.start, row.tick.price, row.tick.price, row.tick.price, row.tick.price,
    row.tick.volume, row.order, row.order⟩

/-- The aggregate after one more row of its minute. -/
def add (a : MinuteAggregate) (row : TickRow) : MinuteAggregate :=
  { a with
    high := maxPrice a.high row.tick.price
    low := minPrice a.low row.tick.price
    volume := a.volume + row.tick.volume
    openPrice := if row.order < a.firstOrder then row.tick.price else a.openPrice
    firstOrder := if row.order < a.firstOrder then row.order else a.firstOrder
    close := if a.lastOrder < row.order then row.tick.price else a.close
    lastOrder := if a.lastOrder < row.order then row.order else a.lastOrder }

def bar (a : MinuteAggregate) : MinuteBar := ⟨a.symbol, a.start, a.openPrice, a.high, a.low, a.close, a.volume⟩

end MinuteAggregate

/-- The dictionary of the aggregates. -/
abbrev Aggregates := List ((String × DateTime) × MinuteAggregate)

def fileRow : Aggregates → TickRow → Aggregates :=
  Streaming.file (fun row => (row.tick.symbol, row.start)) .single .add

/-- One pass of the loop over the rows. -/
def addRow (rangeStart watermark : DateTime) (aggregates : Aggregates) (row : TickRow) :
    Except Exn Aggregates := do
  let timestamp ← awareKst row.tick.timestamp
  if timestamp.instant < rangeStart.instant ∨ watermark.instant < timestamp.instant then
    return aggregates
  let stop ← (minuteStart timestamp).add minuteMicros
  if watermark.instant < stop.instant then return aggregates
  return fileRow aggregates row

/-- The bars, sorted by symbol and start. -/
def barsOf (aggregates : Aggregates) : List MinuteBar :=
  ((aggregates.map Prod.snd).insertionSort fun a b =>
    a.symbol < b.symbol ∨ (a.symbol = b.symbol ∧ a.start.instant ≤ b.start.instant)).map (·.bar)

end CompletedBars

open CompletedBars

/-- The bars that `materialize_completed_bars` computes from the ticks; `arrange` is the order
    in which the cursor returns the rows. -/
def completedBars (arrange : List TickRow → List TickRow) (ticks : List MarketTick)
    (symbols : Option (List String)) (asOf : Option DateTime) (now : DateTime)
    (batchSize lookbackMinutes : Int) : Except Exn (List MinuteBar) := do
  let selected ← validateSymbols symbols
  checkArguments asOf batchSize lookbackMinutes
  let watermark ← awareKst (asOf.getD now)
  let lookback ← timedeltaMinutes lookbackMinutes
  let rangeStart ← watermark.add (-lookback)
  let sqlStart ← shiftDate rangeStart.date (-1)
  let sqlEnd ← shiftDate watermark.date 2
  let rows := arrange (selectRows ticks selected (DateTime.dateText sqlStart) (DateTime.dateText sqlEnd))
  let aggregates ← (Streaming.batches batchSize.toNat rows.length rows).foldlM
    (fun aggregates batch => batch.foldlM (addRow rangeStart watermark) aggregates) []
  return barsOf aggregates

def materializeCompletedBars (arrange : List TickRow → List TickRow) (symbols : Option (List String))
    (asOf : Option DateTime) (now : DateTime) (batchSize lookbackMinutes : Int) :
    Exec MarketStore Exn (List MinuteBar) := do
  let ticks ← .query (·.ticks)
  let bars ← .ofExcept (completedBars arrange ticks symbols asOf now batchSize lookbackMinutes)
  bars.forM saveBar
  return bars

end AutoTrader.Market
