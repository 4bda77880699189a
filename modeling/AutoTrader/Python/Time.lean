/-
  AutoTrader/Python/Time.lean
  ===========================
  **Timestamps and the exchange session.**

  A `datetime` is its wall clock in microseconds since 1970-01-01 and, when it is
  aware, its UTC offset.  Rows keep the `datetime`; the storage layer orders them
  by `isoformat`, which is why the text is modelled exactly.

  The exchange calendar is a third-party package: it is a parameter, and the
  weekday rule the source falls back on is the case without one.
-/
import AutoTrader.Python.Values

namespace AutoTrader

/-- A `datetime`: wall clock in microseconds, UTC offset in seconds if aware. -/
structure DateTime where
  wall : Int
  offset : Option Int
deriving DecidableEq

namespace DateTime

def microsPerSecond : Int := 1000000
def secondsPerDay : Int := 86400

/-- `timedelta(hours=9)`. -/
def kstOffset : Int := 9 * 3600

/-- Days since 1970-01-01 on the wall clock, `date()`. -/
def date (t : DateTime) : Int := t.wall / (secondsPerDay * microsPerSecond)

/-- Microseconds since midnight on the wall clock, `time()`. -/
def time (t : DateTime) : Int := t.wall % (secondsPerDay * microsPerSecond)

/-- `weekday()`: Monday is 0, and 1970-01-01 was a Thursday. -/
def weekday (t : DateTime) : Int := (t.date + 3) % 7

/-- `datetime.combine(date, time(hour, minute, second), tzinfo)`. -/
def combine (date : Int) (hour minute second : Nat) (offset : Option Int) : DateTime :=
  ⟨(date * secondsPerDay + (hour * 3600 + minute * 60 + second : Nat)) * microsPerSecond, offset⟩

/-- The year, month and day of a day number, in the proleptic Gregorian calendar. -/
def civil (days : Int) : Int × Int × Int :=
  let z := days + 719468
  let era := z / 146097
  let doe := z % 146097
  let yoe := (doe - doe / 1460 + doe / 36524 - doe / 146096) / 365
  let doy := doe - (365 * yoe + yoe / 4 - yoe / 100)
  let mp := (5 * doy + 2) / 153
  let day := doy - (153 * mp + 2) / 5 + 1
  let month := if mp < 10 then mp + 3 else mp - 9
  (yoe + era * 400 + (if month ≤ 2 then 1 else 0), month, day)

/-- A number with leading zeros, `%0wd`. -/
def padded (width : Nat) (n : Int) : String :=
  let digits := toString n.toNat
  String.ofList (List.replicate (width - digits.length) '0') ++ digits

/-- The suffix of an aware `isoformat`. -/
def offsetText : Option Int → String
  | none => ""
  | some o =>
    let a := if o < 0 then -o else o
    (if o < 0 then "-" else "+") ++ padded 2 (a / 3600) ++ ":" ++ padded 2 (a / 60 % 60) ++
      (if a % 60 = 0 then "" else ":" ++ padded 2 (a % 60))

/-- `date().isoformat()`, a `T`, and the time to the minute. -/
def minuteText (t : DateTime) : String :=
  let (y, m, d) := civil t.date
  let s := t.time / microsPerSecond
  padded 4 y ++ "-" ++ padded 2 m ++ "-" ++ padded 2 d ++ "T" ++
    padded 2 (s / 3600) ++ ":" ++ padded 2 (s / 60 % 60)

/-- `isoformat()`. -/
def isoformat (t : DateTime) : String :=
  let s := t.time / microsPerSecond
  let micros := t.time % microsPerSecond
  t.minuteText ++ ":" ++ padded 2 (s % 60) ++
    (if micros = 0 then "" else "." ++ padded 6 micros) ++ offsetText t.offset

/-- `isoformat(timespec='minutes')`. -/
def isoformatMinutes (t : DateTime) : String := t.minuteText ++ offsetText t.offset

/-- The day number of a date, in the proleptic Gregorian calendar. -/
def dayNumber (year month day : Int) : Int :=
  let y := if month ≤ 2 then year - 1 else year
  let doy := (153 * ((month + 9) % 12) + 2) / 5 + day - 1
  y / 400 * 146097 + (y % 400 * 365 + y % 400 / 4 - y % 400 / 100 + doy) - 719468

/-- The number that `len` digits from a position stand for. -/
def digitsAt (text : List Char) (start len : Nat) : Int :=
  ((text.drop start).take len).foldl (fun n c => 10 * n + ((c.toNat : Int) - 48)) 0

/-- The fields of an `isoformat` text by their positions. -/
def readFields (text : List Char) : DateTime :=
  let clock := digitsAt text 11 2 * 3600 + digitsAt text 14 2 * 60 + digitsAt text 17 2
  let day := dayNumber (digitsAt text 0 4) (digitsAt text 5 2) (digitsAt text 8 2)
  let rest := text.drop 19
  let (micros, zone) := match rest with
    | '.' :: _ => (digitsAt rest 1 6, rest.drop 7)
    | _ => (0, rest)
  let seconds := digitsAt zone 1 2 * 3600 + digitsAt zone 4 2 * 60 + digitsAt zone 7 2
  ⟨(day * secondsPerDay + clock) * microsPerSecond + micros,
    match zone with
    | [] => none
    | sign :: _ => some (if sign = '-' then -seconds else seconds)⟩

/-- `fromisoformat(text)` on the texts that `isoformat` writes; `none` is its `ValueError`. -/
def fromisoformat? (text : String) : Option DateTime :=
  let t := readFields text.toList
  if t.isoformat = text then some t else none

/-- Microseconds since the epoch of an aware `datetime`; a naive one is read as KST. -/
def instant (t : DateTime) : Int := t.wall - t.offset.getD kstOffset * microsPerSecond

/-- `astimezone(KST)` of an aware `datetime`. -/
def toKst (t : DateTime) : DateTime := ⟨t.instant + kstOffset * microsPerSecond, some kstOffset⟩

/-- `as_kst`: naive values are kept, aware ones become naive KST. -/
def asKst (t : DateTime) : DateTime :=
  match t.offset with
  | none => t
  | some _ => { t.toKst with offset := none }

/-- Microseconds since the epoch; a naive `datetime` is read as UTC. -/
def utcInstant (t : DateTime) : Int := t.wall - t.offset.getD 0 * microsPerSecond

/-- `0001-01-01T00:00:00`, the first wall clock. -/
def minWall : Int := -719162 * secondsPerDay * microsPerSecond

/-- `9999-12-31T23:59:59.999999`, the last wall clock. -/
def maxWall : Int := 2932897 * secondsPerDay * microsPerSecond - 1

/-- `t + delta`, for a `timedelta` of so many microseconds. -/
def add (t : DateTime) (delta : Int) : Except Exn DateTime :=
  if minWall ≤ t.wall + delta ∧ t.wall + delta ≤ maxWall then .ok { t with wall := t.wall + delta }
  else .error (.other "OverflowError" "date value out of range")

end DateTime

/-- Rounding to the nearest whole number, ties to the even one. -/
def roundHalfEven (q : ℚ) : Int :=
  let below := q.floor
  if q - below < 1 / 2 then below
  else if 1 / 2 < q - below then below + 1
  else if below % 2 = 0 then below else below + 1

/-- `timedelta(seconds=q)` in microseconds. -/
def timedelta (seconds : ℚ) : Int := roundHalfEven (seconds * DateTime.microsPerSecond)

/-! ### Timestamps as texts -/

/-- What a TEXT column for timestamps holds: the `isoformat` of a `datetime`, or a
    text that neither `fromisoformat` nor SQLite reads. -/
inductive TimeText where
  | iso (t : DateTime)
  | unreadable (text : String)
deriving DecidableEq

namespace TimeText

/-- `datetime.fromisoformat(text)`. -/
def fromisoformat : TimeText → Except Exn DateTime
  | .iso t => .ok t
  | .unreadable text => .error (.valueError ("Invalid isoformat string: '" ++ text ++ "'"))

/-- `julianday(text)` as an instant: a text without an offset is UTC, a text that
    is no timestamp gives NULL. -/
def julianday : TimeText → Option Int
  | .iso t => some t.utcInstant
  | .unreadable _ => none

end TimeText

/-- `a <= b` in SQL: not true when a side is NULL. -/
def sqlLe : Option Int → Option Int → Bool
  | some a, some b => a ≤ b
  | _, _ => false

/-- `a > b` in SQL. -/
def sqlGt : Option Int → Option Int → Bool
  | some a, some b => b < a
  | _, _ => false

/-! ### The exchange session (market/schedule.py) -/

/-- The exchange calendar package, when it is installed: whether the exchange is
    open in a minute of naive KST. -/
abbrev Calendar := Option (DateTime → Bool)

namespace Schedule

/-- `time(hour, minute)` in microseconds. -/
def clock (hour minute : Int) : Int := (hour * 3600 + minute * 60) * DateTime.microsPerSecond

def regularOrderStart : Int := clock 9 0
def regularOrderEnd : Int := clock 15 20
def newEntryEnd : Int := clock 15 0
def forcedExitStart : Int := clock 15 10

def isRegularMarketOpen (calendar : Calendar) (value : DateTime) : Bool :=
  let now := value.asKst
  match calendar with
  | some isOpenOnMinute => isOpenOnMinute now
  | none => now.weekday < 5 && (regularOrderStart ≤ now.time && now.time ≤ regularOrderEnd)

def isNewEntryWindow (calendar : Calendar) (value : DateTime) : Bool :=
  let now := value.asKst
  isRegularMarketOpen calendar now && (regularOrderStart ≤ now.time && now.time ≤ newEntryEnd)

def isForcedExitWindow (calendar : Calendar) (value : DateTime) : Bool :=
  let now := value.asKst
  isRegularMarketOpen calendar now && (forcedExitStart ≤ now.time && now.time ≤ regularOrderEnd)

def isPreviousTradingDayPosition (openedAt now : DateTime) : Bool :=
  openedAt.asKst.date < now.asKst.date

end Schedule

end AutoTrader
