/-
  AutoTrader/Market/Frames.lean
  =============================
  **The frames of the price feed.**

  A websocket text is a JSON message of the server or a price frame
  `0|H0STCNT0|count|fields`.  `parse_realtime_price` reads the first fields of a price
  frame and does not look at the count.  What a frame carries is stated beside it: its
  count says how many records of one width its fields are (`frameRecords`), and
  `recordTick` is the tick of a record that is well formed.
-/
import AutoTrader.Market.Ticks
import AutoTrader.Python.Floats
import AutoTrader.Python.Json
import Mathlib.Data.List.Basic
import Mathlib.Data.List.Infix

namespace AutoTrader

namespace Text

/-- The pieces of `text.split(sep, maxsplit)`, as lists of characters. -/
def splitAtMost (sep : Char) : Nat → List Char → List (List Char)
  | 0, text => [text]
  | n + 1, text =>
    match text.span (· ≠ sep) with
    | (piece, []) => [piece]
    | (piece, _ :: rest) => piece :: splitAtMost sep n rest

/-- `text.split(sep)`. -/
def split (sep : Char) (text : String) : List String := (text.toList.splitOn sep).map String.ofList

/-- `int(s)`, which refuses more than 4300 digits. -/
def toLimitedInt? (s : String) : Option Int :=
  if 4300 < (s.toList.filter fun c => (decimalValue? c).isSome).length then none else toInt? s

/-- `str.upper` as far as ASCII letters come out of it: the dotless i, the long s and the
    sharp s are the other characters that have such an upper case. -/
def upper (s : String) : String :=
  String.ofList (s.toList.flatMap fun c =>
    if c.toNat = 0x131 then ['I'] else if c.toNat = 0x17f then ['S'] else if c.toNat = 0xdf then ['S', 'S']
    else [c.toUpper])

/-- `word in text`. -/
def occursIn (word text : String) : Bool := decide (word.toList <:+: text.toList)

end Text

namespace Market

/-! ### Messages of the server -/

/-- A parsed system message. -/
structure SystemMessage where
  header : List (String × Json)
  body : Option (List (String × Json))

def SystemMessage.toJson (message : SystemMessage) : Json :=
  .dict (("header", .dict message.header) ::
    (message.body.map fun body => ("body", Json.dict body)).toList)

/-- The stripped text starts like a JSON object. -/
def opensObject (text : String) : Bool := (Text.strip text).toList.head? = some '{'

def systemMessageOf : Json → Option SystemMessage
  | .dict payload =>
    match Json.field? payload "header" with
    | some (.dict header) =>
      match Json.field? payload "body" with
      | some (.dict body) => some ⟨header, some body⟩
      | _ => some ⟨header, none⟩
    | _ => none
  | _ => none

/-- `parse_system_message`; only a `JSONDecodeError` is caught. -/
def parseSystemMessage (json : JsonModule) (text : String) : Except Exn (Option SystemMessage) :=
  if opensObject text then
    match json.loads (Text.strip text) with
    | .ok payload => .ok (systemMessageOf payload)
    | .error e => if e.typeName = "JSONDecodeError" then .ok none else .error e
  else .ok none

/-- `is_pingpong`. -/
def isPingpong (json : JsonModule) : Option SystemMessage → Except Exn Bool
  | none => .ok false
  | some message => do
    let trId ← json.str ((Json.field? message.header "tr_id").getD (.text ""))
    .ok (Text.upper trId = "PINGPONG")

/-- `is_subscription_ack`. -/
def isSubscriptionAck (json : JsonModule) : Option SystemMessage → Except Exn Bool
  | none => .ok false
  | some message => do
    let text := Text.upper (← json.dumps message.toJson)
    let spaced := String.ofList (text.toList.map fun c => if c = '_' then ' ' else c)
    .ok (Text.occursIn "SUBSCRIBE SUCCESS" text || Text.occursIn "SUBSCRIBE SUCCESS" spaced)

/-- What a text is for the collector. -/
inductive FrameKind where
  | pingpong
  | acknowledgement
  | data
deriving DecidableEq

/-- The kind of a text, or what reading its JSON raises. -/
def frameKind (json : JsonModule) (text : String) : Except Exn FrameKind := do
  let system ← parseSystemMessage json text
  if ← isPingpong json system then .ok .pingpong
  else if ← isSubscriptionAck json system then .ok .acknowledgement
  else .ok .data

/-! ### Price frames -/

structure RealtimePrice where
  symbol : String
  timestamp : String
  price : PyFloat
  volume : Int
  totalVolume : Int
deriving DecidableEq

def trRealtimePrice : String := "H0STCNT0"

/-- The count and the fields of `0|H0STCNT0|count|fields`. -/
def priceFrame? (text : String) : Option (String × List String) :=
  match (Text.splitAtMost '|' 3 (Text.strip text).toList).map String.ofList with
  | [kind, trId, count, body] =>
    if kind = "0" ∧ trId = trRealtimePrice then some (count, Text.split '^' body) else none
  | _ => none

/-- The checks of `parse_realtime_price` on its fields. -/
def readPrice (fields : List String) : Option RealtimePrice :=
  if fields.length < 14 then none
  else do
    let symbol := fields.getD 0 ""
    let timestamp := fields.getD 1 ""
    let price ← Text.toFloat? (fields.getD 2 "")
    let volume ← Text.toLimitedInt? (fields.getD 12 "")
    let totalVolume ← Text.toLimitedInt? (fields.getD 13 "")
    if Text.isdigit symbol = false ∨ symbol.length ≠ 6 ∨ timestamp = "" ∨ price.nonpos = true then none
    else if volume < 0 ∨ totalVolume < 0 then none
    else some ⟨symbol, timestamp, price, volume, totalVolume⟩

/-- `parse_realtime_price`. -/
def parseRealtimePrice (text : String) : Option RealtimePrice :=
  (priceFrame? text).bind fun frame => readPrice frame.2

/-- `int(timestamp[start:start+2])`. -/
def twoDigits (timestamp : String) (start : Nat) : Except Exn Nat :=
  let digits := String.ofList ((timestamp.toList.drop start).take 2)
  match Text.toNat? digits with
  | some n => .ok n
  | none => .error (.valueError ("invalid literal for int() with base 10: '" ++ digits ++ "'"))

/-- `datetime_time(hour, minute, second)`, as the moment of a day. -/
def clockTime (tradingDate : Int) (hour minute second : Nat) : Except Exn DateTime :=
  if 23 < hour then .error (.valueError "hour must be in 0..23")
  else if 59 < minute then .error (.valueError "minute must be in 0..59")
  else if 59 < second then .error (.valueError "second must be in 0..59")
  else .ok (.combine tradingDate hour minute second none)

/-- `realtime_price_to_market_tick`. -/
def realtimePriceToMarketTick (price : RealtimePrice) (tradingDate : Int) : Except Exn MarketTick :=
  if price.timestamp.length ≠ 6 ∨ Text.isdigit price.timestamp = false then
    .error (.valueError "KIS realtime timestamp must be HHMMSS")
  else do
    let hour ← twoDigits price.timestamp 0
    let minute ← twoDigits price.timestamp 2
    let second ← twoDigits price.timestamp 4
    let timestamp ← clockTime tradingDate hour minute second
    .ok ⟨price.symbol, timestamp, price.price, price.volume⟩

/-! ### What a frame carries -/

/-- The first `n` records of one width. -/
def records (width : Nat) : Nat → List String → List (List String)
  | 0, _ => []
  | n + 1, fields => fields.take width :: records width n (fields.drop width)

/-- A count field: a text of digits. -/
def recordCount? (count : String) : Option Nat :=
  if Text.isdigit count then Text.toNat? count else none

/-- The records of a frame: its fields, cut into as many pieces of one width as its count
    says.  A text that is not a price frame has none. -/
def frameRecords (text : String) : List (List String) :=
  match priceFrame? text with
  | none => []
  | some (count, fields) =>
    match recordCount? count with
    | none => []
    | some n => if n * (fields.length / n) = fields.length then records (fields.length / n) n fields else []

/-- A time `HHMMSS`. -/
def isClockTime (timestamp : String) : Bool :=
  timestamp.length = 6 && Text.isdigit timestamp &&
    match twoDigits timestamp 0, twoDigits timestamp 2, twoDigits timestamp 4 with
    | .ok hour, .ok minute, .ok second => hour ≤ 23 && minute ≤ 59 && second ≤ 59
    | _, _, _ => false

/-- A price that a tick can have: it has a time, is finite and has a volume that can be stored. -/
def RealtimePrice.wellFormed (price : RealtimePrice) : Bool :=
  isClockTime price.timestamp && price.price.price?.isSome && storable price.volume

/-- The tick of a well-formed record. -/
def recordTick (tradingDate : Int) (record : List String) : Option MarketTick :=
  match readPrice record with
  | none => none
  | some price => if price.wellFormed then (realtimePriceToMarketTick price tradingDate).toOption else none

/-! ### A text is a message or a price frame -/

theorem frameKind_of_data (json : JsonModule) {text : String} (h : opensObject text = false) :
    frameKind json text = .ok .data := by
  unfold frameKind parseSystemMessage
  rw [if_neg (by rw [h]; exact Bool.false_ne_true)]
  rfl

/-- A JSON message is no price frame: its first piece starts with a brace. -/
theorem priceFrame?_of_object {text : String} (h : opensObject text = true) : priceFrame? text = none := by
  obtain ⟨rest, hrest⟩ : ∃ rest, (Text.strip text).toList = '{' :: rest := by
    unfold opensObject at h
    rw [decide_eq_true_eq] at h
    exact List.head?_eq_some_iff.mp h
  have hpieces : ∀ n, ∃ piece pieces, Text.splitAtMost '|' n ('{' :: rest) = ('{' :: piece) :: pieces := by
    intro n
    cases n with
    | zero => exact ⟨_, _, rfl⟩
    | succ n =>
      have hspan : ('{' :: rest).span (· ≠ '|') =
          ('{' :: (rest.span (· ≠ '|')).1, (rest.span (· ≠ '|')).2) := by
        rw [List.span_eq_takeWhile_dropWhile, List.span_eq_takeWhile_dropWhile]
        rfl
      unfold Text.splitAtMost
      rw [hspan]
      cases (rest.span (· ≠ '|')).2 with
      | nil => exact ⟨_, _, rfl⟩
      | cons c more => exact ⟨_, _, rfl⟩
  obtain ⟨piece, pieces, hsplit⟩ := hpieces 3
  have hkind : String.ofList ('{' :: piece) ≠ "0" := by
    intro heq
    have hlist := congrArg String.toList heq
    rw [String.toList_ofList] at hlist
    cases hlist
  unfold priceFrame?
  rw [hrest, hsplit, List.map_cons]
  split
  · rename_i heq
    obtain ⟨hhead, -⟩ := List.cons.inj heq
    rw [if_neg fun hboth => hkind (hhead.trans hboth.1)]
  · rfl

/-! ### The time of a record -/

/-- A time is converted exactly when it is `HHMMSS`, to a naive `datetime`. -/
theorem realtimePriceToMarketTick_of_clockTime {price : RealtimePrice} (tradingDate : Int)
    (h : isClockTime price.timestamp = true) :
    ∃ tick, realtimePriceToMarketTick price tradingDate = .ok tick ∧ tick.symbol = price.symbol ∧
      tick.price = price.price ∧ tick.volume = price.volume ∧ tick.timestamp.offset = none := by
  unfold isClockTime at h
  rw [Bool.and_eq_true, Bool.and_eq_true, decide_eq_true_eq] at h
  obtain ⟨⟨hlength, hdigits⟩, htime⟩ := h
  have hshape : ¬ (price.timestamp.length ≠ 6 ∨ Text.isdigit price.timestamp = false) := by
    rw [hdigits]
    simp [hlength]
  unfold realtimePriceToMarketTick
  rw [if_neg hshape]
  cases hhour : twoDigits price.timestamp 0 with
  | error e =>
    rw [hhour] at htime
    cases htime
  | ok hour =>
    cases hminute : twoDigits price.timestamp 2 with
    | error e =>
      rw [hhour, hminute] at htime
      cases htime
    | ok minute =>
      cases hsecond : twoDigits price.timestamp 4 with
      | error e =>
        rw [hhour, hminute, hsecond] at htime
        cases htime
      | ok second =>
        rw [hhour, hminute, hsecond] at htime
        simp only [Bool.and_eq_true, decide_eq_true_eq] at htime
        refine ⟨⟨price.symbol, .combine tradingDate hour minute second none, price.price, price.volume⟩,
          ?_, rfl, rfl, rfl, rfl⟩
        simp only [clockTime, Bind.bind, Except.bind, not_lt.mpr htime.1.1, not_lt.mpr htime.1.2,
          not_lt.mpr htime.2, if_false]

theorem clockTime_of_ok {price : RealtimePrice} {tradingDate : Int} {tick : MarketTick}
    (h : realtimePriceToMarketTick price tradingDate = .ok tick) : isClockTime price.timestamp = true := by
  unfold realtimePriceToMarketTick at h
  split_ifs at h with hshape
  obtain ⟨hour, hhour, h⟩ := Except.bind_eq_ok h
  obtain ⟨minute, hminute, h⟩ := Except.bind_eq_ok h
  obtain ⟨second, hsecond, h⟩ := Except.bind_eq_ok h
  obtain ⟨timestamp, hclock, -⟩ := Except.bind_eq_ok h
  simp only [not_or, not_not, Bool.not_eq_false] at hshape
  unfold clockTime at hclock
  split_ifs at hclock with hhour' hminute' hsecond'
  unfold isClockTime
  rw [hhour, hminute, hsecond]
  simp [hshape.1, hshape.2, not_lt.mp hhour', not_lt.mp hminute', not_lt.mp hsecond']

theorem readPrice_price {fields : List String} {price : RealtimePrice} (h : readPrice fields = some price) :
    14 ≤ fields.length ∧ price.price.nonpos = false := by
  unfold readPrice at h
  split_ifs at h with hlength
  obtain ⟨x, -, h⟩ := Option.bind_eq_some_iff.mp h
  obtain ⟨volume, -, h⟩ := Option.bind_eq_some_iff.mp h
  obtain ⟨total, -, h⟩ := Option.bind_eq_some_iff.mp h
  split_ifs at h with hfields
  cases h
  simp only [not_or, Bool.not_eq_true] at hfields
  exact ⟨not_lt.mp hlength, hfields.2.2.2⟩

/-! ### The records of a frame -/

/-- The parser does not look beyond the fields of the first record. -/
theorem readPrice_append {record : List String} (rest : List String) (h : 14 ≤ record.length) :
    readPrice (record ++ rest) = readPrice record := by
  have hget : ∀ i, i < 14 → (record ++ rest).getD i "" = record.getD i "" := by
    intro i hi
    rw [List.getD_eq_getElem?_getD, List.getD_eq_getElem?_getD, List.getElem?_append_left (by omega)]
  have hlength : ¬ (record ++ rest).length < 14 := by
    rw [List.length_append]
    omega
  unfold readPrice
  rw [if_neg hlength, if_neg (not_lt.mpr h), hget 0 (by decide), hget 1 (by decide), hget 2 (by decide),
    hget 12 (by decide), hget 13 (by decide)]

theorem length_of_mem_records {width n : Nat} {fields record : List String}
    (hfields : n * width ≤ fields.length) (h : record ∈ records width n fields) : record.length = width := by
  induction n generalizing fields with
  | zero => cases h
  | succ n ih =>
    rw [Nat.succ_mul] at hfields
    rcases List.mem_cons.mp h with rfl | hrest
    · rw [List.length_take]
      omega
    · refine ih ?_ hrest
      rw [List.length_drop]
      omega

/-- The first record of a frame begins its fields, and every other is as wide. -/
theorem frameRecords_eq_cons {text : String} {record : List String} {rest : List (List String)}
    (h : frameRecords text = record :: rest) :
    (∃ count more, priceFrame? text = some (count, record ++ more)) ∧
      ∀ other ∈ frameRecords text, other.length = record.length := by
  unfold frameRecords at h ⊢
  cases hframe : priceFrame? text with
  | none =>
    rw [hframe] at h
    cases h
  | some frame =>
    obtain ⟨count, fields⟩ := frame
    rw [hframe] at h
    simp only at h ⊢
    cases hcount : recordCount? count with
    | none =>
      rw [hcount] at h
      cases h
    | some n =>
      rw [hcount] at h
      simp only at h ⊢
      split_ifs at h with hwidth
      rw [if_pos hwidth]
      have hall : ∀ other ∈ records (fields.length / n) n fields, other.length = fields.length / n :=
        fun other hother => length_of_mem_records hwidth.le hother
      cases n with
      | zero => cases h
      | succ n =>
        obtain ⟨hfirst, -⟩ := List.cons.inj h
        have hlength := hall record (by rw [h]; exact List.mem_cons_self)
        refine ⟨⟨count, fields.drop (fields.length / (n + 1)), ?_⟩, fun other hother => ?_⟩
        · rw [← hfirst, List.take_append_drop]
        · rw [hlength, hall other hother]

theorem frameRecords_of_object {text : String} (h : opensObject text = true) : frameRecords text = [] := by
  unfold frameRecords
  rw [priceFrame?_of_object h]

theorem recordTick_eq_some {tradingDate : Int} {record : List String} {tick : MarketTick}
    (h : recordTick tradingDate record = some tick) :
    ∃ price, readPrice record = some price ∧ price.wellFormed = true ∧
      realtimePriceToMarketTick price tradingDate = .ok tick := by
  unfold recordTick at h
  cases hprice : readPrice record with
  | none =>
    rw [hprice] at h
    cases h
  | some price =>
    rw [hprice] at h
    simp only at h
    split_ifs at h with hformed
    exact ⟨price, rfl, hformed, Except.eq_ok_of_toOption h⟩

end Market

end AutoTrader
