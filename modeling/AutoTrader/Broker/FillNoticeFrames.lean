/-
  AutoTrader/Broker/FillNoticeFrames.lean
  =======================================
  **The encrypted frames of the fill-notice feed.**

  A frame `1|tr_id|count|payload` carries `count` records of 26 fields, joined by `^` and
  encrypted.  `parse_fill_notice_events` returns a notice for every record if all of them
  are well formed, and nothing at all otherwise.

  The decryption is a parameter: `decrypt_aes_cbc_base64` either returns a text or raises a
  `ValueError`.
-/
import AutoTrader.Lib.Validation
import AutoTrader.Market.Frames
import AutoTrader.Pipeline.FillNotice

namespace AutoTrader.FillNotices

open Validation

inductive KisEnvironment where
  | demo
  | real
deriving DecidableEq

/-- `fill_notice_tr_id`. -/
def fillNoticeTrId : KisEnvironment → String
  | .real => "H0STCNI0"
  | .demo => "H0STCNI9"

def fillNoticeTrIds : List String := [fillNoticeTrId .real, fillNoticeTrId .demo]

/-- The number of `FILL_NOTICE_COLUMNS`. -/
def columns : Nat := 26

/-- A `FillNotice` with the customer and account numbers. -/
structure ReceivedNotice extends FillNotice where
  customerId : String
  accountNo : String
deriving DecidableEq

/-- What a websocket hands over. -/
inductive Frame where
  | text (raw : String)
  | bytes (raw : ByteArray)

/-- The text of a frame; bytes are decoded as UTF-8. -/
def Frame.text? : Frame → Option String
  | .text raw => some raw
  | .bytes raw => String.fromUTF8? raw

/-! ### The parser -/

def expect (c : Bool) (message : String) : Except Exn Unit := if c then .ok () else .error (.valueError message)

/-- `int(text)` of a text of digits, of which it takes at most 4300. -/
def readInt (text : String) : Except Exn Nat :=
  if 4300 < text.length then
    .error (.valueError ("Exceeds the limit (4300 digits) for integer string conversion: value has " ++
      toString text.length ++ " digits; use sys.set_int_max_str_digits() to increase the limit"))
  else intOfDigits text

def intField (value name : String) (positive : Bool) : Except Exn Nat :=
  if value = "" ∨ value.toList.head? = some '+' ∨ Text.isdigit value = false then
    .error (.valueError ("invalid " ++ name))
  else do
    let result ← readInt value
    expect (!positive || 0 < result) ("invalid " ++ name)
    .ok result

/-- `_public_text`, and `_secret_text` with the same message. -/
def publicText (value name : String) : Except Exn String := do
  expect (Text.strip value ≠ "") ("invalid " ++ name)
  expect (!(Text.strip value).toList.any fun c => c.toNat < 32 || c.toNat == 127) ("invalid " ++ name)
  .ok (Text.strip value)

/-- `int(fill_time[start:stop]) <= limit`. -/
def clockField (fillTime : String) (start limit : Nat) : Except Exn Unit := do
  let value ← intOfDigits (String.ofList ((fillTime.toList.drop start).take 2))
  expect (value ≤ limit) "invalid fill time"

def checkFillTime (fillTime : String) : Except Exn Unit := do
  expect (fillTime.length = 6 && Text.isdigit fillTime) "invalid fill time"
  clockField fillTime 0 23
  clockField fillTime 2 59
  clockField fillTime 4 59

/-- The kind of notice of the three status flags. -/
def kindOf (rejectFlag eventCode acceptedFlag : String) (fillQty fillPrice : Nat) : Except Exn NoticeKind :=
  if eventCode = "2" then
    if rejectFlag = "Y" ∨ fillQty ≤ 0 ∨ fillPrice ≤ 0 then .error (.valueError "invalid fill event")
    else .ok .filled
  else if rejectFlag = "Y" then
    if fillQty ≠ 0 then .error (.valueError "invalid rejected event") else .ok .rejected
  else if acceptedFlag ≠ "Y" ∨ fillQty ≠ 0 then .error (.valueError "invalid accepted event")
  else .ok .accepted

/-- The order price, which may be left out. -/
def orderPriceField (value : String) : Except Exn Nat :=
  if value = "" then .ok 0 else intField value "order_price" false

/-- The number of the original order, which may be left out. -/
def originalOrderNoField (value : String) : Except Exn String :=
  if value = "" then .ok "" else publicText value "original_order_no"

/-- The field of a record. -/
def field (fields : List String) (column : Nat) : String := fields.getD column ""

/-- The reject flag, the event code and the acceptance flag. -/
def rejectOf (fields : List String) : String := Text.upper (field fields 12)
def eventOf (fields : List String) : String := field fields 13
def acceptedOf (fields : List String) : String := Text.upper (field fields 14)

/-- The notice that `_parse_fields` returns at its end. -/
def notice (fields : List String) (kind : NoticeKind) (orderQty fillQty fillPrice orderPrice : Nat)
    (orderNo originalOrderNo customerId accountNo : String) : ReceivedNotice :=
  { kind, orderNo, originalOrderNo, orderQty
    side := field fields 4
    symbol := field fields 8
    fillQty, fillPrice
    fillTime := field fields 11
    receiptType := field fields 5
    orderKind := field fields 6
    rejectFlag := if rejectOf fields = "" then "N" else rejectOf fields
    acceptedFlag := acceptedOf fields
    orderPrice
    exchangeId := field fields 19
    customerId, accountNo }

/-- `_parse_fields`. -/
def parseFields (fields : List String) : Except Exn ReceivedNotice := do
  expect (fields.length = columns) "invalid fill-notice field count"
  let orderQty ← intField (field fields 16) "order_qty" true
  expect (field fields 4 ∈ ["01", "02"]) "unknown order side"
  expect ((field fields 8).length = 6 && Text.isdigit (field fields 8)) "invalid symbol"
  let fillQty ← intField (field fields 9) "fill_qty" false
  let fillPrice ← intField (field fields 10) "fill_price" false
  checkFillTime (field fields 11)
  expect (rejectOf fields ∈ ["Y", "N", ""] && eventOf fields ∈ ["1", "2"]) "unknown fill-notice status"
  expect (acceptedOf fields ∈ ["Y", "N", ""]) "unknown acceptance status"
  let kind ← kindOf (rejectOf fields) (eventOf fields) (acceptedOf fields) fillQty fillPrice
  let orderPrice ← orderPriceField (field fields 25)
  let orderNo ← publicText (field fields 2) "order_no"
  let originalOrderNo ← originalOrderNoField (field fields 3)
  let customerId ← publicText (field fields 0) "customer_id"
  let accountNo ← publicText (field fields 1) "account_no"
  .ok (notice fields kind orderQty fillQty fillPrice orderPrice orderNo originalOrderNo customerId accountNo)

/-- `decrypt_aes_cbc_base64`, given what it decrypts. -/
def decryptPayload (decrypt : String → String → String → Option String) (ciphertext aesKey aesIv : String) :
    Except Exn String :=
  match decrypt ciphertext aesKey aesIv with
  | some plaintext => .ok plaintext
  | none => .error (.valueError "invalid encrypted fill-notice payload")

/-- `except (ValueError, OverflowError): return ()`. -/
def noneOnError : Except Exn (List ReceivedNotice) → Except Exn (List ReceivedNotice)
  | .ok notices => .ok notices
  | .error (.valueError _) => .ok []
  | .error (.other "OverflowError" _) => .ok []
  | .error e => .error e

/-- The part of `parse_fill_notice_events` inside `try`. -/
def parsePayload (decrypt : String → String → String → Option String) (count payload aesKey aesIv : String) :
    Except Exn (List ReceivedNotice) := do
  let n ← intField count "record count" true
  if 100 < n then .ok []
  else do
    let plaintext ← decryptPayload decrypt payload aesKey aesIv
    let fields := Text.split '^' plaintext
    if fields.length ≠ n * columns then .ok []
    else (Market.records columns n fields).mapM parseFields

def parseFillNoticeEvents (decrypt : String → String → String → Option String) (raw : Frame)
    (aesKey aesIv : String) (environment : Option KisEnvironment) : Except Exn (List ReceivedNotice) :=
  match raw.text? with
  | none => .ok []
  | some text =>
    match (Text.splitAtMost '|' 3 text.toList).map String.ofList with
    | [kind, trId, count, payload] =>
      if kind ≠ "1" then .ok []
      else if trId ∉ fillNoticeTrIds then .ok []
      else if environment.any fun e => trId ≠ fillNoticeTrId e then .ok []
      else noneOnError (parsePayload decrypt count payload aesKey aesIv)
    | _ => .ok []

/-! ### What a record has to be -/

/-- At most 4300 decimal digits. -/
structure Digits (text : String) : Prop where
  digits : Text.isdigit text = true
  length : text.length ≤ 4300
  decimal : (Text.toNat? text).isSome

/-- The value of a text of digits. -/
def number (text : String) : Nat := (Text.toNat? text).getD 0

/-- A text that is not blank and has no control character inside. -/
def Public (text : String) : Prop :=
  Text.strip text ≠ "" ∧ ∀ c ∈ (Text.strip text).toList, 32 ≤ c.toNat ∧ c.toNat ≠ 127

theorem Public.of_all {text : String} (hstrip : Text.strip text ≠ "")
    (h : (Text.strip text).toList.all (fun c => 32 ≤ c.toNat ∧ c.toNat ≠ 127) = true) : Public text :=
  ⟨hstrip, fun c hc => of_decide_eq_true (List.all_eq_true.mp h c hc)⟩

/-- Two digits of a time. -/
def pair (fillTime : String) (start : Nat) : String := String.ofList ((fillTime.toList.drop start).take 2)

/-- `HHMMSS` in decimal digits. -/
structure ClockText (fillTime : String) : Prop where
  length : fillTime.length = 6
  digits : Text.isdigit fillTime = true
  decimal : ∀ start ∈ [0, 2, 4], (Text.toNat? (pair fillTime start)).isSome
  hour : number (pair fillTime 0) ≤ 23
  minute : number (pair fillTime 2) ≤ 59
  second : number (pair fillTime 4) ≤ 59

/-- The rules of the three status flags and the quantity. -/
structure StatusRules (record : List String) : Prop where
  reject : rejectOf record ∈ ["Y", "N", ""]
  event : eventOf record ∈ ["1", "2"]
  accepted : acceptedOf record ∈ ["Y", "N", ""]
  fill : eventOf record = "2" → rejectOf record ≠ "Y" ∧ 0 < number (field record 9) ∧ 0 < number (field record 10)
  noFill : eventOf record ≠ "2" → number (field record 9) = 0
  acceptance : eventOf record ≠ "2" → rejectOf record ≠ "Y" → acceptedOf record = "Y"

/-- A well-formed record. -/
structure RecordRules (record : List String) : Prop where
  width : record.length = columns
  orderQty : Digits (field record 16) ∧ 0 < number (field record 16)
  side : field record 4 ∈ ["01", "02"]
  symbol : (field record 8).length = 6 ∧ Text.isdigit (field record 8) = true
  fillQty : Digits (field record 9)
  fillPrice : Digits (field record 10)
  fillTime : ClockText (field record 11)
  status : StatusRules record
  orderPrice : field record 25 = "" ∨ Digits (field record 25)
  orderNo : Public (field record 2)
  originalOrderNo : field record 3 = "" ∨ Public (field record 3)
  customerId : Public (field record 0)
  accountNo : Public (field record 1)

/-- The kind of notice of a well-formed record. -/
def noticeKind (record : List String) : NoticeKind :=
  if eventOf record = "2" then .filled else if rejectOf record = "Y" then .rejected else .accepted

/-- The notice of a record. -/
def noticeOf (record : List String) : ReceivedNotice :=
  notice record (noticeKind record) (number (field record 16)) (number (field record 9))
    (number (field record 10)) (number (field record 25)) (Text.strip (field record 2))
    (Text.strip (field record 3)) (Text.strip (field record 0)) (Text.strip (field record 1))

/-! ### One record -/

/-- The exceptions that the parser of a record raises. -/
def IsValueError (e : Exn) : Prop := ∃ message, e = .valueError message

theorem isValueError (message : String) : IsValueError (.valueError message) := ⟨message, rfl⟩

section Fields

variable {P : Prop}

theorem expect_spec (c : Bool) (message : String) : Validates IsValueError (expect c message) (c = true) () :=
  Validates.ite () (isValueError message)

theorem intOfDigits_spec (text : String) :
    Validates IsValueError (intOfDigits text) ((Text.toNat? text).isSome = true) (number text) := by
  unfold intOfDigits number
  rcases Text.toNat? text with _ | n
  · exact (Validates.error _ (isValueError _)).congr (by simp)
  · exact (Validates.ok n).congr (by simp)

theorem readInt_spec (text : String) :
    Validates IsValueError (readInt text) (text.length ≤ 4300 ∧ (Text.toNat? text).isSome = true) (number text) :=
  (Validates.raiseIf (isValueError _) fun _ => intOfDigits_spec text).congr (by rw [not_lt])

theorem isdigit_ne {text : String} (h : Text.isdigit text = true) : text ≠ "" ∧ text.toList.head? ≠ some '+' := by
  rw [Text.isdigit, Bool.and_eq_true] at h
  obtain ⟨hne, hall⟩ := h
  constructor
  · rintro rfl
    exact absurd hne (by decide)
  · intro hhead
    obtain ⟨rest, hrest⟩ := List.head?_eq_some_iff.mp hhead
    rw [hrest, List.all_cons, Bool.and_eq_true] at hall
    exact absurd hall.1 (by decide)

theorem intField_spec (value name : String) (positive : Bool) :
    Validates IsValueError (intField value name positive) (Digits value ∧ (positive = true → 0 < number value))
      (number value) := by
  unfold intField
  refine (Validates.raiseIf (isValueError _) fun _ => (readInt_spec value).bind fun _ =>
    (expect_spec _ _).bind fun _ => Validates.ok (number value)).congr ?_
  constructor
  · rintro ⟨hshape, ⟨hlength, hdecimal⟩, hpositive, -⟩
    simp only [not_or, Bool.not_eq_false] at hshape
    refine ⟨⟨hshape.2.2, hlength, hdecimal⟩, fun hpos => ?_⟩
    rw [hpos] at hpositive
    simpa using hpositive
  · rintro ⟨⟨hdigits, hlength, hdecimal⟩, hpositive⟩
    obtain ⟨hne, hplus⟩ := isdigit_ne hdigits
    refine ⟨by simp [hne, hplus, hdigits], ⟨hlength, hdecimal⟩, ?_, trivial⟩
    cases positive with
    | false => rfl
    | true => simpa using hpositive

theorem publicText_spec (value name : String) :
    Validates IsValueError (publicText value name) (Public value) (Text.strip value) := by
  unfold publicText
  refine ((expect_spec _ _).bind fun _ => (expect_spec _ _).bind fun _ =>
    Validates.ok (Text.strip value)).congr ?_
  simp only [decide_eq_true_eq, Bool.not_eq_true', List.any_eq_false, Bool.or_eq_true, beq_iff_eq, not_or,
    not_lt, and_true, Public, ne_eq]

theorem clockField_spec (fillTime : String) (start limit : Nat) :
    Validates IsValueError (clockField fillTime start limit)
      ((Text.toNat? (pair fillTime start)).isSome = true ∧ number (pair fillTime start) ≤ limit) () :=
  ((intOfDigits_spec _).bind fun _ => expect_spec _ _).congr (by rw [decide_eq_true_eq]; rfl)

theorem checkFillTime_spec (fillTime : String) :
    Validates IsValueError (checkFillTime fillTime) (ClockText fillTime) () := by
  unfold checkFillTime
  refine ((expect_spec _ _).bind fun _ => (clockField_spec _ _ _).bind fun _ => (clockField_spec _ _ _).bind
    fun _ => clockField_spec _ _ _).congr ?_
  simp only [Bool.and_eq_true, decide_eq_true_eq]
  constructor
  · rintro ⟨⟨hlength, hdigits⟩, ⟨hhour, hh⟩, ⟨hminute, hm⟩, hsecond, hs⟩
    exact ⟨hlength, hdigits, by simp [hhour, hminute, hsecond], hh, hm, hs⟩
  · rintro ⟨hlength, hdigits, hdecimal, hh, hm, hs⟩
    exact ⟨⟨hlength, hdigits⟩, ⟨hdecimal 0 (by decide), hh⟩, ⟨hdecimal 2 (by decide), hm⟩,
      hdecimal 4 (by decide), hs⟩

end Fields

/-- The status flags and the figures that `kindOf` looks at. -/
def KindRules (rejectFlag eventCode acceptedFlag : String) (fillQty fillPrice : Nat) : Prop :=
  (eventCode = "2" → rejectFlag ≠ "Y" ∧ 0 < fillQty ∧ 0 < fillPrice) ∧
    (eventCode ≠ "2" → fillQty = 0 ∧ (rejectFlag ≠ "Y" → acceptedFlag = "Y"))

theorem kindOf_spec (record : List String) (fillQty fillPrice : Nat) :
    Validates IsValueError (kindOf (rejectOf record) (eventOf record) (acceptedOf record) fillQty fillPrice)
      (KindRules (rejectOf record) (eventOf record) (acceptedOf record) fillQty fillPrice) (noticeKind record) := by
  unfold kindOf KindRules noticeKind
  generalize rejectOf record = rejectFlag
  generalize eventOf record = eventCode
  generalize acceptedOf record = acceptedFlag
  by_cases hevent : eventCode = "2"
  · simp only [if_pos hevent]
    refine (Validates.raiseIf (isValueError _) fun _ => Validates.ok NoticeKind.filled).congr ?_
    simp only [not_or, not_le, hevent, not_true_eq_false, ne_eq, forall_true_left, false_imp_iff, and_true]
  · simp only [if_neg hevent]
    by_cases hreject : rejectFlag = "Y"
    · simp only [if_pos hreject]
      refine (Validates.raiseIf (isValueError _) fun _ => Validates.ok NoticeKind.rejected).congr ?_
      simp [hevent, hreject]
    · simp only [if_neg hreject]
      refine (Validates.raiseIf (isValueError _) fun _ => Validates.ok NoticeKind.accepted).congr ?_
      simp only [not_or, not_not, hevent, hreject, false_imp_iff, true_and, and_true, ne_eq,
        not_false_eq_true, forall_true_left]
      exact and_comm

theorem orderPriceField_spec (value : String) :
    Validates IsValueError (orderPriceField value) (value = "" ∨ Digits value) (number value) := by
  refine ((intField_spec value "order_price" false).congr (and_iff_left nofun)).skipIf ?_
  rintro rfl
  decide

theorem originalOrderNoField_spec (value : String) :
    Validates IsValueError (originalOrderNoField value) (value = "" ∨ Public value) (Text.strip value) := by
  refine (publicText_spec value "original_order_no").skipIf ?_
  rintro rfl
  decide

/-- **`_parse_fields` accepts the well-formed records, and the notice is that of the record.** -/
theorem parseFields_spec (record : List String) :
    Validates IsValueError (parseFields record) (RecordRules record) (noticeOf record) := by
  unfold parseFields
  refine Validates.congr (.bind (expect_spec _ _) fun _ => .bind (intField_spec _ _ _) fun _ =>
    .bind (expect_spec _ _) fun _ => .bind (expect_spec _ _) fun _ => .bind (intField_spec _ _ _) fun _ =>
    .bind (intField_spec _ _ _) fun _ => .bind (checkFillTime_spec _) fun _ => .bind (expect_spec _ _) fun _ =>
    .bind (expect_spec _ _) fun _ => .bind (kindOf_spec _ _ _) fun _ => .bind (orderPriceField_spec _) fun _ =>
    .bind (publicText_spec _ _) fun _ => .bind (originalOrderNoField_spec _) fun _ =>
    .bind (publicText_spec _ _) fun _ => .bind (publicText_spec _ _) fun _ => .ok (noticeOf record)) ?_
  simp only [Bool.and_eq_true, decide_eq_true_eq, and_true]
  constructor
  · rintro ⟨hwidth, hqty, hside, hsymbol, hfill, hprice, htime, ⟨hreject, hevent⟩, haccepted, ⟨hkind, hother⟩,
      horder, hno, horiginal, hcustomer, haccount⟩
    have hstatus : StatusRules record :=
      { reject := hreject
        event := hevent
        accepted := haccepted
        fill := hkind
        noFill := fun h => (hother h).1
        acceptance := fun h => (hother h).2 }
    exact ⟨hwidth, ⟨hqty.1, hqty.2 trivial⟩, hside, hsymbol, hfill.1, hprice.1, htime, hstatus, horder, hno,
      horiginal, hcustomer, haccount⟩
  · rintro ⟨hwidth, ⟨hqty, hpositive⟩, hside, hsymbol, hfill, hprice, htime, hstatus, horder, hno, horiginal,
      hcustomer, haccount⟩
    exact ⟨hwidth, ⟨hqty, fun _ => hpositive⟩, hside, hsymbol, ⟨hfill, nofun⟩, ⟨hprice, nofun⟩, htime,
      ⟨hstatus.reject, hstatus.event⟩, hstatus.accepted,
      ⟨hstatus.fill, fun h => ⟨hstatus.noFill h, hstatus.acceptance h⟩⟩, horder, hno, horiginal, hcustomer,
      haccount⟩

/-! ### The pieces of a frame -/

section Pieces

variable {sep : Char}

theorem splitAtMost_of_mem {piece rest : List Char} {n : Nat} (h : sep ∉ piece) :
    Text.splitAtMost sep (n + 1) (piece ++ sep :: rest) = piece :: Text.splitAtMost sep n rest := by
  have hspan : (piece ++ sep :: rest).span (· ≠ sep) = (piece, sep :: rest) := by
    rw [List.span_eq_takeWhile_dropWhile]
    have hpiece : ∀ c ∈ piece, decide (c ≠ sep) = true := by
      intro c hc
      rw [decide_eq_true_eq]
      rintro rfl
      exact h hc
    rw [List.takeWhile_append_of_pos hpiece, List.dropWhile_append_of_pos hpiece]
    simp
  rw [Text.splitAtMost, hspan]

theorem splitAtMost_eq_cons {text piece : List Char} {pieces : List (List Char)} {n : Nat}
    (h : Text.splitAtMost sep (n + 1) text = piece :: pieces) (hpieces : pieces ≠ []) :
    ∃ rest, text = piece ++ sep :: rest ∧ Text.splitAtMost sep n rest = pieces := by
  have hsplit := List.takeWhile_append_dropWhile (p := fun c => decide (c ≠ sep)) (l := text)
  rw [Text.splitAtMost, List.span_eq_takeWhile_dropWhile] at h
  rcases hdrop : text.dropWhile (fun c => decide (c ≠ sep)) with _ | ⟨c, rest⟩
  · rw [hdrop] at h
    exact absurd (List.cons.inj h).2.symm hpieces
  · rw [hdrop] at h hsplit
    have hc : c = sep := by
      have hhead := List.head?_dropWhile_not (fun c => decide (c ≠ sep)) text
      rw [hdrop] at hhead
      simpa using hhead
    obtain ⟨hpiece, hrest⟩ := List.cons.inj h
    rw [hpiece, hc] at hsplit
    exact ⟨rest, hsplit.symm, hrest⟩

end Pieces

theorem records_flatten {width : Nat} {rs : List (List String)} (h : ∀ record ∈ rs, record.length = width) :
    Market.records width rs.length rs.flatten = rs := by
  induction rs with
  | nil => rfl
  | cons record rest ih =>
    have hrecord := h record List.mem_cons_self
    rw [List.length_cons, Market.records, List.flatten_cons, ← hrecord, List.take_left, List.drop_left, hrecord,
      ih fun r hr => h r (List.mem_cons_of_mem _ hr)]

theorem flatten_records {width n : Nat} {fields : List String} (h : fields.length = n * width) :
    (Market.records width n fields).flatten = fields ∧ (Market.records width n fields).length = n := by
  induction n generalizing fields with
  | zero =>
    rw [Nat.zero_mul, List.length_eq_zero_iff] at h
    rw [h]
    exact ⟨rfl, rfl⟩
  | succ n ih =>
    have hdrop : (fields.drop width).length = n * width := by
      rw [List.length_drop, h, Nat.succ_mul, Nat.add_sub_cancel]
    obtain ⟨hflatten, hlength⟩ := ih hdrop
    rw [Market.records, List.flatten_cons, hflatten, List.take_append_drop, List.length_cons, hlength]
    exact ⟨rfl, rfl⟩

/-! ### Frames -/

/-- The transaction ids of an environment, or of both. -/
def noticeTrIds : Option KisEnvironment → List String
  | none => fillNoticeTrIds
  | some environment => [fillNoticeTrId environment]

section Frames

variable (decrypt : String → String → String → Option String) (aesKey aesIv : String)

/-- The payload decrypts to well-formed records, as many as the count says. -/
structure PayloadCarries (count payload : String) (records : List (List String)) : Prop where
  digits : Digits count
  number_eq : number count = records.length
  positive : 0 < records.length
  limit : records.length ≤ 100
  plaintext : ∃ plaintext, decrypt payload aesKey aesIv = some plaintext ∧
    Text.split '^' plaintext = records.flatten
  rules : ∀ record ∈ records, RecordRules record

/-- The frame `1|tr_id|count|payload` of an environment carries these records. -/
def Carries (raw : Frame) (environment : Option KisEnvironment) (records : List (List String)) : Prop :=
  ∃ trId count payload, raw.text? = some ("1|" ++ trId ++ "|" ++ count ++ "|" ++ payload) ∧
    trId ∈ noticeTrIds environment ∧ PayloadCarries decrypt aesKey aesIv count payload records

section Payload

variable {decrypt aesKey aesIv} {count payload : String}

theorem parsePayload_of_carries {records : List (List String)}
    (h : PayloadCarries decrypt aesKey aesIv count payload records) :
    parsePayload decrypt count payload aesKey aesIv = .ok (records.map noticeOf) := by
  obtain ⟨plaintext, hdecrypt, hsplit⟩ := h.plaintext
  have hcount := (intField_spec count "record count" true).accepts
    ⟨h.digits, fun _ => h.number_eq ▸ h.positive⟩
  have hwidth : ∀ record ∈ records, record.length = columns := fun record hrecord => (h.rules record hrecord).width
  have hlength : records.flatten.length = records.length * columns := by
    rw [List.length_flatten, List.map_congr_left hwidth, List.map_const', List.sum_replicate_nat]
  have hparse := (Validates.mapM fun record _ => parseFields_spec record).accepts h.rules
  rw [parsePayload, hcount, h.number_eq]
  simp only [bind, Except.bind, if_neg (not_lt.mpr h.limit), decryptPayload, hdecrypt, hsplit, hlength, ne_eq,
    not_true_eq_false, if_false, records_flatten hwidth]
  exact hparse

theorem noneOnError_of_valueError {r : Except Exn (List ReceivedNotice)} {e : Exn} (h : r = .error e)
    (he : IsValueError e) : noneOnError r = .ok [] := by
  obtain ⟨message, rfl⟩ := he
  rw [h]
  rfl

/-- Whatever is wrong with a payload, nothing comes of it. -/
theorem parsePayload_of_not (h : ¬ ∃ records, PayloadCarries decrypt aesKey aesIv count payload records) :
    noneOnError (parsePayload decrypt count payload aesKey aesIv) = .ok [] := by
  rw [parsePayload]
  by_cases hcount : Digits count ∧ (true = true → 0 < number count)
  · rw [(intField_spec count "record count" true).accepts hcount]
    simp only [bind, Except.bind]
    by_cases hlimit : 100 < number count
    · rw [if_pos hlimit]
      rfl
    · rw [if_neg hlimit, decryptPayload]
      rcases hdecrypt : decrypt payload aesKey aesIv with _ | plaintext
      · rfl
      · simp only
        by_cases hlength : (Text.split '^' plaintext).length = number count * columns
        · rw [if_neg (not_not.mpr hlength)]
          obtain ⟨hflatten, hrecords⟩ := flatten_records hlength
          have hspec : Validates IsValueError _ _ _ := Validates.mapM
            fun record (_ : record ∈ Market.records columns (number count) (Text.split '^' plaintext)) =>
              parseFields_spec record
          by_cases hrules : ∀ record ∈ Market.records columns (number count) (Text.split '^' plaintext),
              RecordRules record
          · exact absurd ⟨_, hcount.1, hrecords.symm, hrecords.symm ▸ hcount.2 rfl,
              hrecords.symm ▸ not_lt.mp hlimit, ⟨plaintext, hdecrypt, hflatten.symm⟩, hrules⟩ h
          · obtain ⟨e, he, hvalue⟩ := hspec.rejects hrules
            exact noneOnError_of_valueError he hvalue
        · rw [if_pos hlength]
          rfl
  · obtain ⟨e, he, hvalue⟩ := (intField_spec count "record count" true).rejects hcount
    rw [he]
    exact noneOnError_of_valueError rfl hvalue

end Payload

/-- A text with three bars is cut at them. -/
theorem splitAtMost_frame {trId count payload : String} (hid : '|' ∉ trId.toList) (hcount : '|' ∉ count.toList) :
    (Text.splitAtMost '|' 3 ("1|" ++ trId ++ "|" ++ count ++ "|" ++ payload).toList).map String.ofList =
      ["1", trId, count, payload] := by
  have htext : ("1|" ++ trId ++ "|" ++ count ++ "|" ++ payload).toList =
      ['1'] ++ '|' :: (trId.toList ++ '|' :: (count.toList ++ '|' :: payload.toList)) := by
    simp [String.toList_append]
  rw [htext, splitAtMost_of_mem (by decide), splitAtMost_of_mem hid, splitAtMost_of_mem hcount,
    Text.splitAtMost]
  simp

theorem frame_of_pieces {text trId count payload : String}
    (h : (Text.splitAtMost '|' 3 text.toList).map String.ofList = ["1", trId, count, payload]) :
    text = "1|" ++ trId ++ "|" ++ count ++ "|" ++ payload := by
  have hpieces : Text.splitAtMost '|' 3 text.toList =
      [['1'], trId.toList, count.toList, payload.toList] := by
    have hlists := congrArg (List.map String.toList) h
    rw [List.map_map] at hlists
    simpa [Function.comp_def] using hlists
  obtain ⟨rest, htext, hrest⟩ := splitAtMost_eq_cons hpieces (List.cons_ne_nil _ _)
  obtain ⟨rest', htext', hrest'⟩ := splitAtMost_eq_cons hrest (List.cons_ne_nil _ _)
  obtain ⟨last, htext'', hlast⟩ := splitAtMost_eq_cons hrest' (List.cons_ne_nil _ _)
  rw [Text.splitAtMost] at hlast
  obtain rfl := (List.cons.inj hlast).1
  rw [← String.toList_inj, htext, htext', htext'']
  simp [String.toList_append]

theorem bar_notMem_of_digits {count : String} (h : Text.isdigit count = true) : '|' ∉ count.toList := by
  intro hmem
  rw [Text.isdigit, Bool.and_eq_true] at h
  have hbar := List.all_eq_true.mp h.2 '|' hmem
  exact absurd hbar (by decide)

theorem mem_fillNoticeTrIds {environment : Option KisEnvironment} {trId : String}
    (h : trId ∈ noticeTrIds environment) : trId ∈ fillNoticeTrIds ∧ '|' ∉ trId.toList ∧
      ¬ (environment.any fun e => trId ≠ fillNoticeTrId e) = true := by
  rcases environment with _ | environment
  · have hall : ∀ trId ∈ fillNoticeTrIds, '|' ∉ trId.toList := by decide
    exact ⟨h, hall trId h, by simp⟩
  · rw [List.mem_singleton.mp h]
    cases environment <;> decide

/-- The environment's transaction ids are those that the two checks let through. -/
theorem mem_noticeTrIds {environment : Option KisEnvironment} {trId : String} (hid : trId ∈ fillNoticeTrIds)
    (henvironment : ¬ (environment.any fun e => trId ≠ fillNoticeTrId e) = true) :
    trId ∈ noticeTrIds environment := by
  rcases environment with _ | environment
  · exact hid
  · have heq : trId = fillNoticeTrId environment := by simpa using henvironment
    exact List.mem_singleton.mpr heq

/-- The kind of a notice, as its record says it. -/
structure KindFacts (record : List String) (notice : ReceivedNotice) : Prop where
  filled : notice.kind = .filled ↔ eventOf record = "2"
  fill : notice.kind = .filled → 0 < notice.fillQty ∧ 0 < notice.fillPrice ∧ rejectOf record ≠ "Y"
  rejected : notice.kind = .rejected ↔ eventOf record = "1" ∧ rejectOf record = "Y"
  accepted : notice.kind = .accepted → acceptedOf record = "Y"
  noFill : notice.kind ≠ .filled → notice.fillQty = 0

theorem kindFacts {record : List String} (h : RecordRules record) : KindFacts record (noticeOf record) := by
  have hevent : eventOf record = "2" ∨ eventOf record = "1" := by
    have hmem := h.status.event
    simp only [List.mem_cons, List.not_mem_nil, or_false] at hmem
    exact hmem.symm
  have hkind : (noticeOf record).kind = noticeKind record := rfl
  have hqty : (noticeOf record).fillQty = number (field record 9) := rfl
  have hprice : (noticeOf record).fillPrice = number (field record 10) := rfl
  rcases hevent with hfill | hother
  · have hfilled : noticeKind record = .filled := if_pos hfill
    obtain ⟨hreject, hpositive, hpositive'⟩ := h.status.fill hfill
    refine ⟨?_, ?_, ?_, ?_, ?_⟩ <;> rw [hkind, hfilled]
    · exact iff_of_true rfl hfill
    · intro _
      rw [hqty, hprice]
      exact ⟨Int.natCast_pos.mpr hpositive, Int.natCast_pos.mpr hpositive', hreject⟩
    · exact iff_of_false (by decide) fun hboth => hreject hboth.2
    · exact fun heq => absurd heq (by decide)
    · exact fun hne => absurd rfl hne
  · have hne : eventOf record ≠ "2" := by
      rw [hother]
      decide
    have hzero := h.status.noFill hne
    by_cases hreject : rejectOf record = "Y"
    · have hrejected : noticeKind record = .rejected := by rw [noticeKind, if_neg hne, if_pos hreject]
      refine ⟨?_, ?_, ?_, ?_, ?_⟩ <;> rw [hkind, hrejected]
      · exact iff_of_false (by decide) hne
      · exact fun heq => absurd heq (by decide)
      · exact iff_of_true rfl ⟨hother, hreject⟩
      · exact fun heq => absurd heq (by decide)
      · intro _
        rw [hqty, hzero]
        rfl
    · have haccepted : noticeKind record = .accepted := by rw [noticeKind, if_neg hne, if_neg hreject]
      refine ⟨?_, ?_, ?_, ?_, ?_⟩ <;> rw [hkind, haccepted]
      · exact iff_of_false (by decide) hne
      · exact fun heq => absurd heq (by decide)
      · exact iff_of_false (by decide) fun hboth => hreject hboth.2
      · exact fun _ => h.status.acceptance hne hreject
      · intro _
        rw [hqty, hzero]
        rfl

/-- **A frame gives a notice for every record if it is well formed as a whole, and nothing
    otherwise; no exception escapes.** -/
theorem parseFillNoticeEvents_exact (raw : Frame) (environment : Option KisEnvironment) :
    (∀ records, Carries decrypt aesKey aesIv raw environment records →
      parseFillNoticeEvents decrypt raw aesKey aesIv environment = .ok (records.map noticeOf) ∧
      records ≠ [] ∧ ∀ record ∈ records, KindFacts record (noticeOf record)) ∧
    ((¬ ∃ records, Carries decrypt aesKey aesIv raw environment records) →
      parseFillNoticeEvents decrypt raw aesKey aesIv environment = .ok []) := by
  constructor
  · rintro records ⟨trId, count, payload, htext, hid, hcarries⟩
    obtain ⟨hknown, hbar, henvironment⟩ := mem_fillNoticeTrIds hid
    have hpieces := @splitAtMost_frame trId count payload hbar (bar_notMem_of_digits hcarries.digits.digits)
    refine ⟨?_, List.ne_nil_of_length_pos hcarries.positive, fun record hrecord =>
      kindFacts (hcarries.rules record hrecord)⟩
    rw [parseFillNoticeEvents, htext]
    simp only
    rw [hpieces]
    simp only
    rw [if_neg (not_not.mpr rfl), if_neg (not_not.mpr hknown), if_neg henvironment,
      parsePayload_of_carries hcarries]
    rfl
  · intro hnone
    rw [parseFillNoticeEvents]
    rcases htext : raw.text? with _ | text
    · rfl
    · simp only
      rcases hpieces : (Text.splitAtMost '|' 3 text.toList).map String.ofList with
        _ | ⟨kind, _ | ⟨trId, _ | ⟨count, _ | ⟨payload, _ | ⟨more, rest⟩⟩⟩⟩⟩
      · rfl
      · rfl
      · rfl
      · rfl
      · simp only
        by_cases hkind : kind = "1"
        · by_cases hid : trId ∈ fillNoticeTrIds
          · by_cases henvironment : (environment.any fun e => trId ≠ fillNoticeTrId e) = true
            · rw [if_neg (not_not.mpr hkind), if_neg (not_not.mpr hid), if_pos henvironment]
            · rw [if_neg (not_not.mpr hkind), if_neg (not_not.mpr hid), if_neg henvironment]
              refine parsePayload_of_not fun ⟨records, hcarries⟩ => hnone ⟨records, trId, count, payload, ?_,
                mem_noticeTrIds hid henvironment, hcarries⟩
              rw [hkind] at hpieces
              rw [htext, frame_of_pieces hpieces]
          · rw [if_neg (not_not.mpr hkind), if_pos hid]
        · rw [if_pos hkind]
      · rfl

end Frames

/-! ### One record -/

namespace Sample

def record : List String :=
  ["customer", "1234567801", "0001234567", "0000000000", "02", "00", "00", "", "005930", "3", "71200", "091530",
    "N", "2", "Y", "001", "10", "name", "", "KRX", "N", "", "00", "", "", "71200"]

/-- A cipher that has one payload. -/
def decrypt (ciphertext _aesKey _aesIv : String) : Option String :=
  if ciphertext = "payload" then some ("^".intercalate record) else none

def frame (count : String) : Frame := .text ("1|" ++ "H0STCNI0" ++ "|" ++ count ++ "|" ++ "payload")

example : parseFillNoticeEvents decrypt (frame "001") "key" "iv" (some .real) = .ok [noticeOf record] :=
  Except.eq_ok_of_toOption (by decide +kernel)

theorem rules : RecordRules record where
  width := rfl
  orderQty := ⟨⟨by decide, by decide, by decide⟩, by decide⟩
  side := by decide
  symbol := ⟨by decide, by decide⟩
  fillQty := ⟨by decide, by decide, by decide⟩
  fillPrice := ⟨by decide, by decide, by decide⟩
  fillTime := ⟨by decide, by decide, by decide, by decide, by decide, by decide⟩
  status := ⟨by decide, by decide, by decide, by decide, by decide, by decide⟩
  orderPrice := .inr ⟨by decide, by decide, by decide⟩
  orderNo := .of_all (by decide) rfl
  originalOrderNo := .inr (.of_all (by decide) rfl)
  customerId := .of_all (by decide) rfl
  accountNo := .of_all (by decide) rfl

/-- The digits of 1, with zeros before it. -/
def padOne (zeros : Nat) : String := String.ofList (List.replicate zeros '0' ++ ['1'])

theorem value_of_zeros (n : Nat) :
    (List.replicate n '0').foldl (fun acc c => do pure (10 * (← acc) + (← Text.decimalValue? c))) (some 0) =
      some 0 := by
  induction n with
  | zero => rfl
  | succ n ih =>
    have hzero : Text.decimalValue? '0' = some 0 := by decide
    rw [List.replicate_succ, List.foldl_cons, hzero]
    exact ih

theorem padOne_value (zeros : Nat) : Text.toNat? (padOne zeros) = some 1 := by
  have hone : Text.decimalValue? '1' = some 1 := by decide
  rw [Text.toNat?, padOne, String.toList_ofList, List.foldl_append, value_of_zeros, List.foldl_cons, hone]
  rfl

theorem padOne_digits (zeros : Nat) : Text.isdigit (padOne zeros) = true := by
  rw [Text.isdigit, padOne, String.toList_ofList, Bool.and_eq_true]
  refine ⟨by simp, List.all_eq_true.mpr fun c hc => ?_⟩
  rcases List.mem_append.mp hc with hzero | hone
  · rw [List.eq_of_mem_replicate hzero]
    decide
  · rw [List.mem_singleton.mp hone]
    decide

theorem padOne_refused {zeros : Nat} (h : 4300 ≤ zeros) :
    parseFillNoticeEvents decrypt (frame (padOne zeros)) "key" "iv" (some .real) = .ok [] := by
  have hlong : ¬ (Digits (padOne zeros) ∧ (true = true → 0 < number (padOne zeros))) := fun hdigits => by
    have hlength := hdigits.1.length
    rw [padOne, String.length_ofList, List.length_append, List.length_replicate, List.length_singleton] at hlength
    omega
  obtain ⟨e, he, hvalue⟩ := (intField_spec (padOne zeros) "record count" true).rejects hlong
  have hparse : parsePayload decrypt (padOne zeros) "payload" "key" "iv" = .error e := by
    rw [parsePayload, he]
    rfl
  rw [parseFillNoticeEvents, frame]
  simp only [Frame.text?]
  rw [splitAtMost_frame (by decide) (bar_notMem_of_digits (padOne_digits zeros))]
  simp only
  rw [if_neg (by decide), if_neg (by decide), if_neg (by decide)]
  exact noneOnError_of_valueError hparse hvalue

/-- A count of more than 4300 digits is refused, and so is one of digits that are not decimal,
    though the payload is one well-formed record. -/
theorem count_not_read : Text.isdigit (padOne 4300) = true ∧ Text.toNat? (padOne 4300) = some 1 ∧
    decrypt "payload" "key" "iv" = some ("^".intercalate record) ∧
    Text.split '^' ("^".intercalate record) = record ∧ RecordRules record ∧
    parseFillNoticeEvents decrypt (frame (padOne 4300)) "key" "iv" (some .real) = .ok [] ∧
    Text.isdigit "¹" = true ∧ parseFillNoticeEvents decrypt (frame "¹") "key" "iv" (some .real) = .ok [] :=
  ⟨padOne_digits 4300, padOne_value 4300, rfl, by decide +kernel, rules, padOne_refused le_rfl, by decide,
    Except.eq_ok_of_toOption (by decide +kernel)⟩

end Sample

end AutoTrader.FillNotices
