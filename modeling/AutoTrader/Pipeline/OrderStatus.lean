/-
  AutoTrader/Pipeline/OrderStatus.lean
  ====================================
  **The rows of the daily order inquiry: `parse_order_status`.**

  A row is a mapping; every value is read through `str`, so a row here maps a
  field to the text of its value.  A quantity that is no number counts as zero and
  a price that is no number as missing.  Only an infinite quantity raises:
  `int(float("inf"))` is an `OverflowError`, which `_int_value` does not catch.
-/
import AutoTrader.Pipeline.Actions
import AutoTrader.Python.Floats

namespace AutoTrader

/-- A row, by the text of the value of each field that is not null. -/
abbrev StatusRow := String → Option String

/-- `_first`. -/
def first (row : StatusRow) (names : List String) : Option String :=
  names.findSome? fun name => (row name).filter (· ≠ "")

/-- `_text`. -/
def text (value : Option String) : Option String :=
  (value.map Text.strip).filter (· ≠ "")

/-- `float(str(value).replace(",", "").strip())`. -/
def numberText (value : String) : Option PyFloat :=
  Text.toFloat? (Text.strip (String.ofList (value.toList.filter (· ≠ ','))))

/-- `_int_value`. -/
def intValue (value : Option String) : Except Exn Int :=
  match value.bind numberText with
  | some (.fin q) => .ok (max 0 (q.num.tdiv q.den))
  | some .posInf | some .negInf =>
    .error (.other "OverflowError" "cannot convert float infinity to integer")
  | some .nan | none => .ok 0

/-- `_float_value`. -/
def floatValue (value : Option String) : Option PyFloat := value.bind numberText

/-- `_flag`. -/
def flag (value : Option String) : Bool :=
  ["Y", "1", "TRUE", "REJECT", "REJECTED"].contains
    (String.ofList ((Text.strip (value.getD "")).toList.map Char.toUpper))

/-- `str(value or "").lower()`. -/
def lowered (value : Option String) : String :=
  String.ofList ((value.getD "").toList.map Char.toLower)

/-- `_parse_side`. -/
def parseSide (row : StatusRow) : Option Side :=
  let value := lowered (first row ["sll_buy_dvsn_cd", "SLL_BUY_DVSN_CD", "side", "SIDE"])
  if ["01", "sell", "s", "매도"].contains value then some .sell
  else if ["02", "buy", "b", "매수"].contains value then some .buy
  else none

/-- The statuses a row can state in words. -/
def directStatus : List (String × KisOrderStatus) :=
  [("filled", .filled), ("체결", .filled), ("partial", .partiallyFilled),
   ("partially_filled", .partiallyFilled), ("부분체결", .partiallyFilled),
   ("cancelled", .cancelled), ("취소", .cancelled), ("rejected", .rejected), ("거부", .rejected)]

/-- `_parse_status`. -/
def parseStatus (row : StatusRow) (ordered filled remaining : Int) : Except Exn KisOrderStatus := do
  match directStatus.lookup (lowered (first row ["order_status", "ord_status", "status", "STATUS"])) with
  | some status => pure status
  | none =>
    let rejected ← intValue (first row ["rjct_qty", "reject_qty", "RJCT_QTY"])
    if 0 < rejected ∨ flag (first row ["rjct_yn", "reject_yn"]) then pure .rejected
    else
      let cancelled ← intValue (first row ["cncl_cfrm_qty", "cancel_qty", "CNCL_CFRM_QTY"])
      if 0 < cancelled ∧ remaining = 0 then pure .cancelled
      else if 0 < ordered ∧ ordered ≤ filled ∧ remaining = 0 then pure .filled
      else if 0 < filled then pure .partiallyFilled
      else if 0 < remaining ∨ 0 < ordered then pure .unfilled
      else pure .unknown

/-- The remaining quantity, as stated or as the difference of the other two. -/
def remainingQuantity (row : StatusRow) (ordered filled : Int) : Except Exn Int :=
  match first row ["rmn_qty", "remaining_qty", "RMN_QTY"] with
  | some explicit => intValue (some explicit)
  | none => .ok (max 0 (ordered - filled))

/-- The quantities, the prices and the status of a row whose identity was read. -/
def parseRecord (row : StatusRow) (orderNumber symbol : String) : Except Exn OrderRecord := do
  let ordered ← intValue (first row ["ord_qty", "ORD_QTY", "ordered_quantity"])
  let filled ← intValue (first row ["tot_ccld_qty", "ccld_qty", "filled_qty", "TOT_CCLD_QTY"])
  let remaining ← remainingQuantity row ordered filled
  let status ← parseStatus row ordered filled remaining
  pure {
    orderNumber := orderNumber
    symbol := symbol
    side := parseSide row
    orderedQuantity := ordered
    filledQuantity := filled
    remainingQuantity := remaining
    orderPrice := floatValue (first row ["ord_unpr", "order_price", "ORD_UNPR"])
    averageFillPrice := floatValue (first row ["avg_prvs", "avg_fill_price", "avg_pric", "AVG_PRVS"])
    status := status
    orderBranch := text (first row ["ord_gno_brno", "order_branch", "ORD_GNO_BRNO"]) }

/-- `parse_order_status`; a row without an order number or a symbol is ignored. -/
def parseOrderStatus (row : StatusRow) : Except Exn (Option OrderRecord) :=
  match text (first row ["odno", "ODNO", "order_number"]), text (first row ["pdno", "PDNO", "symbol"]) with
  | some orderNumber, some symbol =>
    if Text.isdigit symbol ∧ symbol.length = 6 then (parseRecord row orderNumber symbol).map some
    else .ok none
  | _, _ => .ok none

/-! ### What a parsed record is -/

theorem intValue_nonneg {value : Option String} {n : Int} (h : intValue value = .ok n) : 0 ≤ n := by
  unfold intValue at h
  split at h
  · cases h
    exact le_max_left _ _
  · cases h
  · cases h
  · cases h
    rfl
  · cases h
    rfl

theorem text_some {value : Option String} {s : String} (h : text value = some s) :
    Text.blank s = false := by
  unfold text at h
  cases value with
  | none => cases h
  | some v =>
    simp only [Option.map_some, Option.filter_eq_some_iff, Option.some.injEq] at h
    obtain ⟨rfl, hne⟩ := h
    exact Text.blank_strip (by simpa using hne)

theorem directStatus_known {word : String} {status : KisOrderStatus}
    (h : directStatus.lookup word = some status) : status ≠ .unknown := by
  obtain ⟨front, back, hlist, -⟩ := List.lookup_eq_some_iff.mp h
  have hmem : (word, status) ∈ directStatus := by rw [hlist]; simp
  have hall : ∀ entry ∈ directStatus, entry.2 ≠ .unknown := by decide
  exact hall _ hmem

/-- A row whose status stays open to question states no fill. -/
theorem parseStatus_unknown {row : StatusRow} {ordered filled remaining : Int}
    (h : parseStatus row ordered filled remaining = .ok .unknown) : filled ≤ 0 := by
  unfold parseStatus at h
  split at h
  · rename_i status hlookup
    cases h
    exact absurd rfl (directStatus_known hlookup)
  · obtain ⟨rejected, -, h⟩ := Except.bind_eq_ok h
    split at h
    · cases h
    · obtain ⟨cancelled, -, h⟩ := Except.bind_eq_ok h
      split at h
      · cases h
      split at h
      · cases h
      split at h
      · cases h
      · rename_i hfilled
        exact not_lt.mp hfilled

theorem parseRecord_ok {row : StatusRow} {number symbol : String} {record : OrderRecord}
    (h : parseRecord row number symbol = .ok record) :
    record.orderNumber = number ∧ 0 ≤ record.filledQuantity ∧
      (record.status = .unknown → record.filledQuantity = 0) := by
  unfold parseRecord at h
  obtain ⟨ordered, -, h⟩ := Except.bind_eq_ok h
  obtain ⟨filled, hfilled, h⟩ := Except.bind_eq_ok h
  obtain ⟨remaining, -, h⟩ := Except.bind_eq_ok h
  obtain ⟨status, hstatus, h⟩ := Except.bind_eq_ok h
  cases h
  refine ⟨rfl, intValue_nonneg hfilled, ?_⟩
  rintro rfl
  exact le_antisymm (parseStatus_unknown hstatus) (intValue_nonneg hfilled)

/-- The records that can come out of the parser. -/
def Parsed (record : OrderRecord) : Prop := ∃ row, parseOrderStatus row = .ok (some record)

theorem Parsed.wellFormed {record : OrderRecord} (h : Parsed record) :
    Text.blank record.orderNumber = false ∧ 0 ≤ record.filledQuantity ∧
      (record.status = .unknown → record.filledQuantity = 0) := by
  obtain ⟨row, hrow⟩ := h
  unfold parseOrderStatus at hrow
  split at hrow
  · rename_i number symbol hnumber _
    split at hrow
    · cases hrecord : parseRecord row number symbol with
      | error e => rw [hrecord] at hrow; cases hrow
      | ok parsed =>
        rw [hrecord] at hrow
        cases hrow
        obtain ⟨hid, hrest⟩ := parseRecord_ok hrecord
        exact ⟨by rw [hid]; exact text_some hnumber, hrest⟩
    · cases hrow
  · cases hrow

end AutoTrader
