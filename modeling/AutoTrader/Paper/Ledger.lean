/-
  AutoTrader/Paper/Ledger.lean
  ============================
  **The paper ledger.**

  `PaperLedger` keeps local orders, simulated fills and long positions with their
  average price.  Every call either raises and writes nothing, repeats an id it knows
  and writes nothing, or books one order or one fill; `paper_ledger_consistent` reads
  the totals of the ledger off its fills after any sequence of calls.
-/
import AutoTrader.Lib.Table
import AutoTrader.Python.Values
import Mathlib.Tactic.Ring
import Mathlib.Tactic.FieldSimp
import Mathlib.Tactic.Linarith

namespace AutoTrader

open Relational

inductive PaperSide where
  | buy
  | sell
deriving DecidableEq

/-- A BUY counts up, a SELL down. -/
def PaperSide.sign : PaperSide → Int
  | .buy => 1
  | .sell => -1

inductive PaperOrderStatus where
  | pending
  | filled
  | rejected
  | cancelled
deriving DecidableEq

/-- The text of a status. -/
def PaperOrderStatus.value : PaperOrderStatus → String
  | .pending => "PENDING"
  | .filled => "FILLED"
  | .rejected => "REJECTED"
  | .cancelled => "CANCELLED"

/-- A quantity as `isinstance` sees it: a `bool` is an `int`. -/
inductive PaperQuantity where
  | bool (b : Bool)
  | int (n : Int)
deriving DecidableEq

/-- What `submit_order` reads of its argument. -/
structure PaperOrderIntent where
  orderId : String
  symbol : String
  side : String
  quantity : PaperQuantity
  price : PyFloat

/-- The argument of `fill_order`. -/
structure PaperFill where
  fillId : String
  orderId : String
  quantity : PaperQuantity
  price : PyFloat

/-- An order of the ledger, its values validated. -/
structure PaperOrder where
  orderId : String
  symbol : String
  side : PaperSide
  quantity : Int
  price : PosRat
  status : PaperOrderStatus := .pending
  filledQuantity : Int := 0
deriving DecidableEq

/-- An order after a fill of this quantity. -/
def PaperOrder.filledBy (order : PaperOrder) (quantity : Int) : PaperOrder :=
  { order with
    filledQuantity := order.filledQuantity + quantity
    status := if order.filledQuantity + quantity = order.quantity then .filled else order.status }

/-- A fill of the ledger, its values validated. -/
structure BookedFill where
  fillId : String
  orderId : String
  quantity : Int
  price : PosRat
deriving DecidableEq

structure PaperPosition where
  symbol : String
  quantity : Int
  avgPrice : ℚ
deriving DecidableEq

structure PaperLedger where
  orders : Table PaperOrder (·.orderId)
  fills : Table BookedFill (·.fillId)
  positions : Table PaperPosition (·.symbol)
  realizedPnl : ℚ

namespace PaperLedger

/-- `PaperLedger()`. -/
def empty : PaperLedger := ⟨.empty, .empty, .empty, 0⟩

/-! ### Validation -/

/-- A quantity that is no `bool` and above zero. -/
def positiveQuantity? : PaperQuantity → Option Int
  | .bool _ => none
  | .int n => if 0 < n then some n else none

/-- `_validate_trade_values`, with the values it lets through. -/
def validateTradeValues (symbol : String) (quantity : PaperQuantity) (price : PyFloat) :
    Except Exn (Int × PosRat) :=
  if Text.blank symbol then .error (.valueError "symbol must not be empty")
  else
    match positiveQuantity? quantity, price.price? with
    | none, _ => .error (.valueError "quantity must be positive")
    | some _, none => .error (.valueError "price must be finite and positive")
    | some quantity, some price => .ok (quantity, price)

/-- `_validate_identifier`. -/
def validateIdentifier (value label : String) : Except Exn Unit :=
  if Text.blank value then .error (.valueError (label ++ " must not be empty")) else .ok ()

/-- `PaperSide(value)`. -/
def paperSide (value : String) : Except Exn PaperSide :=
  if value = "BUY" then .ok .buy
  else if value = "SELL" then .ok .sell
  else .error (.valueError ("'" ++ value ++ "' is not a valid PaperSide"))

/-- The checks of `submit_order`, and the order it stores if the id is new. -/
def validateIntent (intent : PaperOrderIntent) : Except Exn PaperOrder := do
  validateIdentifier intent.orderId "order_id"
  let (quantity, price) ← validateTradeValues intent.symbol intent.quantity intent.price
  let side ← paperSide intent.side
  .ok { orderId := intent.orderId, symbol := intent.symbol, side, quantity, price }

/-- The checks of `fill_order` on its argument. -/
def validateFill (fill : PaperFill) : Except Exn BookedFill := do
  validateIdentifier fill.fillId "fill_id"
  validateIdentifier fill.orderId "order_id"
  let (quantity, price) ← validateTradeValues "fill" fill.quantity fill.price
  .ok { fillId := fill.fillId, orderId := fill.orderId, quantity, price }

/-! ### Orders and fills -/

variable (ledger : PaperLedger)

/-- `position is None or quantity > position.quantity`. -/
def exceedsPosition (position : Option PaperPosition) (quantity : Int) : Bool :=
  position.all fun position => position.quantity < quantity

/-- `submit_order`: the ledger it leaves, also where it raises, and its answer. -/
def submitOrder (intent : PaperOrderIntent) : PaperLedger × Except Exn PaperOrder :=
  match validateIntent intent with
  | .error e => (ledger, .error e)
  | .ok order =>
    match ledger.orders.find? order.orderId with
    | some existing =>
      if existing.symbol ≠ order.symbol ∨ existing.side ≠ order.side ∨
          existing.quantity ≠ order.quantity ∨ existing.price ≠ order.price then
        (ledger, .error (.valueError ("conflicting paper order id: " ++ order.orderId)))
      else (ledger, .ok existing)
    | none =>
      let refused := order.side = .sell ∧
        exceedsPosition (ledger.positions.find? order.symbol) order.quantity
      let stored := { order with status := if refused then .rejected else .pending }
      ({ ledger with orders := ledger.orders.upsert stored }, .ok stored)

/-- The order a fill is booked on, and the position it meets. -/
def fillable (fill : BookedFill) : Except Exn (PaperOrder × Option PaperPosition) :=
  match ledger.orders.find? fill.orderId with
  | none => .error (.other "KeyError" ("unknown paper order: " ++ fill.orderId))
  | some order =>
    if order.status = .rejected ∨ order.status = .cancelled then
      .error (.valueError ("cannot fill order in " ++ order.status.value ++ " status"))
    else if order.quantity < order.filledQuantity + fill.quantity then
      .error (.valueError "fill quantity exceeds order quantity")
    else
      let position := ledger.positions.find? order.symbol
      if order.side = .sell ∧ exceedsPosition position fill.quantity then
        .error (.valueError "sell fill exceeds current long position")
      else .ok (order, position)

/-- `_apply_fill`. -/
def applyFill (order : PaperOrder) (fill : BookedFill) (position : Option PaperPosition) :
    Except Exn PaperLedger :=
  match order.side, position with
  | .buy, position =>
    let oldQuantity := position.elim 0 (·.quantity)
    let oldAvg := position.elim 0 (·.avgPrice)
    let quantity := oldQuantity + fill.quantity
    let average := (oldQuantity * oldAvg + fill.quantity * fill.price.val) / quantity
    .ok { ledger with positions := ledger.positions.upsert ⟨order.symbol, quantity, average⟩ }
  | .sell, none => .error (.other "AssertionError" "")
  | .sell, some position =>
    let remaining := position.quantity - fill.quantity
    .ok { ledger with
      realizedPnl := ledger.realizedPnl + (fill.price.val - position.avgPrice) * fill.quantity
      positions :=
        if remaining ≠ 0 then ledger.positions.upsert ⟨order.symbol, remaining, position.avgPrice⟩
        else ledger.positions.delete order.symbol }

/-- `fill_order`: the ledger it leaves, also where it raises, and its answer. -/
def fillOrder (fill : PaperFill) : PaperLedger × Except Exn BookedFill :=
  match validateFill fill with
  | .error e => (ledger, .error e)
  | .ok fill =>
    match ledger.fills.find? fill.fillId with
    | some existing =>
      if existing.orderId ≠ fill.orderId ∨ existing.quantity ≠ fill.quantity ∨
          existing.price ≠ fill.price then
        (ledger, .error (.valueError ("conflicting paper fill id: " ++ fill.fillId)))
      else (ledger, .ok existing)
    | none =>
      match ledger.fillable fill with
      | .error e => (ledger, .error e)
      | .ok (order, position) =>
        match ledger.applyFill order fill position with
        | .error e => (ledger, .error e)
        | .ok applied =>
          ({ applied with
            fills := applied.fills.upsert fill
            orders := applied.orders.upsert (order.filledBy fill.quantity) }, .ok fill)

/-! ### What a call can do -/

variable {ledger}

theorem validateTradeValues_ok {symbol : String} {quantity : PaperQuantity} {price : PyFloat} {n : Int}
    {p : PosRat} (h : validateTradeValues symbol quantity price = .ok (n, p)) : 0 < n := by
  unfold validateTradeValues at h
  split at h
  · cases h
  split at h
  · cases h
  · cases h
  · rename_i m _ hquantity _
    cases h
    cases quantity with
    | bool b => cases hquantity
    | int k =>
      simp only [positiveQuantity?] at hquantity
      split at hquantity
      · rename_i hpos
        cases hquantity
        exact hpos
      · cases hquantity

theorem validateIntent_ok {intent : PaperOrderIntent} {order : PaperOrder}
    (h : validateIntent intent = .ok order) :
    order.orderId = intent.orderId ∧ 0 < order.quantity ∧ order.filledQuantity = 0 := by
  obtain ⟨_, -, h⟩ := Except.bind_eq_ok h
  obtain ⟨⟨quantity, price⟩, hvalues, h⟩ := Except.bind_eq_ok h
  obtain ⟨side, -, h⟩ := Except.bind_eq_ok h
  cases h
  exact ⟨rfl, validateTradeValues_ok hvalues, rfl⟩

theorem validateFill_ok {fill : PaperFill} {booked : BookedFill} (h : validateFill fill = .ok booked) :
    booked.fillId = fill.fillId ∧ 0 < booked.quantity := by
  obtain ⟨_, -, h⟩ := Except.bind_eq_ok h
  obtain ⟨_, -, h⟩ := Except.bind_eq_ok h
  obtain ⟨⟨quantity, price⟩, hvalues, h⟩ := Except.bind_eq_ok h
  cases h
  exact ⟨rfl, validateTradeValues_ok hvalues⟩

/-- `submit_order` writes nothing, or stores one new order with nothing filled. -/
theorem submitOrder_cases (ledger : PaperLedger) (intent : PaperOrderIntent) :
    (ledger.submitOrder intent).1 = ledger ∨
    ∃ order, ledger.orders.find? intent.orderId = none ∧ order.orderId = intent.orderId ∧
      0 < order.quantity ∧ order.filledQuantity = 0 ∧ order.status ≠ .filled ∧
      ledger.submitOrder intent = ({ ledger with orders := ledger.orders.upsert order }, .ok order) := by
  unfold submitOrder
  split
  · exact .inl rfl
  rename_i order hvalid
  obtain ⟨hid, hquantity, hfilled⟩ := validateIntent_ok hvalid
  split
  · split <;> exact .inl rfl
  · rename_i hnew
    refine .inr ⟨_, hid ▸ hnew, ?_, ?_, ?_, ?_, rfl⟩
    · exact hid
    · exact hquantity
    · exact hfilled
    · dsimp only
      split <;>
      · intro hstatus
        cases hstatus

/-- The order a fill is booked on is working, has room for it, and a SELL has the shares. -/
theorem fillable_ok {fill : BookedFill} {order : PaperOrder} {position : Option PaperPosition}
    (h : ledger.fillable fill = .ok (order, position)) :
    ledger.orders.find? fill.orderId = some order ∧ order.status ≠ .rejected ∧
      order.filledQuantity + fill.quantity ≤ order.quantity ∧
      position = ledger.positions.find? order.symbol ∧
      (order.side = .sell → ∃ held, position = some held ∧ fill.quantity ≤ held.quantity) := by
  unfold fillable at h
  split at h
  · cases h
  rename_i found hfound
  split at h
  · cases h
  rename_i hstatus
  split at h
  · cases h
  rename_i hroom
  dsimp only at h
  split at h
  · cases h
  rename_i hcovered
  cases h
  refine ⟨hfound, fun hrejected => hstatus (.inl hrejected), not_lt.mp hroom, rfl, fun hsell => ?_⟩
  cases hposition : ledger.positions.find? order.symbol with
  | none => exact absurd ⟨hsell, by rw [hposition]; rfl⟩ hcovered
  | some held =>
    refine ⟨held, rfl, ?_⟩
    by_contra hexceeds
    apply hcovered
    rw [hposition]
    exact ⟨hsell, by simpa [exceedsPosition] using hexceeds⟩

/-! ### Totals -/

variable (ledger)

/-- The side and the symbol of the order a fill belongs to. -/
def orderOf (fill : BookedFill) : Option (PaperSide × String) :=
  (ledger.orders.find? fill.orderId).map fun order => (order.side, order.symbol)

/-- The shares filled on an order. -/
def filledOn (orderId : String) : Int :=
  ledger.fills.total fun fill => if fill.orderId = orderId then fill.quantity else 0

/-- The shares filled on one side of a symbol. -/
def traded (side : PaperSide) (symbol : String) : Int :=
  ledger.fills.total fun fill => if ledger.orderOf fill = some (side, symbol) then fill.quantity else 0

/-- The money of the fills on one side. -/
def notional (side : PaperSide) : ℚ :=
  ledger.fills.total fun fill =>
    if (ledger.orderOf fill).map (·.1) = some side then fill.quantity * fill.price.val else 0

/-- The shares held of a symbol. -/
def held (symbol : String) : Int := (ledger.positions.find? symbol).elim 0 (·.quantity)

/-- What the open positions cost. -/
def openCost : ℚ := ledger.positions.total fun position => position.quantity * position.avgPrice

/-- What the ledger says of its orders, positions and profit, read off its fills. -/
structure Consistent : Prop where
  filled : ∀ id order, ledger.orders.find? id = some order → order.filledQuantity = ledger.filledOn id
  room : ∀ id order, ledger.orders.find? id = some order → order.filledQuantity ≤ order.quantity
  status : ∀ id order, ledger.orders.find? id = some order →
    (order.status = .filled ↔ order.filledQuantity = order.quantity)
  position : ∀ symbol, ledger.held symbol = ledger.traded .buy symbol - ledger.traded .sell symbol
  nonneg : ∀ symbol, 0 ≤ ledger.held symbol
  present : ∀ symbol, (ledger.positions.find? symbol).isSome = true ↔ 0 < ledger.held symbol
  realized : ledger.realizedPnl = ledger.notional .sell - ledger.notional .buy + ledger.openCost

/-- What every call keeps. -/
structure Books : Prop where
  known : ∀ fill ∈ ledger.fills.rows, (ledger.orders.find? fill.orderId).isSome = true
  order : ∀ id order, ledger.orders.find? id = some order → 0 < order.quantity ∧
    order.filledQuantity = ledger.filledOn id ∧ order.filledQuantity ≤ order.quantity ∧
    (order.status = .filled ↔ order.filledQuantity = order.quantity)
  position : ∀ symbol, ledger.held symbol = ledger.traded .buy symbol - ledger.traded .sell symbol
  positive : ∀ symbol position, ledger.positions.find? symbol = some position → 0 < position.quantity
  realized : ledger.realizedPnl = ledger.notional .sell - ledger.notional .buy + ledger.openCost

variable {ledger}

theorem Books.consistent (h : ledger.Books) : ledger.Consistent := by
  refine ⟨fun id order hfind => (h.order id order hfind).2.1,
    fun id order hfind => (h.order id order hfind).2.2.1,
    fun id order hfind => (h.order id order hfind).2.2.2, h.position, fun symbol => ?_, fun symbol => ?_,
    h.realized⟩
  · unfold held
    cases hfind : ledger.positions.find? symbol with
    | none => exact le_refl _
    | some position => exact (h.positive symbol position hfind).le
  · unfold held
    cases hfind : ledger.positions.find? symbol with
    | none => simp
    | some position => simpa using h.positive symbol position hfind

/-! ### Booking a fill -/

/-- `_apply_fill` moves the shares of the order's symbol and the money of the fill, and
    keeps every open position above zero. -/
theorem applyFill_ok {order : PaperOrder} {fill : BookedFill} {applied : PaperLedger}
    (hfill : 0 < fill.quantity)
    (hpositive : ∀ symbol position, ledger.positions.find? symbol = some position → 0 < position.quantity)
    (hcovered : order.side = .sell → ∃ position, ledger.positions.find? order.symbol = some position ∧
      fill.quantity ≤ position.quantity)
    (h : ledger.applyFill order fill (ledger.positions.find? order.symbol) = .ok applied) :
    applied.orders = ledger.orders ∧ applied.fills = ledger.fills ∧
    (∀ symbol, applied.held symbol =
      ledger.held symbol + if symbol = order.symbol then order.side.sign * fill.quantity else 0) ∧
    (∀ symbol position, applied.positions.find? symbol = some position → 0 < position.quantity) ∧
    applied.realizedPnl - applied.openCost =
      ledger.realizedPnl - ledger.openCost - order.side.sign * (fill.quantity * fill.price.val) := by
  cases hside : order.side with
  | buy =>
    simp only [applyFill, hside, Except.ok.injEq] at h
    subst h
    have hheld : 0 ≤ (ledger.positions.find? order.symbol).elim 0 (·.quantity) := by
      cases hfind : ledger.positions.find? order.symbol with
      | none => exact le_refl _
      | some position => exact (hpositive _ position hfind).le
    refine ⟨rfl, rfl, fun symbol => ?_, fun symbol position hfind => ?_, ?_⟩
    · simp only [held, Table.find?_upsert, PaperSide.sign, one_mul]
      split
      · rename_i hsymbol
        rw [hsymbol]
        rfl
      · simp
    · dsimp only at hfind
      rw [Table.find?_upsert] at hfind
      split at hfind
      · cases hfind
        exact add_pos_of_nonneg_of_pos hheld hfill
      · exact hpositive symbol position hfind
    · have hquantity : ((ledger.positions.find? order.symbol).elim 0 (·.quantity) + fill.quantity : ℚ) ≠ 0 := by
        exact_mod_cast (add_pos_of_nonneg_of_pos hheld hfill).ne'
      have hcost : (ledger.positions.find? order.symbol).elim 0
            (fun position => (position.quantity : ℚ) * position.avgPrice) =
          ((ledger.positions.find? order.symbol).elim 0 (·.quantity) : Int) *
            (ledger.positions.find? order.symbol).elim 0 (·.avgPrice) := by
        cases ledger.positions.find? order.symbol with
        | none => simp
        | some position => rfl
      simp only [openCost, Table.total_upsert, hcost, PaperSide.sign]
      push_cast
      rw [mul_div_cancel₀ _ hquantity]
      ring
  | sell =>
    obtain ⟨position, hfind, hle⟩ := hcovered hside
    rw [hfind] at h
    simp only [applyFill, hside, Except.ok.injEq] at h
    subst h
    have hheld : ledger.held order.symbol = position.quantity := by rw [held, hfind]; rfl
    refine ⟨rfl, rfl, fun symbol => ?_, fun symbol other hother => ?_, ?_⟩
    · dsimp only [held]
      by_cases hremaining : position.quantity - fill.quantity ≠ 0
      · rw [if_pos hremaining, Table.find?_upsert]
        by_cases hsymbol : symbol = order.symbol
        · rw [if_pos hsymbol, if_pos hsymbol, hsymbol, hfind]
          simp [PaperSide.sign, sub_eq_add_neg]
        · simp [hsymbol]
      · rw [if_neg hremaining, Table.find?_delete]
        by_cases hsymbol : symbol = order.symbol
        · rw [if_pos hsymbol, if_pos hsymbol, hsymbol, hfind]
          simp only [PaperSide.sign, Option.elim]
          omega
        · simp [hsymbol]
    · dsimp only at hother
      split at hother
      · rename_i hremaining
        rw [Table.find?_upsert] at hother
        split at hother
        · cases hother
          show 0 < position.quantity - fill.quantity
          omega
        · exact hpositive symbol other hother
      · rw [Table.find?_delete] at hother
        split at hother
        · cases hother
        · exact hpositive symbol other hother
    · have hsame : ∀ remaining : Int, position.quantity - fill.quantity = remaining →
          (remaining : ℚ) * position.avgPrice =
            position.quantity * position.avgPrice - fill.quantity * position.avgPrice := by
        rintro _ rfl
        push_cast
        ring
      dsimp only [openCost]
      split
      · rw [Table.total_upsert, hfind]
        dsimp only [Option.elim]
        rw [hsame _ rfl, PaperSide.sign]
        push_cast
        ring
      · rename_i hremaining
        rw [Table.total_delete _ hfind]
        have hzero := hsame 0 (not_not.mp hremaining)
        rw [PaperSide.sign]
        push_cast at hzero ⊢
        linarith

/-! ### Calls keep the books -/

/-- Writing orders that leave the fills with their sides and symbols changes no total. -/
theorem totals_of_orders {orders : Table PaperOrder (·.orderId)}
    (hsame : ∀ fill ∈ ledger.fills.rows, orderOf { ledger with orders } fill = ledger.orderOf fill)
    (side : PaperSide) :
    (∀ symbol, traded { ledger with orders } side symbol = ledger.traded side symbol) ∧
      notional { ledger with orders } side = ledger.notional side :=
  ⟨fun symbol => ledger.fills.total_congr fun fill hfill => by rw [hsame fill hfill],
    ledger.fills.total_congr fun fill hfill => by rw [hsame fill hfill]⟩

theorem filledOn_of_orders (orders : Table PaperOrder (·.orderId)) (id : String) :
    filledOn { ledger with orders } id = ledger.filledOn id := rfl

/-- No fill belongs to an order that is not there. -/
theorem Books.filledOn_new (h : ledger.Books) {id : String} (hnew : ledger.orders.find? id = none) :
    ledger.filledOn id = 0 := by
  have hzero : ledger.filledOn id = ledger.fills.total fun _ => (0 : Int) := by
    apply ledger.fills.total_congr
    intro fill hfill
    rw [if_neg]
    rintro rfl
    have := h.known fill hfill
    rw [hnew] at this
    cases this
  rw [hzero, Table.total]
  simp

/-- Storing a new order keeps the books. -/
theorem Books.submit (h : ledger.Books) {order : PaperOrder} (hnew : ledger.orders.find? order.orderId = none)
    (hquantity : 0 < order.quantity) (hfilled : order.filledQuantity = 0) (hstatus : order.status ≠ .filled) :
    Books { ledger with orders := ledger.orders.upsert order } := by
  have hother : ∀ fill ∈ ledger.fills.rows, fill.orderId ≠ order.orderId := by
    intro fill hfill heq
    have := h.known fill hfill
    rw [heq, hnew] at this
    cases this
  have hsame : ∀ fill ∈ ledger.fills.rows,
      orderOf { ledger with orders := ledger.orders.upsert order } fill = ledger.orderOf fill := by
    intro fill hfill
    simp only [orderOf, Table.find?_upsert, if_neg (hother fill hfill)]
  have htotals := totals_of_orders hsame
  refine ⟨fun fill hfill => ?_, fun id found hfind => ?_, fun symbol => ?_, h.positive, ?_⟩
  · simpa only [Table.find?_upsert, if_neg (hother fill hfill)] using h.known fill hfill
  · simp only [Table.find?_upsert] at hfind
    rw [filledOn_of_orders]
    split at hfind
    · rename_i hid
      cases hfind
      rw [hid, h.filledOn_new hnew, hfilled]
      exact ⟨hquantity, rfl, hquantity.le, fun hno => absurd hno hstatus, fun hno => by omega⟩
    · exact h.order id found hfind
  · rw [(htotals .buy).1, (htotals .sell).1]
    exact h.position symbol
  · rw [(htotals .buy).2, (htotals .sell).2]
    exact h.realized

/-- A new fill adds its weight to a total whose other weights stay. -/
theorem total_booked {M : Type} [AddCommGroup M] {fill : BookedFill}
    (hfree : ledger.fills.find? fill.fillId = none) {w w' : BookedFill → M}
    (hsame : ∀ other ∈ ledger.fills.rows, w' other = w other) :
    (ledger.fills.upsert fill).total w' = ledger.fills.total w + w' fill := by
  rw [Table.total_upsert, hfree, ledger.fills.total_congr hsame]
  simp

/-- Booking a fill on an order with room for it keeps the books. -/
theorem Books.fill (h : ledger.Books) {fill : BookedFill} {order : PaperOrder} {applied : PaperLedger}
    (hquantity : 0 < fill.quantity) (hfree : ledger.fills.find? fill.fillId = none)
    (horder : ledger.orders.find? fill.orderId = some order)
    (hroom : order.filledQuantity + fill.quantity ≤ order.quantity)
    (hcovered : order.side = .sell → ∃ position, ledger.positions.find? order.symbol = some position ∧
      fill.quantity ≤ position.quantity)
    (happlied : ledger.applyFill order fill (ledger.positions.find? order.symbol) = .ok applied) :
    Books { applied with
      fills := applied.fills.upsert fill
      orders := applied.orders.upsert (order.filledBy fill.quantity) } := by
  obtain ⟨horders, hfills, hheld, hpositive, hmoney⟩ := applyFill_ok hquantity h.positive hcovered happlied
  have hid : order.orderId = fill.orderId := ledger.orders.key_of_find? horder
  have hkey : (order.filledBy fill.quantity).orderId = fill.orderId := hid
  obtain ⟨hpos, hprogress, -, hdone⟩ := h.order _ _ horder
  generalize hnext : ({ applied with
      fills := applied.fills.upsert fill
      orders := applied.orders.upsert (order.filledBy fill.quantity) } : PaperLedger) = next
  have hfind : ∀ id, next.orders.find? id =
      if id = fill.orderId then some (order.filledBy fill.quantity) else ledger.orders.find? id := by
    intro id
    rw [← hnext, ← hkey]
    simp only [Table.find?_upsert, horders]
  -- the fills keep their sides and symbols, and the new one has those of its order
  have hsame : ∀ other, next.orderOf other = ledger.orderOf other := by
    intro other
    unfold orderOf
    rw [hfind]
    split
    · rename_i heq
      rw [heq, horder]
      rfl
    · rfl
  have hown : next.orderOf fill = some (order.side, order.symbol) := by
    rw [hsame, orderOf, horder]
    rfl
  have hnextFills : next.fills = ledger.fills.upsert fill := by rw [← hnext, hfills]
  have htraded : ∀ side symbol, next.traded side symbol =
      ledger.traded side symbol + if (order.side, order.symbol) = (side, symbol) then fill.quantity else 0 := by
    intro side symbol
    unfold traded
    rw [hnextFills, total_booked hfree fun other _ => by rw [hsame other], hown]
    simp only [Option.some.injEq]
  have hnotional : ∀ side, next.notional side =
      ledger.notional side + if order.side = side then fill.quantity * fill.price.val else 0 := by
    intro side
    unfold notional
    rw [hnextFills, total_booked hfree fun other _ => by rw [hsame other], hown]
    simp only [Option.map_some, Option.some.injEq]
  have hfilledOn : ∀ id, next.filledOn id =
      ledger.filledOn id + if fill.orderId = id then fill.quantity else 0 := by
    intro id
    unfold filledOn
    rw [hnextFills, total_booked hfree fun _ _ => rfl]
  refine ⟨fun other hother => ?_, fun id found hfound => ?_, fun symbol => ?_, ?_, ?_⟩
  · rw [hfind]
    split
    · rfl
    rename_i hne
    have hfound := next.fills.find?_of_mem hother
    rw [hnextFills, Table.find?_upsert] at hfound
    split at hfound
    · cases hfound
      exact absurd rfl hne
    · exact h.known other (ledger.fills.mem_of_find? hfound)
  · rw [hfind] at hfound
    rw [hfilledOn]
    split at hfound
    · rename_i hsameId
      cases hfound
      rw [if_pos hsameId.symm, hsameId, ← hprogress]
      refine ⟨hpos, rfl, hroom, ?_⟩
      -- an order with room left is not filled yet
      have hopen : order.status ≠ .filled := fun hfilled => by
        have := hdone.mp hfilled
        omega
      simp only [PaperOrder.filledBy]
      split
      · rename_i hfull
        exact ⟨fun _ => hfull, fun _ => rfl⟩
      · rename_i hpartial
        exact ⟨fun hno => absurd hno hopen, fun hno => absurd hno hpartial⟩
    · rename_i hne
      rw [if_neg (Ne.symm hne), add_zero]
      exact h.order id found hfound
  · have hnextHeld : next.held symbol = applied.held symbol := by rw [← hnext]; rfl
    rw [hnextHeld, hheld, h.position symbol, htraded, htraded]
    by_cases hsymbol : symbol = order.symbol
    · subst hsymbol
      cases hside : order.side <;> simp [PaperSide.sign] <;> omega
    · simp [hsymbol, Ne.symm hsymbol]
  · intro symbol position hposition
    rw [← hnext] at hposition
    exact hpositive symbol position hposition
  · have hnextMoney : next.realizedPnl - next.openCost = applied.realizedPnl - applied.openCost := by
      rw [← hnext]
      rfl
    rw [hmoney] at hnextMoney
    have hrealized := h.realized
    rw [hnotional, hnotional]
    cases hside : order.side <;> simp [hside, PaperSide.sign] at hnextMoney ⊢ <;> linarith

/-! ### Runs -/

inductive PaperCall where
  | submit (intent : PaperOrderIntent)
  | fill (fill : PaperFill)

variable (ledger)

/-- A call on the ledger: the ledger it leaves, and whether it raised. -/
def call : PaperCall → PaperLedger × Except Exn Unit
  | .submit intent =>
    let (ledger', answer) := ledger.submitOrder intent
    (ledger', answer.map fun _ => ())
  | .fill fill =>
    let (ledger', answer) := ledger.fillOrder fill
    (ledger', answer.map fun _ => ())

/-- The ledger has the id of the call already. -/
def knowsId : PaperCall → Bool
  | .submit intent => (ledger.orders.find? intent.orderId).isSome
  | .fill fill => (ledger.fills.find? fill.fillId).isSome

/-- The ledger after a sequence of calls. -/
def after (calls : List PaperCall) : PaperLedger :=
  calls.foldl (fun ledger paperCall => (ledger.call paperCall).1) empty

-- ten shares at 100, four of them sold at 110, the sale delivered twice
example : (after
    [.submit ⟨"b1", "005930", "BUY", .int 10, .fin 100⟩, .fill ⟨"f1", "b1", .int 10, .fin 100⟩,
      .submit ⟨"s1", "005930", "SELL", .int 4, .fin 110⟩, .fill ⟨"f2", "s1", .int 4, .fin 110⟩,
      .fill ⟨"f2", "s1", .int 4, .fin 110⟩]).realizedPnl = 40 := by
  decide +kernel

variable {ledger}

/-- `fill_order` writes nothing, or books one new fill on an order with room for it. -/
theorem fillOrder_cases (ledger : PaperLedger) (fill : PaperFill) :
    (ledger.fillOrder fill).1 = ledger ∨
    ∃ booked order applied, ledger.fills.find? fill.fillId = none ∧ booked.fillId = fill.fillId ∧
      0 < booked.quantity ∧ ledger.orders.find? booked.orderId = some order ∧
      order.filledQuantity + booked.quantity ≤ order.quantity ∧
      (order.side = .sell → ∃ position, ledger.positions.find? order.symbol = some position ∧
        booked.quantity ≤ position.quantity) ∧
      ledger.applyFill order booked (ledger.positions.find? order.symbol) = .ok applied ∧
      ledger.fillOrder fill = ({ applied with
        fills := applied.fills.upsert booked
        orders := applied.orders.upsert (order.filledBy booked.quantity) }, .ok booked) := by
  unfold fillOrder
  split
  · exact .inl rfl
  rename_i booked hvalid
  obtain ⟨hid, hquantity⟩ := validateFill_ok hvalid
  split
  · split <;> exact .inl rfl
  rename_i hfree
  split
  · exact .inl rfl
  rename_i order position hfillable
  obtain ⟨horder, -, hroom, rfl, hcovered⟩ := fillable_ok hfillable
  split
  · exact .inl rfl
  rename_i applied happlied
  exact .inr ⟨booked, order, applied, hid ▸ hfree, hid, hquantity, horder, hroom, hcovered, happlied, rfl⟩

/-- A call keeps the books. -/
theorem Books.call (h : ledger.Books) (paperCall : PaperCall) : (ledger.call paperCall).1.Books := by
  cases paperCall with
  | submit intent =>
    obtain hsame | ⟨order, hnew, hid, hquantity, hfilled, hstatus, hstored⟩ := submitOrder_cases ledger intent
    · exact hsame.symm ▸ h
    · show (ledger.submitOrder intent).1.Books
      rw [hstored]
      exact h.submit (hid ▸ hnew) hquantity hfilled hstatus
  | fill fill =>
    obtain hsame | ⟨booked, order, applied, hfree, hid, hquantity, horder, hroom, hcovered, happlied, hbooked⟩ :=
      fillOrder_cases ledger fill
    · exact hsame.symm ▸ h
    · show (ledger.fillOrder fill).1.Books
      rw [hbooked]
      exact h.fill hquantity (hid ▸ hfree) horder hroom hcovered happlied

theorem books_empty : empty.Books :=
  ⟨nofun, nofun, fun _ => rfl, nofun, by decide +kernel⟩

/-- Calls keep the books. -/
theorem Books.calls (h : ledger.Books) (calls : List PaperCall) :
    (calls.foldl (fun ledger paperCall => (ledger.call paperCall).1) ledger).Books := by
  induction calls generalizing ledger with
  | nil => exact h
  | cons paperCall calls ih => exact ih (h.call paperCall)

/-- A call that raises, or whose id is known, writes nothing. -/
theorem call_writes_nothing (ledger : PaperLedger) (paperCall : PaperCall)
    (h : (ledger.call paperCall).2.isOk = false ∨ ledger.knowsId paperCall = true) :
    (ledger.call paperCall).1 = ledger := by
  cases paperCall with
  | submit intent =>
    obtain hsame | ⟨order, hnew, -, -, -, -, hstored⟩ := submitOrder_cases ledger intent
    · exact hsame
    · simp [call, knowsId, hstored, hnew, Except.map, Except.isOk, Except.toBool] at h
  | fill fill =>
    obtain hsame | ⟨booked, order, applied, hfree, -, -, -, -, -, -, hbooked⟩ := fillOrder_cases ledger fill
    · exact hsame
    · simp [call, knowsId, hbooked, hfree, Except.map, Except.isOk, Except.toBool] at h

/-- **The paper ledger agrees with its fills after any sequence of calls**, and a call
    that raises or repeats an order or fill id writes nothing. -/
theorem paper_ledger_consistent (calls : List PaperCall) :
    (after calls).Consistent ∧ ∀ paperCall,
      ((after calls).call paperCall).2.isOk = false ∨ (after calls).knowsId paperCall = true →
        ((after calls).call paperCall).1 = after calls :=
  ⟨(books_empty.calls calls).consistent, fun paperCall h => call_writes_nothing (after calls) paperCall h⟩

end PaperLedger

end AutoTrader
