/-
  AutoTrader/Storage/Orders.lean
  ==============================
  **The order ledger: `broker_orders` and `broker_fills`.**

  Every method of `Database` that writes an order or a fill, as a transaction on
  the tables.  Validation happens before the transaction is opened, in the order
  of the source and with its messages; it never touches the store, so it is a
  plain `Except`.  `apply_broker_fill` inserts the fill first and refuses an
  over-fill afterwards: what undoes the insert is the rollback of `atomically`.

  Below each method stands its case lemma, which says everything a call can do to
  the tables.  Proofs about runs use these lemmas and never unfold a method.
-/
import AutoTrader.Lib.Exec
import AutoTrader.Storage.Schema

namespace AutoTrader

open Relational Transactional

/-- A computation on the database. -/
abbrev Tx (α : Type) := Exec Database Exn α

/-! ### Validation -/

def requireNonempty (value name : String) : Except Exn Unit :=
  if Text.blank value then .error (.valueError (name ++ " must not be empty")) else .ok ()

theorem requireNonempty_ok {value name : String} {u : Unit}
    (h : requireNonempty value name = .ok u) : Text.blank value = false := by
  unfold requireNonempty at h
  split at h
  · cases h
  · rename_i hb; simpa using hb

theorem requireNonempty_of {value : String} (h : Text.blank value = false) (name : String) :
    requireNonempty value name = .ok () := by
  simp [requireNonempty, h]

/-- `_require_nonempty` behind an `is not None`. -/
def requireNonemptyIfGiven (value : Option String) (name : String) : Except Exn Unit :=
  match value with
  | none => .ok ()
  | some v => requireNonempty v name

def validateSymbol (symbol : String) : Except Exn Unit :=
  if Text.blank symbol then .error (.valueError "symbol must not be empty")
  else if !Text.isdigit symbol || symbol.length ≠ 6 then
    .error (.valueError "symbol must be a six-digit domestic stock code")
  else .ok ()

def validatePositiveNumber (value : Number) (name : String) : Except Exn PosRat :=
  match value.positive? with
  | some q => .ok q
  | none => .error (.valueError (name ++ " must be positive"))

/-- `_validate_positive_number` behind an `is not None`. -/
def validatePositiveIfGiven (value : Option Number) (name : String) :
    Except Exn (Option PosRat) :=
  match value with
  | none => .ok none
  | some v => (validatePositiveNumber v name).map some

/-- A quantity that passed validation. -/
structure PosNat where
  val : Nat
  pos : 0 < val

theorem PosNat.val_inj {a b : PosNat} : a.val = b.val ↔ a = b := by
  cases a
  cases b
  rw [PosNat.mk.injEq]

instance : DecidableEq PosNat := fun _ _ => decidable_of_iff _ PosNat.val_inj

/-- `_validate_positive_number` followed by `isinstance(value, int)`. -/
def validateQuantity (value : Number) (name : String) : Except Exn PosNat := do
  let _ ← validatePositiveNumber value name
  match value with
  | .int n =>
    if h : 0 < n then .ok ⟨n.toNat, by omega⟩
    else .error (.valueError (name ++ " must be positive"))
  | _ => .error (.valueError (name ++ " must be an integer"))

def validateSide (side : String) : Except Exn Side := do
  requireNonempty side "side"
  match Side.parse? side with
  | some s => .ok s
  | none => .error (.valueError "side must be BUY or SELL")

def validateSymbolIfGiven : Option String → Except Exn Unit
  | none => .ok ()
  | some s => validateSymbol s

def validateSideIfGiven : Option String → Except Exn (Option Side)
  | none => .ok none
  | some s => (validateSide s).map some

/-! ### Statements -/

/-- A statement on `broker_orders`; its answer is the row count. -/
def onOrders (f : Table BrokerOrder BrokerOrder.clientOrderId →
    Table BrokerOrder BrokerOrder.clientOrderId × Bool) : Tx Bool :=
  .statement fun db => ((f db.brokerOrders).2, { db with brokerOrders := (f db.brokerOrders).1 })

/-- A statement on `broker_fills`; its answer is the row count. -/
def onFills (f : Table BrokerFill BrokerFill.fillId →
    Table BrokerFill BrokerFill.fillId × Bool) : Tx Bool :=
  .statement fun db => ((f db.brokerFills).2, { db with brokerFills := (f db.brokerFills).1 })

/-! ### Claiming an order -/

structure IntentArgs where
  clientOrderId : String
  signalId : Option String
  symbol : String
  side : String
  requestedQty : Number
  requestedPrice : Number
  createdAt : Option DateTime

/-- The row `claim_order_intent` inserts, or the exception its validation raises. -/
def intentRow (now : DateTime) (a : IntentArgs) : Except Exn BrokerOrder := do
  requireNonempty a.clientOrderId "client_order_id"
  requireNonemptyIfGiven a.signalId "signal_id"
  validateSymbol a.symbol
  let side ← validateSide a.side
  let quantity ← validateQuantity a.requestedQty "requested_qty"
  let price ← validatePositiveNumber a.requestedPrice "requested_price"
  let timestamp := a.createdAt.getD now
  .ok { clientOrderId := a.clientOrderId, signalId := a.signalId, symbol := a.symbol, side := side
        requestedQty := quantity.val, requestedPrice := price, status := .intent
        brokerOrderId := none, filledQty := 0, avgFillPrice := none
        createdAt := timestamp, updatedAt := timestamp
        submittedAt := none, completedAt := none, error := none
        requestedQty_pos := quantity.pos }

/-- `claim_order_intent`; `now` is the clock it reads when no time is given. -/
def claimOrderIntent (now : DateTime) (a : IntentArgs) : Tx Bool := do
  let row ← Exec.ofExcept (intentRow now a)
  Exec.atomically (onOrders fun t => t.insertOrIgnore row)

theorem intentRow_ok {now : DateTime} {a : IntentArgs} {row : BrokerOrder}
    (h : intentRow now a = .ok row) :
    row.clientOrderId = a.clientOrderId ∧ row.status = .intent ∧ row.brokerOrderId = none ∧
    row.filledQty = 0 ∧ row.avgFillPrice = none ∧ Text.blank a.clientOrderId = false := by
  unfold intentRow at h
  obtain ⟨_, hid, h⟩ := Except.bind_eq_ok h
  obtain ⟨_, -, h⟩ := Except.bind_eq_ok h
  obtain ⟨_, -, h⟩ := Except.bind_eq_ok h
  obtain ⟨side, -, h⟩ := Except.bind_eq_ok h
  obtain ⟨quantity, -, h⟩ := Except.bind_eq_ok h
  obtain ⟨price, -, h⟩ := Except.bind_eq_ok h
  cases h
  exact ⟨rfl, rfl, rfl, rfl, rfl, requireNonempty_ok hid⟩

theorem Side.parse?_name (side : Side) : Side.parse? side.name = some side := by
  cases side with
  | buy => rfl
  | sell => rfl

/-- A claimed order is of the symbol and the side it was claimed for. -/
theorem intentRow_identity {now : DateTime} {a : IntentArgs} {row : BrokerOrder}
    (h : intentRow now a = .ok row) : row.symbol = a.symbol ∧ Side.parse? a.side = some row.side := by
  unfold intentRow at h
  obtain ⟨_, -, h⟩ := Except.bind_eq_ok h
  obtain ⟨_, -, h⟩ := Except.bind_eq_ok h
  obtain ⟨_, -, h⟩ := Except.bind_eq_ok h
  obtain ⟨side, hside, h⟩ := Except.bind_eq_ok h
  obtain ⟨quantity, -, h⟩ := Except.bind_eq_ok h
  obtain ⟨price, -, h⟩ := Except.bind_eq_ok h
  cases h
  refine ⟨rfl, ?_⟩
  unfold validateSide at hside
  obtain ⟨_, -, hside⟩ := Except.bind_eq_ok hside
  split at hside
  · rename_i parsed hparsed
    cases hside
    exact hparsed
  · cases hside

theorem intentRow_signalId {now : DateTime} {a : IntentArgs} {row : BrokerOrder}
    (h : intentRow now a = .ok row) : row.signalId = a.signalId := by
  unfold intentRow at h
  obtain ⟨_, -, h⟩ := Except.bind_eq_ok h
  obtain ⟨_, -, h⟩ := Except.bind_eq_ok h
  obtain ⟨_, -, h⟩ := Except.bind_eq_ok h
  obtain ⟨side, -, h⟩ := Except.bind_eq_ok h
  obtain ⟨quantity, -, h⟩ := Except.bind_eq_ok h
  obtain ⟨price, -, h⟩ := Except.bind_eq_ok h
  cases h
  rfl

/-- The claimed quantity is the one that is asked for. -/
theorem intentRow_requestedQty {now : DateTime} {a : IntentArgs} {row : BrokerOrder} {n : Int}
    (h : intentRow now a = .ok row) (hn : a.requestedQty = .int n) : row.requestedQty = n.toNat := by
  unfold intentRow at h
  obtain ⟨_, -, h⟩ := Except.bind_eq_ok h
  obtain ⟨_, -, h⟩ := Except.bind_eq_ok h
  obtain ⟨_, -, h⟩ := Except.bind_eq_ok h
  obtain ⟨side, -, h⟩ := Except.bind_eq_ok h
  obtain ⟨quantity, hquantity, h⟩ := Except.bind_eq_ok h
  obtain ⟨price, -, h⟩ := Except.bind_eq_ok h
  cases h
  unfold validateQuantity at hquantity
  obtain ⟨_, -, hquantity⟩ := Except.bind_eq_ok hquantity
  rw [hn] at hquantity
  dsimp only at hquantity
  split at hquantity
  · cases hquantity; rfl
  · cases hquantity

/-- A claim raises before it touches the tables, finds the id taken, or appends
    an order without fills. -/
theorem claimOrderIntent_cases (now : DateTime) (a : IntentArgs) (db : Database) :
    (∃ e, (claimOrderIntent now a).run db = (.error e, db)) ∨
    ((∃ o, db.brokerOrders.find? a.clientOrderId = some o) ∧
      (claimOrderIntent now a).run db = (.ok false, db)) ∨
    (∃ row, intentRow now a = .ok row ∧ db.brokerOrders.find? row.clientOrderId = none ∧
      (claimOrderIntent now a).run db =
        (.ok true, { db with brokerOrders := (db.brokerOrders.insertOrIgnore row).1 })) := by
  unfold claimOrderIntent
  cases hrow : intentRow now a with
  | error e => exact Or.inl ⟨e, rfl⟩
  | ok row =>
    have hid := (intentRow_ok hrow).1
    right
    rcases db.brokerOrders.insertOrIgnore_cases row with ⟨⟨s, hs⟩, hins⟩ | ⟨hfree, hflag, -⟩
    · left
      refine ⟨⟨s, hid ▸ hs⟩, ?_⟩
      simp only [Exec.run_ofExcept_ok_bind, Exec.run_atomically, onOrders, Exec.run_statement, hins]
    · right
      refine ⟨row, rfl, hfree, ?_⟩
      simp only [Exec.run_ofExcept_ok_bind, Exec.run_atomically, onOrders, Exec.run_statement,
        hflag]

/-! ### Rewriting the header of an order -/

/-- The four methods that rewrite an order's header: validate, then one
    `UPDATE broker_orders SET ... WHERE client_order_id=?`. -/
def rewriteOrder (clientOrderId : String) (check : Except Exn Unit) (cond : BrokerOrder → Bool)
    (f : BrokerOrder → BrokerOrder) (hf : ∀ r, (f r).clientOrderId = r.clientOrderId) : Tx Bool := do
  Exec.ofExcept (requireNonempty clientOrderId "client_order_id")
  Exec.ofExcept check
  Exec.atomically (onOrders fun t => t.updateWhere clientOrderId cond f hf)

/-- A rewrite raises, finds no row that qualifies, or rewrites the one row. -/
theorem rewriteOrder_cases (clientOrderId : String) (check : Except Exn Unit)
    (cond : BrokerOrder → Bool) (f : BrokerOrder → BrokerOrder)
    (hf : ∀ r, (f r).clientOrderId = r.clientOrderId) (db : Database) :
    (∃ e, (rewriteOrder clientOrderId check cond f hf).run db = (.error e, db)) ∨
    ((∀ o, db.brokerOrders.find? clientOrderId = some o → cond o = false) ∧
      (rewriteOrder clientOrderId check cond f hf).run db = (.ok false, db)) ∨
    (∃ o, db.brokerOrders.find? clientOrderId = some o ∧ cond o = true ∧
      (rewriteOrder clientOrderId check cond f hf).run db =
        (.ok true, { db with brokerOrders := db.brokerOrders.update clientOrderId f hf })) := by
  unfold rewriteOrder
  cases requireNonempty clientOrderId "client_order_id" with
  | error e => exact Or.inl ⟨e, rfl⟩
  | ok _ =>
    cases check with
    | error e => exact Or.inl ⟨e, rfl⟩
    | ok _ =>
      right
      rcases db.brokerOrders.updateWhere_cases clientOrderId cond f hf with
        ⟨hno, hupd⟩ | ⟨o, hfind, hc, hupd⟩
      · left
        refine ⟨hno, ?_⟩
        simp only [Exec.run_ofExcept_ok_bind, Exec.run_atomically, onOrders, Exec.run_statement, hupd]
      · right
        refine ⟨o, hfind, hc, ?_⟩
        simp only [Exec.run_ofExcept_ok_bind, Exec.run_atomically, onOrders, Exec.run_statement, hupd]

/-- A rewrite whose arguments are valid finds its row. -/
theorem rewriteOrder_of_find? {clientOrderId : String} {check : Except Exn Unit}
    {cond : BrokerOrder → Bool} {f : BrokerOrder → BrokerOrder}
    {hf : ∀ r, (f r).clientOrderId = r.clientOrderId} {db : Database} {o : BrokerOrder}
    (hid : Text.blank clientOrderId = false) (hcheck : check = .ok ())
    (ho : db.brokerOrders.find? clientOrderId = some o) (hcond : cond o = true) :
    (rewriteOrder clientOrderId check cond f hf).run db =
      (.ok true, { db with brokerOrders := db.brokerOrders.update clientOrderId f hf }) := by
  unfold rewriteOrder
  rw [requireNonempty_of hid, hcheck]
  simp only [Exec.run_ofExcept_ok_bind, Exec.run_atomically, onOrders, Exec.run_statement,
    Table.updateWhere_of_find? ho _ hcond]

def markOrderSubmitting (now : DateTime) (clientOrderId : String) (updatedAt : Option DateTime) :
    Tx Bool :=
  rewriteOrder clientOrderId (.ok ()) (fun _ => true)
    (fun o => { o with status := .submitting, updatedAt := updatedAt.getD now, error := none })
    (fun _ => rfl)

def recordOrderSubmission (now : DateTime) (clientOrderId brokerOrderId : String)
    (submittedAt : Option DateTime) : Tx Bool :=
  rewriteOrder clientOrderId (requireNonempty brokerOrderId "broker_order_id") (fun _ => true)
    (fun o => { o with
      status := .acknowledged, brokerOrderId := some brokerOrderId
      submittedAt := some (submittedAt.getD now), updatedAt := submittedAt.getD now, error := none })
    (fun _ => rfl)

def markOrderUnknown (now : DateTime) (clientOrderId : String) (error : Option String)
    (updatedAt : Option DateTime) : Tx Bool :=
  rewriteOrder clientOrderId (requireNonemptyIfGiven error "error") (fun _ => true)
    (fun o => { o with status := .unknown, updatedAt := updatedAt.getD now, error := error })
    (fun _ => rfl)

/-- The arguments of `update_broker_order_status`; a status is always one of
    `BROKER_ORDER_STATUSES` here. -/
structure StatusUpdate where
  status : OrderStatus
  brokerOrderId : Option String
  filledQty : Option Int
  avgFillPrice : Option Number
  error : Option String
  updatedAt : Option DateTime
  completedAt : Option DateTime

/-- `filled_qty` and `avg_fill_price` after validation. -/
structure CheckedUpdate where
  filledQty : Option Nat
  avgFillPrice : Option PosRat

def checkFilledQty : Option Int → Except Exn (Option Nat)
  | none => .ok none
  | some q =>
    if 0 ≤ q then .ok (some q.toNat)
    else .error (.valueError "filled_qty must be a non-negative integer")

def checkUpdate (u : StatusUpdate) : Except Exn CheckedUpdate := do
  requireNonemptyIfGiven u.brokerOrderId "broker_order_id"
  let filledQty ← checkFilledQty u.filledQty
  let avgFillPrice ← validatePositiveIfGiven u.avgFillPrice "avg_fill_price"
  requireNonemptyIfGiven u.error "error"
  .ok ⟨filledQty, avgFillPrice⟩

/-- `SET status=?, broker_order_id=COALESCE(?,broker_order_id), ...`. -/
def updatedHeader (now : DateTime) (u : StatusUpdate) (c : CheckedUpdate) (o : BrokerOrder) :
    BrokerOrder :=
  { o with
    status := u.status
    brokerOrderId := u.brokerOrderId.or o.brokerOrderId
    filledQty := c.filledQty.getD o.filledQty
    avgFillPrice := (c.avgFillPrice.map PosRat.val).or o.avgFillPrice
    updatedAt := u.updatedAt.getD now
    completedAt :=
      if u.status.terminal then some ((u.completedAt.or u.updatedAt).getD now) else none
    error := u.error }

theorem updatedHeader_clientOrderId (now : DateTime) (u : StatusUpdate) (c : CheckedUpdate)
    (o : BrokerOrder) : (updatedHeader now u c o).clientOrderId = o.clientOrderId := rfl

/-- `AND (? IS NULL OR ? <= requested_qty)`. -/
def withinRequested (c : CheckedUpdate) (o : BrokerOrder) : Bool :=
  match c.filledQty with
  | none => true
  | some q => q ≤ o.requestedQty

def updateBrokerOrderStatus (now : DateTime) (clientOrderId : String) (u : StatusUpdate) :
    Tx Bool := do
  Exec.ofExcept (requireNonempty clientOrderId "client_order_id")
  let c ← Exec.ofExcept (checkUpdate u)
  Exec.atomically (onOrders fun t =>
    t.updateWhere clientOrderId (withinRequested c) (updatedHeader now u c)
      (updatedHeader_clientOrderId now u c))

/-- What the validation of an update lets through. -/
theorem checkUpdate_ok {u : StatusUpdate} {c : CheckedUpdate} (h : checkUpdate u = .ok c) :
    c.filledQty = u.filledQty.map Int.toNat ∧ (∀ q, u.filledQty = some q → 0 ≤ q) ∧
    c.avgFillPrice = u.avgFillPrice.bind Number.positive? := by
  unfold checkUpdate at h
  obtain ⟨_, -, h⟩ := Except.bind_eq_ok h
  obtain ⟨filledQty, hq, h⟩ := Except.bind_eq_ok h
  obtain ⟨avg, hp, h⟩ := Except.bind_eq_ok h
  obtain ⟨_, -, h⟩ := Except.bind_eq_ok h
  cases h
  refine ⟨?_, ?_, ?_⟩
  · cases hu : u.filledQty with
    | none => simp_all [checkFilledQty]
    | some q => by_cases h0 : 0 ≤ q <;> simp_all [checkFilledQty]
  · intro q hu
    by_contra h0
    simp [hu, h0, checkFilledQty] at hq
  · cases hu : u.avgFillPrice with
    | none => simp_all [validatePositiveIfGiven]
    | some p =>
      cases hpos : p.positive? <;>
        simp_all [validatePositiveIfGiven, validatePositiveNumber, Except.map]

/-- An update raises, finds no row that qualifies, or rewrites the one row. -/
theorem updateBrokerOrderStatus_cases (now : DateTime) (clientOrderId : String) (u : StatusUpdate)
    (db : Database) :
    (∃ e, (updateBrokerOrderStatus now clientOrderId u).run db = (.error e, db)) ∨
    (∃ c, checkUpdate u = .ok c ∧
      (∀ o, db.brokerOrders.find? clientOrderId = some o → withinRequested c o = false) ∧
      (updateBrokerOrderStatus now clientOrderId u).run db = (.ok false, db)) ∨
    (∃ o c, checkUpdate u = .ok c ∧ db.brokerOrders.find? clientOrderId = some o ∧
      withinRequested c o = true ∧
      (updateBrokerOrderStatus now clientOrderId u).run db =
        (.ok true, { db with
          brokerOrders := db.brokerOrders.update clientOrderId (updatedHeader now u c)
            (updatedHeader_clientOrderId now u c) })) := by
  unfold updateBrokerOrderStatus
  cases requireNonempty clientOrderId "client_order_id" with
  | error e => exact Or.inl ⟨e, rfl⟩
  | ok _ =>
    cases hc : checkUpdate u with
    | error e => exact Or.inl ⟨e, rfl⟩
    | ok c =>
      right
      rcases db.brokerOrders.updateWhere_cases clientOrderId (withinRequested c)
          (updatedHeader now u c) (updatedHeader_clientOrderId now u c) with ⟨hno, hupd⟩ | ⟨o, hfind, hw, hupd⟩
      · left
        refine ⟨c, rfl, hno, ?_⟩
        simp only [Exec.run_ofExcept_ok_bind, Exec.run_atomically, onOrders, Exec.run_statement, hupd]
      · right
        refine ⟨o, c, rfl, hfind, hw, ?_⟩
        simp only [Exec.run_ofExcept_ok_bind, Exec.run_atomically, onOrders, Exec.run_statement, hupd]

/-! ### Applying a fill -/

structure FillArgs where
  fillId : String
  clientOrderId : String
  quantity : Number
  price : Number
  filledAt : DateTime
  brokerOrderId : Option String
  symbol : Option String
  side : Option String
  createdAt : Option DateTime

/-- The arguments of `apply_broker_fill` after validation. -/
structure CheckedFill where
  quantity : PosNat
  price : PosRat
  side : Option Side

def checkFill (a : FillArgs) : Except Exn CheckedFill := do
  requireNonempty a.fillId "fill_id"
  requireNonempty a.clientOrderId "client_order_id"
  let quantity ← validateQuantity a.quantity "quantity"
  let price ← validatePositiveNumber a.price "price"
  requireNonemptyIfGiven a.brokerOrderId "broker_order_id"
  validateSymbolIfGiven a.symbol
  let side ← validateSideIfGiven a.side
  .ok ⟨quantity, price, side⟩

/-- `broker_order_id or order["broker_order_id"]`. -/
def effectiveBrokerId (a : FillArgs) (order : BrokerOrder) : Option String :=
  if truthy a.brokerOrderId then a.brokerOrderId else order.brokerOrderId

/-- The fill row: symbol and side are the order's. -/
def fillRow (now : DateTime) (a : FillArgs) (c : CheckedFill) (order : BrokerOrder) : BrokerFill :=
  { fillId := a.fillId, clientOrderId := a.clientOrderId
    brokerOrderId := effectiveBrokerId a order
    symbol := order.symbol, side := order.side
    quantity := c.quantity.val, price := c.price
    filledAt := a.filledAt, createdAt := a.createdAt.getD now
    quantity_pos := c.quantity.pos }

/-- The `UPDATE` that rolls a fill into its order. -/
def rollFill (fill : BrokerFill) (o : BrokerOrder) : BrokerOrder :=
  { o with
    filledQty := o.filledQty + fill.quantity
    avgFillPrice := some ((o.filledQty * o.avgFillPrice.getD 0 + fill.quantity * fill.price.val) /
      (o.filledQty + fill.quantity))
    status := if o.filledQty + fill.quantity = o.requestedQty then .filled else .partiallyFilled
    brokerOrderId := o.brokerOrderId.or fill.brokerOrderId
    updatedAt := fill.filledAt
    completedAt := if o.filledQty + fill.quantity = o.requestedQty then some fill.filledAt else none
    error := none }

theorem rollFill_clientOrderId (fill : BrokerFill) (o : BrokerOrder) :
    (rollFill fill o).clientOrderId = o.clientOrderId := rfl

def applyBrokerFill (now : DateTime) (a : FillArgs) : Tx Bool := do
  let c ← Exec.ofExcept (checkFill a)
  Exec.atomically do
    match ← Exec.query fun db => db.brokerOrders.find? a.clientOrderId with
    | none => Exec.raise (.valueError ("unknown client_order_id: " ++ a.clientOrderId))
    | some order => do
      Exec.require (a.symbol.all (· = order.symbol)) (.valueError "fill symbol does not match order")
      Exec.require (c.side.all (· = order.side)) (.valueError "fill side does not match order")
      Exec.require (a.brokerOrderId.all fun given => order.brokerOrderId.all (given = ·))
        (.valueError "fill broker_order_id does not match order")
      let fill := fillRow now a c order
      if ← onFills fun t => t.insertOrIgnore fill then
        if ← onOrders fun t => t.updateWhere a.clientOrderId
            (fun o => o.filledQty + fill.quantity ≤ o.requestedQty) (rollFill fill)
            (rollFill_clientOrderId fill) then
          pure true
        else Exec.raise (.valueError "fill quantity exceeds requested order quantity")
      else pure false

/-- A fill call raises and leaves the database as it was, finds the fill id
    taken, or appends the fill and rolls it into its order. -/
theorem applyBrokerFill_cases (now : DateTime) (a : FillArgs) (db : Database) :
    (∃ e, (applyBrokerFill now a).run db = (.error e, db)) ∨
    ((∃ f, db.brokerFills.find? a.fillId = some f) ∧
      (applyBrokerFill now a).run db = (.ok false, db)) ∨
    (∃ c order, checkFill a = .ok c ∧ db.brokerOrders.find? a.clientOrderId = some order ∧
      db.brokerFills.find? a.fillId = none ∧
      order.filledQty + c.quantity.val ≤ order.requestedQty ∧
      (applyBrokerFill now a).run db = (.ok true, { db with
        brokerFills := (db.brokerFills.insertOrIgnore (fillRow now a c order)).1
        brokerOrders := db.brokerOrders.update a.clientOrderId
          (rollFill (fillRow now a c order)) (rollFill_clientOrderId _) })) := by
  unfold applyBrokerFill
  cases hc : checkFill a with
  | error e => exact Or.inl ⟨e, rfl⟩
  | ok c =>
    simp only [Exec.run_ofExcept_ok_bind, Exec.run_atomically, Exec.run_query_bind]
    cases horder : db.brokerOrders.find? a.clientOrderId with
    | none => exact Or.inl ⟨_, rfl⟩
    | some order =>
      simp only [Exec.run_require_bind]
      -- the three identity checks raise before anything is written
      by_cases hsym : (a.symbol.all (· = order.symbol)) = true
      swap
      · exact Or.inl ⟨_, by rw [if_neg hsym]⟩
      by_cases hside : (c.side.all (· = order.side)) = true
      swap
      · exact Or.inl ⟨_, by rw [if_pos hsym, if_neg hside]⟩
      by_cases hbroker :
          (a.brokerOrderId.all fun given => order.brokerOrderId.all (given = ·)) = true
      swap
      · exact Or.inl ⟨_, by rw [if_pos hsym, if_pos hside, if_neg hbroker]⟩
      rw [if_pos hsym, if_pos hside, if_pos hbroker]
      rcases db.brokerFills.insertOrIgnore_cases (fillRow now a c order) with
        ⟨htaken, hins⟩ | ⟨hfree, hflag, -⟩
      · right; left
        refine ⟨htaken, ?_⟩
        simp only [onFills, Exec.run_statement_bind, hins]
        rfl
      · simp only [onFills, Exec.run_statement_bind, hflag]
        by_cases hfit : order.filledQty + c.quantity.val ≤ order.requestedQty
        · right; right
          refine ⟨c, order, rfl, rfl, hfree, hfit, ?_⟩
          have hupd := Table.updateWhere_of_find? horder
            (fun o => o.filledQty + (fillRow now a c order).quantity ≤ o.requestedQty)
            (decide_eq_true hfit) (rollFill (fillRow now a c order)) (rollFill_clientOrderId _)
          simp only [if_true, onOrders, Exec.run_statement_bind, hupd]
          rfl
        · -- the over-fill is refused after the insert, and rolled back
          left
          have hupd : db.brokerOrders.updateWhere a.clientOrderId
              (fun o => o.filledQty + (fillRow now a c order).quantity ≤ o.requestedQty)
              (rollFill (fillRow now a c order)) (rollFill_clientOrderId _) = (db.brokerOrders, false) := by
            rcases db.brokerOrders.updateWhere_cases a.clientOrderId
              (fun o => o.filledQty + (fillRow now a c order).quantity ≤ o.requestedQty)
              (rollFill (fillRow now a c order)) (rollFill_clientOrderId _) with ⟨-, h⟩ | ⟨o, ho, hcond, -⟩
            · exact h
            · rw [horder, Option.some.injEq] at ho
              subst ho
              exact absurd (of_decide_eq_true hcond) hfit
          refine ⟨.valueError "fill quantity exceeds requested order quantity", ?_⟩
          simp only [if_true, onOrders, Exec.run_statement_bind, hupd]
          rfl

end AutoTrader
