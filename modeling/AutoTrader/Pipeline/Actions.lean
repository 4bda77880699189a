/-
  AutoTrader/Pipeline/Actions.lean
  ================================
  **What the pipelines do to the outside world, one action at a time.**

  A pipeline is a program of atomic actions: a SELECT, a call of a database
  method (one transaction), an order sent to the broker, a cancellation sent to
  the broker.  Everything else is pure.  Programs raise and catch exceptions as
  the source does; what was written before an exception stays written.

  `dbHandler` answers the database actions from one database, for the readings
  in which a pipeline runs alone; concurrent readings give the same actions a
  meaning in their own world.
-/
import AutoTrader.Lib.Raising
import AutoTrader.Storage.Operations

namespace AutoTrader

open Relational Transactional Interleave

/-! ### Broker data -/

/-- A `KisOrderRequest`. -/
structure OrderRequest where
  symbol : String
  side : Side
  quantity : Number
  price : Number
  exchangeId : String
deriving DecidableEq

inductive KisOrderStatus where
  | unknown
  | unfilled
  | partiallyFilled
  | filled
  | cancelled
  | rejected
deriving DecidableEq

/-- The fields of a `KisOrderStatusRecord` that the pipelines read. -/
structure OrderRecord where
  orderNumber : String
  symbol : String
  side : Option Side
  orderedQuantity : Int
  filledQuantity : Int
  remainingQuantity : Int
  orderPrice : Option PyFloat
  averageFillPrice : Option PyFloat
  status : KisOrderStatus
  orderBranch : Option String
deriving DecidableEq

/-- A failed broker read, by the three texts the pipelines take from it:
    `_exception_code`, `type(exc).__name__` and `_sanitized_error`. -/
structure ReadError where
  exceptionCode : String
  typeName : String
  sanitizedError : String

/-- `{order.order_number: order for order in broker_orders if order.order_number}`:
    of two records with one number the later wins. -/
def byBrokerId (orders : List OrderRecord) (number : String) : Option OrderRecord :=
  (orders.filter fun o => o.orderNumber ≠ "").reverse.find? fun o => o.orderNumber = number

/-- `str(local["broker_order_id"] or "")`. -/
def BrokerOrder.brokerIdText (o : BrokerOrder) : String := o.brokerOrderId.getD ""

/-- `SUM(quantity)` over the OPEN positions of a symbol. -/
def Database.openQuantity (db : Database) (symbol : String) : Nat :=
  ((db.openPositions symbol).map (·.quantity)).sum

/-! ### Actions -/

inductive Act : Type 1
  | read {β : Type} (query : Database → β)
  | tryRead {β : Type} (query : Database → β)
  | selectOrders (query : Database → List BrokerOrder)
  | call (op : Op)
  | submitOrder (clientOrderId : String) (request : OrderRequest)
  | cancelOrder (clientOrderId orderNumber orderBranch : String) (quantity orderPrice : Int)

/-- What an action answers; a call to the broker may raise, and so may a SELECT
    whose failure the code handles. -/
abbrev Act.Reply : Act → Type
  | .read (β := β) _ => β
  | .tryRead (β := β) _ => Except Exn β
  | .selectOrders _ => List BrokerOrder
  | .call op => Except Exn op.Reply
  | .submitOrder .. => Except Exn (Option String)
  | .cancelOrder .. => Except Exn Unit

abbrev trading : Signature where
  Op := Act
  Reply := Act.Reply

/-- The programs of the pipelines. -/
abbrev Pipeline (α : Type) := Raising trading Exn α

/-- A pipeline as a process of its own: nobody waits for its outcome. -/
def detached {α : Type} (p : Pipeline α) : Prog trading Unit := do
  let _ ← p.run
  pure ()

/-- A SELECT that is not of whole order rows. -/
def select {β : Type} (query : Database → β) : Pipeline β := Raising.ask (S := trading) (.read query)

/-- `SELECT * FROM broker_orders ...`. -/
def selectOrders (query : Database → List BrokerOrder) : Pipeline (List BrokerOrder) :=
  Raising.ask (S := trading) (.selectOrders query)

/-- Re-raise what an action answered with. -/
def reraise {α : Type} : Except Exn α → Pipeline α
  | .ok a => pure a
  | .error e => throw e

/-- `if c: raise e`. -/
def raiseIf (c : Bool) (e : Exn) : Pipeline Unit := if c then throw e else pure ()

/-- A SELECT that may raise. -/
def trySelect {β : Type} (query : Database → β) : Pipeline β := do
  reraise (← Raising.ask (S := trading) (.tryRead query))

/-- Call a database method. -/
def execute (op : Op) : Pipeline op.Reply := do
  reraise (← Raising.ask (S := trading) (.call op))

/-- `order_status_client.cancel_order(...)`; the broker sees the order number only. -/
def cancelOrder (clientOrderId orderNumber orderBranch : String) (quantity orderPrice : Int) :
    Pipeline Unit := do
  reraise (← Raising.ask (S := trading)
    (.cancelOrder clientOrderId orderNumber orderBranch quantity orderPrice))

/-- `set_runtime_metadata(key, value, updated_at=now)` with a plain text. -/
def setFlag (now : DateTime) (key value : String) : Pipeline Unit :=
  execute (.setRuntimeMetadata now key (.text value) (some now))

/-! ### Programs that only read -/

/-- The action is a SELECT. -/
def Act.isRead : Act → Prop
  | .read _ => True
  | .tryRead _ => True
  | .selectOrders _ => True
  | _ => False

abbrev ReadsOnly {α : Type} (p : Pipeline α) : Prop := Raising.Only (S := trading) Act.isRead p

theorem readsOnly_select {β : Type} (query : Database → β) : ReadsOnly (select query) :=
  Raising.Only.ask (S := trading) (o := .read query) trivial

theorem readsOnly_reraise {α : Type} (r : Except Exn α) : ReadsOnly (reraise r) := by
  cases r with
  | ok a => exact Raising.Only.pure a
  | error e => exact Raising.Only.throw e

theorem readsOnly_trySelect {β : Type} (query : Database → β) : ReadsOnly (trySelect query) :=
  Raising.Only.bind (Raising.Only.ask (S := trading) (o := .tryRead query) trivial) readsOnly_reraise

theorem readsOnly_raiseIf (c : Bool) (e : Exn) : ReadsOnly (raiseIf c e) := by
  unfold raiseIf
  split
  · exact Raising.Only.throw e
  · exact Raising.Only.pure ()

/-! ### Running alone on one database -/

/-- How the broker answers, when that does not depend on the database. -/
structure BrokerReplies where
  submitOrder : String → OrderRequest → Except Exn (Option String)
  cancelOrder : String → String → Int → Int → Except Exn Unit

def dbHandler (broker : BrokerReplies) : (o : Act) → Database → o.Reply × Database
  | .read query, db => (query db, db)
  | .tryRead query, db => (.ok (query db), db)
  | .selectOrders query, db => (query db, db)
  | .call op, db => op.call db
  | .submitOrder id request, db => (broker.submitOrder id request, db)
  | .cancelOrder _ number branch quantity price, db =>
    (broker.cancelOrder number branch quantity price, db)

section Alone

variable (broker : BrokerReplies) (db : Database)

@[simp] theorem eval_select {β : Type} (query : Database → β) :
    Raising.eval (dbHandler broker) (select query) db = (.ok (query db), db) := rfl

@[simp] theorem eval_trySelect {β : Type} (query : Database → β) :
    Raising.eval (dbHandler broker) (trySelect query) db = (.ok (query db), db) := rfl

@[simp] theorem eval_selectOrders (query : Database → List BrokerOrder) :
    Raising.eval (dbHandler broker) (selectOrders query) db = (.ok (query db), db) := rfl

@[simp] theorem eval_reraise {α : Type} (r : Except Exn α) :
    Raising.eval (dbHandler broker) (reraise r) db = (r, db) := by
  cases r <;> rfl

@[simp] theorem eval_execute (op : Op) :
    Raising.eval (dbHandler broker) (execute op) db = op.call db := by
  change Raising.eval (dbHandler broker) (reraise (op.call db).1) (op.call db).2 = op.call db
  rw [eval_reraise]

theorem ReadsOnly.eval {α : Type} {p : Pipeline α} (hp : ReadsOnly p) :
    (Raising.eval (dbHandler broker) p db).2 = db := by
  refine Raising.eval_of_only _ ?_ hp db
  intro o db ho
  cases o with
  | read query => rfl
  | tryRead query => rfl
  | selectOrders query => rfl
  | call op => exact ho.elim
  | submitOrder id request => exact ho.elim
  | cancelOrder id number branch quantity price => exact ho.elim

theorem ends_select {α β : Type} {query : Database → β} {f : β → Pipeline α}
    {Q : α → Database → Prop} {E : Exn → Database → Prop}
    (h : Raising.Ends (dbHandler broker) (f (query db)) Q E db) :
    Raising.Ends (dbHandler broker) (select query >>= f) Q E db := h

theorem ends_selectOrders {α : Type} {query : Database → List BrokerOrder}
    {f : List BrokerOrder → Pipeline α} {Q : α → Database → Prop} {E : Exn → Database → Prop}
    (h : Raising.Ends (dbHandler broker) (f (query db)) Q E db) :
    Raising.Ends (dbHandler broker) (selectOrders query >>= f) Q E db := h

theorem ends_execute {op : Op} {Q : op.Reply → Database → Prop} {E : Exn → Database → Prop}
    (h : outcome Q E (op.call db).1 (op.call db).2) :
    Raising.Ends (dbHandler broker) (execute op) Q E db := by
  unfold Raising.Ends
  rw [eval_execute]
  exact h

/-- A call by its two outcomes, each on the database it leaves behind. -/
theorem ends_execute_exec {op : Op} {Q : op.Reply → Database → Prop} {E : Exn → Database → Prop}
    (hok : ∀ a, (op.call db).1 = .ok a → Q a (op.exec db))
    (herror : ∀ e, (op.call db).1 = .error e → E e (op.exec db)) :
    Raising.Ends (dbHandler broker) (execute op) Q E db := by
  apply ends_execute
  cases hr : (op.call db).1 with
  | ok a => exact hok a hr
  | error e => exact herror e hr

end Alone

end AutoTrader
