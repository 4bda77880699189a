/-
  AutoTrader/Ledger/Orders.lean
  =============================
  **The order header is a fold of its fills.**

  `OrderConsistent o fs` says what an order row owes to the list of its fills:
  the filled quantity is their sum and stays within the request, the average
  price is their quantity-weighted mean, and every fill carries the order's
  symbol and side.  `rollFill` keeps it when the fill is appended; that is the
  only arithmetic of the module.

  The ledger invariant is that every order is consistent with its fills and every
  fill has an order.  It is proved for one call at a time from the case lemmas of
  `Storage.Orders`, and by induction for every sequence of calls.
-/
import AutoTrader.Ledger.Frame
import Mathlib.Tactic.FieldSimp
import Mathlib.Tactic.Ring
import Mathlib.Tactic.Positivity
import Mathlib.Algebra.Order.Field.Rat

namespace AutoTrader

open Relational Transactional

/-! ### An order and its fills -/

def fillQuantity (fs : List BrokerFill) : Nat := (fs.map (·.quantity)).sum

def fillNotional (fs : List BrokerFill) : ℚ := (fs.map fun f => (f.quantity : ℚ) * f.price.val).sum

/-- The quantity-weighted mean price, null without fills. -/
def weightedMean (fs : List BrokerFill) : Option ℚ :=
  if fs = [] then none else some (fillNotional fs / fillQuantity fs)

@[simp] theorem fillQuantity_append (fs gs : List BrokerFill) :
    fillQuantity (fs ++ gs) = fillQuantity fs + fillQuantity gs := by
  simp [fillQuantity]

@[simp] theorem fillNotional_append (fs gs : List BrokerFill) :
    fillNotional (fs ++ gs) = fillNotional fs + fillNotional gs := by
  simp [fillNotional]

theorem fillQuantity_pos {fs : List BrokerFill} (h : fs ≠ []) : 0 < fillQuantity fs := by
  cases fs with
  | nil => exact absurd rfl h
  | cons f rest =>
    have := f.quantity_pos
    simp only [fillQuantity, List.map_cons, List.sum_cons]
    omega

/-- What an order row owes to the list of its fills. -/
structure OrderConsistent (o : BrokerOrder) (fs : List BrokerFill) : Prop where
  filledQty_eq : o.filledQty = fillQuantity fs
  filledQty_le : o.filledQty ≤ o.requestedQty
  avgFillPrice_eq : o.avgFillPrice = weightedMean fs
  identity : ∀ f ∈ fs, f.symbol = o.symbol ∧ f.side = o.side

/-- The notional an order row stands for is the one of its fills. -/
theorem OrderConsistent.notional {o : BrokerOrder} {fs : List BrokerFill}
    (h : OrderConsistent o fs) : o.filledQty * o.avgFillPrice.getD 0 = fillNotional fs := by
  rw [h.avgFillPrice_eq, h.filledQty_eq]
  by_cases hfs : fs = []
  · subst hfs
    simp [weightedMean, fillQuantity, fillNotional]
  · have hpos : (fillQuantity fs : ℚ) ≠ 0 := by
      have := fillQuantity_pos hfs
      exact_mod_cast this.ne'
    simp only [weightedMean, if_neg hfs, Option.getD_some]
    field_simp

theorem OrderConsistent.rollFill {o : BrokerOrder} {fs : List BrokerFill} {f : BrokerFill}
    (h : OrderConsistent o fs) (hfit : o.filledQty + f.quantity ≤ o.requestedQty)
    (hid : f.symbol = o.symbol ∧ f.side = o.side) :
    OrderConsistent (AutoTrader.rollFill f o) (fs ++ [f]) where
  filledQty_eq := by
    simp [AutoTrader.rollFill, h.filledQty_eq, fillQuantity]
  filledQty_le := hfit
  avgFillPrice_eq := by
    have hne : fs ++ [f] ≠ [] := by simp
    have hnotional : (o.filledQty : ℚ) * o.avgFillPrice.getD 0 + f.quantity * f.price.val =
        fillNotional (fs ++ [f]) := by
      rw [h.notional, fillNotional_append]
      simp [fillNotional]
    have hquantity : (o.filledQty : ℚ) + f.quantity = fillQuantity (fs ++ [f]) := by
      rw [h.filledQty_eq, fillQuantity_append]
      simp [fillQuantity]
    simp only [AutoTrader.rollFill, weightedMean, if_neg hne, hnotional, hquantity]
  identity := by
    intro g hg
    rcases List.mem_append.mp hg with hg | hg
    · exact h.identity g hg
    · rw [List.mem_singleton.mp hg]
      exact hid

/-- A header rewrite that leaves quantities, price and identity alone. -/
theorem OrderConsistent.of_eq {o o' : BrokerOrder} {fs : List BrokerFill}
    (h : OrderConsistent o fs) (hq : o'.filledQty = o.filledQty)
    (hr : o'.requestedQty = o.requestedQty) (hp : o'.avgFillPrice = o.avgFillPrice)
    (hsym : o'.symbol = o.symbol) (hside : o'.side = o.side) : OrderConsistent o' fs where
  filledQty_eq := by rw [hq, h.filledQty_eq]
  filledQty_le := by rw [hq, hr]; exact h.filledQty_le
  avgFillPrice_eq := by rw [hp, h.avgFillPrice_eq]
  identity := by rw [hsym, hside]; exact h.identity

/-! ### The fills of an order after an insert -/

theorem fillsOf_append (db db' : Database) {f : BrokerFill}
    (h : db'.brokerFills.rows = db.brokerFills.rows ++ [f]) (id : String) :
    db'.fillsOf id = db.fillsOf id ++ if f.clientOrderId = id then [f] else [] := by
  simp only [Database.fillsOf, h, List.filter_append, List.filter_cons, List.filter_nil,
    decide_eq_true_eq]

/-! ### The ledger invariant -/

/-- Every order is consistent with its fills, and every fill has an order. -/
structure OrderLedger (db : Database) : Prop where
  consistent : ∀ o ∈ db.brokerOrders.rows, OrderConsistent o (db.fillsOf o.clientOrderId)
  owned : ∀ f ∈ db.brokerFills.rows, ∃ o, db.brokerOrders.find? f.clientOrderId = some o

theorem OrderLedger.empty : OrderLedger Database.empty where
  consistent := by intro o ho; cases ho
  owned := by intro f hf; cases hf

/-- Appending an order without fills. -/
theorem OrderLedger.insertOrder {db : Database} (h : OrderLedger db) {row : BrokerOrder}
    (hfree : db.brokerOrders.find? row.clientOrderId = none) (hq : row.filledQty = 0)
    (hp : row.avgFillPrice = none) :
    OrderLedger { db with brokerOrders := (db.brokerOrders.insertOrIgnore row).1 } := by
  obtain ⟨-, hrows⟩ := Table.insertOrIgnore_of_free hfree
  constructor
  · intro o ho
    simp only [hrows] at ho
    rcases List.mem_append.mp ho with ho | ho
    · exact h.consistent o ho
    · rw [List.mem_singleton.mp ho]
      -- the id was free, so no fill can refer to it
      have hnone : db.fillsOf row.clientOrderId = [] := by
        apply List.filter_eq_nil_iff.mpr
        intro f hf hid
        obtain ⟨o', ho'⟩ := h.owned f hf
        rw [decide_eq_true_eq.mp hid, hfree] at ho'
        cases ho'
      change OrderConsistent row (db.fillsOf row.clientOrderId)
      rw [hnone]
      exact
        { filledQty_eq := by simpa [fillQuantity] using hq
          filledQty_le := by omega
          avgFillPrice_eq := by simpa [weightedMean] using hp
          identity := by intro f hf; cases hf }
  · intro f hf
    obtain ⟨o, ho⟩ := h.owned f hf
    exact ⟨o, by rw [Table.find?_append hrows, ho]; rfl⟩

/-- Rewriting an order's header without touching quantities, price or identity. -/
theorem OrderLedger.rewrite {db : Database} (h : OrderLedger db) {id : String}
    {f : BrokerOrder → BrokerOrder} {hf : ∀ r, (f r).clientOrderId = r.clientOrderId}
    (hq : ∀ r, (f r).filledQty = r.filledQty) (hr : ∀ r, (f r).requestedQty = r.requestedQty)
    (hp : ∀ r, (f r).avgFillPrice = r.avgFillPrice) (hsym : ∀ r, (f r).symbol = r.symbol)
    (hside : ∀ r, (f r).side = r.side) :
    OrderLedger { db with brokerOrders := db.brokerOrders.update id f hf } := by
  constructor
  · intro o ho
    obtain ⟨r, hr', rfl⟩ := (db.brokerOrders.mem_update id f hf).mp ho
    split
    · have hcons := h.consistent r hr'
      rw [hf]
      exact hcons.of_eq (hq r) (hr r) (hp r) (hsym r) (hside r)
    · exact h.consistent r hr'
  · intro g hg
    obtain ⟨o, ho⟩ := h.owned g hg
    simp only [Table.find?_update]
    split
    · rename_i heq
      exact ⟨f o, by rw [← heq, ho]; rfl⟩
    · exact ⟨o, ho⟩

/-- A call of one of the header methods, when its rewrite leaves quantities, price
    and identity alone. -/
theorem OrderLedger.rewriteCall {db : Database} (h : OrderLedger db) {id : String}
    {check : Except Exn Unit} {cond : BrokerOrder → Bool} (f : BrokerOrder → BrokerOrder)
    {hf : ∀ r, (f r).clientOrderId = r.clientOrderId}
    (hq : ∀ r, (f r).filledQty = r.filledQty) (hr : ∀ r, (f r).requestedQty = r.requestedQty)
    (hp : ∀ r, (f r).avgFillPrice = r.avgFillPrice) (hsym : ∀ r, (f r).symbol = r.symbol)
    (hside : ∀ r, (f r).side = r.side) :
    OrderLedger ((rewriteOrder id check cond f hf).run db).2 := by
  rcases rewriteOrder_cases id check cond f hf db with ⟨e, hrun⟩ | ⟨-, hrun⟩ | ⟨o, -, -, hrun⟩
  · rw [hrun]; exact h
  · rw [hrun]; exact h
  · rw [hrun]; exact h.rewrite hq hr hp hsym hside

/-- Appending a fill and rolling it into its order. -/
theorem OrderLedger.applyFill {db : Database} (h : OrderLedger db) {order : BrokerOrder}
    {f : BrokerFill} (horder : db.brokerOrders.find? f.clientOrderId = some order)
    (hfree : db.brokerFills.find? f.fillId = none)
    (hfit : order.filledQty + f.quantity ≤ order.requestedQty)
    (hid : f.symbol = order.symbol ∧ f.side = order.side) :
    OrderLedger { db with
      brokerFills := (db.brokerFills.insertOrIgnore f).1
      brokerOrders := db.brokerOrders.update f.clientOrderId (rollFill f)
        (rollFill_clientOrderId f) } := by
  obtain ⟨-, hrows⟩ := Table.insertOrIgnore_of_free hfree
  constructor
  · intro o ho
    obtain ⟨r, hr, rfl⟩ := (db.brokerOrders.mem_update f.clientOrderId (rollFill f) (rollFill_clientOrderId f)).mp ho
    by_cases hk : r.clientOrderId = f.clientOrderId
    · -- the row the fill belongs to
      have hro : r = order := by
        have := db.brokerOrders.find?_of_mem hr
        rw [hk, horder] at this
        exact (Option.some.inj this).symm
      subst hro
      rw [if_pos hk]
      have hcons := (h.consistent r hr).rollFill hfit hid
      have hfills := fillsOf_append db { db with
          brokerFills := (db.brokerFills.insertOrIgnore f).1
          brokerOrders := db.brokerOrders.update f.clientOrderId (rollFill f)
            (rollFill_clientOrderId f) } hrows r.clientOrderId
      rw [if_pos hk.symm] at hfills
      change OrderConsistent (rollFill f r) (Database.fillsOf _ r.clientOrderId)
      rw [hfills]
      exact hcons
    · rw [if_neg hk]
      have hfills := fillsOf_append db { db with
          brokerFills := (db.brokerFills.insertOrIgnore f).1
          brokerOrders := db.brokerOrders.update f.clientOrderId (rollFill f)
            (rollFill_clientOrderId f) } hrows r.clientOrderId
      rw [if_neg (Ne.symm hk), List.append_nil] at hfills
      rw [hfills]
      exact h.consistent r hr
  · intro g hg
    simp only [hrows] at hg
    simp only [Table.find?_update]
    rcases List.mem_append.mp hg with hg | hg
    · obtain ⟨o, ho⟩ := h.owned g hg
      split
      · rename_i heq
        exact ⟨rollFill f o, by rw [← heq, ho]; rfl⟩
      · exact ⟨o, ho⟩
    · rw [List.mem_singleton.mp hg, if_pos rfl, horder]
      exact ⟨rollFill f order, rfl⟩

/-! ### Runs of the order ledger -/

/-- The methods through which orders are claimed, submitted and filled. -/
inductive OrderCall where
  | claimOrderIntent (now : DateTime) (a : IntentArgs)
  | markOrderSubmitting (now : DateTime) (clientOrderId : String) (updatedAt : Option DateTime)
  | recordOrderSubmission (now : DateTime) (clientOrderId brokerOrderId : String)
      (submittedAt : Option DateTime)
  | markOrderUnknown (now : DateTime) (clientOrderId : String) (error : Option String)
      (updatedAt : Option DateTime)
  | applyBrokerFill (now : DateTime) (a : FillArgs)

def OrderCall.op : OrderCall → Op
  | .claimOrderIntent now a => .claimOrderIntent now a
  | .markOrderSubmitting now id at' => .markOrderSubmitting now id at'
  | .recordOrderSubmission now id broker at' => .recordOrderSubmission now id broker at'
  | .markOrderUnknown now id error at' => .markOrderUnknown now id error at'
  | .applyBrokerFill now a => .applyBrokerFill now a

/-- What an order call does to the two tables: nothing, or one of the three moves
    the invariant is stable under. -/
theorem OrderLedger.call (call : OrderCall) {db : Database} (h : OrderLedger db) :
    OrderLedger (call.op.exec db) := by
  cases call with
  | claimOrderIntent now a =>
    rcases claimOrderIntent_cases now a db with ⟨e, hr⟩ | ⟨-, hr⟩ | ⟨row, hrow, hfree, hr⟩
    · simpa only [OrderCall.op, Op.exec, Op.call, Op.run, hr] using h
    · simpa only [OrderCall.op, Op.exec, Op.call, Op.run, hr] using h
    · obtain ⟨-, -, -, hq, hp, -⟩ := intentRow_ok hrow
      simpa only [OrderCall.op, Op.exec, Op.call, Op.run, hr] using h.insertOrder hfree hq hp
  | markOrderSubmitting now id at' =>
    exact h.rewriteCall _ (fun _ => rfl) (fun _ => rfl) (fun _ => rfl) (fun _ => rfl) (fun _ => rfl)
  | recordOrderSubmission now id broker at' =>
    exact h.rewriteCall _ (fun _ => rfl) (fun _ => rfl) (fun _ => rfl) (fun _ => rfl) (fun _ => rfl)
  | markOrderUnknown now id error at' =>
    exact h.rewriteCall _ (fun _ => rfl) (fun _ => rfl) (fun _ => rfl) (fun _ => rfl) (fun _ => rfl)
  | applyBrokerFill now a =>
    rcases applyBrokerFill_cases now a db with
      ⟨e, hr⟩ | ⟨-, hr⟩ | ⟨c, order, -, horder, hfree, hfit, hr⟩
    · simpa only [OrderCall.op, Op.exec, Op.call, Op.run, hr] using h
    · simpa only [OrderCall.op, Op.exec, Op.call, Op.run, hr] using h
    · have happly := OrderLedger.applyFill h (f := fillRow now a c order) horder hfree hfit ⟨rfl, rfl⟩
      simp only [OrderCall.op, Op.exec, Op.call, Op.run, hr]
      exact happly

/-- Re-sending a fill id that is recorded changes nothing, whatever else the call
    says. -/
theorem applyBrokerFill_of_recorded {now : DateTime} {a : FillArgs} {db : Database} {f : BrokerFill}
    (h : db.brokerFills.find? a.fillId = some f) :
    (Op.applyBrokerFill now a).exec db = db := by
  rcases applyBrokerFill_cases now a db with ⟨e, hr⟩ | ⟨-, hr⟩ | ⟨c, order, -, -, hfree, -, hr⟩
  · simp only [Op.exec, Op.call, Op.run, hr]
  · simp only [Op.exec, Op.call, Op.run, hr]
  · rw [h] at hfree
    cases hfree

/-- The database after any sequence of order calls on an empty one. -/
def orderRun (calls : List OrderCall) : Database := runOps (calls.map OrderCall.op) Database.empty

theorem orderRun_ledger (calls : List OrderCall) : OrderLedger (orderRun calls) := by
  refine runOps_inv _ ?_ OrderLedger.empty
  intro op hop db h
  obtain ⟨call, -, rfl⟩ := List.mem_map.mp hop
  exact h.call call

/-- **The order ledger invariant.**  After every sequence of calls from an empty
    database: headers are folds of their fills, fills carry their order's symbol
    and side, a recorded fill id is never counted again, and the next call leaves
    both tables alone if it raises. -/
theorem order_ledger_invariant (calls : List OrderCall) :
    (∀ o ∈ (orderRun calls).brokerOrders.rows,
      o.filledQty = fillQuantity ((orderRun calls).fillsOf o.clientOrderId) ∧
      o.filledQty ≤ o.requestedQty ∧
      o.avgFillPrice = weightedMean ((orderRun calls).fillsOf o.clientOrderId)) ∧
    (∀ f ∈ (orderRun calls).brokerFills.rows,
      ∃ o, (orderRun calls).brokerOrders.find? f.clientOrderId = some o ∧
        f.symbol = o.symbol ∧ f.side = o.side) ∧
    ((orderRun calls).brokerFills.rows.map (·.fillId)).Nodup ∧
    (∀ now a f, (orderRun calls).brokerFills.find? a.fillId = some f →
      (Op.applyBrokerFill now a).exec (orderRun calls) = orderRun calls) ∧
    (∀ call : OrderCall, call.op.raises (orderRun calls) →
      (call.op.exec (orderRun calls)).brokerOrders = (orderRun calls).brokerOrders ∧
      (call.op.exec (orderRun calls)).brokerFills = (orderRun calls).brokerFills) := by
  have h := orderRun_ledger calls
  refine ⟨?_, ?_, (orderRun calls).brokerFills.nodup, ?_, ?_⟩
  · intro o ho
    have hcons := h.consistent o ho
    exact ⟨hcons.filledQty_eq, hcons.filledQty_le, hcons.avgFillPrice_eq⟩
  · intro f hf
    obtain ⟨o, ho⟩ := h.owned f hf
    have hcons := h.consistent o ((orderRun calls).brokerOrders.mem_of_find? ho)
    rw [(orderRun calls).brokerOrders.key_of_find? ho] at hcons
    exact ⟨o, ho, hcons.identity f (by simp [Database.fillsOf, hf])⟩
  · intro now a f hf
    exact applyBrokerFill_of_recorded hf
  · intro call hraise
    rw [Op.exec_of_raises hraise]
    exact ⟨rfl, rfl⟩

end AutoTrader
