/-
  AutoTrader/Safety/ReconcileTotal.lean
  =====================================
  **When a reconciliation pass comes to its end.**

  Two calls of the loop body stand outside a `try`: `_incremental_fill_price`,
  which raises when the cumulative notional does not grow, and
  `update_broker_order_status`, which raises on a price that is not positive.  So
  one record can end the whole pass, and KIS reports an average of "0" for every
  order without a fill.  `poisonous` names these records by the row and the record
  alone; whatever happened to the other orders before, the body raises on them and
  on no others.
-/
import AutoTrader.Pipeline.OrderStatus
import AutoTrader.Safety.Reconciliation
import Mathlib.Tactic.Linarith
import Mathlib.Tactic.Positivity

namespace AutoTrader

open Relational Transactional Interleave

/-! ### Average prices are positive -/

/-- Every average price in a header is positive. -/
def Priced (db : Database) : Prop :=
  ∀ o ∈ db.brokerOrders.rows, ∀ p, o.avgFillPrice = some p → 0 < p

theorem Priced.update {db : Database} (h : Priced db) (id : String) {f : BrokerOrder → BrokerOrder}
    {hf : ∀ r, (f r).clientOrderId = r.clientOrderId}
    (hprice : ∀ r ∈ db.brokerOrders.rows, ∀ p, (f r).avgFillPrice = some p → 0 < p) :
    Priced { db with brokerOrders := db.brokerOrders.update id f hf } := by
  intro o ho p hp
  obtain ⟨r, hr, rfl⟩ := (db.brokerOrders.mem_update id f hf).mp ho
  split at hp
  · exact hprice r hr p hp
  · exact h r hr p hp

theorem rollFill_priced {o : BrokerOrder} (h : ∀ p, o.avgFillPrice = some p → 0 < p)
    (fill : BrokerFill) : ∀ p, (rollFill fill o).avgFillPrice = some p → 0 < p := by
  intro p hp
  cases hp
  have hold : (0 : ℚ) ≤ o.avgFillPrice.getD 0 := by
    cases hprice : o.avgFillPrice with
    | none => exact le_refl 0
    | some q => exact (h q hprice).le
  have hquantity : (0 : ℚ) < fill.quantity := by exact_mod_cast fill.quantity_pos
  have hprice := fill.price.pos
  positivity

/-- A rewrite of the header that leaves the price alone. -/
theorem Priced.rewriteOrder {db : Database} (h : Priced db) {id : String} {check : Except Exn Unit}
    {cond : BrokerOrder → Bool} {f : BrokerOrder → BrokerOrder}
    {hf : ∀ r, (f r).clientOrderId = r.clientOrderId} (hsame : ∀ r, (f r).avgFillPrice = r.avgFillPrice) :
    Priced ((rewriteOrder id check cond f hf).run db).2 := by
  rcases rewriteOrder_cases id check cond f hf db with ⟨e, hr⟩ | ⟨-, hr⟩ | ⟨o, -, -, hr⟩
  · rw [hr]; exact h
  · rw [hr]; exact h
  · rw [hr]
    refine h.update id fun r hr p hp => h r hr p ?_
    rw [← hsame]
    exact hp

theorem Priced.exec (op : Op) {db : Database} (h : Priced db) : Priced (op.exec db) := by
  cases op with
  | claimOrderIntent now a =>
    simp only [Op.exec, Op.call, Op.run]
    rcases claimOrderIntent_cases now a db with ⟨e, hr⟩ | ⟨-, hr⟩ | ⟨row, hrow, hfree, hr⟩
    · rw [hr]; exact h
    · rw [hr]; exact h
    · rw [hr]
      intro o ho p hp
      simp only [(Table.insertOrIgnore_of_free hfree).2] at ho
      rcases List.mem_append.mp ho with ho | ho
      · exact h o ho p hp
      · rw [List.mem_singleton.mp ho, (intentRow_ok hrow).2.2.2.2.1] at hp
        cases hp
  | markOrderSubmitting now id at' => exact h.rewriteOrder fun _ => rfl
  | recordOrderSubmission now id number at' => exact h.rewriteOrder fun _ => rfl
  | markOrderUnknown now id error at' => exact h.rewriteOrder fun _ => rfl
  | updateBrokerOrderStatus now id u =>
    simp only [Op.exec, Op.call, Op.run]
    rcases updateBrokerOrderStatus_cases now id u db with
      ⟨e, hr⟩ | ⟨c, -, -, hr⟩ | ⟨o, c, -, -, -, hr⟩
    · rw [hr]; exact h
    · rw [hr]; exact h
    · rw [hr]
      refine h.update id fun r hr p hp => ?_
      -- the stated price is validated, and without one the old price stays
      simp only [updatedHeader] at hp
      cases hc : c.avgFillPrice with
      | none => rw [hc] at hp; exact h r hr p hp
      | some q => rw [hc] at hp; cases hp; exact q.pos
  | applyBrokerFill now a =>
    simp only [Op.exec, Op.call, Op.run]
    rcases applyBrokerFill_cases now a db with ⟨e, hr⟩ | ⟨-, hr⟩ | ⟨c, order, -, -, -, -, hr⟩
    · rw [hr]; exact h
    · rw [hr]; exact h
    · rw [hr]
      exact h.update a.clientOrderId fun r hr => rollFill_priced (h r hr) _
  | materializeOrderFills now a =>
    simp only [Op.exec, Op.call, Op.run]
    rcases hr : (materializeOrderFills now a).run db with ⟨r, db'⟩
    cases r with
    | error e =>
      rcases materializeOrderFills_cases now a db with ⟨e', hr'⟩ | ⟨c, order, m, db₁, -, -, -, hr'⟩
      · rw [hr'] at hr; cases hr; exact h
      · rw [hr'] at hr; cases hr
    | ok n =>
      obtain ⟨c, order, -, -, hbooked, -⟩ := materializeOrderFills_ok hr
      have horders : db'.brokerOrders = db.brokerOrders := by rw [hbooked.frame.1]
      unfold Priced
      rw [horders]
      exact h
  | setRuntimeMetadata now key value at' =>
    simp only [Op.exec, Op.call, Op.run]
    rcases setRuntimeMetadata_cases now key value at' db with ⟨e, hr⟩ | hr <;> rw [hr] <;> exact h
  | recordBrokerOrderAudit now a =>
    simp only [Op.exec, Op.call, Op.run]
    rcases recordBrokerOrderAudit_cases now a db with ⟨e, hr⟩ | ⟨-, hr⟩ | ⟨row, -, -, hr⟩ <;>
      rw [hr] <;> exact h

theorem dbHandler_priced (broker : BrokerReplies) (o : Act) (db : Database) (h : Priced db) :
    Priced (dbHandler broker o db).2 := by
  cases o with
  | read query => exact h
  | tryRead query => exact h
  | selectOrders query => exact h
  | call op => exact h.exec op
  | submitOrder id request => exact h
  | cancelOrder id number branch quantity price => exact h

theorem ProgramState.priced {db : Database} (h : ProgramState db) : Priced db := by
  induction h with
  | empty => intro o ho; cases ho
  | call op _ _ ih => exact ih.exec op
  | @pass db broker now orders account _ ih =>
    have hsteps := Raising.eval_steps (R := fun db db' => Priced db → Priced db')
      (fun o db => dbHandler_priced broker o db) (reconcileBrokerState now orders account) db
    generalize (Raising.eval (dbHandler broker) (reconcileBrokerState now orders account) db).2 = db'
      at hsteps ⊢
    induction hsteps with
    | refl => exact ih
    | tail _ hstep ih' => exact hstep ih'
  | other _ hsame ih => unfold Priced; rw [hsame.orders]; exact ih

/-! ### Records that end a pass -/

/-- The record carries a price that a status update refuses. -/
def priceRefused (record : OrderRecord) : Bool :=
  match record.averageFillPrice with
  | none => false
  | some x => (Number.float x).positive?.isNone

/-- The record's notional is not above the one the header stands for. -/
def notionalStalled (o : BrokerOrder) (record : OrderRecord) : Bool :=
  match record.averageFillPrice, o.avgFillPrice with
  | some average, some previous =>
    o.filledQty ≠ 0 &&
      ((average.scale record.filledQuantity).sub (previous * o.filledQty)).nonpos
  | _, _ => false

/-- Without a new fill the price of the record is refused, with one its notional. -/
def stuck (o : BrokerOrder) (record : OrderRecord) : Bool :=
  if record.filledQuantity = o.filledQty then record.status ≠ .unknown && priceRefused record
  else notionalStalled o record

/-- The order's record passes the checks of the loop body and is stuck after them. -/
def poisonous (orders : List OrderRecord) (o : BrokerOrder) : Bool :=
  o.brokerIdText ≠ "" &&
  match byBrokerId orders o.brokerIdText with
  | none => false
  | some record =>
    sameOrder o record && (o.filledQty : Int) ≤ record.filledQuantity &&
    (record.orderedQuantity = 0 || record.orderedQuantity = o.requestedQty) && stuck o record

theorem poisonous_of_record {orders : List OrderRecord} {o : BrokerOrder} {record : OrderRecord}
    (hnamed : o.brokerIdText ≠ "") (hrecord : byBrokerId orders o.brokerIdText = some record) :
    poisonous orders o = (sameOrder o record && (o.filledQty : Int) ≤ record.filledQuantity &&
      (record.orderedQuantity = 0 || record.orderedQuantity = o.requestedQty) && stuck o record) := by
  simp [poisonous, hnamed, hrecord]

section Raises

variable (broker : BrokerReplies) (now : DateTime)

/-- The validation of a copied record raises on its price only. -/
theorem checkUpdate_recordUpdate {record : OrderRecord}
    (hnumber : Text.blank record.orderNumber = false) (hfilled : 0 ≤ record.filledQuantity)
    (status : OrderStatus) (completedAt : Option DateTime) :
    (∃ e, checkUpdate (recordUpdate now status record completedAt) = .error e) ↔
      priceRefused record = true := by
  have hprice : (∃ e, validatePositiveIfGiven (record.averageFillPrice.map .float) "avg_fill_price" =
      .error e) ↔ priceRefused record = true := by
    unfold priceRefused
    cases record.averageFillPrice with
    | none => simp [validatePositiveIfGiven]
    | some x =>
      cases hx : (Number.float x).positive? <;>
        simp [validatePositiveIfGiven, validatePositiveNumber, hx, Except.map]
  rw [← hprice]
  simp only [checkUpdate, recordUpdate, requireNonemptyIfGiven, requireNonempty_of hnumber,
    checkFilledQty, if_pos hfilled]
  cases validatePositiveIfGiven (record.averageFillPrice.map .float) "avg_fill_price" with
  | error e => exact ⟨fun _ => ⟨e, rfl⟩, fun _ => ⟨e, rfl⟩⟩
  | ok price =>
    refine ⟨fun h => ?_, fun h => ?_⟩
    · obtain ⟨e, he⟩ := h; cases he
    · obtain ⟨e, he⟩ := h; cases he

/-- A status update of a named order raises in its validation only. -/
theorem updateBrokerOrderStatus_raises {id : String} (hid : Text.blank id = false) (u : StatusUpdate)
    (db : Database) :
    (Op.updateBrokerOrderStatus now id u).raises db ↔ ∃ e, checkUpdate u = .error e := by
  simp only [Op.raises, Op.call, Op.run, updateBrokerOrderStatus, requireNonempty_of hid,
    Exec.run_ofExcept_ok_bind]
  cases checkUpdate u with
  | error e => exact ⟨fun _ => ⟨e, rfl⟩, fun _ => ⟨e, rfl⟩⟩
  | ok c =>
    refine ⟨fun h => ?_, fun h => ?_⟩
    · obtain ⟨e, he⟩ := h; cases he
    · obtain ⟨e, he⟩ := h; cases he

/-- Settling raises exactly on a known status with a refused price. -/
theorem settleOrder_raises {o : BrokerOrder} {record : OrderRecord}
    (hid : Text.blank o.clientOrderId = false) (hnumber : Text.blank record.orderNumber = false)
    (hfilled : 0 ≤ record.filledQuantity) (acc : PassState) (db : Database) :
    Raising.Ends (dbHandler broker) (settleOrder now o record acc)
      (fun _ _ => (record.status ≠ .unknown && priceRefused record) = false)
      (fun _ _ => (record.status ≠ .unknown && priceRefused record) = true) db := by
  unfold settleOrder
  split
  · rename_i hstatus
    have hunknown : record.status = .unknown := by
      cases hs : record.status <;> rw [hs] at hstatus <;> first | rfl | cases hstatus
    change _ = false
    simp [hunknown]
  · rename_i status hstatus
    have hknown : record.status ≠ .unknown := by
      intro hs; rw [hs] at hstatus; cases hstatus
    let u := recordUpdate now (keptPending o.status status) record
      (if (keptPending o.status status).terminal then some now else none)
    have hraises : (Op.updateBrokerOrderStatus now o.clientOrderId u).raises db ↔
        priceRefused record = true :=
      (updateBrokerOrderStatus_raises now hid u db).trans
        (checkUpdate_recordUpdate now hnumber hfilled _ _)
    simp only [hknown, ne_eq, not_false_eq_true, decide_true, Bool.true_and]
    apply Raising.Ends.bind
    refine ends_execute_exec broker db ?_ fun e he => hraises.mp ⟨e, he⟩
    intro updated hupdated
    have hfine : priceRefused record = false := by
      rw [Bool.eq_false_iff]
      intro hrefused
      obtain ⟨e, he⟩ := hraises.mpr hrefused
      rw [hupdated] at he
      cases he
    -- the fills are applied inside a `try`
    apply Raising.Ends.bind
    apply Raising.Ends.attempt
    refine Raising.Ends.mono Raising.Ends.trivial ?_ ?_
    · exact fun n db' _ => hfine
    · exact fun e db' _ => hfine

theorem PyFloat.nonpos_div (x : PyFloat) {n : Int} (hn : 0 < n) : (x.div n).nonpos = x.nonpos := by
  cases x with
  | fin q =>
    have hpos : (0 : ℚ) < n := by exact_mod_cast hn
    simp only [PyFloat.div, PyFloat.nonpos, decide_eq_decide]
    constructor
    · intro h
      by_contra hq
      exact absurd h (not_le.mpr (div_pos (not_le.mp hq) hpos))
    · exact fun h => div_nonpos_of_nonpos_of_nonneg h hpos.le
  | nan => rfl
  | posInf => rfl
  | negInf => rfl

/-- The price of a new fill is refused exactly when the notional did not grow. -/
theorem incrementalFillPrice_raises {o : BrokerOrder} {record : OrderRecord} {delta : Int}
    (hdelta : 0 < delta) :
    (∃ e, incrementalFillPrice o record delta = .error e) ↔ notionalStalled o record = true := by
  unfold incrementalFillPrice notionalStalled
  rw [if_neg (by omega)]
  cases record.averageFillPrice with
  | none => simp
  | some average =>
    cases o.avgFillPrice with
    | none => simp
    | some previous =>
      by_cases hzero : o.filledQty = 0
      · simp [hzero]
      · simp only [PyFloat.nonpos_div _ hdelta]
        by_cases hprice : ((average.scale record.filledQuantity).sub
            (previous * o.filledQty)).nonpos = true
        · simp [hzero, hprice]
        · simp [hzero, hprice]

/-- A fill with a positive price comes from a record whose price is accepted. -/
theorem not_priceRefused_of_fill {o : BrokerOrder} {record : OrderRecord} {delta : Int}
    {price : PyFloat} {q : PosRat} (hpriced : ∀ p, o.avgFillPrice = some p → 0 < p)
    (hdelta : 0 < delta) (hfilled : 0 < record.filledQuantity)
    (hprice : incrementalFillPrice o record delta = .ok price)
    (hq : (Number.float price).positive? = some q) : priceRefused record = false := by
  unfold incrementalFillPrice at hprice
  unfold priceRefused
  rw [if_neg (by omega)] at hprice
  cases haverage : record.averageFillPrice with
  | none => rfl
  | some average =>
    rw [haverage] at hprice
    cases hprevious : o.avgFillPrice with
    | none =>
      rw [hprevious] at hprice
      cases hprice
      simp [hq]
    | some previous =>
      rw [hprevious] at hprice
      by_cases hzero : o.filledQty = 0
      · simp only [hzero, if_true] at hprice
        cases hprice
        simp [hq]
      · simp only [hzero, if_false] at hprice
        split at hprice
        · cases hprice
        · cases hprice
          cases average with
          | fin a =>
            -- the new notional is above a positive one
            have hvalue := Number.value_of_positive? hq
            simp only [Number.value, PyFloat.scale, PyFloat.sub, PyFloat.div, PyFloat.fin.injEq] at hvalue
            have hd : (0 : ℚ) < delta := by exact_mod_cast hdelta
            have hf : (0 : ℚ) < record.filledQuantity := by exact_mod_cast hfilled
            have hgrow : 0 < a * record.filledQuantity - previous * o.filledQty := by
              have hpos := q.pos
              rw [← hvalue] at hpos
              exact (div_pos_iff_of_pos_right hd).mp hpos
            have hold : 0 ≤ previous * o.filledQty :=
              mul_nonneg (hpriced previous hprevious).le (by positivity)
            have ha : 0 < a := by
              by_contra hle
              have := mul_nonpos_of_nonpos_of_nonneg (not_lt.mp hle) hf.le
              linarith
            simp [Number.positive?, ha]
          | nan => cases hq
          | posInf => cases hq
          | negInf => cases hq

/-- A fill call that returns went through its validation. -/
theorem checkFill_of_applyBrokerFill {a : FillArgs} {db : Database} {inserted : Bool}
    (h : ((Op.applyBrokerFill now a).call db).1 = .ok inserted) : ∃ c, checkFill a = .ok c := by
  cases hc : checkFill a with
  | ok c => exact ⟨c, rfl⟩
  | error e =>
    simp only [Op.call, Op.run, applyBrokerFill, hc] at h
    cases h

theorem checkFill_price {a : FillArgs} {c : CheckedFill} (h : checkFill a = .ok c) :
    a.price.positive? = some c.price := by
  unfold checkFill at h
  obtain ⟨_, -, h⟩ := Except.bind_eq_ok h
  obtain ⟨_, -, h⟩ := Except.bind_eq_ok h
  obtain ⟨quantity, -, h⟩ := Except.bind_eq_ok h
  obtain ⟨price, hprice, h⟩ := Except.bind_eq_ok h
  obtain ⟨_, -, h⟩ := Except.bind_eq_ok h
  obtain ⟨_, -, h⟩ := Except.bind_eq_ok h
  obtain ⟨_, -, h⟩ := Except.bind_eq_ok h
  cases h
  unfold validatePositiveNumber at hprice
  split at hprice
  · rename_i q hq
    cases hprice
    exact hq
  · cases hprice

theorem bookDifference_raises {o : BrokerOrder} {record : OrderRecord}
    (hid : Text.blank o.clientOrderId = false) (hpriced : ∀ p, o.avgFillPrice = some p → 0 < p)
    (hnumber : Text.blank record.orderNumber = false)
    (hgrown : (o.filledQty : Int) ≤ record.filledQuantity) (acc : PassState) (db : Database) :
    Raising.Ends (dbHandler broker) (bookDifference now o record acc)
      (fun _ _ => stuck o record = false) (fun _ _ => stuck o record = true) db := by
  have hfilled : 0 ≤ record.filledQuantity := by omega
  unfold bookDifference stuck
  dsimp only
  by_cases hsame : record.filledQuantity = o.filledQty
  · rw [if_pos (by omega)]
    simp only [if_pos hsame]
    exact settleOrder_raises broker now hid hnumber hfilled acc db
  · have hdelta : 0 < record.filledQuantity - o.filledQty := by omega
    rw [if_neg (by omega)]
    simp only [if_neg hsame]
    have hraises : (∃ e, incrementalFillPrice o record (record.filledQuantity - o.filledQty) = .error e)
        ↔ notionalStalled o record = true := incrementalFillPrice_raises hdelta
    apply Raising.Ends.bind
    refine .of_eval (eval_reraise broker db _) ?_
    cases hprice : incrementalFillPrice o record (record.filledQuantity - o.filledQty) with
    | error e => exact hraises.mp ⟨e, hprice⟩
    | ok price =>
      have hgrows : notionalStalled o record = false := by
        rw [Bool.eq_false_iff]
        intro hstalled
        obtain ⟨e, he⟩ := hraises.mpr hstalled
        rw [hprice] at he
        cases he
      apply Raising.Ends.bind
      apply Raising.Ends.attempt
      refine ends_execute_exec broker db ?_ fun e _ => hgrows
      -- a recorded fill has a positive price, so the record's price is accepted
      intro inserted hinserted
      obtain ⟨c, hc⟩ := checkFill_of_applyBrokerFill now hinserted
      have haccepted := not_priceRefused_of_fill hpriced hdelta (by omega) hprice (checkFill_price hc)
      refine Raising.Ends.mono (settleOrder_raises broker now hid hnumber hfilled _ _) ?_ ?_
      · exact fun _ _ _ => hgrows
      · intro e db' hrefused
        rw [haccepted, Bool.and_false] at hrefused
        cases hrefused

theorem reconcileOrder_raises {o : BrokerOrder} {orders : List OrderRecord}
    (hid : Text.blank o.clientOrderId = false) (hpriced : ∀ p, o.avgFillPrice = some p → 0 < p)
    (hparsed : ∀ r ∈ orders, Parsed r) (acc : PassState) (db : Database) :
    Raising.Ends (dbHandler broker) (reconcileOrder now orders acc o)
      (fun _ _ => poisonous orders o = false) (fun _ _ => poisonous orders o = true) db := by
  unfold reconcileOrder
  dsimp only
  split
  · rename_i hnone
    change _ = false
    simp [poisonous, hnone]
  · rename_i hnamed
    split
    · rename_i hmissing
      change _ = false
      simp [poisonous, hmissing]
    · rename_i record hrecord
      simp only [poisonous_of_record hnamed hrecord]
      split
      · rename_i hother
        change _ = false
        simp [hother]
      · rename_i hsame
        split
        · rename_i hless
          change _ = false
          simp [not_le.mpr hless]
        · rename_i hgrown
          split
          · rename_i hquantity
            change _ = false
            simp [hquantity.1, hquantity.2]
          · rename_i hquantity
            have hnumber := (hparsed record (byBrokerId_some hrecord).1).wellFormed.1
            have hstated : record.orderedQuantity = 0 ∨ record.orderedQuantity = o.requestedQty := by
              by_contra hneither
              exact hquantity (not_or.mp hneither)
            have hchecks : (sameOrder o record && (o.filledQty : Int) ≤ record.filledQuantity &&
                (record.orderedQuantity = 0 || record.orderedQuantity = o.requestedQty)) = true := by
              simp [hsame, not_lt.mp hgrown, hstated]
            rw [hchecks]
            exact bookDifference_raises broker now hid hpriced hnumber (not_lt.mp hgrown) _ db

/-! ### The loop -/

theorem Taken.frame {orders : List OrderRecord} {o : BrokerOrder} {k : String} {db db' : Database}
    (h : Taken orders o db) (hk : o.clientOrderId ≠ k) (honly : OnlyOrder k db db') :
    Taken orders o db' := by
  obtain ⟨hnamed, record, hrecord, hsame, hquantity, hsettled⟩ := h
  exact ⟨hnamed, record, hrecord, hsame, hquantity, hsettled.frame hk honly⟩

/-- A reason refuses the record of the order, or the record was taken over. -/
def Accounted (orders : List OrderRecord) (reasons : List String) (db : Database) (o : BrokerOrder) :
    Prop :=
  Refused o.clientOrderId reasons ∨ Taken orders o db

/-- The loop when `rest` is still to be done: the rest is as it was read, the others
    have the verdict `D`, and orders the loop does not look at are untouched. -/
structure LoopInvariant (D : PassState → Database → BrokerOrder → Prop) (db₀ : Database)
    (rows rest : List BrokerOrder) (acc : PassState) (db : Database) : Prop where
  ledger : ProgramLedger db
  nodup : (rest.map (·.clientOrderId)).Nodup
  sub : ∀ o ∈ rest, o ∈ rows
  pending : ∀ o ∈ rest, db.brokerOrders.find? o.clientOrderId = some o
  done : ∀ o ∈ rows, o ∈ rest ∨ D acc db o
  others : ∀ k, (∀ o ∈ rows, o.clientOrderId ≠ k) →
    db.brokerOrders.find? k = db₀.brokerOrders.find? k

/-- The verdict on an order survives the iterations of other orders. -/
def Lasting (D : PassState → Database → BrokerOrder → Prop) : Prop :=
  ∀ o k matched P acc db acc' db', o.clientOrderId ≠ k → Processed k matched P acc db acc' db' →
    D acc db o → D acc' db' o

theorem LoopInvariant.step {D : PassState → Database → BrokerOrder → Prop} (hD : Lasting D)
    {orders : List OrderRecord} {rows rest : List BrokerOrder} {x : BrokerOrder}
    {acc acc' : PassState} {db₀ db db' : Database} (hrows : (rows.map (·.clientOrderId)).Nodup)
    (h : LoopInvariant D db₀ rows (x :: rest) acc db)
    (hx : Processed x.clientOrderId [x.brokerIdText] (Taken orders x) acc db acc' db')
    (hverdict : D acc' db' x) : LoopInvariant D db₀ rows rest acc' db' := by
  have hnodup := h.nodup
  rw [List.map_cons, List.nodup_cons] at hnodup
  have hmem : x ∈ rows := h.sub x List.mem_cons_self
  refine ⟨hx.ledger, hnodup.2, fun o ho => h.sub o (List.mem_cons_of_mem _ ho), ?_, ?_, ?_⟩
  · intro o ho
    have hne : o.clientOrderId ≠ x.clientOrderId := by
      intro heq
      exact hnodup.1 (List.mem_map.mpr ⟨o, ho, heq⟩)
    rw [hx.only.others _ hne]
    exact h.pending o (List.mem_cons_of_mem _ ho)
  · intro o ho
    by_cases hox : o = x
    · subst hox
      exact .inr hverdict
    · rcases h.done o ho with hrest | hdone
      · exact .inl ((List.mem_cons.mp hrest).resolve_left hox)
      · -- another row of the table has another id
        refine .inr (hD o x.clientOrderId _ _ _ _ _ _ ?_ hx hdone)
        exact fun heq => hox (List.inj_on_of_nodup_map hrows ho hmem heq)
  · intro k hk
    rw [hx.only.others _ (hk x hmem).symm]
    exact h.others k hk

/-- **The loop rule.**  What every iteration establishes for its order holds for all
    orders after the loop. -/
theorem reconcileLoop_rule {D : PassState → Database → BrokerOrder → Prop} (hD : Lasting D)
    {E : Exn → Database → Prop} {db : Database} {orders : List OrderRecord}
    {rows : List BrokerOrder} (hrows : (rows.map (·.clientOrderId)).Nodup)
    (hstep : ∀ x ∈ rows, ∀ acc db, db.brokerOrders.find? x.clientOrderId = some x →
      Raising.Ends (dbHandler broker) (reconcileOrder now orders acc x)
        (fun acc' db' => Processed x.clientOrderId [x.brokerIdText] (Taken orders x) acc db acc' db' →
          D acc' db' x) E db)
    (hledger : ProgramLedger db) (hpending : ∀ o ∈ rows, db.brokerOrders.find? o.clientOrderId = some o)
    (acc : PassState) :
    Raising.Ends (dbHandler broker) (rows.foldlM (reconcileOrder now orders) acc)
      (LoopInvariant D db rows []) E db := by
  refine Raising.Ends.foldlM ?_ rows
    ⟨hledger, hrows, fun _ ho => ho, hpending, fun _ ho => .inl ho, fun _ _ => rfl⟩
  intro x rest acc db hinv
  have hfind := hinv.pending x List.mem_cons_self
  have hmem : x ∈ rows := hinv.sub x List.mem_cons_self
  have hprocessed := reconcileOrder_processed broker now hinv.ledger orders x acc hfind
  refine Raising.Ends.mono (hprocessed.and (hstep x hmem acc db hfind)) ?_ ?_
  · exact fun acc' db' h' => hinv.step hD hrows h'.1.1 (h'.2 h'.1.1)
  · exact fun e db' h' => h'.2

theorem lasting_accounted (orders : List OrderRecord) :
    Lasting fun acc db o => Accounted orders acc.reasons db o ∧ poisonous orders o = false := by
  rintro o k matched P acc db acc' db' hk hx ⟨haccounted, hfine⟩
  refine ⟨?_, hfine⟩
  rcases haccounted with ⟨reason, hreason, hkind⟩ | htaken
  · exact .inl ⟨reason, hx.kept reason hreason, hkind⟩
  · exact .inr (htaken.frame hk hx.only)

theorem reconcileLoop_total {db : Database} (hdb : ProgramState db) {orders : List OrderRecord}
    (hparsed : ∀ r ∈ orders, Parsed r) (acc : PassState) :
    Raising.Ends (dbHandler broker) ((reconciledRows db).foldlM (reconcileOrder now orders) acc)
      (LoopInvariant (fun acc db o => Accounted orders acc.reasons db o ∧ poisonous orders o = false)
        db (reconciledRows db) [])
      (fun _ _ => ∃ o ∈ reconciledRows db, poisonous orders o = true) db := by
  refine reconcileLoop_rule broker now (lasting_accounted orders) (reconciledRows_nodup db) ?_
    hdb.ledger (fun o ho => db.brokerOrders.find?_of_mem (mem_reconciledRows.mp ho).1) acc
  intro x hx acc db' hfind
  have hmem := (mem_reconciledRows.mp hx).1
  refine Raising.Ends.mono (reconcileOrder_raises broker now (hdb.ledger.ledger.named x hmem)
    (hdb.priced x hmem) hparsed acc db') ?_ fun _ _ he => ⟨x, hx, he⟩
  exact fun acc' db'' hfine hprocessed => ⟨hprocessed.verdict, hfine⟩

/-! ### The pass -/

theorem Accounted.finish {orders : List OrderRecord} {reasons reasons' : List String}
    {db db' : Database} {o : BrokerOrder} (h : Accounted orders reasons db o)
    (hreasons : ∀ reason ∈ reasons, reason ∈ reasons') (hs : SameLedger db db') :
    Accounted orders reasons' db' o := by
  rcases h with ⟨reason, hreason, hkind⟩ | ⟨hnamed, record, hrecord, hsame, hquantity, hsettled⟩
  · exact .inl ⟨reason, hreasons reason hreason, hkind⟩
  · exact .inr ⟨hnamed, record, hrecord, hsame, hquantity, hsettled.congr hs⟩

/-- The pass came to its end: every order it looked at is accounted for, and
    entries are blocked if there is a reason. -/
def Complete (orders : List OrderRecord) (db : Database) (report : ReconciliationReport)
    (db' : Database) : Prop :=
  report.blockNewEntries = !report.reasons.isEmpty ∧
    ∀ o ∈ reconciledRows db, Accounted orders report.reasons db' o

theorem reconcileBrokerState_ends {db : Database} (hdb : ProgramState db) {orders : List OrderRecord}
    (hparsed : ∀ r ∈ orders, Parsed r) (account : Except ReadError (List AccountPosition)) :
    Raising.Ends (dbHandler broker) (reconcileBrokerState now (.ok orders) account)
      (fun report db' => Complete orders db report db' ∧
        ∀ o ∈ reconciledRows db, poisonous orders o = false)
      (fun _ _ => ∃ o ∈ reconciledRows db, poisonous orders o = true) db := by
  apply ends_selectOrders
  apply Raising.Ends.bind
  refine Raising.Ends.mono (reconcileLoop_total broker now hdb hparsed _) ?_ fun _ _ he => he
  intro acc db₁ hloop
  have hdone : ∀ o ∈ reconciledRows db,
      Accounted orders acc.reasons db₁ o ∧ poisonous orders o = false :=
    fun o ho => (hloop.done o ho).resolve_left (by simp)
  -- what follows the loop adds reasons and writes flags
  have hfinish : ∀ acc₁ : PassState, (∀ reason ∈ acc.reasons, reason ∈ acc₁.reasons) →
      Raising.Ends (dbHandler broker) (finishPass now acc₁)
        (fun report db' => Complete orders db report db' ∧
          ∀ o ∈ reconciledRows db, poisonous orders o = false)
        (fun _ _ => ∃ o ∈ reconciledRows db, poisonous orders o = true) db₁ := by
    intro acc₁ hsub
    refine Raising.Ends.mono (finishPass_ends broker now db₁ acc₁) ?_ fun _ _ he => he.elim
    rintro report db' ⟨hs, hall, hblock⟩
    refine ⟨⟨hblock, fun o ho => (hdone o ho).1.finish ?_ hs⟩, fun o ho => (hdone o ho).2⟩
    intro reason hreason
    rw [hall]
    exact List.mem_eraseDups.mpr (hsub reason hreason)
  cases account with
  | error e =>
    exact hfinish _ fun reason hr => List.mem_append_left _ (List.mem_append_left _ hr)
  | ok account =>
    apply ends_select
    exact hfinish _ fun reason hr => List.mem_append_left _ (List.mem_append_left _ hr)

end Raises

namespace ZeroAverage

def opening : DateTime := .combine 20000 9 0 0 (some DateTime.kstOffset)

def calls : List Op :=
  [.claimOrderIntent opening ⟨"b1", some "d1", "005930", "BUY", .int 4, .int 100, none⟩,
   .recordOrderSubmission opening "b1" "K1" none,
   .claimOrderIntent opening ⟨"b2", some "d2", "000660", "BUY", .int 4, .int 100, none⟩,
   .recordOrderSubmission opening "b2" "K2" none]

/-- Two orders at the broker. -/
def working : Database := runOps calls Database.empty

/-- The row of an order of four shares. -/
def row (number symbol filled average : String) : StatusRow := fun field =>
  List.lookup field [("odno", number), ("pdno", symbol), ("sll_buy_dvsn_cd", "02"), ("ord_qty", "4"),
    ("tot_ccld_qty", filled), ("avg_prvs", average)]

def record (number symbol : String) (filled : Int) (average : Option PyFloat)
    (status : KisOrderStatus) : OrderRecord :=
  ⟨number, symbol, some .buy, 4, filled, 4 - filled, none, average, status, none⟩

def unfilled (average : Option PyFloat) : OrderRecord := record "K1" "005930" 0 average .unfilled

def filled : OrderRecord := record "K2" "000660" 4 (some (.fin 100)) .filled

theorem parsed_unfilled_zero : Parsed (unfilled (some (.fin 0))) :=
  ⟨row "K1" "005930" "0" "0", Except.eq_ok_of_toOption (by decide +kernel)⟩

theorem parsed_unfilled_none : Parsed (unfilled none) :=
  ⟨row "K1" "005930" "0" "-", Except.eq_ok_of_toOption (by decide +kernel)⟩

theorem parsed_filled : Parsed filled :=
  ⟨row "K2" "000660" "4" "100", Except.eq_ok_of_toOption (by decide +kernel)⟩

theorem parsed_pair {first : OrderRecord} (h : Parsed first) : ∀ r ∈ [first, filled], Parsed r := by
  intro r hr
  rcases List.mem_cons.mp hr with rfl | hr
  · exact h
  · rw [List.mem_singleton.mp hr]
    exact parsed_filled

def broker : BrokerReplies := ⟨fun _ _ => .ok none, fun _ _ _ _ => .ok ()⟩

theorem working_programState : ProgramState working := by
  refine .call _ (.call _ (.call _ (.call _ .empty ?_) ?_) ?_) ?_ <;>
    · intro now a he; cases he

end ZeroAverage

end AutoTrader
