/-
  AutoTrader/Safety/CumulativeAverages.lean
  =========================================
  **Cumulative averages and the fills they are made of.**

  A broker record states a cumulative quantity and the average price of all of it.
  A pass that finds a larger quantity books one fill, at the price that lifts the
  notional of the header to the notional of the record; a notice rolls its fill
  into the header.  Both move the header and the fills by the same amount, so
  what separates the two never changes there.

  It changes in one place.  A pass that finds the quantity unchanged copies the
  average of the record over the one of the header, and the fills keep their
  prices.  The sum of these revaluations is exactly what the fills of an order
  fall short of the record when the next difference is booked.
-/
import AutoTrader.Safety.OrderPass
import AutoTrader.Safety.ReconcileTotal

namespace AutoTrader

open Relational Transactional Interleave

/-! ### The books of an order -/

/-- `filled_qty` and `avg_fill_price` of the order, nothing when there is none. -/
def Database.header (db : Database) (c : String) : Nat × Option ℚ :=
  ((db.brokerOrders.find? c).map fun o => (o.filledQty, o.avgFillPrice)).getD (0, none)

/-- What a header stands for. -/
def headerNotional (header : Nat × Option ℚ) : ℚ := header.1 * header.2.getD 0

theorem Database.header_of_find? {db : Database} {c : String} {o : BrokerOrder}
    (h : db.brokerOrders.find? c = some o) : db.header c = (o.filledQty, o.avgFillPrice) := by
  rw [Database.header, h, Option.map_some, Option.getD_some]

/-- The header after a fill was rolled into it. -/
def rolledHeader (fill : BrokerFill) (header : Nat × Option ℚ) : Nat × Option ℚ :=
  (header.1 + fill.quantity,
    some ((headerNotional header + fill.quantity * fill.price.val) / (header.1 + fill.quantity)))

theorem headerNotional_rolled (fill : BrokerFill) (header : Nat × Option ℚ) :
    headerNotional (rolledHeader fill header) =
      headerNotional header + fill.quantity * fill.price.val := by
  have hquantity : ((header.1 : ℚ) + fill.quantity) ≠ 0 := by
    have hpos := fill.quantity_pos
    exact_mod_cast (by omega : header.1 + fill.quantity ≠ 0)
  simp only [headerNotional, rolledHeader, Option.getD_some, Nat.cast_add]
  rw [mul_div_cancel₀ _ hquantity]

/-- The books of the order are the same. -/
structure SameBooks (c : String) (db db' : Database) : Prop where
  header : db'.header c = db.header c
  fills : db'.fillsOf c = db.fillsOf c
  fresh : ∀ n, db'.recorded (reconcileFillId c n) = true → db.recorded (reconcileFillId c n) = true

theorem SameBooks.aside {c : String} {db db' : Database} (h : Aside c db db') : SameBooks c db db' where
  header := by rw [Database.header, Database.header, h.row]
  fills := h.fills
  fresh := h.fresh

/-- A change that adds no fill and leaves the header of the order alone. -/
theorem SameBooks.of_header {c : String} {db db' : Database} (hheader : db'.header c = db.header c)
    (hfills : db'.brokerFills = db.brokerFills) : SameBooks c db db' where
  header := hheader
  fills := by rw [Database.fillsOf, Database.fillsOf, hfills]
  fresh := by
    intro n hn
    unfold Database.recorded at hn ⊢
    rw [← hfills]
    exact hn

/-- A fill of the order was added and rolled into the header. -/
structure Rolled (c : String) (fill : BrokerFill) (db db' : Database) : Prop where
  header : db'.header c = rolledHeader fill (db.header c)
  fills : db'.fillsOf c = db.fillsOf c ++ [fill]
  recorded : ∀ id, db'.recorded id = (db.recorded id || decide (fill.fillId = id))

/-- A call of `apply_broker_fill` for the order adds its fill or leaves the books
    alone; if it returns all the same, its fill id was taken. -/
theorem applyBrokerFill_books (now : DateTime) (a : FillArgs) (db : Database) :
    ((Op.applyBrokerFill now a).exec db = db ∧
      ∀ inserted, ((Op.applyBrokerFill now a).call db).1 = .ok inserted → db.recorded a.fillId = true) ∨
    ∃ checked order, checkFill a = .ok checked ∧ db.brokerOrders.find? a.clientOrderId = some order ∧
      Rolled a.clientOrderId (fillRow now a checked order) db ((Op.applyBrokerFill now a).exec db) := by
  rcases applyBrokerFill_cases now a db with
    ⟨e, hr⟩ | ⟨⟨f, hf⟩, hr⟩ | ⟨checked, order, hc, horder, hfree, -, hr⟩
  · refine .inl ⟨by simp only [Op.exec, Op.call, Op.run, hr], ?_⟩
    simp only [Op.call, Op.run, hr]
    rintro inserted ⟨⟩
  · refine .inl ⟨by simp only [Op.exec, Op.call, Op.run, hr], fun _ _ => ?_⟩
    rw [Database.recorded, hf, Option.isSome_some]
  · refine .inr ⟨checked, order, hc, horder, ?_⟩
    have hrows := (Table.insertOrIgnore_of_free (r := fillRow now a checked order) hfree).2
    simp only [Op.exec, Op.call, Op.run, hr]
    refine ⟨?_, ?_, fun id => Database.recorded_append hrows id⟩
    · rw [Database.header_of_find? horder]
      refine Database.header_of_find? (o := rollFill (fillRow now a checked order) order) ?_
      rw [Table.find?_update_self, horder, Option.map_some]
    · rw [fillsOf_append db _ hrows]
      exact congrArg (db.fillsOf a.clientOrderId ++ ·) (if_pos rfl)

/-! ### The balance -/

/-- The header stands for its fills and for what was revalued since, and no
    cumulative quantity beyond it was booked. -/
structure Balanced (c : String) (revalued : ℚ) (db : Database) : Prop where
  notional : headerNotional (db.header c) = fillNotional (db.fillsOf c) + revalued
  averaged : (db.header c).1 = 0 ∨ (db.header c).2 ≠ none
  booked : ∀ n, db.recorded (reconcileFillId c n) = true → n ≤ ((db.header c).1 : Int)

theorem Balanced.empty (c : String) : Balanced c 0 Database.empty where
  notional := by
    change ((0 : Nat) : ℚ) * 0 = (0 : ℚ) + 0
    simp
  averaged := .inl rfl
  booked := by intro n hn; cases hn

theorem Balanced.same {c : String} {revalued : ℚ} {db db' : Database} (h : Balanced c revalued db)
    (hs : SameBooks c db db') : Balanced c revalued db' where
  notional := by rw [hs.header, hs.fills]; exact h.notional
  averaged := by rw [hs.header]; exact h.averaged
  booked := by
    intro n hn
    rw [hs.header]
    exact h.booked n (hs.fresh n hn)

/-- A fill moves both sides by its notional. -/
theorem Balanced.rolled {c : String} {revalued : ℚ} {db db' : Database} {fill : BrokerFill}
    (h : Balanced c revalued db) (hr : Rolled c fill db db')
    (hid : ∀ n, fill.fillId = reconcileFillId c n → n ≤ ((db.header c).1 + fill.quantity : Nat)) :
    Balanced c revalued db' where
  notional := by
    rw [hr.header, hr.fills, headerNotional_rolled, h.notional, fillNotional_append]
    simp only [fillNotional, List.map_cons, List.map_nil, List.sum_cons, List.sum_nil]
    ring
  averaged := by rw [hr.header]; exact .inr (by simp [rolledHeader])
  booked := by
    intro n hn
    rw [hr.recorded, Bool.or_eq_true, decide_eq_true_eq] at hn
    rw [hr.header]
    rcases hn with hn | hn
    · have := h.booked n hn
      simp only [rolledHeader]
      omega
    · exact hid n hn

/-! ### Calls between the passes -/

/-- A call that states no quantity and no average of the order, and books no
    cumulative quantity of it. -/
def LeavesHeader (c : String) : Op → Prop
  | .updateBrokerOrderStatus _ id u => id = c → u.filledQty = none ∧ u.avgFillPrice = none
  | .applyBrokerFill _ a => ∀ n, a.fillId ≠ reconcileFillId c n
  | _ => True

/-- The fill a notice books is no cumulative quantity. -/
theorem leavesHeader_notice (c : String) (now : DateTime) (notice : FillNotice) (side : Side)
    (id number : String) (filledAt received : DateTime) :
    LeavesHeader c (.applyBrokerFill now (noticeFillArgs notice side id number filledAt received)) :=
  noticeFillId_ne_reconcile notice c

/-- A rewrite that leaves quantity and average of the row alone. -/
theorem header_rewriteOrder {id : String} {check : Except Exn Unit} {cond : BrokerOrder → Bool}
    {f : BrokerOrder → BrokerOrder} {hf : ∀ r, (f r).clientOrderId = r.clientOrderId}
    (hsame : ∀ r, (f r).filledQty = r.filledQty ∧ (f r).avgFillPrice = r.avgFillPrice)
    (c : String) (db : Database) :
    ((rewriteOrder id check cond f hf).run db).2.header c = db.header c := by
  rcases rewriteOrder_cases id check cond f hf db with ⟨e, hr⟩ | ⟨-, hr⟩ | ⟨o, ho, -, hr⟩
  · rw [hr]
  · rw [hr]
  · rw [hr]
    by_cases hc : c = id
    · subst hc
      obtain ⟨hquantity, haverage⟩ := hsame o
      rw [Database.header_of_find? ho, ← hquantity, ← haverage]
      exact Database.header_of_find? (by rw [Table.find?_update_self, ho, Option.map_some])
    · simp only [Database.header, Table.find?_update_ne _ hc]

theorem Balanced.call {c : String} {revalued : ℚ} {db : Database} (h : Balanced c revalued db)
    {op : Op} (hop : LeavesHeader c op) : Balanced c revalued (op.exec db) := by
  by_cases hfill : ∃ now a, op = .applyBrokerFill now a
  · obtain ⟨now, a, rfl⟩ := hfill
    rcases applyBrokerFill_books now a db with ⟨hsame, -⟩ | ⟨checked, order, -, -, hrolled⟩
    · rw [hsame]; exact h
    · by_cases hc : c = a.clientOrderId
      · subst hc
        exact h.rolled hrolled fun n hn => absurd hn (hop n)
      · exact h.same (.aside (.fill hc hop now db))
  · refine h.same (.of_header ?_ (Op.exec_fills (fun now a he => hfill ⟨now, a, he⟩) db))
    cases op with
    | applyBrokerFill now a => exact absurd ⟨now, a, rfl⟩ hfill
    | claimOrderIntent now a =>
      simp only [Op.exec, Op.call, Op.run]
      rcases claimOrderIntent_cases now a db with ⟨e, hr⟩ | ⟨-, hr⟩ | ⟨row, hrow, hfree, hr⟩
      · rw [hr]
      · rw [hr]
      · -- a new order has no quantity and no average, and neither has a missing one
        rw [hr]
        obtain ⟨-, -, -, hquantity, haverage, -⟩ := intentRow_ok hrow
        simp only [Database.header, Table.find?_append (Table.insertOrIgnore_of_free hfree).2]
        by_cases hc : row.clientOrderId = c
        · rw [hc] at hfree
          simp [hfree, hc, hquantity, haverage]
        · simp [hc]
    | markOrderSubmitting now id at' =>
      refine header_rewriteOrder ?_ c db
      exact fun r => ⟨rfl, rfl⟩
    | recordOrderSubmission now id broker at' =>
      refine header_rewriteOrder ?_ c db
      exact fun r => ⟨rfl, rfl⟩
    | markOrderUnknown now id error at' =>
      refine header_rewriteOrder ?_ c db
      exact fun r => ⟨rfl, rfl⟩
    | updateBrokerOrderStatus now id u =>
      simp only [Op.exec, Op.call, Op.run]
      rcases updateBrokerOrderStatus_cases now id u db with
        ⟨e, hr⟩ | ⟨checked, -, -, hr⟩ | ⟨o, checked, hchecked, ho, -, hr⟩
      · rw [hr]
      · rw [hr]
      · rw [hr]
        by_cases hc : c = id
        · subst hc
          obtain ⟨hquantity, haverage⟩ := hop rfl
          obtain ⟨hq, -, hp⟩ := checkUpdate_ok hchecked
          rw [Database.header_of_find? ho]
          refine (Database.header_of_find? (o := updatedHeader now u checked o) ?_).trans ?_
          · rw [Table.find?_update_self, ho, Option.map_some]
          · simp [updatedHeader, hq, hp, hquantity, haverage]
        · simp only [Database.header, Table.find?_update_ne _ hc]
    | materializeOrderFills now a =>
      simp only [Database.header, (Apart.materialize c now a db).row]
    | setRuntimeMetadata now key value at' =>
      simp only [Op.exec, Op.call, Op.run]
      rcases setRuntimeMetadata_cases now key value at' db with ⟨e, hr⟩ | hr
      · rw [hr]
      · rw [hr]; rfl
    | recordBrokerOrderAudit now a =>
      simp only [Op.exec, Op.call, Op.run]
      rcases recordBrokerOrderAudit_cases now a db with ⟨e, hr⟩ | ⟨-, hr⟩ | ⟨row, -, -, hr⟩
      · rw [hr]
      · rw [hr]
      · rw [hr]; rfl

/-! ### A pass -/

/-- The price of the difference lifts the notional of the row to the one of the
    record. -/
theorem incrementalFillPrice_lifts {o : BrokerOrder} {record : OrderRecord} {p average : ℚ}
    (haveraged : o.filledQty = 0 ∨ o.avgFillPrice ≠ none)
    (hrecord : record.averageFillPrice = some (.fin average))
    (hprice : incrementalFillPrice o record (record.filledQuantity - o.filledQty) = .ok (.fin p)) :
    o.filledQty * o.avgFillPrice.getD 0 + (record.filledQuantity - o.filledQty) * p =
      record.filledQuantity * average := by
  unfold incrementalFillPrice at hprice
  split at hprice
  · cases hprice
  · rename_i hdelta
    simp only [hrecord] at hprice
    cases hprevious : o.avgFillPrice with
    | none =>
      have hzero : o.filledQty = 0 := haveraged.resolve_right (absurd hprevious)
      rw [hprevious] at hprice
      cases hprice
      simp [hzero]
    | some previous =>
      simp only [hprevious] at hprice
      split at hprice
      · rename_i hzero
        cases hprice
        simp [hzero]
      · split at hprice
        · cases hprice
        · simp only [PyFloat.scale, PyFloat.sub, PyFloat.div, Except.ok.injEq, PyFloat.fin.injEq] at hprice
          have hne : ((record.filledQuantity : ℚ) - o.filledQty) ≠ 0 := by
            exact_mod_cast (by omega : record.filledQuantity - (o.filledQty : Int) ≠ 0)
          rw [← hprice, Option.getD_some]
          push_cast
          rw [mul_div_cancel₀ _ hne]
          ring

/-- Copying a record: its quantity, and its average if it states one. -/
theorem header_copied {c : String} {db : Database} {o : BrokerOrder}
    (ho : db.brokerOrders.find? c = some o) (now : DateTime) (status : OrderStatus)
    (record : OrderRecord) (completedAt : Option DateTime) :
    let db' := (Op.updateBrokerOrderStatus now c (recordUpdate now status record completedAt)).exec db
    db'.header c = db.header c ∨ ∃ average, db'.header c = (record.filledQuantity.toNat, average) ∧
      (average = o.avgFillPrice ∨
        ∃ stated, record.averageFillPrice = some (.fin stated) ∧ average = some stated) := by
  dsimp only
  rcases updateBrokerOrderStatus_cases now c (recordUpdate now status record completedAt) db with
    ⟨e, hr⟩ | ⟨checked, -, -, hr⟩ | ⟨cur, checked, hc, hcur, -, hr⟩
  · exact .inl (by simp only [Op.exec, Op.call, Op.run, hr])
  · exact .inl (by simp only [Op.exec, Op.call, Op.run, hr])
  · obtain rfl : cur = o := Option.some.inj (hcur.symm.trans ho)
    obtain ⟨hquantity, -, haverage⟩ := checkUpdate_ok hc
    refine .inr ⟨(checked.avgFillPrice.map PosRat.val).or cur.avgFillPrice, ?_, ?_⟩
    · simp only [Op.exec, Op.call, Op.run, hr]
      refine (Database.header_of_find?
        (o := updatedHeader now (recordUpdate now status record completedAt) checked cur) ?_).trans ?_
      · rw [Table.find?_update_self, hcur, Option.map_some]
      · simp only [updatedHeader, hquantity, recordUpdate, Option.map_some, Option.getD_some]
    · rw [haverage]
      cases hrecord : record.averageFillPrice with
      | none => exact .inl (by simp [recordUpdate, hrecord])
      | some x =>
        cases hpositive : (Number.float x).positive? with
        | none => exact .inl (by simp [recordUpdate, hrecord, hpositive])
        | some q =>
          have hx : x = .fin q.val := Number.value_of_positive? hpositive
          exact .inr ⟨q.val, by rw [hx], by simp [recordUpdate, hrecord, hpositive]⟩

/-- What a pass does to the books of the order: it restates the average, or it books
    the difference to the record of the order and takes its average over. -/
inductive PassEffect (c : String) (orders : Except ReadError (List OrderRecord)) (db db' : Database) :
    Prop
  | restated : db'.fillsOf c = db.fillsOf c → (db'.header c).1 = (db.header c).1 →
      ((db'.header c).2 = none → (db.header c).2 = none) →
      (∀ n, db'.recorded (reconcileFillId c n) = true → db.recorded (reconcileFillId c n) = true) →
      PassEffect c orders db db'
  | booked (records : List OrderRecord) (o : BrokerOrder) (record : OrderRecord) (fill : BrokerFill)
      (average : ℚ) : orders = .ok records → db.brokerOrders.find? c = some o →
      byBrokerId records o.brokerIdText = some record → db'.fillsOf c = db.fillsOf c ++ [fill] →
      ((db.header c).1 : Int) ≤ record.filledQuantity →
      db'.header c = (record.filledQuantity.toNat, some average) →
      record.filledQuantity * average =
        headerNotional (db.header c) + fill.quantity * fill.price.val →
      (∀ stated, record.averageFillPrice = some (.fin stated) → average = stated) →
      (∀ n, db'.recorded (reconcileFillId c n) = true →
        db.recorded (reconcileFillId c n) = true ∨ n = record.filledQuantity) →
      PassEffect c orders db db'

theorem PassEffect.refl (c : String) (orders : Except ReadError (List OrderRecord)) (db : Database) :
    PassEffect c orders db db := .restated rfl rfl (fun h => h) fun _ h => h

theorem PassEffect.same {c : String} {orders : Except ReadError (List OrderRecord)}
    {db db₁ db₂ : Database} (h : PassEffect c orders db db₁) (hs : SameBooks c db₁ db₂) :
    PassEffect c orders db db₂ := by
  cases h with
  | restated hfills hquantity haverage hfresh =>
    refine .restated (hs.fills.trans hfills) ?_ ?_ fun n hn => hfresh n (hs.fresh n hn)
    · rw [hs.header]; exact hquantity
    · rw [hs.header]; exact haverage
  | booked records o record fill average horders ho hrecord hfills hgrown hheader hnotional hstated hfresh =>
    exact .booked records o record fill average horders ho hrecord (hs.fills.trans hfills) hgrown
      (hs.header.trans hheader) hnotional hstated fun n hn => hfresh n (hs.fresh n hn)

/-- The fill of the difference. -/
theorem PassEffect.of_rolled {c : String} {revalued p : ℚ} {db db₁ db₂ : Database}
    (h : Balanced c revalued db) {records : List OrderRecord} {o : BrokerOrder} {record : OrderRecord}
    {fill : BrokerFill} (ho : db.brokerOrders.find? c = some o) (haside : Aside c db db₁)
    (hrecord : byBrokerId records o.brokerIdText = some record)
    (hgrown : (o.filledQty : Int) ≤ record.filledQuantity)
    (hprice : incrementalFillPrice o record (record.filledQuantity - o.filledQty) = .ok (.fin p))
    (hrolled : Rolled c fill db₁ db₂)
    (hquantity : (fill.quantity : Int) = record.filledQuantity - o.filledQty)
    (hp : fill.price.val = p) (hid : fill.fillId = reconcileFillId c record.filledQuantity) :
    ∃ average, PassEffect c (.ok records) db db₂ ∧
      db₂.header c = (record.filledQuantity.toNat, some average) ∧
      ∀ stated, record.averageFillPrice = some (.fin stated) → average = stated := by
  have hheader : db.header c = (o.filledQty, o.avgFillPrice) := Database.header_of_find? ho
  have hheader₁ : db₁.header c = (o.filledQty, o.avgFillPrice) :=
    Database.header_of_find? (haside.row.trans ho)
  have hsum : o.filledQty + fill.quantity = record.filledQuantity.toNat := by omega
  have hsum' : ((o.filledQty : ℚ) + fill.quantity) = record.filledQuantity := by
    exact_mod_cast (by omega : (o.filledQty : Int) + fill.quantity = record.filledQuantity)
  have hnotional := headerNotional_rolled fill (db₁.header c)
  set average := (headerNotional (db₁.header c) + fill.quantity * fill.price.val) /
    ((o.filledQty : ℚ) + fill.quantity) with haverage
  have hheader₂ : db₂.header c = (record.filledQuantity.toNat, some average) := by
    rw [hrolled.header, rolledHeader, hheader₁, ← hsum]
    simp only [haverage, hheader₁]
  have hlaw : record.filledQuantity * average =
      headerNotional (db.header c) + fill.quantity * fill.price.val := by
    rw [hheader₁] at hnotional
    rw [hheader, ← hnotional, ← hsum']
    simp only [headerNotional, rolledHeader, Option.getD_some, haverage, hheader₁, Nat.cast_add]
  have hstated : ∀ stated, record.averageFillPrice = some (.fin stated) → average = stated := by
    intro stated hstated
    have haveraged := h.averaged
    rw [hheader] at haveraged
    have hlifts := incrementalFillPrice_lifts haveraged hstated hprice
    have hpos : (record.filledQuantity : ℚ) ≠ 0 := by
      have := fill.quantity_pos
      exact_mod_cast (by omega : record.filledQuantity ≠ 0)
    refine mul_left_cancel₀ hpos ?_
    rw [hlaw, ← hlifts, hheader, headerNotional, hp]
    have hdifference : (fill.quantity : ℚ) = record.filledQuantity - o.filledQty := by
      exact_mod_cast hquantity
    rw [hdifference]
  refine ⟨average, .booked records o record fill average rfl ho hrecord ?_ ?_ hheader₂ hlaw hstated ?_,
    hheader₂, hstated⟩
  · rw [hrolled.fills, haside.fills]
  · rw [hheader]
    exact hgrown
  · intro n hn
    rw [hrolled.recorded, Bool.or_eq_true, decide_eq_true_eq, hid] at hn
    exact hn.imp (haside.fresh n) fun h => (reconcileFillId_injective h).2.symm

/-- Copying a record whose quantity and average the header carries already. -/
theorem header_copied_again {c : String} {db : Database} {record : OrderRecord} {average : ℚ}
    (hheader : db.header c = (record.filledQuantity.toNat, some average))
    (hstated : ∀ stated, record.averageFillPrice = some (.fin stated) → average = stated)
    (now : DateTime) (status : OrderStatus) (completedAt : Option DateTime) :
    SameBooks c db
      ((Op.updateBrokerOrderStatus now c (recordUpdate now status record completedAt)).exec db) := by
  refine .of_header ?_ (Op.exec_fills (by simp) db)
  cases ho : db.brokerOrders.find? c with
  | none => simp [Database.header, ho] at hheader
  | some o =>
    rw [Database.header_of_find? ho, Prod.mk.injEq] at hheader
    rcases header_copied ho now status record completedAt with hsame | ⟨average', hcopied, haverage⟩
    · exact hsame
    · rw [hcopied, Database.header_of_find? ho, Prod.mk.injEq]
      refine ⟨hheader.1.symm, ?_⟩
      rcases haverage with hsame | ⟨stated, hrecord, hsome⟩
      · exact hsame
      · rw [hsome, hheader.2, hstated stated hrecord]

section Pass

variable (broker : BrokerReplies) (now : DateTime) {c : String}

/-- The iteration of the order. -/
theorem reconcileOrder_effect {revalued : ℚ} {db db₁ : Database} (h : Balanced c revalued db)
    {records : List OrderRecord} {o : BrokerOrder} (ho : db.brokerOrders.find? c = some o)
    (haside : Aside c db db₁) (acc : PassState) :
    Raising.Ends (dbHandler broker) (reconcileOrder now records acc o)
      (fun _ => PassEffect c (.ok records) db) (fun _ => PassEffect c (.ok records) db) db₁ := by
  have hstart : PassEffect c (.ok records) db db₁ := (PassEffect.refl c _ db).same (.aside haside)
  have hbooked : ∀ db' a, PassEffect c (.ok records) db db' →
      PassEffect c (.ok records) db ((Op.materializeOrderFills now a).exec db') :=
    fun db' a h' => h'.same (.aside (.materialize c now a db'))
  have hid : o.clientOrderId = c := db.brokerOrders.key_of_find? ho
  have ho₁ : db₁.brokerOrders.find? c = some o := haside.row.trans ho
  have hheader : db.header c = (o.filledQty, o.avgFillPrice) := Database.header_of_find? ho
  have hheader₁ : db₁.header c = (o.filledQty, o.avgFillPrice) := Database.header_of_find? ho₁
  refine reconcileOrder_keeps broker now hstart ?_ acc
  intro record hrecord _ hgrown acc'
  refine bookDifference_keeps broker now hstart ?_ ?_ acc'
  · -- no difference: the average may be restated
    intro hequal acc''
    refine settleOrder_keeps broker now hstart ?_ hbooked acc''
    intro status completedAt _
    rw [hid]
    have hfills : ((Op.updateBrokerOrderStatus now c (recordUpdate now (keptPending o.status status)
        record completedAt)).exec db₁).brokerFills = db₁.brokerFills := Op.exec_fills (by simp) db₁
    rcases header_copied ho₁ now (keptPending o.status status) record completedAt with
      hsame | ⟨average, hcopied, haverage⟩
    · exact hstart.same (.of_header hsame hfills)
    · refine .restated ?_ ?_ ?_ ?_
      · rw [Database.fillsOf, hfills]; exact haside.fills
      · rw [hcopied, hheader]
        simp only
        omega
      · rw [hcopied, hheader]
        rintro hnone
        rcases haverage with hsame | ⟨stated, -, hsome⟩
        · exact hsame.symm.trans hnone
        · cases hnone.symm.trans hsome
      · intro n hn
        unfold Database.recorded at hn
        rw [hfills] at hn
        exact haside.fresh n hn
  · intro hdelta price hprice
    dsimp only
    rcases applyBrokerFill_books now (reconcileFillArgs now o record
        (record.filledQuantity - o.filledQty) price) db₁ with
      ⟨hsame, htaken⟩ | ⟨checked, order, hchecked, horder, hrolled⟩
    · rw [hsame]
      refine ⟨fun _ _ => hstart, fun inserted hreturned => ?_⟩
      -- the id of a larger quantity is not taken
      have hrec := htaken inserted hreturned
      simp only [reconcileFillArgs, hid] at hrec
      have hle := h.booked _ (haside.fresh _ hrec)
      rw [hheader] at hle
      exact absurd hle (by simp only; omega)
    · obtain rfl : order = o := by
        refine Option.some.inj (horder.symm.trans ?_)
        rw [← ho₁, ← hid]
        rfl
      have hfin : price = .fin checked.price.val := Number.value_of_positive? (checkFill_price hchecked)
      rw [hfin] at hprice
      have hquantity := checkFill_quantity
        (a := reconcileFillArgs now order record (record.filledQuantity - order.filledQty) price) rfl
        hchecked
      have hclient : (reconcileFillArgs now order record
        (record.filledQuantity - order.filledQty) price).clientOrderId = c := hid
      rw [hclient] at hrolled
      obtain ⟨average, heffect, hlifted, hstated⟩ := PassEffect.of_rolled h ho haside hrecord hgrown
        hprice hrolled hquantity rfl (by rw [← hid]; rfl)
      refine ⟨fun _ _ => heffect, fun _ _ acc'' => ?_⟩
      refine settleOrder_keeps broker now heffect ?_ hbooked acc''
      -- the header carries the record already
      intro status completedAt _
      rw [hid]
      exact heffect.same (header_copied_again hlifted hstated now _ completedAt)

theorem pass_effect {revalued : ℚ} {db : Database} (h : Balanced c revalued db)
    (orders : Except ReadError (List OrderRecord))
    (account : Except ReadError (List AccountPosition)) :
    PassEffect c orders db
      (Raising.eval (dbHandler broker) (reconcileBrokerState now orders account) db).2 := by
  refine pass_order broker now (.refl c orders db) (fun db₁ db₂ h₁ h₂ => h₁.same (.aside h₂)) orders
    ?_ account
  intro records horders o _ ho acc db₁ haside
  rw [horders]
  exact reconcileOrder_effect broker now h ho haside acc

end Pass

/-! ### Runs -/

/-- What a pass without a fill makes of the header: the filled quantity times the
    change of the average. -/
def revaluation (c : String) (db db' : Database) : ℚ :=
  if db'.fillsOf c = db.fillsOf c then
    (db.header c).1 * ((db'.header c).2.getD 0 - (db.header c).2.getD 0)
  else 0

/-- Passes on any broker data and, between them, any calls that leave the header of
    the order to its fills, with the sum of the revaluations of the passes. -/
inductive AverageRun (c : String) : ℚ → Database → Prop
  | empty : AverageRun c 0 Database.empty
  | call {revalued : ℚ} {db : Database} (op : Op) : AverageRun c revalued db → LeavesHeader c op →
      AverageRun c revalued (op.exec db)
  | pass {revalued : ℚ} {db db' : Database} (broker : BrokerReplies) (now : DateTime)
      (orders : Except ReadError (List OrderRecord))
      (account : Except ReadError (List AccountPosition)) : AverageRun c revalued db →
      db' = (Raising.eval (dbHandler broker) (reconcileBrokerState now orders account) db).2 →
      AverageRun c (revalued + revaluation c db db') db'
  | other {revalued : ℚ} {db db' : Database} : AverageRun c revalued db → SameLedger db db' →
      AverageRun c revalued db'

/-- A pass keeps the balance, up to its revaluation. -/
theorem Balanced.pass {c : String} {revalued : ℚ} {orders : Except ReadError (List OrderRecord)}
    {db db' : Database} (h : Balanced c revalued db) (heffect : PassEffect c orders db db') :
    Balanced c (revalued + revaluation c db db') db' := by
  cases heffect with
  | restated hfills hquantity haverage hfresh =>
    refine ⟨?_, ?_, ?_⟩
    · have hnotional := h.notional
      unfold headerNotional at hnotional ⊢
      rw [revaluation, if_pos hfills, hfills, hquantity, ← add_assoc, ← hnotional]
      ring
    · rw [hquantity]
      exact h.averaged.imp_right fun hsome hnone => hsome (haverage hnone)
    · intro n hn
      rw [hquantity]
      exact h.booked n (hfresh n hn)
  | booked records o record fill average _ _ _ hfills hgrown hheader hlaw _ hfresh =>
    have hmore : db'.fillsOf c ≠ db.fillsOf c := by rw [hfills]; simp
    rw [revaluation, if_neg hmore, add_zero]
    refine ⟨?_, ?_, ?_⟩
    · have hquantity : ((record.filledQuantity.toNat : Nat) : ℚ) = record.filledQuantity := by
        exact_mod_cast Int.toNat_of_nonneg (by omega : 0 ≤ record.filledQuantity)
      have hnotional := h.notional
      rw [hheader, hfills, fillNotional_append, headerNotional, Option.getD_some, hquantity, hlaw,
        hnotional]
      simp only [fillNotional, List.map_cons, List.map_nil, List.sum_cons, List.sum_nil]
      ring
    · rw [hheader]
      exact .inr (by simp)
    · intro n hn
      rw [hheader]
      rcases hfresh n hn with hn | rfl
      · have := h.booked n hn
        simp only
        omega
      · simp only
        omega

theorem AverageRun.balanced {c : String} {revalued : ℚ} {db : Database}
    (h : AverageRun c revalued db) : Balanced c revalued db := by
  induction h with
  | empty => exact .empty c
  | call op _ hop ih => exact ih.call hop
  | pass broker now orders account _ hpass ih =>
    subst hpass
    exact ih.pass (pass_effect broker now ih orders account)
  | other _ hsame ih => exact ih.same (.aside (.sameLedger hsame))

/-- **Fills, records and revaluations.**  After every pass that books a difference,
    the header carries the quantity and the average of the record, and the fills of
    the order and the revaluations since its first add up to their product. -/
theorem cumulative_averages {c : String} {revalued : ℚ} {db db' : Database}
    (h : AverageRun c revalued db) (broker : BrokerReplies) (now : DateTime)
    (orders : Except ReadError (List OrderRecord)) (account : Except ReadError (List AccountPosition))
    (hpass : db' = (Raising.eval (dbHandler broker) (reconcileBrokerState now orders account) db).2)
    (hdelta : db'.fillsOf c ≠ db.fillsOf c) :
    ∃ records o record, orders = .ok records ∧ db.brokerOrders.find? c = some o ∧
      byBrokerId records o.brokerIdText = some record ∧
      ∀ stated, record.averageFillPrice = some (.fin stated) →
        fillNotional (db'.fillsOf c) + revalued = record.filledQuantity * stated ∧
        ∃ o', db'.brokerOrders.find? c = some o' ∧ (o'.filledQty : Int) = record.filledQuantity ∧
          o'.avgFillPrice = some stated := by
  subst hpass
  have heffect := pass_effect broker now h.balanced orders account
  have hbalanced := h.balanced.pass heffect
  generalize (Raising.eval (dbHandler broker) (reconcileBrokerState now orders account) db).2 = db'
    at heffect hbalanced hdelta ⊢
  cases heffect with
  | restated hfills _ _ _ => exact absurd hfills hdelta
  | booked records o record fill average horders ho hrecord hfills hgrown hheader hlaw hstated _ =>
    refine ⟨records, o, record, horders, ho, hrecord, fun stated hrecorded => ?_⟩
    obtain rfl := hstated stated hrecorded
    have hnonneg : 0 ≤ record.filledQuantity := by omega
    refine ⟨?_, ?_⟩
    · have hnotional := hbalanced.notional
      have hquantity : ((record.filledQuantity.toNat : Nat) : ℚ) = record.filledQuantity := by
        exact_mod_cast Int.toNat_of_nonneg hnonneg
      rw [revaluation, if_neg hdelta, add_zero, hheader, headerNotional, Option.getD_some,
        hquantity] at hnotional
      exact hnotional.symm
    · cases ho' : db'.brokerOrders.find? c with
      | none => simp [Database.header, ho'] at hheader
      | some o' =>
        rw [Database.header_of_find? ho', Prod.mk.injEq] at hheader
        refine ⟨o', rfl, ?_, hheader.2⟩
        rw [hheader.1]
        exact Int.toNat_of_nonneg hnonneg

/-! ### An average that is restated -/

namespace RestatedAverage

def opening : DateTime := .combine 20000 9 0 0 (some DateTime.kstOffset)

def broker : BrokerReplies := ⟨fun _ _ => .ok none, fun _ _ _ _ => .ok ()⟩

/-- Ten shares ordered. -/
def ordered : Database :=
  runOps [.claimOrderIntent opening ⟨"b1", some "d1", "005930", "BUY", .int 10, .int 100, none⟩,
    .recordOrderSubmission opening "b1" "K1" none] Database.empty

/-- What the broker says after `filled` shares. -/
def record (filled : Int) (average : ℚ) : OrderRecord :=
  ⟨"K1", "005930", some .buy, 10, filled, 10 - filled, none, some (.fin average), .partiallyFilled, none⟩

/-- The database after a pass on one record. -/
def after (filled : Int) (average : ℚ) (db : Database) : Database :=
  (Raising.eval (dbHandler broker)
    (reconcileBrokerState opening (.ok [record filled average]) (.ok [])) db).2

/-- Two shares at 101, restated to 100 before two more come at 101. -/
def bought : Database := after 2 101 ordered
def restated : Database := after 2 100 bought
def boughtMore : Database := after 4 (201 / 2) restated

theorem restated_run : AverageRun "b1" (-2) restated := by
  have hordered : AverageRun "b1" 0 ordered := .call _ (.call _ .empty trivial) trivial
  have hbought : AverageRun "b1" (0 + revaluation "b1" ordered bought) bought :=
    .pass broker opening (.ok [record 2 101]) (.ok []) hordered rfl
  have hrestated : AverageRun "b1"
      (0 + revaluation "b1" ordered bought + revaluation "b1" bought restated) restated :=
    .pass broker opening (.ok [record 2 100]) (.ok []) hbought rfl
  have hsum : 0 + revaluation "b1" ordered bought + revaluation "b1" bought restated = -2 := by
    decide +kernel
  rw [hsum] at hrestated
  exact hrestated

/-- The last record has the fills and the revaluation. -/
theorem fills_and_revaluation :
    ∃ records o record, (Except.ok [RestatedAverage.record 4 (201 / 2)] :
        Except ReadError (List OrderRecord)) = .ok records ∧
      restated.brokerOrders.find? "b1" = some o ∧
      byBrokerId records o.brokerIdText = some record ∧
      ∀ stated, record.averageFillPrice = some (.fin stated) →
        fillNotional (boughtMore.fillsOf "b1") + -2 = record.filledQuantity * stated ∧
        ∃ o', boughtMore.brokerOrders.find? "b1" = some o' ∧
          (o'.filledQty : Int) = record.filledQuantity ∧ o'.avgFillPrice = some stated :=
  cumulative_averages restated_run broker opening (.ok [record 4 (201 / 2)]) (.ok []) rfl
    (by decide +kernel)

/-- Every record states a positive average and no smaller quantity, every price is
    positive, and the fills cost more than the last record says. -/
theorem fills_exceed_record :
    (∃ o, restated.brokerOrders.find? "b1" = some o ∧
      (incrementalFillPrice o (record 4 (201 / 2)) 2).toOption = some (.fin 101)) ∧
    boughtMore.fillsOf "b1" ≠ restated.fillsOf "b1" ∧
    (boughtMore.brokerOrders.find? "b1").map (·.avgFillPrice) = some (some (201 / 2)) ∧
    fillNotional (boughtMore.fillsOf "b1") = 404 ∧ (4 : ℚ) * (201 / 2) = 402 := by
  have hrow : ((restated.brokerOrders.find? "b1").map fun o =>
      (incrementalFillPrice o (record 4 (201 / 2)) 2).toOption) = some (some (.fin 101)) := by
    decide +kernel
  exact ⟨Option.map_eq_some_iff.mp hrow, by decide +kernel, by decide +kernel, by decide +kernel,
    by norm_num⟩

end RestatedAverage

end AutoTrader
