/-
  AutoTrader/Safety/FillChannels.lean
  ===================================
  **Two channels report the same executions.**

  The websocket channel books one fill per notice, under the hash of the notice.
  The polling channel books the difference between a broker record and the header,
  under the cumulative quantity.  A record is about the first `k` executions
  without saying which notices it covers, so nothing but `filled_qty` keeps a late
  notice from counting an execution again.

  The invariant splits the log of executions at the last polled prefix: up to `k`
  everything is counted, beyond `k` only what has a recorded notice.  A delivery
  breaks it only when the notice is new, still fits into the order and lies inside
  a polled prefix (`CountedAgain`).  Runs without such a delivery never count more
  than was executed; one such delivery is enough to break the bound.
-/
import AutoTrader.Ledger.Orders
import AutoTrader.Safety.Reconciliation

namespace AutoTrader

open Relational Transactional Interleave

/-! ### Executions -/

/-- The notice of an execution of the order that the broker calls `number`. -/
structure ExecutionOf (number : String) (n : FillNotice) : Prop where
  filled : n.kind = .filled
  orderNo : n.orderNo = number
  quantity_pos : 0 < n.fillQty

def FillNotice.quantity (n : FillNotice) : Nat := n.fillQty.toNat

/-- The quantity the broker executed, by the notices of its executions. -/
def executedQuantity (log : List FillNotice) : Nat := (log.map (·.quantity)).sum

def executedNotional (log : List FillNotice) : ℚ :=
  (log.map fun n => (n.quantity : ℚ) * n.fillPrice).sum

@[simp] theorem executedQuantity_append (log log' : List FillNotice) :
    executedQuantity (log ++ log') = executedQuantity log + executedQuantity log' := by
  simp [executedQuantity]

@[simp] theorem executedQuantity_cons (n : FillNotice) (log : List FillNotice) :
    executedQuantity (n :: log) = n.quantity + executedQuantity log := by
  simp [executedQuantity]

theorem executedQuantity_take_le (log : List FillNotice) {i k : Nat} (h : i ≤ k) :
    executedQuantity (log.take i) ≤ executedQuantity (log.take k) := by
  have hsplit : log.take k = log.take i ++ (log.drop i).take (k - i) := by
    rw [← List.take_add]
    congr 1
    omega
  rw [hsplit, executedQuantity_append]
  omega

theorem executedQuantity_filter_le (p : FillNotice → Bool) (log : List FillNotice) :
    executedQuantity (log.filter p) ≤ executedQuantity log := by
  induction log with
  | nil => exact le_rfl
  | cons n rest ih =>
    rw [List.filter_cons]
    split
    · simp only [executedQuantity_cons]; omega
    · simp only [executedQuantity_cons]; omega

/-- Widening a filter does not lower the quantity. -/
theorem executedQuantity_filter_mono {p q : FillNotice → Bool} (hpq : ∀ n, p n = true → q n = true)
    (log : List FillNotice) :
    executedQuantity (log.filter p) ≤ executedQuantity (log.filter q) := by
  induction log with
  | nil => exact le_rfl
  | cons n rest ih =>
    rw [List.filter_cons, List.filter_cons]
    split
    · rename_i hp
      rw [if_pos (hpq n hp)]
      simp only [executedQuantity_cons]; omega
    · split
      · simp only [executedQuantity_cons]; omega
      · exact ih

/-- Widening a filter by an element of the list adds at least its quantity. -/
theorem executedQuantity_filter_add {p q : FillNotice → Bool} (hpq : ∀ n, p n = true → q n = true)
    {n : FillNotice} (hp : p n = false) (hq : q n = true) {log : List FillNotice} (hn : n ∈ log) :
    executedQuantity (log.filter p) + n.quantity ≤ executedQuantity (log.filter q) := by
  induction log with
  | nil => cases hn
  | cons m rest ih =>
    by_cases hmn : n = m
    · subst hmn
      rw [List.filter_cons_of_neg (by simp [hp]), List.filter_cons_of_pos hq, executedQuantity_cons]
      have := executedQuantity_filter_mono hpq rest
      omega
    · have hrest := ih (by simpa [hmn] using hn)
      rw [List.filter_cons, List.filter_cons]
      split
      · rename_i hpm
        rw [if_pos (hpq m hpm)]
        simp only [executedQuantity_cons]; omega
      · split
        · simp only [executedQuantity_cons]; omega
        · exact hrest

/-- A record that reports the cumulative quantity and, if it states one, the
    average price of some prefix of the executions so far. -/
def TruthfulRecord (log : List FillNotice) (record : OrderRecord) : Prop :=
  ∃ k ≤ log.length, record.filledQuantity = executedQuantity (log.take k) ∧
    ∀ average, record.averageFillPrice = some average →
      average = .fin (executedNotional (log.take k) / executedQuantity (log.take k))

/-! ### The invariant -/

def Database.recorded (db : Database) (fillId : String) : Bool :=
  (db.brokerFills.find? fillId).isSome

/-- The quantity of the executions a header may count when the first `k` were
    polled: those and the ones whose notice is recorded. -/
def countable (log : List FillNotice) (k : Nat) (db : Database) : Nat :=
  executedQuantity (log.take k) +
    executedQuantity ((log.drop k).filter fun n => db.recorded (noticeFillId n))

theorem countable_le (log : List FillNotice) (k : Nat) (db : Database) :
    countable log k db ≤ executedQuantity log := by
  have hsplit : executedQuantity log =
      executedQuantity (log.take k) + executedQuantity (log.drop k) := by
    rw [← executedQuantity_append, List.take_append_drop]
  have := executedQuantity_filter_le (fun n => db.recorded (noticeFillId n)) (log.drop k)
  unfold countable
  omega

/-- The order `c`, known to the broker as `number`, counts no execution twice. -/
def CountsOnce (c number : String) (log : List FillNotice) (db : Database) : Prop :=
  ∃ o, db.brokerOrders.find? c = some o ∧
    (o.brokerOrderId = none ∨ o.brokerOrderId = some number) ∧
    fillQuantity (db.fillsOf c) ≤ o.filledQty ∧
    ∃ k ≤ log.length, (k = 0 ∨ db.recorded (reconcileFillId c (executedQuantity (log.take k)))) ∧
      o.filledQty ≤ countable log k db

theorem CountsOnce.bound {c number : String} {log : List FillNotice} {db : Database}
    (h : CountsOnce c number log db) : fillQuantity (db.fillsOf c) ≤ executedQuantity log := by
  obtain ⟨o, -, -, hfills, k, -, -, hle⟩ := h
  have := countable_le log k db
  omega

/-- What happens elsewhere: the order keeps its quantities and its fills, it may be
    given its number, and recorded fills stay recorded. -/
structure Elsewhere (c number : String) (db db' : Database) : Prop where
  order : ∀ o, db.brokerOrders.find? c = some o → ∃ o', db'.brokerOrders.find? c = some o' ∧
    o'.filledQty = o.filledQty ∧ o'.requestedQty = o.requestedQty ∧
    (o'.brokerOrderId = o.brokerOrderId ∨ o'.brokerOrderId = some number)
  fills : db'.fillsOf c = db.fillsOf c
  recorded : ∀ id, db.recorded id = true → db'.recorded id = true

theorem countable_mono {log : List FillNotice} {k : Nat} {db db' : Database}
    (h : ∀ id, db.recorded id = true → db'.recorded id = true) :
    countable log k db ≤ countable log k db' := by
  have := executedQuantity_filter_mono (p := fun n => db.recorded (noticeFillId n))
    (q := fun n => db'.recorded (noticeFillId n)) (fun n hn => h _ hn) (log.drop k)
  unfold countable
  omega

theorem CountsOnce.elsewhere {c number : String} {log : List FillNotice} {db db' : Database}
    (h : CountsOnce c number log db) (hs : Elsewhere c number db db') :
    CountsOnce c number log db' := by
  obtain ⟨o, ho, hid, hfills, k, hk, hmark, hle⟩ := h
  obtain ⟨o', ho', hq, -, hid'⟩ := hs.order o ho
  refine ⟨o', ho', ?_, ?_, k, hk, hmark.imp_right (hs.recorded _), ?_⟩
  · rcases hid' with hid' | hid'
    · rw [hid']; exact hid
    · exact .inr hid'
  · rw [hs.fills, hq]; exact hfills
  · have hmono : countable log k db ≤ countable log k db' := countable_mono hs.recorded
    omega

/-- A further execution at the broker. -/
theorem CountsOnce.execute {c number : String} {log : List FillNotice} {db : Database}
    (h : CountsOnce c number log db) (n : FillNotice) : CountsOnce c number (log ++ [n]) db := by
  obtain ⟨o, ho, hid, hfills, k, hk, hmark, hle⟩ := h
  refine ⟨o, ho, hid, hfills, k, by simp; omega, ?_, ?_⟩
  · rw [List.take_append_of_le_length hk]; exact hmark
  · unfold countable at hle ⊢
    rw [List.take_append_of_le_length hk, List.drop_append_of_le_length hk, List.filter_append,
      executedQuantity_append]
    omega

/-! ### Calls that leave the order alone -/

/-- The row and the fills of the order are the same, and recorded fills stay. -/
structure Apart (c : String) (db db' : Database) : Prop where
  row : db'.brokerOrders.find? c = db.brokerOrders.find? c
  fills : db'.fillsOf c = db.fillsOf c
  recorded : ∀ id, db.recorded id = true → db'.recorded id = true

theorem Apart.refl (c : String) (db : Database) : Apart c db db := ⟨rfl, rfl, fun _ h => h⟩

theorem Apart.trans {c : String} {db db' db'' : Database} (h : Apart c db db')
    (h' : Apart c db' db'') : Apart c db db'' where
  row := h'.row.trans h.row
  fills := h'.fills.trans h.fills
  recorded := fun id hid => h'.recorded id (h.recorded id hid)

theorem Apart.elsewhere {c : String} {db db' : Database} (h : Apart c db db') (number : String) :
    Elsewhere c number db db' where
  order := fun o ho => ⟨o, by rw [h.row]; exact ho, rfl, rfl, .inl rfl⟩
  fills := h.fills
  recorded := h.recorded

theorem Apart.sameLedger {c : String} {db db' : Database} (h : SameLedger db db') :
    Apart c db db' := by
  refine ⟨by rw [h.orders], ?_, ?_⟩
  · unfold Database.fillsOf; rw [h.fills]
  · unfold Database.recorded; rw [h.fills]; exact fun _ hid => hid

/-- A call that is not for the order and adds no fill. -/
theorem Apart.of_fills {c : String} {db db' : Database}
    (hrow : db'.brokerOrders.find? c = db.brokerOrders.find? c)
    (hfills : db'.brokerFills = db.brokerFills) : Apart c db db' := by
  refine ⟨hrow, ?_, ?_⟩
  · unfold Database.fillsOf; rw [hfills]
  · unfold Database.recorded; rw [hfills]; exact fun _ hid => hid

theorem Apart.status {c id : String} (hid : c ≠ id) (now : DateTime) (u : StatusUpdate)
    (db : Database) : Apart c db ((Op.updateBrokerOrderStatus now id u).exec db) :=
  .of_fills ((OnlyOrder.status now id u db).others c hid) (Op.exec_fills (by simp) db)

theorem Apart.materialize (c : String) (now : DateTime) (a : MaterializeArgs) (db : Database) :
    Apart c db ((Op.materializeOrderFills now a).exec db) := by
  refine .of_fills ?_ (Op.exec_fills (by simp) db)
  rcases materializeOrderFills_cases now a db with ⟨e, hr⟩ | ⟨checked, order, n, db', -, -, hloop, hr⟩
  · simp only [Op.exec, Op.call, Op.run, hr]
  · simp only [Op.exec, Op.call, Op.run, hr]
    rw [(booked_of_loop _ hloop).1.frame.1]

theorem Database.recorded_append {db db' : Database} {f : BrokerFill}
    (h : db'.brokerFills.rows = db.brokerFills.rows ++ [f]) (id : String) :
    db'.recorded id = (db.recorded id || decide (f.fillId = id)) := by
  unfold Database.recorded
  rw [Table.find?_append h, Option.isSome_or]
  by_cases hid : f.fillId = id <;> simp [hid]

theorem Apart.fill {c : String} {a : FillArgs} (hid : c ≠ a.clientOrderId) (now : DateTime)
    (db : Database) : Apart c db ((Op.applyBrokerFill now a).exec db) := by
  have hothers := (OnlyOrder.fill now a db).others c hid
  rcases applyBrokerFill_cases now a db with ⟨e, hr⟩ | ⟨-, hr⟩ | ⟨checked, order, -, -, hfree, -, hr⟩
  · simp only [Op.exec, Op.call, Op.run, hr]; exact .refl c db
  · simp only [Op.exec, Op.call, Op.run, hr]; exact .refl c db
  · have hrows := (Table.insertOrIgnore_of_free (r := fillRow now a checked order) hfree).2
    refine ⟨hothers, ?_, ?_⟩
    · simp only [Op.exec, Op.call, Op.run, hr]
      rw [fillsOf_append db _ hrows, if_neg (by exact fun h => hid h.symm), List.append_nil]
    · intro id hrec
      simp only [Op.exec, Op.call, Op.run, hr]
      rw [Database.recorded_append hrows, hrec, Bool.true_or]

/-! ### A polled quantity -/

/-- The header of the order carries a polled quantity, or the fill of that quantity
    is recorded and the header is not beyond it. -/
def Polled (c : String) (log : List FillNotice) (record : OrderRecord) (db : Database) : Prop :=
  ∃ cur, db.brokerOrders.find? c = some cur ∧
    ((cur.filledQty : Int) = record.filledQuantity ∨
      ((cur.filledQty : Int) ≤ record.filledQuantity ∧
        ∃ k ≤ log.length, record.filledQuantity = executedQuantity (log.take k) ∧
          db.recorded (reconcileFillId c record.filledQuantity) = true))

/-- Copying a polled quantity into the header. -/
theorem CountsOnce.status {c number : String} {log : List FillNotice} {db : Database}
    (h : CountsOnce c number log db) {record : OrderRecord} (hnumber : record.orderNumber = number)
    (hpolled : Polled c log record db) (now : DateTime) (status : OrderStatus)
    (completedAt : Option DateTime) :
    CountsOnce c number log
      ((Op.updateBrokerOrderStatus now c (recordUpdate now status record completedAt)).exec db) := by
  rcases updateBrokerOrderStatus_cases now c (recordUpdate now status record completedAt) db with
    ⟨e, hr⟩ | ⟨checked, -, -, hr⟩ | ⟨o, checked, hc, ho, -, hr⟩
  · simpa only [Op.exec, Op.call, Op.run, hr] using h
  · simpa only [Op.exec, Op.call, Op.run, hr] using h
  · obtain ⟨o', ho', -, hfills, k, hk, hmark, hle⟩ := h
    obtain ⟨cur, hcur, hquantity⟩ := hpolled
    rw [ho, Option.some.injEq] at ho' hcur
    subst ho' hcur
    obtain ⟨hq, hpos, -⟩ := checkUpdate_ok hc
    have hq0 := hpos record.filledQuantity rfl
    simp only [Op.exec, Op.call, Op.run, hr]
    have hnew : (updatedHeader now (recordUpdate now status record completedAt) checked o).filledQty =
        record.filledQuantity.toNat := by
      simp only [updatedHeader, hq, recordUpdate, Option.map_some, Option.getD_some]
    have hgrown : o.filledQty ≤ record.filledQuantity.toNat := by
      rcases hquantity with hsame | ⟨hle', -⟩
      · omega
      · omega
    refine ⟨_, by rw [Table.find?_update_self, ho, Option.map_some], .inr ?_, ?_, ?_⟩
    · simp [updatedHeader, recordUpdate, hnumber]
    · rw [hnew]
      exact hfills.trans hgrown
    · rw [hnew]
      rcases hquantity with hsame | ⟨-, j, hj, hprefix, hrec⟩
      · refine ⟨k, hk, hmark, ?_⟩
        change _ ≤ countable log k db
        omega
      · refine ⟨j, hj, .inr ?_, ?_⟩
        · rw [← hprefix]; exact hrec
        · unfold countable; omega

/-- A new fill of the order, when the larger header is still countable. -/
theorem CountsOnce.fill {c number : String} {log : List FillNotice} {db db' : Database}
    (h : CountsOnce c number log db) {now : DateTime} {a : FillArgs} {checked : CheckedFill}
    {order : BrokerOrder} (hid : a.clientOrderId = c) (hnumber : a.brokerOrderId = some number)
    (horder : db.brokerOrders.find? a.clientOrderId = some order)
    (hfree : db.brokerFills.find? a.fillId = none)
    (hdb' : db' = { db with
      brokerFills := (db.brokerFills.insertOrIgnore (fillRow now a checked order)).1
      brokerOrders := db.brokerOrders.update a.clientOrderId
        (rollFill (fillRow now a checked order)) (rollFill_clientOrderId _) })
    (hcount : ∃ k ≤ log.length,
      (k = 0 ∨ db'.recorded (reconcileFillId c (executedQuantity (log.take k)))) ∧
      order.filledQty + checked.quantity.val ≤ countable log k db') :
    CountsOnce c number log db' := by
  have hrows := (Table.insertOrIgnore_of_free (r := fillRow now a checked order) hfree).2
  obtain ⟨o, ho, hbroker, hfills, -⟩ := h
  rw [hid, ho, Option.some.injEq] at horder
  subst horder
  refine ⟨rollFill (fillRow now a checked o) o, ?_, ?_, ?_, hcount⟩
  · rw [hdb', hid]
    simp only [Table.find?_update_self, ho, Option.map_some]
  · have heffective : effectiveBrokerId a o = some number ∨ effectiveBrokerId a o = o.brokerOrderId := by
      unfold effectiveBrokerId
      split
      · exact .inl hnumber
      · exact .inr rfl
    rcases hbroker with hnone | hsome
    · rcases heffective with h | h
      · right; simp [rollFill, fillRow, hnone, h]
      · left; simp [rollFill, fillRow, hnone, h]
    · right; simp [rollFill, hsome]
  · have happend : db'.fillsOf c = db.fillsOf c ++ [fillRow now a checked o] := by
      rw [fillsOf_append db db' (by rw [hdb']; exact hrows), if_pos (by exact hid)]
    rw [happend, fillQuantity_append]
    simp only [fillQuantity, List.map_cons, List.map_nil, List.sum_cons, List.sum_nil, rollFill] at hfills ⊢
    omega

/-! ### A pass on truthful records -/

section Pass

variable (broker : BrokerReplies) (now : DateTime) {c number : String} {log : List FillNotice}

/-- What handling the row `o` keeps: the count, and the row of the order when `o`
    is another one. -/
def KeepsCount (c number : String) (log : List FillNotice) (o : BrokerOrder) (db db' : Database) :
    Prop :=
  CountsOnce c number log db' ∧
  (o.clientOrderId ≠ c → db'.brokerOrders.find? c = db.brokerOrders.find? c)

theorem KeepsCount.of_apart {o : BrokerOrder} {db db' : Database} (h : CountsOnce c number log db)
    (hs : Apart c db db') : KeepsCount c number log o db db' :=
  ⟨h.elsewhere (hs.elsewhere number), fun _ => hs.row⟩

theorem KeepsCount.trans {o : BrokerOrder} {db db' db'' : Database}
    (h : KeepsCount c number log o db db') (h' : KeepsCount c number log o db' db'') :
    KeepsCount c number log o db db'' :=
  ⟨h'.1, fun hne => (h'.2 hne).trans (h.2 hne)⟩

theorem materializeLocalFills_apart (c : String) (o : BrokerOrder) (db : Database) :
    Raising.Ends (dbHandler broker) (materializeLocalFills now o) (fun _ => Apart c db)
      (fun _ => Apart c db) db := by
  have hcall : ∀ a, Raising.Ends (dbHandler broker) (execute (.materializeOrderFills now a))
      (fun _ => Apart c db) (fun _ => Apart c db) db := by
    intro a
    have hapart := Apart.materialize c now a db
    exact ends_execute_exec broker db (fun _ _ => hapart) fun _ _ => hapart
  unfold materializeLocalFills
  split
  · apply ends_select
    split
    · exact Apart.refl c db
    · exact hcall _
  · exact hcall _

theorem settleOrder_counts {db : Database} (h : CountsOnce c number log db) (o : BrokerOrder)
    (record : OrderRecord) (acc : PassState)
    (hrecord : o.clientOrderId = c → record.orderNumber = number ∧ Polled c log record db) :
    Raising.Ends (dbHandler broker) (settleOrder now o record acc)
      (fun _ => KeepsCount c number log o db) (fun _ => KeepsCount c number log o db) db := by
  unfold settleOrder
  split
  · exact .of_apart h (.refl c db)
  · rename_i status _
    let u := recordUpdate now (keptPending o.status status) record
      (if (keptPending o.status status).terminal then some now else none)
    have hupdate : KeepsCount c number log o db
        ((Op.updateBrokerOrderStatus now o.clientOrderId u).exec db) := by
      by_cases hoc : o.clientOrderId = c
      · obtain ⟨hnumber, hpolled⟩ := hrecord hoc
        rw [hoc]
        exact ⟨h.status hnumber hpolled now _ _, fun hne => absurd hoc hne⟩
      · exact .of_apart h (.status (Ne.symm hoc) now u db)
    apply Raising.Ends.bind
    refine ends_execute_exec broker db ?_ fun _ _ => hupdate
    intro flag _
    apply Raising.Ends.bind
    apply Raising.Ends.attempt
    refine Raising.Ends.mono (materializeLocalFills_apart broker now c o _) ?_ ?_
    · intro n db₂ hapart
      exact hupdate.trans (.of_apart hupdate.1 hapart)
    · intro e db₂ hapart
      exact hupdate.trans (.of_apart hupdate.1 hapart)

/-- Booking the difference to a truthful record. -/
theorem bookDifference_counts {db : Database} (h : CountsOnce c number log db) (o : BrokerOrder)
    (record : OrderRecord) (acc : PassState)
    (ho : o.clientOrderId = c → db.brokerOrders.find? c = some o)
    (hgrown : (o.filledQty : Int) ≤ record.filledQuantity)
    (hrecord : o.clientOrderId = c → record.orderNumber = number ∧
      ∃ k ≤ log.length, record.filledQuantity = executedQuantity (log.take k)) :
    Raising.Ends (dbHandler broker) (bookDifference now o record acc)
      (fun _ => KeepsCount c number log o db) (fun _ => KeepsCount c number log o db) db := by
  unfold bookDifference
  dsimp only
  split
  · rename_i hzero
    apply settleOrder_counts broker now h
    intro hoc
    exact ⟨(hrecord hoc).1, o, ho hoc, .inl (by omega)⟩
  · apply Raising.Ends.bind
    refine .of_eval (eval_reraise broker db _) ?_
    cases hprice : incrementalFillPrice o record (record.filledQuantity - o.filledQty) with
    | error e => exact .of_apart h (.refl c db)
    | ok price =>
      let a := reconcileFillArgs now o record (record.filledQuantity - o.filledQty) price
      apply Raising.Ends.bind
      apply Raising.Ends.attempt
      -- the rest of the iteration runs on a count that is kept and a quantity that is polled
      have hsettle : ∀ (db₁ : Database) (acc₁ : PassState), KeepsCount c number log o db db₁ →
          (o.clientOrderId = c → Polled c log record db₁) →
          Raising.Ends (dbHandler broker) (settleOrder now o record acc₁)
            (fun _ => KeepsCount c number log o db) (fun _ => KeepsCount c number log o db) db₁ := by
        intro db₁ acc₁ hkept hpolled
        refine Raising.Ends.mono (settleOrder_counts broker now hkept.1 o record acc₁
          fun hoc => ⟨(hrecord hoc).1, hpolled hoc⟩) ?_ ?_
        · exact fun _ _ h' => hkept.trans h'
        · exact fun _ _ h' => hkept.trans h'
      rcases applyBrokerFill_cases now a db with
        ⟨e, hr⟩ | ⟨⟨f, hf⟩, hr⟩ | ⟨checked, order, hc, horder, hfree, hfit, hr⟩
      · refine .of_eval (eval_execute broker db _ |>.trans hr) ?_
        exact .of_apart h (.refl c db)
      · refine .of_eval (eval_execute broker db _ |>.trans hr) ?_
        refine hsettle db _ (.of_apart h (.refl c db)) ?_
        intro hoc
        obtain ⟨k, hk, hprefix⟩ := (hrecord hoc).2
        refine ⟨o, ho hoc, .inr ⟨hgrown, k, hk, hprefix, ?_⟩⟩
        rw [← hoc, Database.recorded]
        exact Option.isSome_iff_exists.mpr ⟨f, hf⟩
      · refine .of_eval (eval_execute broker db _ |>.trans hr) ?_
        by_cases hoc : o.clientOrderId = c
        · have horder' : some o = some order := (ho hoc).symm.trans (hoc ▸ horder)
          cases horder'
          have hq := checkFill_quantity (a := a) rfl hc
          have hrows := (Table.insertOrIgnore_of_free (r := fillRow now a checked o) hfree).2
          obtain ⟨hnumber, k, hk, hprefix⟩ := hrecord hoc
          have hmark : ({ db with
              brokerFills := (db.brokerFills.insertOrIgnore (fillRow now a checked o)).1
              brokerOrders := db.brokerOrders.update a.clientOrderId
                (rollFill (fillRow now a checked o)) (rollFill_clientOrderId _) } : Database).recorded
              (reconcileFillId c record.filledQuantity) = true := by
            rw [Database.recorded_append hrows, ← hoc]
            simp [fillRow, a, reconcileFillArgs]
          refine hsettle _ _ ⟨?_, fun hne => absurd hoc hne⟩ ?_
          · refine h.fill hoc ?_ horder hfree rfl ⟨k, hk, .inr ?_, ?_⟩
            · simp [a, reconcileFillArgs, hnumber]
            · rw [← hprefix]; exact hmark
            · unfold countable; omega
          · intro _
            refine ⟨rollFill (fillRow now a checked o) o, ?_, .inl ?_⟩
            · have hself := Table.find?_update_self db.brokerOrders a.clientOrderId
                (rollFill (fillRow now a checked o)) (rollFill_clientOrderId _)
              rw [horder, Option.map_some] at hself
              rw [← hoc]
              exact hself
            · simp only [rollFill, fillRow]
              omega
        · have hapart := Apart.fill (c := c) (a := a) (Ne.symm hoc) now db
          simp only [Op.exec, Op.call, Op.run, hr] at hapart
          exact hsettle _ _ (.of_apart h hapart) fun h' => absurd h' hoc

theorem reconcileOrder_counts {db : Database} (h : CountsOnce c number log db)
    (orders : List OrderRecord)
    (htruth : ∀ record ∈ orders, record.orderNumber = number → TruthfulRecord log record)
    (o : BrokerOrder) (acc : PassState)
    (ho : o.clientOrderId = c → db.brokerOrders.find? c = some o) :
    Raising.Ends (dbHandler broker) (reconcileOrder now orders acc o)
      (fun _ => KeepsCount c number log o db) (fun _ => KeepsCount c number log o db) db := by
  have hnothing : KeepsCount c number log o db db := .of_apart h (.refl c db)
  unfold reconcileOrder
  dsimp only
  generalize (if o.status = .unknown then acc.addReason ("local_unknown:" ++ o.clientOrderId)
    else acc) = acc₀
  split
  · exact hnothing
  · rename_i hnamed
    split
    · exact hnothing
    · rename_i record hrecord
      obtain ⟨hmem, hnumber⟩ := byBrokerId_some hrecord
      split
      · exact hnothing
      · split
        · exact hnothing
        · rename_i hregression
          split
          · exact hnothing
          · refine bookDifference_counts broker now h o record _ ho (by omega) ?_
            intro hoc
            -- the row of the order carries its number, so the record is about it
            obtain ⟨o', ho', hid, -⟩ := h
            rw [ho hoc, Option.some.injEq] at ho'
            subst ho'
            have hsome := brokerOrderId_of_brokerIdText hnamed
            have hrecordNumber : record.orderNumber = number := by
              rcases hid with hid | hid
              · rw [hid] at hsome; cases hsome
              · rw [hnumber]
                exact Option.some.inj (hsome.symm.trans hid)
            obtain ⟨k, hk, hprefix, -⟩ := htruth record hmem hrecordNumber
            exact ⟨hrecordNumber, k, hk, hprefix⟩

theorem CountsOnce.pass {db : Database} (h : CountsOnce c number log db)
    (orders : Except ReadError (List OrderRecord))
    (htruth : ∀ records, orders = .ok records → ∀ record ∈ records, record.orderNumber = number →
      TruthfulRecord log record)
    (account : Except ReadError (List AccountPosition)) :
    CountsOnce c number log
      (Raising.eval (dbHandler broker) (reconcileBrokerState now orders account) db).2 := by
  have hfinish : ∀ {db : Database} (acc : PassState), CountsOnce c number log db →
      Raising.Ends (dbHandler broker) (finishPass now acc) (fun _ => CountsOnce c number log)
        (fun _ => CountsOnce c number log) db := by
    intro db acc hdb
    refine Raising.Ends.mono (finishPass_ends broker now db acc) ?_ ?_
    · exact fun _ _ h' => hdb.elsewhere ((Apart.sameLedger h'.1).elsewhere number)
    · exact fun _ _ h' => h'.elim
  apply Raising.Ends.store
  unfold reconcileBrokerState
  cases orders with
  | error e => exact hfinish _ h
  | ok orders =>
    apply ends_selectOrders
    apply Raising.Ends.bind
    have hloop := Raising.Ends.foldlM (h := dbHandler broker) (f := reconcileOrder now orders)
      (E := fun _ => CountsOnce c number log) (I := fun rest _ db' =>
        CountsOnce c number log db' ∧ (rest.map (·.clientOrderId)).Nodup ∧
        ∀ o ∈ rest, o.clientOrderId = c → db'.brokerOrders.find? c = some o) ?_ (reconciledRows db)
      (a := PassState.empty) (s := db) ?_
    · refine Raising.Ends.mono hloop ?_ fun _ _ he => he
      intro acc db' h'
      cases account with
      | error e => exact hfinish _ h'.1
      | ok account => exact ends_select broker db' (hfinish _ h'.1)
    · rintro x rest acc db' ⟨hdb', hnodup, hpending⟩
      rw [List.map_cons, List.nodup_cons] at hnodup
      refine Raising.Ends.mono (reconcileOrder_counts broker now hdb' orders (htruth orders rfl) x acc
        (hpending x List.mem_cons_self)) ?_ fun _ _ he => he.1
      intro acc' db'' hkept
      refine ⟨hkept.1, hnodup.2, ?_⟩
      intro o ho hoc
      have hxc : x.clientOrderId ≠ c := by
        intro hxc
        exact hnodup.1 (List.mem_map.mpr ⟨o, ho, hoc.trans hxc.symm⟩)
      rw [hkept.2 hxc]
      exact hpending o (List.mem_cons_of_mem _ ho) hoc
    · refine ⟨h, reconciledRows_nodup db, ?_⟩
      rintro o ho rfl
      exact db.brokerOrders.find?_of_mem (mem_reconciledRows.mp ho).1

end Pass

/-! ### The delivery of a notice -/

/-- Delivering the notice of execution `i` counts it again: the notice is new and
    still fits into the order, and a pass has booked a cumulative quantity that
    covers the execution. -/
def CountedAgain (c : String) (log : List FillNotice) (i : Nat) (n : FillNotice) (db : Database) :
    Prop :=
  db.recorded (noticeFillId n) = false ∧
  (∃ o, db.brokerOrders.find? c = some o ∧ o.filledQty + n.quantity ≤ o.requestedQty) ∧
  ∃ m : Int, executedQuantity (log.take (i + 1)) ≤ m ∧ db.recorded (reconcileFillId c m) = true

section Notice

variable (broker : BrokerReplies) {c number : String} {log : List FillNotice} {i : Nat}
  {n : FillNotice}

theorem blockNotice_ends (now : DateTime) (reason : String) (id fillId : Option String)
    (db : Database) :
    Raising.Ends (dbHandler broker) (blockNotice now reason id fillId) (fun _ => SameLedger db)
      (fun _ => SameLedger db) db := by
  unfold blockNotice
  apply Raising.Ends.bind
  refine Raising.Ends.mono (setFlag_ends broker now db (by decide) _) ?_ fun _ _ he => he.elim
  intro _ db₁ h₁
  apply Raising.Ends.bind
  refine Raising.Ends.mono (setFlag_ends broker now db₁ (by decide) _) ?_ fun _ _ he => he.elim
  intro _ db₂ h₂
  apply Raising.Ends.bind
  refine Raising.Ends.mono (setFlag_ends broker now db₂ (by decide) _) ?_ fun _ _ he => he.elim
  intro _ db₃ h₃
  exact (h₁.trans h₂).trans h₃

theorem CountsOnce.block {db : Database} (h : CountsOnce c number log db) (now : DateTime)
    (reason : String) (id fillId : Option String) :
    Raising.Ends (dbHandler broker) (blockNotice now reason id fillId)
      (fun _ => CountsOnce c number log) (fun _ => CountsOnce c number log) db := by
  refine Raising.Ends.mono (blockNotice_ends broker now reason id fillId db) ?_ ?_
  · exact fun _ _ hs => h.elsewhere ((Apart.sameLedger hs).elsewhere number)
  · exact fun _ _ hs => h.elsewhere ((Apart.sameLedger hs).elsewhere number)

theorem CountsOnce.materialize {db : Database} (h : CountsOnce c number log db) (now : DateTime)
    (a : MaterializeArgs) :
    CountsOnce c number log ((Op.materializeOrderFills now a).exec db) :=
  h.elsewhere ((Apart.materialize c now a db).elsewhere number)

/-- The fill of a new notice, when the delivery does not count its execution again. -/
theorem CountsOnce.noticeFill {db : Database} (h : CountsOnce c number log db)
    (hi : log[i]? = some n)
    (honce : ¬ CountedAgain c log i n db) (now : DateTime) (side : Side) (id : String)
    (filledAt received : DateTime) :
    CountsOnce c number log ((Op.applyBrokerFill now
      (noticeFillArgs n side id number filledAt received)).exec db) := by
  let a := noticeFillArgs n side id number filledAt received
  change CountsOnce c number log ((Op.applyBrokerFill now a).exec db)
  have hapart : id ≠ c → Apart c db ((Op.applyBrokerFill now a).exec db) :=
    fun hne => Apart.fill (a := a) (Ne.symm hne) now db
  rcases applyBrokerFill_cases now a db with
    ⟨e, hr⟩ | ⟨-, hr⟩ | ⟨checked, order, hc, horder, hfree, hfit, hr⟩
  · simpa only [Op.exec, Op.call, Op.run, a, hr] using h
  · simpa only [Op.exec, Op.call, Op.run, a, hr] using h
  · by_cases hid : id = c
    swap
    · exact h.elsewhere ((hapart hid).elsewhere number)
    have hrows := (Table.insertOrIgnore_of_free (r := fillRow now a checked order) hfree).2
    have hq := checkFill_quantity (a := a) rfl hc
    have hquantity : checked.quantity.val = n.quantity := by
      unfold FillNotice.quantity; omega
    have hnew : db.recorded (noticeFillId n) = false := by
      unfold Database.recorded
      rw [Option.isSome_eq_false_iff]
      exact Option.isNone_iff_eq_none.mpr hfree
    have hcounts := h
    obtain ⟨o, ho, -, -, k, hk, hmark, hle⟩ := hcounts
    obtain rfl : order = o := by
      rw [← hid] at ho
      exact Option.some.inj (horder.symm.trans ho)
    -- no pass has covered the execution, so it lies beyond the polled prefix
    have hki : k ≤ i := by
      by_contra hlt
      rcases hmark with rfl | hmark
      · omega
      · apply honce
        have hprefix := executedQuantity_take_le log (i := i + 1) (k := k) (by omega)
        refine ⟨hnew, ⟨order, ho, ?_⟩, _, ?_, hmark⟩
        · rw [← hquantity]; exact hfit
        · exact_mod_cast hprefix
    have hmem : n ∈ log.drop k := by
      apply List.mem_of_getElem? (i := i - k)
      rw [List.getElem?_drop, ← hi]
      congr 1
      omega
    have hrun : (Op.applyBrokerFill now a).exec db = _ := congrArg Prod.snd hr
    have hrec : ∀ m, ((Op.applyBrokerFill now a).exec db).recorded m =
        (db.recorded m || decide (noticeFillId n = m)) := by
      intro m
      rw [hrun]
      refine Database.recorded_append (f := fillRow now a checked order) ?_ m
      exact hrows
    refine h.fill hid rfl horder hfree hrun ⟨k, hk, ?_, ?_⟩
    · refine hmark.imp_right fun hm => ?_
      rw [hrec, hm, Bool.true_or]
    · have hgrow := executedQuantity_filter_add (p := fun m => db.recorded (noticeFillId m))
        (q := fun m => db.recorded (noticeFillId m) || decide (noticeFillId n = noticeFillId m))
        (fun m hm => by simp [hm]) hnew (by simp) hmem
      unfold countable at hle ⊢
      simp only [hrec]
      omega

/-- Reading the risk terms changes nothing. -/
theorem ends_riskFor {β : Type} {side : Side} {o : BrokerOrder} {db : Database}
    {f : Option EntryRisk → Pipeline β} {Q : β → Database → Prop} {E : Exn → Database → Prop}
    (hf : ∀ risk, Raising.Ends (dbHandler broker) (f risk) Q E db) :
    Raising.Ends (dbHandler broker) (riskFor side o >>= f) Q E db := by
  unfold riskFor
  split
  · unfold entryRisk
    split
    · exact ends_select broker db (hf _)
    · exact hf none
  · exact hf none

theorem applyExecution_counts {db : Database} (h : CountsOnce c number log db)
    (hi : log[i]? = some n) (honce : ¬ CountedAgain c log i n db)
    (now received : DateTime) (side : Side) (filledAt : DateTime) (o : BrokerOrder) :
    Raising.Ends (dbHandler broker) (applyExecution now received n side number filledAt o)
      (fun _ => CountsOnce c number log) (fun _ => CountsOnce c number log) db := by
  have hmaterialize : ∀ {db : Database} (a : MaterializeArgs), CountsOnce c number log db →
      Raising.Ends (dbHandler broker) (execute (.materializeOrderFills now a))
        (fun _ => CountsOnce c number log) (fun _ => CountsOnce c number log) db := by
    intro db a hdb
    exact ends_execute_exec broker db (fun _ _ => hdb.materialize now a)
      fun _ _ => hdb.materialize now a
  unfold applyExecution
  apply ends_select
  split
  · apply Raising.Ends.bind
    unfold materializeIfNeeded
    apply ends_select
    split
    · exact h
    · apply ends_riskFor
      intro risk
      split
      · exact h.block broker received _ _ _
      · apply Raising.Ends.bind
        apply Raising.Ends.attempt
        refine Raising.Ends.mono (hmaterialize _ h) ?_ ?_
        · exact fun _ _ h' => h'
        · exact fun _ _ h' => h'.block broker received _ _ _
  · split
    · exact h.block broker received _ _ _
    · split
      · exact h.block broker received _ _ _
      · split
        · exact h.block broker received _ _ _
        · apply ends_riskFor
          intro risk
          split
          · exact h.block broker received _ _ _
          · apply Raising.Ends.bind
            apply Raising.Ends.attempt
            have hfill := h.noticeFill hi honce now side o.clientOrderId filledAt received
            refine Raising.Ends.mono (Q := fun _ => CountsOnce c number log)
              (E := fun _ => CountsOnce c number log) ?_ ?_ ?_
            · unfold bookNotice
              apply Raising.Ends.bind
              refine ends_execute_exec broker db ?_ fun _ _ => hfill
              intro inserted _
              split
              · exact hfill
              · exact Raising.Ends.bind (Raising.Ends.mono (hmaterialize _ hfill)
                  (fun _ _ h' => h') fun _ _ he => he)
            · exact fun _ _ h' => h'
            · exact fun _ _ h' => h'.block broker received _ _ _

theorem CountsOnce.deliver {db : Database} (h : CountsOnce c number log db)
    (hn : ExecutionOf number n) (hi : log[i]? = some n) (honce : ¬ CountedAgain c log i n db)
    (now : DateTime) (tradingDate : Option Int) (received : Option DateTime) :
    CountsOnce c number log
      (Raising.eval (dbHandler broker) (applyFillNotice now n tradingDate received) db).2 := by
  apply Raising.Ends.store
  unfold applyFillNotice
  apply Raising.Ends.bind
  refine .of_eval (eval_reraise broker db _) ?_
  cases filledAt n.fillTime tradingDate (receivedAt now received) with
  | error e => exact h
  | ok parsed =>
    cases parsed with
    | error reason => exact h.block broker _ _ _ _
    | ok filledAt =>
      cases hside : noticeSide n.side with
      | none =>
        exact h.block broker _ _ _ _
      | some side =>
        cases hpublic : publicIdentifier n.orderNo with
        | none =>
          exact h.block broker _ _ _ _
        | some orderNo =>
          -- the identifier that is looked up is the number of the notice
          obtain rfl : orderNo = number := by
            unfold publicIdentifier at hpublic
            split at hpublic
            · cases hpublic
            · split at hpublic
              · cases hpublic
              · rw [← hn.orderNo]; exact (Option.some.inj hpublic).symm
          apply ends_selectOrders
          split
          · exact h.block broker _ _ _ _
          · exact h.block broker _ _ _ _
          · split
            · exact h.block broker _ _ _ _
            · apply ends_select
              rw [hn.filled]
              exact applyExecution_counts broker h hi honce _ _ _ _ _

end Notice

/-! ### Runs of the two channels -/

/-- The runs of one order: the broker executes it, notices of its executions are
    delivered, passes poll truthful records, and other things happen elsewhere.
    Every delivery meets `condition`. -/
inductive ChannelRun (condition : List FillNotice → Nat → FillNotice → Database → Prop)
    (c number : String) : List FillNotice → Database → Prop
  | start {db : Database} {o : BrokerOrder} : db.brokerOrders.find? c = some o →
      (o.brokerOrderId = none ∨ o.brokerOrderId = some number) → o.filledQty = 0 →
      db.fillsOf c = [] → ChannelRun condition c number [] db
  | execute {log : List FillNotice} {db : Database} (n : FillNotice) :
      ChannelRun condition c number log db → ExecutionOf number n →
      ChannelRun condition c number (log ++ [n]) db
  | deliver {log : List FillNotice} {db : Database} (broker : BrokerReplies) (i : Nat)
      (n : FillNotice) (now : DateTime) (tradingDate : Option Int) (received : Option DateTime) :
      ChannelRun condition c number log db → log[i]? = some n → condition log i n db →
      ChannelRun condition c number log
        (Raising.eval (dbHandler broker) (applyFillNotice now n tradingDate received) db).2
  | poll {log : List FillNotice} {db : Database} (broker : BrokerReplies) (now : DateTime)
      (orders : Except ReadError (List OrderRecord))
      (account : Except ReadError (List AccountPosition)) :
      ChannelRun condition c number log db →
      (∀ records, orders = .ok records → ∀ record ∈ records, record.orderNumber = number →
        TruthfulRecord log record) →
      ChannelRun condition c number log
        (Raising.eval (dbHandler broker) (reconcileBrokerState now orders account) db).2
  | elsewhere {log : List FillNotice} {db db' : Database} :
      ChannelRun condition c number log db → Elsewhere c number db db' →
      ChannelRun condition c number log db'

theorem ChannelRun.executions {condition : List FillNotice → Nat → FillNotice → Database → Prop}
    {c number : String} {log : List FillNotice} {db : Database}
    (h : ChannelRun condition c number log db) : ∀ n ∈ log, ExecutionOf number n := by
  induction h with
  | start => intro n hn; cases hn
  | execute n _ hn ih =>
    intro m hm
    rcases List.mem_append.mp hm with hm | hm
    · exact ih m hm
    · rw [List.mem_singleton.mp hm]; exact hn
  | deliver _ _ _ _ _ _ _ _ _ ih => exact ih
  | poll _ _ _ _ _ _ ih => exact ih
  | elsewhere _ _ ih => exact ih

namespace LateNotice

def opening : DateTime := .combine 20000 9 0 0 (some DateTime.kstOffset)

def later : DateTime := .combine 20000 10 0 0 (some DateTime.kstOffset)

/-- An order of ten shares at the broker, with the decision it came from. -/
def submitted : Database :=
  { runOps [.claimOrderIntent opening ⟨"b1", some "d1", "005930", "BUY", .int 10, .int 100, none⟩,
      .recordOrderSubmission opening "b1" "K1" none] Database.empty with
    aiDecisionAudits := (Table.empty.insertOrIgnore
      ⟨"d1", "005930", "BUY", .fin (4 / 5), some (.fin 100), some (.fin 120), some (.fin 90), some 600⟩).1 }

/-- Three of them are executed. -/
def notice : FillNotice where
  kind := .filled
  orderNo := "K1"
  originalOrderNo := ""
  orderQty := 10
  side := "02"
  symbol := "005930"
  fillQty := 3
  fillPrice := 100
  fillTime := "090500"
  receiptType := "0"
  orderKind := "00"
  rejectFlag := "0"
  acceptedFlag := "2"
  orderPrice := 100
  exchangeId := "KRX"

def record : OrderRecord :=
  ⟨"K1", "005930", some .buy, 10, 3, 7, some (.fin 100), some (.fin 100), .partiallyFilled, none⟩

def broker : BrokerReplies := ⟨fun _ _ => .ok none, fun _ _ _ _ => .ok ()⟩

def delivered (db : Database) : Database :=
  (Raising.eval (dbHandler broker) (applyFillNotice later notice none (some later)) db).2

def polled (db : Database) : Database :=
  (Raising.eval (dbHandler broker)
    (reconcileBrokerState later (.ok [record]) (.ok [⟨"005930", 3⟩])) db).2

theorem record_truthful : TruthfulRecord [notice] record := by
  refine ⟨1, le_rfl, rfl, ?_⟩
  intro average haverage
  cases haverage
  decide +kernel

theorem submitted_run (condition : List FillNotice → Nat → FillNotice → Database → Prop) :
    ChannelRun condition "b1" "K1" [notice] submitted := by
  have hrow : (submitted.brokerOrders.find? "b1").map
      (fun o => (o.brokerOrderId, o.filledQty)) = some (some "K1", 0) := by decide +kernel
  obtain ⟨o, ho, hfields⟩ := Option.map_eq_some_iff.mp hrow
  rw [Prod.mk.injEq] at hfields
  have hstart : ChannelRun condition "b1" "K1" [] submitted :=
    .start ho (.inr hfields.1) hfields.2 (by decide +kernel)
  exact .execute notice hstart ⟨rfl, rfl, by decide⟩

end LateNotice

end AutoTrader
