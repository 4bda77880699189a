/-
  AutoTrader/Safety/CancelRequest.lean
  ====================================
  **What becomes of an operator's request to cancel the open BUYs.**

  `_cancel_requested_buys` lowers the request flag before it does the work.  It then
  gives up as a whole when the snapshot failed, and in the middle of its loop when
  the status update of an order raises; the orders it did not reach keep their
  status, nothing was sent for them, and nobody asks again.  A reconciliation that
  raises is harmless, since it stands before the flag is lowered.

  An order is open at the broker when its record says so, when there is no record
  of it and when there was no snapshot.
-/
import AutoTrader.Pipeline.Desk
import AutoTrader.Safety.ReconcileTotal

namespace AutoTrader

open Relational Transactional Interleave

/-! ### What a pass makes of a row -/

/-- What the passes read of an order is the same in both rows, but for its status. -/
structure SameTerms (o o' : BrokerOrder) : Prop where
  side : o'.side = o.side
  symbol : o'.symbol = o.symbol
  submittedAt : o'.submittedAt = o.submittedAt

/-- A pass leaves a row alone or copies the status of its record into it. -/
inductive RowAfter (now : DateTime) (orders : List OrderRecord) (o : BrokerOrder) : BrokerOrder → Prop
  | same : RowAfter now orders o o
  | copied {o' : BrokerOrder} (record : OrderRecord) (status : OrderStatus) :
      byBrokerId orders o.brokerIdText = some record →
      localStatusForBroker record.status = some status → priceRefused record = false →
      o'.status = keptPending o.status status → o'.brokerIdText = o.brokerIdText →
      o'.updatedAt = now → SameTerms o o' → RowAfter now orders o o'

theorem Op.exec_find?_of_untargeted {op : Op} (h : op.target = none) (db : Database) (k : String) :
    (op.exec db).brokerOrders.find? k = db.brokerOrders.find? k :=
  op.exec_others db (by rw [h]; exact fun heq => by cases heq)

theorem dbHandler_leavesOrders (broker : BrokerReplies) {o : Act} (ho : o.leavesOrders) (db : Database)
    (k : String) : (dbHandler broker o db).2.brokerOrders.find? k = db.brokerOrders.find? k := by
  cases o with
  | read query => rfl
  | tryRead query => rfl
  | selectOrders query => rfl
  | call op => exact Op.exec_find?_of_untargeted ho db k
  | submitOrder id request => rfl
  | cancelOrder id number branch quantity price => rfl

section Reconcile

variable (broker : BrokerReplies) (now : DateTime)

theorem ends_leavesOrders {α : Type} {p : Pipeline α} (hp : LeavesOrders p) {k : String}
    {row : Option BrokerOrder} {db : Database} (hdb : db.brokerOrders.find? k = row) :
    Raising.Ends (dbHandler broker) p (fun _ db' => db'.brokerOrders.find? k = row)
      (fun _ db' => db'.brokerOrders.find? k = row) db :=
  Raising.Ends.of_only (fun _ db ho hdb => (dbHandler_leavesOrders broker ho db k).trans hdb) hp hdb

/-- What settling does to the row `cur` that stands for `o`. -/
theorem settleOrder_row {orders : List OrderRecord} {o cur : BrokerOrder} {record : OrderRecord}
    (hrecord : byBrokerId orders o.brokerIdText = some record) (hparsed : Parsed record)
    (acc : PassState) {db : Database} (hcur : db.brokerOrders.find? o.clientOrderId = some cur)
    (hterms : SameTerms o cur)
    (hsame : cur = o ∨ (record.status ≠ .unknown ∧ record.filledQuantity ≤ cur.requestedQty)) :
    Raising.Ends (dbHandler broker) (settleOrder now o record acc)
      (fun _ db' => ∃ o', db'.brokerOrders.find? o.clientOrderId = some o' ∧ RowAfter now orders o o')
      (fun _ _ => True) db := by
  obtain ⟨hnumber, hfilled, -⟩ := hparsed.wellFormed
  unfold settleOrder
  split
  · rename_i hstatus
    have hunknown : record.status = .unknown := by
      cases hs : record.status <;> rw [hs] at hstatus <;> first | rfl | cases hstatus
    rcases hsame with rfl | ⟨hknown, -⟩
    · exact ⟨cur, hcur, .same⟩
    · exact absurd hunknown hknown
  · rename_i status hstatus
    apply Raising.Ends.bind
    refine ends_execute_exec broker db ?_ fun _ _ => trivial
    intro updated hupdated
    let u := recordUpdate now (keptPending o.status status) record
      (if (keptPending o.status status).terminal then some now else none)
    -- the update skips the row because of its quantity, or rewrites it
    have hrow : ∃ o', ((Op.updateBrokerOrderStatus now o.clientOrderId u).exec db).brokerOrders.find?
        o.clientOrderId = some o' ∧ RowAfter now orders o o' := by
      rcases updateBrokerOrderStatus_cases now o.clientOrderId u db with
        ⟨e, hr⟩ | ⟨c, hc, hno, hr⟩ | ⟨row, c, hc, hfind, -, hr⟩
      · simp only [Op.call, Op.run, u] at hr hupdated
        rw [hr] at hupdated
        cases hupdated
      · simp only [Op.exec, Op.call, Op.run, hr]
        refine ⟨cur, hcur, ?_⟩
        rcases hsame with rfl | ⟨-, hfit⟩
        · exact .same
        · have hskip := hno cur hcur
          simp only [withinRequested, (checkUpdate_ok hc).1, u, recordUpdate, Option.map_some,
            decide_eq_false_iff_not, not_le] at hskip
          omega
      · rw [hcur, Option.some.injEq] at hfind
        subst hfind
        have haccepted : priceRefused record = false := by
          rw [Bool.eq_false_iff]
          intro hrefused
          obtain ⟨e, he⟩ := (checkUpdate_recordUpdate now hnumber hfilled _ _).mpr hrefused
          rw [he] at hc
          cases hc
        simp only [Op.exec, Op.call, Op.run, hr, Table.find?_update_self, hcur, Option.map_some]
        exact ⟨_, rfl, .copied record status hrecord hstatus haccepted rfl
          (byBrokerId_some hrecord).2 rfl ⟨hterms.side, hterms.symbol, hterms.submittedAt⟩⟩
    obtain ⟨o', ho', hafter⟩ := hrow
    apply Raising.Ends.bind
    apply Raising.Ends.attempt
    refine Raising.Ends.mono
      (ends_leavesOrders broker (leavesOrders_materializeLocalFills now o) ho') ?_ ?_
    · exact fun n db' h' => ⟨o', h', hafter⟩
    · exact fun e db' h' => ⟨o', h', hafter⟩

theorem bookDifference_row {orders : List OrderRecord} {o : BrokerOrder} {record : OrderRecord}
    (hrecord : byBrokerId orders o.brokerIdText = some record)
    (hparsed : Parsed record) (hgrown : (o.filledQty : Int) ≤ record.filledQuantity) (acc : PassState)
    {db : Database} (ho : db.brokerOrders.find? o.clientOrderId = some o) :
    Raising.Ends (dbHandler broker) (bookDifference now o record acc)
      (fun _ db' => ∃ o', db'.brokerOrders.find? o.clientOrderId = some o' ∧ RowAfter now orders o o')
      (fun _ _ => True) db := by
  unfold bookDifference
  dsimp only
  split
  · exact settleOrder_row broker now hrecord hparsed acc ho ⟨rfl, rfl, rfl⟩ (.inl rfl)
  · rename_i hdelta
    apply Raising.Ends.bind
    refine .of_eval (eval_reraise broker db _) ?_
    cases hprice : incrementalFillPrice o record (record.filledQuantity - o.filledQty) with
    | error e => exact trivial
    | ok price =>
      apply Raising.Ends.bind
      apply Raising.Ends.attempt
      apply ends_execute
      let a := reconcileFillArgs now o record (record.filledQuantity - o.filledQty) price
      rcases applyBrokerFill_cases now a db with
        ⟨e, hr⟩ | ⟨-, hr⟩ | ⟨c, order, hc, horder, hfree, hfit, hr⟩
      · simp only [Op.call, Op.run, a] at hr ⊢
        rw [hr]
        exact ⟨o, ho, .same⟩
      · simp only [Op.call, Op.run, a] at hr ⊢
        rw [hr]
        exact settleOrder_row broker now hrecord hparsed _ ho ⟨rfl, rfl, rfl⟩ (.inl rfl)
      · have horder' : some o = some order := ho.symm.trans horder
        cases horder'
        have hq : (c.quantity.val : Int) = record.filledQuantity - o.filledQty :=
          checkFill_quantity rfl hc
        have hcur := Table.find?_update_self db.brokerOrders a.clientOrderId
          (rollFill (fillRow now a c o)) (rollFill_clientOrderId _)
        rw [horder, Option.map_some] at hcur
        have hknown : record.status ≠ .unknown := by
          intro hunknown
          have := hparsed.wellFormed.2.2 hunknown
          omega
        simp only [Op.call, Op.run, a] at hr ⊢
        rw [hr]
        refine settleOrder_row broker now hrecord hparsed _ hcur ⟨rfl, rfl, rfl⟩ (.inr ⟨hknown, ?_⟩)
        simp only [rollFill]
        omega

theorem reconcileOrder_row {orders : List OrderRecord} (hparsed : ∀ r ∈ orders, Parsed r)
    {o : BrokerOrder} (acc : PassState) {db : Database}
    (ho : db.brokerOrders.find? o.clientOrderId = some o) :
    Raising.Ends (dbHandler broker) (reconcileOrder now orders acc o)
      (fun _ db' => ∃ o', db'.brokerOrders.find? o.clientOrderId = some o' ∧ RowAfter now orders o o')
      (fun _ _ => True) db := by
  unfold reconcileOrder
  dsimp only
  split
  · exact ⟨o, ho, .same⟩
  split
  · exact ⟨o, ho, .same⟩
  · rename_i record hrecord
    split
    · exact ⟨o, ho, .same⟩
    split
    · exact ⟨o, ho, .same⟩
    · rename_i hgrown
      split
      · exact ⟨o, ho, .same⟩
      · exact bookDifference_row broker now hrecord
          (hparsed record (byBrokerId_some hrecord).1) (not_lt.mp hgrown) _ ho

/-- The rows after a pass: those it looked at, and the others. -/
structure RowsAfter (now : DateTime) (orders : List OrderRecord) (db db' : Database) : Prop where
  looked : ∀ o ∈ reconciledRows db, ∃ o', db'.brokerOrders.find? o.clientOrderId = some o' ∧
    RowAfter now orders o o'
  others : ∀ k, (∀ o ∈ reconciledRows db, o.clientOrderId ≠ k) →
    db'.brokerOrders.find? k = db.brokerOrders.find? k

theorem reconcileBrokerState_rows {db : Database} (hdb : ProgramLedger db) {orders : List OrderRecord}
    (hparsed : ∀ r ∈ orders, Parsed r) (account : Except ReadError (List AccountPosition)) :
    Raising.Ends (dbHandler broker) (reconcileBrokerState now (.ok orders) account)
      (fun _ => RowsAfter now orders db) (fun _ _ => True) db := by
  apply ends_selectOrders
  apply Raising.Ends.bind
  have hlasting : Lasting fun _ db o => ∃ o', db.brokerOrders.find? o.clientOrderId = some o' ∧
      RowAfter now orders o o' := by
    rintro o k matched P acc db acc' db' hk hx ⟨o', ho', hafter⟩
    exact ⟨o', by rw [hx.only.others _ hk]; exact ho', hafter⟩
  have hstep : ∀ x ∈ reconciledRows db, ∀ acc db,
      db.brokerOrders.find? x.clientOrderId = some x →
      Raising.Ends (dbHandler broker) (reconcileOrder now orders acc x)
        (fun acc' db' => Processed x.clientOrderId [x.brokerIdText] (Taken orders x) acc db acc' db' →
          ∃ o', db'.brokerOrders.find? x.clientOrderId = some o' ∧ RowAfter now orders x o')
        (fun _ _ => True) db := by
    intro x _ acc db' hfind
    exact Raising.Ends.mono (reconcileOrder_row broker now hparsed acc hfind) (fun _ _ h _ => h)
      fun _ _ _ => trivial
  refine Raising.Ends.mono (reconcileLoop_rule broker now hlasting (reconciledRows_nodup db) hstep
    hdb (fun o ho => db.brokerOrders.find?_of_mem (mem_reconciledRows.mp ho).1) _) ?_
    fun _ _ _ => trivial
  intro acc db₁ hloop
  have hrows : RowsAfter now orders db db₁ :=
    ⟨fun o ho => (hloop.done o ho).resolve_left (by simp), hloop.others⟩
  have hfinish : ∀ acc₁ : PassState, Raising.Ends (dbHandler broker) (finishPass now acc₁)
      (fun _ => RowsAfter now orders db) (fun _ _ => True) db₁ := by
    intro acc₁
    refine Raising.Ends.mono (finishPass_ends broker now db₁ acc₁) ?_ fun _ _ _ => trivial
    rintro report db' ⟨hs, -⟩
    exact ⟨by rw [hs.orders]; exact hrows.looked, by rw [hs.orders]; exact hrows.others⟩
  cases account with
  | error e => exact hfinish _
  | ok account =>
    apply ends_select
    exact hfinish _

end Reconcile

/-! ### Orders open at the broker -/

/-- The record says that the order is open. -/
def OrderRecord.isOpen (record : OrderRecord) : Bool :=
  record.status = .unfilled || record.status = .partiallyFilled

/-- The order is open at the broker, as far as the records go; without records every
    order may be. -/
def openAtBroker (orders : Option (List OrderRecord)) (o : BrokerOrder) : Prop :=
  ∀ records ∈ orders, ∀ record ∈ byBrokerId records o.brokerIdText, record.isOpen = true

/-- The status update before the cancellation of the order raises. -/
def cancelStuck (orders : List OrderRecord) (o : BrokerOrder) : Bool :=
  match byBrokerId orders o.brokerIdText with
  | none => false
  | some record => record.side = some .buy && record.isOpen && truthy record.orderBranch &&
      0 < record.remainingQuantity && priceRefused record

theorem mem_openBuyRows {db : Database} {o : BrokerOrder} :
    o ∈ openBuyRows db ↔ db.brokerOrders.find? o.clientOrderId = some o ∧ o.side = .buy ∧
      (o.status = .acknowledged ∨ o.status = .partiallyFilled) := by
  simp only [openBuyRows, mem_orderedBy, List.mem_filter, decide_eq_true_eq]
  constructor
  · rintro ⟨hmem, hrest⟩
    exact ⟨db.brokerOrders.find?_of_mem hmem, hrest⟩
  · rintro ⟨hfind, hrest⟩
    exact ⟨db.brokerOrders.mem_of_find? hfind, hrest⟩

theorem openBuyRows_nodup (db : Database) : ((openBuyRows db).map (·.clientOrderId)).Nodup :=
  orderedRows_nodup db _

theorem openBuy_reconciled {db : Database} {o : BrokerOrder} (h : o ∈ openBuyRows db) :
    o ∈ reconciledRows db := by
  obtain ⟨hfind, -, hstatus⟩ := mem_openBuyRows.mp h
  refine mem_reconciledRows.mpr ⟨db.brokerOrders.mem_of_find? hfind, .inl ?_⟩
  rcases hstatus with hstatus | hstatus <;> rw [hstatus] <;> rfl

/-- An order that is open before a pass and at the broker is open after it. -/
theorem RowsAfter.stillOpen {now : DateTime} {orders : List OrderRecord} {db db' : Database}
    (h : RowsAfter now orders db db') {o : BrokerOrder} (ho : o ∈ openBuyRows db)
    (hopen : openAtBroker (some orders) o) :
    ∃ o' ∈ openBuyRows db', o'.clientOrderId = o.clientOrderId ∧ o'.brokerIdText = o.brokerIdText := by
  obtain ⟨hfind, hside, hstatus⟩ := mem_openBuyRows.mp ho
  obtain ⟨o', ho', hafter⟩ := h.looked o (openBuy_reconciled ho)
  have hid : o'.clientOrderId = o.clientOrderId := db'.brokerOrders.key_of_find? ho'
  cases hafter with
  | same => exact ⟨o, mem_openBuyRows.mpr ⟨ho', hside, hstatus⟩, rfl, rfl⟩
  | copied record status hrecord hlocal _ hcopied htext _ hterms =>
    refine ⟨o', mem_openBuyRows.mpr ⟨by rw [hid]; exact ho', hterms.side.trans hside, ?_⟩, hid, htext⟩
    have hisOpen := hopen orders rfl record hrecord
    have hlive : o.status ≠ .cancelPending := by
      rcases hstatus with hstatus | hstatus <;> rw [hstatus] <;> decide
    rw [hcopied]
    unfold keptPending
    rw [if_neg fun hpending => hlive hpending.1]
    unfold OrderRecord.isOpen at hisOpen
    cases hs : record.status <;> rw [hs] at hisOpen hlocal <;> simp_all [localStatusForBroker]

/-- A stuck order after a pass was stuck before it. -/
theorem RowsAfter.wasStuck {now : DateTime} {orders : List OrderRecord} {db db' : Database}
    (h : RowsAfter now orders db db') {o' : BrokerOrder} (ho' : o' ∈ openBuyRows db')
    (hstuck : cancelStuck orders o' = true) : o' ∈ openBuyRows db := by
  obtain ⟨hfind', hside', hstatus'⟩ := mem_openBuyRows.mp ho'
  by_cases hlooked : ∃ o ∈ reconciledRows db, o.clientOrderId = o'.clientOrderId
  · obtain ⟨o, ho, hid⟩ := hlooked
    obtain ⟨o'', ho'', hafter⟩ := h.looked o ho
    rw [hid, hfind', Option.some.injEq] at ho''
    subst ho''
    cases hafter with
    | same =>
      exact mem_openBuyRows.mpr
        ⟨db.brokerOrders.find?_of_mem (mem_reconciledRows.mp ho).1, hside', hstatus'⟩
    | copied record status hrecord _ haccepted _ htext _ _ =>
      -- the pass copied the record, so its price is accepted
      rw [← htext] at hrecord
      simp [cancelStuck, hrecord, haccepted] at hstuck
  · rw [h.others _ fun o ho hid => hlooked ⟨o, ho, hid⟩] at hfind'
    exact mem_openBuyRows.mpr ⟨hfind', hside', hstatus'⟩

/-- A stuck order is left alone by a pass. -/
theorem RowsAfter.keepsStuck {now : DateTime} {orders : List OrderRecord} {db db' : Database}
    (h : RowsAfter now orders db db') {o : BrokerOrder} (ho : o ∈ openBuyRows db)
    (hstuck : cancelStuck orders o = true) : o ∈ openBuyRows db' := by
  obtain ⟨-, hside, hstatus⟩ := mem_openBuyRows.mp ho
  obtain ⟨o', ho', hafter⟩ := h.looked o (openBuy_reconciled ho)
  cases hafter with
  | same => exact mem_openBuyRows.mpr ⟨ho', hside, hstatus⟩
  | copied record status hrecord _ haccepted _ _ _ _ => simp [cancelStuck, hrecord, haccepted] at hstuck

/-! ### The cancel stage -/

/-- The request reached the order: a cancellation was sent for it, or its status says
    that one is pending or in doubt.  `text` is its broker id. -/
def Reached (id text : String) (d : Desk) : Prop :=
  id ∈ d.cancels ∨ ∃ o, d.order id = some o ∧ o.brokerIdText = text ∧
    (o.status = .cancelPending ∨ o.status = .unknown)

theorem Reached.frame {id text k : String} {d d' : Desk} (h : Reached id text d) (hk : id ≠ k)
    (honly : OnlyRow k d d') : Reached id text d' := by
  rcases h with hsent | ⟨o, ho, hrest⟩
  · exact .inl (honly.kept id hsent)
  · exact .inr ⟨o, by rw [honly.others id hk]; exact ho, hrest⟩

theorem Reached.noted {id text : String} {d d' : Desk} (h : Reached id text d) (hn : Noted d d') :
    Reached id text d' := by
  rcases h with hsent | ⟨o, ho, hrest⟩
  · exact .inl (by rw [hn.cancels]; exact hsent)
  · exact .inr ⟨o, by rw [hn.order]; exact ho, hrest⟩

section Stage

variable (answer : List String → Except Exn Unit) (now : DateTime)

theorem markRequestUnknown_ends {id error : String} (hid : Text.blank id = false)
    (herror : Text.blank error = false) {d : Desk} {o : BrokerOrder} (ho : d.order id = some o) :
    Raising.Ends (deskHandler answer) (markRequestUnknown now id error)
      (fun _ => Reached id o.brokerIdText) (fun _ _ => False) d := by
  apply Raising.Ends.bind
  refine Raising.Ends.mono (ends_desk_markOrderUnknown answer hid herror now _ ho) ?_ fun _ _ he => he
  rintro _ d₁ ⟨-, ho₁⟩
  refine Raising.Ends.mono (ends_desk_flagReview answer now d₁) ?_ fun _ _ he => he
  intro _ d₂ h₂
  exact Reached.noted (.inr ⟨_, ho₁, rfl, .inr rfl⟩) h₂

theorem noteSent_ends {key id : String} (hkey : Text.blank key = false) (value : MetadataValue)
    {α : Type} (a : α) {d : Desk} (hsent : id ∈ d.cancels) :
    Raising.Ends (deskHandler answer)
      (do execute (.setRuntimeMetadata now key value (some now)); pure a)
      (fun _ d' => id ∈ d'.cancels) (fun _ _ => False) d := by
  apply Raising.Ends.bind
  refine Raising.Ends.mono (ends_desk_setMetadata answer hkey now value _ d) ?_ fun _ _ he => he
  rintro _ d' ⟨hnoted, -⟩
  change id ∈ d'.cancels
  rw [hnoted.cancels]
  exact hsent

/-- Copying a record moves the row to the status, or leaves it. -/
theorem recordUpdate_row {status : OrderStatus} {record : OrderRecord} {id : String} {db : Database}
    {o : BrokerOrder} {updated : Bool} (ho : db.brokerOrders.find? id = some o)
    (hcall : ((Op.updateBrokerOrderStatus now id (recordUpdate now status record none)).call db).1 =
      .ok updated) :
    ∃ o', ((Op.updateBrokerOrderStatus now id (recordUpdate now status record none)).exec
        db).brokerOrders.find? id = some o' ∧
      (o' = o ∨ (o'.status = status ∧ o'.brokerIdText = record.orderNumber)) := by
  rcases updateBrokerOrderStatus_cases now id (recordUpdate now status record none) db with
    ⟨e, hr⟩ | ⟨c, -, -, hr⟩ | ⟨row, c, -, hfind, -, hr⟩
  · simp only [Op.call, Op.run, hr] at hcall
    cases hcall
  · simp only [Op.exec, Op.call, Op.run, hr]
    exact ⟨o, ho, .inl rfl⟩
  · simp only [Op.exec, Op.call, Op.run, hr, Table.find?_update_self, ho, Option.map_some]
    exact ⟨_, rfl, .inr ⟨rfl, rfl⟩⟩

theorem cancelBuy_ends {orders : List OrderRecord} (hparsed : ∀ r ∈ orders, Parsed r) {x : BrokerOrder}
    (hid : Text.blank x.clientOrderId = false) (acc : CancelReport) {d : Desk}
    (hx : d.order x.clientOrderId = some x) :
    Raising.Ends (deskHandler answer) (cancelBuy now orders acc x)
      (fun _ d' => cancelStuck orders x = false ∧
        (openAtBroker (some orders) x → Reached x.clientOrderId x.brokerIdText d'))
      (fun _ d' => cancelStuck orders x = true ∧ d' = d) d := by
  have hunknown : ∀ (error : String), Text.blank error = false → ∀ acc' : CancelReport,
      cancelStuck orders x = false →
      Raising.Ends (deskHandler answer) (do markRequestUnknown now x.clientOrderId error; pure acc')
        (fun _ d' => cancelStuck orders x = false ∧
          (openAtBroker (some orders) x → Reached x.clientOrderId x.brokerIdText d'))
        (fun _ d' => cancelStuck orders x = true ∧ d' = d) d := by
    intro error herror acc' hfine
    apply Raising.Ends.bind
    refine Raising.Ends.mono (markRequestUnknown_ends answer now hid herror hx) ?_ fun _ _ he => he.elim
    exact fun _ d' hreached => ⟨hfine, fun _ => hreached⟩
  unfold cancelBuy
  dsimp only
  split
  · rename_i hmissing
    exact hunknown _ (by decide) _ (by simp [cancelStuck, hmissing])
  · rename_i record hrecord
    obtain ⟨hmem, hnumber⟩ := byBrokerId_some hrecord
    split
    · rename_i hside
      exact hunknown _ (by decide) _ (by simp [cancelStuck, hrecord, hside])
    · rename_i hside
      rw [not_ne_iff] at hside
      split
      · rename_i hclosed
        have hnot : record.isOpen = false := by
          simp [OrderRecord.isOpen, hclosed.1, hclosed.2]
        refine ⟨by simp [cancelStuck, hrecord, hnot], fun hopen => ?_⟩
        rw [hopen orders rfl record hrecord] at hnot
        cases hnot
      · rename_i hopen
        have hisOpen : record.isOpen = true := by
          simp only [OrderRecord.isOpen, Bool.or_eq_true, decide_eq_true_eq]
          by_contra hneither
          exact hopen (not_or.mp hneither)
        split
        · rename_i hfields
          refine hunknown _ (by decide) _ ?_
          rcases hfields with hbranch | hremaining
          · simp [cancelStuck, hrecord, hbranch]
          · simp [cancelStuck, hrecord, not_lt.mpr hremaining]
        · rename_i hfields
          obtain ⟨hbranch, hremaining⟩ := not_or.mp hfields
          have hstuck : cancelStuck orders x = priceRefused record := by
            simp [cancelStuck, hrecord, hside, hisOpen, hbranch, not_le.mp hremaining]
          obtain ⟨hblank, hfilled, -⟩ := (hparsed record hmem).wellFormed
          have hraises : (Op.updateBrokerOrderStatus now x.clientOrderId
              (recordUpdate now .cancelPending record none)).raises d.db ↔ priceRefused record = true :=
            (updateBrokerOrderStatus_raises now hid _ d.db).trans
              (checkUpdate_recordUpdate now hblank hfilled _ _)
          rw [hstuck]
          apply Raising.Ends.bind
          refine ends_desk_execute answer ?_ fun h e => ⟨hraises.mp h, rfl⟩
          intro updated hupdated
          have hfine : priceRefused record = false := by
            rw [Bool.eq_false_iff]
            intro hrefused
            obtain ⟨e, he⟩ := hraises.mpr hrefused
            rw [hupdated] at he
            cases he
          obtain ⟨o, ho, hrow⟩ := recordUpdate_row now hx hupdated
          have htext : o.brokerIdText = x.brokerIdText := by
            rcases hrow with rfl | ⟨-, htext⟩
            · rfl
            · rw [htext, hnumber]
          set d₁ : Desk := { d with db := (Op.updateBrokerOrderStatus now x.clientOrderId
            (recordUpdate now .cancelPending record none)).exec d.db } with hd₁
          have ho₁ : d₁.order x.clientOrderId = some o := ho
          -- whatever the cancellation raises, the order becomes UNKNOWN
          have hambiguous : ∀ (e : Exn) (d₂ : Desk), d₂.order x.clientOrderId = some o →
              Raising.Ends (deskHandler answer)
                (do
                  markRequestUnknown now x.clientOrderId ("cancel_ambiguous:" ++ sanitizedError e)
                  pure (acc.addError (sanitizedError e)))
                (fun _ d' => priceRefused record = false ∧
                  (openAtBroker (some orders) x → Reached x.clientOrderId x.brokerIdText d'))
                (fun _ d' => priceRefused record = true ∧ d' = d) d₂ := by
            intro e d₂ ho₂
            have herror : Text.blank ("cancel_ambiguous:" ++ sanitizedError e) = false := by
              rw [Text.blank_append, show Text.blank "cancel_ambiguous:" = false by decide,
                Bool.false_and]
            apply Raising.Ends.bind
            refine Raising.Ends.mono (markRequestUnknown_ends answer now hid herror ho₂) ?_
              fun _ _ he => he.elim
            rw [htext]
            exact fun _ d' hreached => ⟨hfine, fun _ => hreached⟩
          apply Raising.Ends.bind
          apply Raising.Ends.attempt
          apply Raising.Ends.bind
          refine ends_desk_reraise answer ?_ fun e _ => hambiguous e d₁ ho₁
          intro price _
          refine ends_desk_cancelOrder answer ?_ fun e _ =>
            hambiguous e { d₁ with cancels := d₁.cancels ++ [x.clientOrderId] } ho₁
          intro _
          have hkey : Text.blank (pendingKey x.clientOrderId) = false := by
            unfold pendingKey
            rw [Text.blank_append, hid, Bool.and_false]
          have hsent : x.clientOrderId ∈ d₁.cancels ++ [x.clientOrderId] :=
            List.mem_append_right _ (List.mem_singleton_self _)
          refine Raising.Ends.mono (noteSent_ends answer now hkey _ _ hsent) ?_ fun _ _ he => he.elim
          exact fun _ d₂ hsent₂ => ⟨hfine, fun _ => .inl hsent₂⟩

/-- The loop when `rest` is still to be done: nothing happened to the rest, and the
    request reached the others. -/
structure CancelInvariant (orders : List OrderRecord) (d₀ : Desk) (rows rest : List BrokerOrder)
    (d : Desk) : Prop where
  nodup : (rest.map (·.clientOrderId)).Nodup
  sub : ∀ o ∈ rest, o ∈ rows
  pending : ∀ o ∈ rest, d.order o.clientOrderId = some o ∧
    (o.clientOrderId ∈ d.cancels → o.clientOrderId ∈ d₀.cancels)
  done : ∀ o ∈ rows, o ∈ rest ∨ (cancelStuck orders o = false ∧
    (openAtBroker (some orders) o → Reached o.clientOrderId o.brokerIdText d))

theorem CancelInvariant.step {orders : List OrderRecord} {d₀ d d' : Desk}
    {rows rest : List BrokerOrder} {x : BrokerOrder} (hrows : (rows.map (·.clientOrderId)).Nodup)
    (h : CancelInvariant orders d₀ rows (x :: rest) d) (honly : OnlyRow x.clientOrderId d d')
    (hx : cancelStuck orders x = false ∧
      (openAtBroker (some orders) x → Reached x.clientOrderId x.brokerIdText d')) :
    CancelInvariant orders d₀ rows rest d' := by
  have hnodup := h.nodup
  rw [List.map_cons, List.nodup_cons] at hnodup
  have hmem : x ∈ rows := h.sub x List.mem_cons_self
  refine ⟨hnodup.2, fun o ho => h.sub o (List.mem_cons_of_mem _ ho), ?_, ?_⟩
  · intro o ho
    have hne : o.clientOrderId ≠ x.clientOrderId := by
      intro heq
      exact hnodup.1 (List.mem_map.mpr ⟨o, ho, heq⟩)
    obtain ⟨hrow, hsent⟩ := h.pending o (List.mem_cons_of_mem _ ho)
    refine ⟨by rw [honly.others _ hne]; exact hrow, fun hk => hsent ?_⟩
    exact (honly.sent _ hk).resolve_right hne
  · intro o ho
    by_cases hox : o = x
    · subst hox
      exact .inr hx
    · rcases h.done o ho with hrest | ⟨hfine, hreached⟩
      · exact .inl ((List.mem_cons.mp hrest).resolve_left hox)
      · refine .inr ⟨hfine, fun hopen => (hreached hopen).frame ?_ honly⟩
        exact fun heq => hox (List.inj_on_of_nodup_map hrows ho hmem heq)

/-- What the loop leaves behind when the update of an order raised: the stuck orders
    are untouched. -/
structure Abandoned (orders : List OrderRecord) (d₀ : Desk) (rows : List BrokerOrder) (d : Desk) :
    Prop where
  stuck : ∃ o ∈ rows, cancelStuck orders o = true
  untouched : ∀ o ∈ rows, cancelStuck orders o = true → d.order o.clientOrderId = some o ∧
    (o.clientOrderId ∈ d.cancels → o.clientOrderId ∈ d₀.cancels)

theorem cancelLoop_ends {orders : List OrderRecord} (hparsed : ∀ r ∈ orders, Parsed r)
    {rows : List BrokerOrder} (hrows : (rows.map (·.clientOrderId)).Nodup)
    (hnamed : ∀ o ∈ rows, Text.blank o.clientOrderId = false) {d : Desk}
    (hfind : ∀ o ∈ rows, d.order o.clientOrderId = some o) (acc : CancelReport) :
    Raising.Ends (deskHandler answer) (rows.foldlM (cancelBuy now orders) acc)
      (fun _ => CancelInvariant orders d rows []) (fun _ => Abandoned orders d rows) d := by
  refine Raising.Ends.foldlM (I := fun rest _ => CancelInvariant orders d rows rest) ?_ rows
    ⟨hrows, fun _ ho => ho, fun o ho => ⟨hfind o ho, fun hk => hk⟩, fun _ ho => .inl ho⟩
  intro x rest acc d₁ hinv
  have hmem : x ∈ rows := hinv.sub x List.mem_cons_self
  have hends := cancelBuy_ends answer now hparsed (hnamed x hmem) acc (hinv.pending x List.mem_cons_self).1
  refine Raising.Ends.mono (hends.and (ends_desk_concerns answer
    (concerns_cancelBuy now orders acc x) d₁)) ?_ ?_
  · exact fun _ d₂ h => hinv.step hrows h.2 h.1
  · rintro e d₂ ⟨⟨hstuck, rfl⟩, -⟩
    refine ⟨⟨x, hmem, hstuck⟩, fun o ho ho' => ?_⟩
    rcases hinv.done o ho with hrest | ⟨hfine, -⟩
    · exact hinv.pending o hrest
    · rw [hfine] at ho'
      cases ho'

/-! ### The request flag -/

/-- The operator's request is up. -/
def requestUp (db : Database) : Bool := cancelRequested (db.getRuntimeMetadata cancelRequestKey)

theorem pendingKey_ne_cancelRequestKey (id : String) : pendingKey id ≠ cancelRequestKey := by
  intro h
  have hlist := congrArg (fun s => s.toList.take 5) h
  unfold pendingKey cancelRequestKey at hlist
  simp only [String.toList_append] at hlist
  rw [List.take_append_of_le_length (by decide)] at hlist
  revert hlist
  decide

abbrev LeavesRequest {α : Type} (p : Pipeline α) : Prop :=
  Raising.Only (S := trading) (Act.leavesKey cancelRequestKey) p

theorem leavesRequest_reraise {α : Type} (r : Except Exn α) : LeavesRequest (reraise r) := by
  cases r with
  | ok a => exact .pure a
  | error e => exact .throw e

theorem leavesRequest_execute {op : Op} (h : Act.leavesKey cancelRequestKey (.call op)) :
    LeavesRequest (execute op) :=
  .bind (Raising.Only.ask (S := trading) (o := .call op) h) leavesRequest_reraise

theorem leavesRequest_flagReview (now : DateTime) : LeavesRequest (flagReview now) :=
  .bind (leavesRequest_execute (show _ ≠ _ by decide)) fun _ =>
    leavesRequest_execute (show _ ≠ _ by decide)

theorem leavesRequest_markRequestUnknown (now : DateTime) (id error : String) :
    LeavesRequest (markRequestUnknown now id error) :=
  .bind (leavesRequest_execute trivial) fun _ => leavesRequest_flagReview now

theorem leavesRequest_cancelBuy (now : DateTime) (orders : List OrderRecord) (acc : CancelReport)
    (o : BrokerOrder) : LeavesRequest (cancelBuy now orders acc o) := by
  unfold cancelBuy
  dsimp only
  split
  · exact .bind (leavesRequest_markRequestUnknown ..) fun _ => .pure _
  split
  · exact .bind (leavesRequest_markRequestUnknown ..) fun _ => .pure _
  split
  · exact .pure _
  split
  · exact .bind (leavesRequest_markRequestUnknown ..) fun _ => .pure _
  · refine .bind (leavesRequest_execute trivial) fun _ => ?_
    refine .bind (.attempt (.bind (leavesRequest_reraise _) fun _ => .bind
      (Raising.Only.ask (S := trading) trivial) leavesRequest_reraise)) fun r => ?_
    cases r with
    | ok u =>
      exact .bind (leavesRequest_execute (pendingKey_ne_cancelRequestKey _)) fun _ => .pure _
    | error e => exact .bind (leavesRequest_markRequestUnknown ..) fun _ => .pure _

theorem Act.leavesRequest_of_byReconcile (o : Act) (h : o.byReconcile) :
    o.leavesKey cancelRequestKey := by
  cases o with
  | call op =>
    cases op with
    | setRuntimeMetadata now key value at' =>
      rintro rfl
      exact absurd (show cancelRequestKey ∈ reviewKeys from h) (by decide)
    | _ => trivial
  | _ => trivial

/-! ### The management stage -/

theorem isOpen_not_terminal {record : OrderRecord} (h : record.isOpen = true) :
    terminalStatusForBroker record.status = none := by
  unfold OrderRecord.isOpen at h
  cases hs : record.status <;> rw [hs] at h <;> first | rfl | simp at h

theorem reconcilePendingMarker_reached {orders : List OrderRecord} {x : BrokerOrder}
    (hopen : ∀ record, byBrokerId orders x.brokerIdText = some record → record.isOpen = true)
    (marker : PendingMarker) {d : Desk} (hx : d.order x.clientOrderId = some x)
    (hstatus : x.status = .cancelPending ∨ x.status = .unknown) :
    Raising.Ends (deskHandler answer)
      (reconcilePendingMarker now x (byBrokerId orders x.brokerIdText) marker)
      (fun _ => Reached x.clientOrderId x.brokerIdText)
      (fun _ => Reached x.clientOrderId x.brokerIdText) d := by
  have hreached : Reached x.clientOrderId x.brokerIdText d := .inr ⟨x, hx, rfl, hstatus⟩
  unfold reconcilePendingMarker
  dsimp only
  split
  · exact hreached
  split
  · exact hreached
  · rename_i record hrecord
    rw [isOpen_not_terminal (hopen record hrecord)]
    apply Raising.Ends.bind
    refine ends_desk_execute answer ?_ fun _ _ => hreached
    intro updated hupdated
    obtain ⟨o, ho, hrow⟩ := recordUpdate_row now hx hupdated
    refine .inr ⟨o, ho, ?_⟩
    rcases hrow with rfl | ⟨hpending, htext⟩
    · exact ⟨rfl, hstatus⟩
    · exact ⟨by rw [htext, (byBrokerId_some hrecord).2], .inl hpending⟩

theorem manageOrder_reached (calendar : Calendar) (config : OrderManagementConfig)
    (entryBarKey : Option String) {orders : List OrderRecord} {id text : String}
    (hopen : ∀ record, byBrokerId orders text = some record → record.isOpen = true) {x : BrokerOrder}
    (acc : ManageState) {d : Desk} (h : Reached id text d)
    (hx : x.clientOrderId = id → d.order id = some x) :
    Raising.Ends (deskHandler answer) (manageOrder now calendar config entryBarKey orders acc x)
      (fun _ => Reached id text) (fun _ => Reached id text) d := by
  have honly := ends_desk_concerns answer
    (concerns_manageOrder now calendar config entryBarKey orders acc x) d
  by_cases hid : x.clientOrderId = id
  swap
  · exact Raising.Ends.mono honly (fun _ _ h' => h.frame (Ne.symm hid) h')
      fun _ _ h' => h.frame (Ne.symm hid) h'
  rcases h with hsent | ⟨o, ho, htext, hstatus⟩
  · exact Raising.Ends.mono honly (fun _ _ h' => .inl (h'.kept id hsent))
      fun _ _ h' => .inl (h'.kept id hsent)
  · -- the row is as it was read, and the branch for open orders is not taken
    have hrow := hx hid
    rw [ho, Option.some.injEq] at hrow
    subst hrow hid htext
    have hreached : Reached o.clientOrderId o.brokerIdText d := .inr ⟨o, ho, rfl, hstatus⟩
    unfold manageOrder
    apply ends_desk_select
    split
    · rename_i marker _
      apply Raising.Ends.bind
      refine Raising.Ends.mono
        (reconcilePendingMarker_reached answer now hopen marker ho hstatus) ?_ fun _ _ h' => h'
      intro result d' h'
      cases result with
      | pending => exact h'
      | confirmed => exact h'
    · unfold manageActive
      dsimp only
      rcases hstatus with hpending | hunknown
      · rw [if_pos hpending]
        exact hreached
      · rw [if_neg (by rw [hunknown]; decide), if_pos (by rw [hunknown]; decide)]
        exact hreached

theorem managedRows_nodup (db : Database) : ((managedRows db).map (·.clientOrderId)).Nodup :=
  orderedRows_nodup db _

theorem mem_managedRows {db : Database} {o : BrokerOrder} (h : o ∈ managedRows db) :
    db.brokerOrders.find? o.clientOrderId = some o := by
  simp only [managedRows, mem_orderedBy, List.mem_filter] at h
  exact db.brokerOrders.find?_of_mem h.1

theorem Reached.leavesOrders {id text : String} {α : Type} {p : Pipeline α} (hp : LeavesOrders p)
    {d : Desk} (h : Reached id text d) :
    Raising.Ends (deskHandler answer) p (fun _ => Reached id text) (fun _ => Reached id text) d := by
  refine Raising.Ends.of_only (fun o d ho h => ?_) hp h
  rcases h with hsent | ⟨row, hrow, hrest⟩
  · left
    cases o with
    | cancelOrder id' number branch quantity price => exact List.mem_append_left _ hsent
    | _ => exact hsent
  · exact .inr ⟨row, by rw [deskHandler_leavesOrders answer ho]; exact hrow, hrest⟩

theorem manageStaleOrders_reached (calendar : Calendar) (config : OrderManagementConfig)
    (entryBarKey : Option String) {orders : List OrderRecord} {id text : String}
    (hopen : ∀ record, byBrokerId orders text = some record → record.isOpen = true) {d : Desk}
    (h : Reached id text d) :
    Raising.Ends (deskHandler answer) (manageStaleOrders now calendar config entryBarKey (.ok orders))
      (fun _ => Reached id text) (fun _ => Reached id text) d := by
  apply ends_desk_selectOrders
  apply Raising.Ends.bind
  have hloop := Raising.Ends.foldlM (h := deskHandler answer)
    (f := manageOrder now calendar config entryBarKey orders) (E := fun _ => Reached id text)
    (I := fun rest _ d' => (rest.map (·.clientOrderId)).Nodup ∧ Reached id text d' ∧
      ∀ x ∈ rest, x.clientOrderId = id → d'.order id = some x) ?_ (managedRows d.db)
    (a := ManageState.empty) (s := d)
    ⟨managedRows_nodup d.db, h, fun x hx hid => hid ▸ mem_managedRows hx⟩
  · refine Raising.Ends.mono hloop ?_ fun _ _ h' => h'
    rintro acc d' ⟨-, h', -⟩
    refine Reached.leavesOrders answer ?_ h'
    dsimp only
    split
    · exact .bind (leavesOrders_blockNewEntries ..) fun _ => .pure _
    · exact .pure _
  · rintro x rest acc d₁ ⟨hnodup, hreached, hpending⟩
    rw [List.map_cons, List.nodup_cons] at hnodup
    have hreach := manageOrder_reached answer now calendar config entryBarKey hopen acc hreached
      (hpending x List.mem_cons_self)
    have honly := ends_desk_concerns answer
      (concerns_manageOrder now calendar config entryBarKey orders acc x) d₁
    refine Raising.Ends.mono (hreach.and honly) ?_ fun _ _ h' => h'.1
    rintro acc' d₂ ⟨hreached₂, honly₂⟩
    refine ⟨hnodup.2, hreached₂, fun y hy hid => ?_⟩
    have hne : id ≠ x.clientOrderId := by
      rintro rfl
      exact hnodup.1 (List.mem_map.mpr ⟨y, hy, hid⟩)
    rw [honly₂.others id hne]
    exact hpending y (List.mem_cons_of_mem _ hy) hid

/-! ### One iteration -/

/-- What a reconciliation leaves for the stages after it. -/
structure Reconciled (now : DateTime) (orders : List OrderRecord) (d d' : Desk) : Prop where
  ledger : ProgramLedger d'.db
  rows : RowsAfter now orders d.db d'.db
  cancels : d'.cancels = d.cancels
  request : d'.db.getRuntimeMetadata cancelRequestKey = d.db.getRuntimeMetadata cancelRequestKey

theorem reconcile_desk {d : Desk} (hdb : ProgramState d.db) {orders : List OrderRecord}
    (hparsed : ∀ r ∈ orders, Parsed r) (account : Except ReadError (List AccountPosition)) :
    Raising.Ends (deskHandler answer) (reconcileBrokerState now (.ok orders) account)
      (fun _ d' => Reconciled now orders d d' ∧ ∀ o ∈ reconciledRows d.db, poisonous orders o = false)
      (fun _ d' => d'.db.getRuntimeMetadata cancelRequestKey =
          d.db.getRuntimeMetadata cancelRequestKey ∧
        ∃ o ∈ reconciledRows d.db, poisonous orders o = true) d := by
  let broker : BrokerReplies := ⟨fun _ _ => .ok none, fun _ _ _ _ => .ok ()⟩
  have honly := byReconcile_reconcileBrokerState now (.ok orders) account
  have hends := ((reconcileBrokerState_ends broker now hdb hparsed account).and
    (reconcileBrokerState_rows broker now hdb.ledger hparsed account)).and
    (hdb.ledger.pass broker now (.ok orders) account)
  have hdesk := ends_desk_of_local answer broker (honly.mono Act.isLocal_of_byReconcile) hends
  have hrequest := ends_desk_leavesKey answer (honly.mono Act.leavesRequest_of_byReconcile)
    (d := d) rfl
  refine Raising.Ends.mono (hdesk.and hrequest) ?_ ?_
  · rintro report d' ⟨⟨⟨⟨⟨-, hfine⟩, hrows⟩, hledger⟩, hcancels⟩, hkey⟩
    exact ⟨⟨hledger, hrows, hcancels, hkey⟩, hfine⟩
  · rintro e d' ⟨⟨⟨⟨hpoison, -⟩, -⟩, -⟩, hkey⟩
    exact ⟨hkey, hpoison⟩

/-- The cancel stage on records: the flag goes down, then the loop runs. -/
theorem cancelRequestedBuys_ends {orders : List OrderRecord} (hparsed : ∀ r ∈ orders, Parsed r)
    {d : Desk} (hledger : ProgramLedger d.db) (hup : requestUp d.db = true) :
    Raising.Ends (deskHandler answer) (cancelRequestedBuys now (.ok orders))
      (fun _ d' => CancelInvariant orders d (openBuyRows d.db) [] d')
      (fun _ d' => Abandoned orders d (openBuyRows d.db) d' ∧
        d'.db.getRuntimeMetadata cancelRequestKey = some (.text "false")) d := by
  unfold cancelRequestedBuys
  apply ends_desk_select
  dsimp only
  rw [if_neg (by rw [show cancelRequested _ = true from hup]; decide)]
  apply Raising.Ends.bind
  refine Raising.Ends.mono (ends_desk_setMetadata answer (by decide) now _ _ d) ?_ fun _ _ he => he.elim
  rintro _ d₁ ⟨hnoted, hdown⟩
  apply ends_desk_selectOrders
  have hrows : openBuyRows d₁.db = openBuyRows d.db := by
    unfold openBuyRows
    rw [hnoted.orders]
  rw [hrows]
  have hnamed : ∀ o ∈ openBuyRows d.db, Text.blank o.clientOrderId = false := fun o ho =>
    hledger.ledger.named o (d.db.brokerOrders.mem_of_find? (mem_openBuyRows.mp ho).1)
  have hfind : ∀ o ∈ openBuyRows d.db, d₁.order o.clientOrderId = some o := by
    intro o ho
    rw [hnoted.order]
    exact (mem_openBuyRows.mp ho).1
  have hloop := cancelLoop_ends answer now hparsed (openBuyRows_nodup d.db) hnamed hfind
    CancelReport.empty
  have hkey := ends_desk_leavesKey answer
    (Raising.Only.foldlM (leavesRequest_cancelBuy now orders) (openBuyRows d.db) CancelReport.empty) hdown
  refine Raising.Ends.mono (hloop.and hkey) ?_ ?_
  · rintro _ d₂ ⟨h, -⟩
    exact ⟨h.nodup, h.sub, fun o ho => (by cases ho), h.done⟩
  · rintro e d₂ ⟨h, hdown₂⟩
    refine ⟨⟨h.stuck, fun o ho hstuck => ?_⟩, hdown₂⟩
    obtain ⟨hrow, hsent⟩ := h.untouched o ho hstuck
    exact ⟨hrow, fun hk => by rw [← hnoted.cancels]; exact hsent hk⟩

/-- Without stuck orders the request reaches every order that is open at the broker. -/
theorem supervisorStages_reached (calendar : Calendar) (config : OrderManagementConfig) {d : Desk}
    (hdb : ProgramState d.db) (hup : requestUp d.db = true) {orders : List OrderRecord}
    (hparsed : ∀ r ∈ orders, Parsed r) (account : Except ReadError (List AccountPosition))
    (hfine : ∀ o ∈ reconciledRows d.db, poisonous orders o = false)
    (hfree : ∀ o ∈ openBuyRows d.db, cancelStuck orders o = false) {o : BrokerOrder}
    (ho : o ∈ openBuyRows d.db) (hopen : openAtBroker (some orders) o) :
    Raising.Ends (deskHandler answer) (supervisorStages now calendar config ⟨.ok orders, account⟩)
      (fun _ => Reached o.clientOrderId o.brokerIdText)
      (fun _ => Reached o.clientOrderId o.brokerIdText) d := by
  unfold supervisorStages
  apply Raising.Ends.bind
  refine Raising.Ends.mono (reconcile_desk answer now hdb hparsed account) ?_ ?_
  swap
  · rintro e d₁ ⟨-, x, hx, hpoison⟩
    rw [hfine x hx] at hpoison
    cases hpoison
  rintro report d₁ ⟨h₁, -⟩
  obtain ⟨o₁, ho₁, hid, htext⟩ := h₁.rows.stillOpen ho hopen
  have hopen₁ : openAtBroker (some orders) o₁ := by
    intro records hrecords record hrecord
    rw [htext] at hrecord
    exact hopen records hrecords record hrecord
  have hup₁ : requestUp d₁.db = true := by
    unfold requestUp
    rw [h₁.request]
    exact hup
  apply Raising.Ends.bind
  refine Raising.Ends.mono (cancelRequestedBuys_ends answer now hparsed h₁.ledger hup₁) ?_ ?_
  swap
  · rintro e d₂ ⟨⟨⟨x, hx, hstuck⟩, -⟩, -⟩
    rw [hfree x (h₁.rows.wasStuck hx hstuck)] at hstuck
    cases hstuck
  intro cancel d₂ h₂
  have hreached : Reached o.clientOrderId o.brokerIdText d₂ := by
    rw [← hid, ← htext]
    exact ((h₂.done o₁ ho₁).resolve_left (by simp)).2 hopen₁
  apply Raising.Ends.bind
  refine Raising.Ends.mono (manageStaleOrders_reached answer now calendar config none
    (fun record hrecord => hopen orders rfl record hrecord) hreached) ?_ fun _ _ h => h
  intro management d₃ h₃
  have htail := fun value value' (result : SupervisorReport) => Reached.leavesOrders answer
    (leavesOrders_setFlags now "operator_review" "block_new_entries" value value' result) h₃
  exact htail _ _ _

/-- A reconciliation that raises leaves the request up. -/
theorem supervisorStages_raises (calendar : Calendar) (config : OrderManagementConfig) {d : Desk}
    (hdb : ProgramState d.db) {orders : List OrderRecord} (hparsed : ∀ r ∈ orders, Parsed r)
    (account : Except ReadError (List AccountPosition))
    (hpoison : ∃ o ∈ reconciledRows d.db, poisonous orders o = true) :
    Raising.Ends (deskHandler answer) (supervisorStages now calendar config ⟨.ok orders, account⟩)
      (fun _ _ => False) (fun _ d' => requestUp d'.db = requestUp d.db) d := by
  unfold supervisorStages
  apply Raising.Ends.bind
  refine Raising.Ends.mono (reconcile_desk answer now hdb hparsed account) ?_ ?_
  · rintro report d₁ ⟨-, hfine⟩
    obtain ⟨o, ho, hbad⟩ := hpoison
    rw [hfine o ho] at hbad
    cases hbad
  · rintro e d₁ ⟨hkey, -⟩
    unfold requestUp
    rw [hkey]

/-- The request is down, and nothing was done about the order. -/
structure Dropped (o : BrokerOrder) (d : Desk) : Prop where
  untouched : d.order o.clientOrderId = some o
  unsent : o.clientOrderId ∉ d.cancels
  down : d.db.getRuntimeMetadata cancelRequestKey = some (.text "false")

/-- A stuck order ends the cancel stage. -/
theorem supervisorStages_dropped (calendar : Calendar) (config : OrderManagementConfig) {d : Desk}
    (hdb : ProgramState d.db) (hup : requestUp d.db = true) {orders : List OrderRecord}
    (hparsed : ∀ r ∈ orders, Parsed r) (account : Except ReadError (List AccountPosition))
    (hfine : ∀ o ∈ reconciledRows d.db, poisonous orders o = false) {o : BrokerOrder}
    (ho : o ∈ openBuyRows d.db) (hstuck : cancelStuck orders o = true)
    (hunsent : o.clientOrderId ∉ d.cancels) :
    Raising.Ends (deskHandler answer) (supervisorStages now calendar config ⟨.ok orders, account⟩)
      (fun _ _ => False) (fun _ => Dropped o) d := by
  unfold supervisorStages
  apply Raising.Ends.bind
  refine Raising.Ends.mono (reconcile_desk answer now hdb hparsed account) ?_ ?_
  swap
  · rintro e d₁ ⟨-, x, hx, hpoison⟩
    rw [hfine x hx] at hpoison
    cases hpoison
  rintro report d₁ ⟨h₁, -⟩
  have ho₁ := h₁.rows.keepsStuck ho hstuck
  have hup₁ : requestUp d₁.db = true := by
    unfold requestUp
    rw [h₁.request]
    exact hup
  apply Raising.Ends.bind
  refine Raising.Ends.mono (cancelRequestedBuys_ends answer now hparsed h₁.ledger hup₁) ?_ ?_
  · intro cancel d₂ h₂
    have hfree := ((h₂.done o ho₁).resolve_left (by simp)).1
    rw [hstuck] at hfree
    cases hfree
  · rintro e d₂ ⟨h₂, hdown⟩
    obtain ⟨hrow, hsent⟩ := h₂.untouched o ho₁ hstuck
    refine ⟨hrow, fun hk => hunsent ?_, hdown⟩
    rw [← h₁.cancels]
    exact hsent hk

/-- An action that touches neither orders nor the request nor the broker. -/
def Act.idle (o : Act) : Prop := o.leavesOrders ∧ o.leavesKey cancelRequestKey ∧ o.isLocal

abbrev Idle {α : Type} (p : Pipeline α) : Prop := Raising.Only (S := trading) Act.idle p

theorem idle_setMetadata {key : String} (hkey : key ≠ cancelRequestKey) (value : MetadataValue)
    (updatedAt : Option DateTime) : Idle (execute (.setRuntimeMetadata now key value updatedAt)) := by
  refine .bind (Raising.Only.ask (S := trading)
    (o := .call (.setRuntimeMetadata now key value updatedAt)) ⟨rfl, hkey, trivial⟩) fun r => ?_
  cases r with
  | ok a => exact .pure a
  | error e => exact .throw e

theorem idle_flagReview : Idle (flagReview now) :=
  .bind (idle_setMetadata now (by decide) _ _) fun _ => idle_setMetadata now (by decide) _ _

theorem idle_finishPass (acc : PassState) : Idle (finishPass now acc) :=
  .bind (idle_setMetadata now (by decide) _ _) fun _ =>
    .bind (idle_setMetadata now (by decide) _ _) fun _ => .pure _

theorem idle_blockNewEntries (reason : String) : Idle (blockNewEntries now reason) :=
  .bind (idle_setMetadata now (by decide) _ _) fun _ =>
    .bind (idle_setMetadata now (by decide) _ _) fun _ => idle_setMetadata now (by decide) _ _

theorem idle_setFlags (value value' : String) {α : Type} (a : α) :
    Idle (do setFlag now "operator_review" value; setFlag now "block_new_entries" value'; pure a) :=
  .bind (idle_setMetadata now (by decide) _ _) fun _ =>
    .bind (idle_setMetadata now (by decide) _ _) fun _ => .pure _

theorem idle_giveUp (rows : List BrokerOrder) (e : ReadError) :
    Idle (if rows.isEmpty then pure CancelReport.empty
      else do
        flagReview now
        pure (CancelReport.empty.addError e.sanitizedError)) := by
  split
  · exact .pure _
  · exact .bind (idle_flagReview now) fun _ => .pure _

/-- The orders, the cancellations sent and the request are the same. -/
structure Resting (d d' : Desk) : Prop where
  orders : ∀ k, d'.order k = d.order k
  cancels : d'.cancels = d.cancels
  request : d'.db.getRuntimeMetadata cancelRequestKey = d.db.getRuntimeMetadata cancelRequestKey

theorem Idle.ends {α : Type} {p : Pipeline α} (hp : Idle p) (d : Desk) :
    Raising.Ends (deskHandler answer) p (fun _ => Resting d) (fun _ => Resting d) d := by
  refine Raising.Ends.of_only (R := Resting d) ?_ hp ⟨fun _ => rfl, rfl, rfl⟩
  rintro o d' ⟨horders, hkey, hlocal⟩ h
  refine ⟨fun k => (deskHandler_leavesOrders answer horders d' k).trans (h.orders k), ?_,
    (deskHandler_leavesKey answer o d' hkey).trans h.request⟩
  cases o with
  | submitOrder => exact hlocal.elim
  | cancelOrder => exact hlocal.elim
  | _ => exact h.cancels

theorem Reached.resting {id text : String} {d d' : Desk} (h : Reached id text d) (hr : Resting d d') :
    Reached id text d' := by
  rcases h with hsent | ⟨o, ho, hrest⟩
  · exact .inl (by rw [hr.cancels]; exact hsent)
  · exact .inr ⟨o, by rw [hr.orders]; exact ho, hrest⟩

theorem Dropped.resting {o : BrokerOrder} {d d' : Desk} (h : Dropped o d) (hr : Resting d d') :
    Dropped o d' :=
  ⟨by rw [hr.orders]; exact h.untouched, by rw [hr.cancels]; exact h.unsent,
    by rw [hr.request]; exact h.down⟩

theorem Resting.requestUp {d d' : Desk} (hr : Resting d d') :
    AutoTrader.requestUp d'.db = AutoTrader.requestUp d.db := by
  unfold AutoTrader.requestUp
  rw [hr.request]

theorem Dropped.idle {α : Type} {p : Pipeline α} (hp : Idle p) {o : BrokerOrder} {d : Desk}
    (h : Dropped o d) :
    Raising.Ends (deskHandler answer) p (fun _ => Dropped o) (fun _ => Dropped o) d :=
  Raising.Ends.mono (Idle.ends answer hp d) (fun _ _ hr => h.resting hr) fun _ _ hr => h.resting hr

/-- Without a snapshot the cancel stage gives up. -/
theorem supervisorStages_unread (calendar : Calendar) (config : OrderManagementConfig) {d : Desk}
    (hup : requestUp d.db = true) (e : ReadError) (account : Except ReadError (List AccountPosition))
    {o : BrokerOrder} (ho : o ∈ openBuyRows d.db) (hunsent : o.clientOrderId ∉ d.cancels) :
    Raising.Ends (deskHandler answer) (supervisorStages now calendar config ⟨.error e, account⟩)
      (fun _ => Dropped o) (fun _ => Dropped o) d := by
  let broker : BrokerReplies := ⟨fun _ _ => .ok none, fun _ _ _ _ => .ok ()⟩
  have hidle := fun acc => idle_finishPass now acc
  have hfinish := fun acc => (ends_desk_of_local answer broker
    ((hidle acc).mono fun _ ho => ho.2.2) (finishPass_ends broker now d.db acc)).and
      (Idle.ends answer (hidle acc) d)
  unfold supervisorStages
  apply Raising.Ends.bind
  refine Raising.Ends.mono (hfinish _) ?_ fun _ _ he => he.1.1.elim
  rintro report d₁ ⟨-, hresting⟩
  apply Raising.Ends.bind
  unfold cancelRequestedBuys
  apply ends_desk_select
  have hup₁ : cancelRequested (d₁.db.getRuntimeMetadata cancelRequestKey) = true := by
    rw [hresting.request]
    exact hup
  dsimp only
  rw [if_neg (by rw [hup₁]; decide)]
  apply Raising.Ends.bind
  refine Raising.Ends.mono (ends_desk_setMetadata answer (by decide) now _ _ d₁) ?_
    fun _ _ he => he.elim
  rintro _ d₂ ⟨hnoted, hdown⟩
  have hdropped : Dropped o d₂ := by
    refine ⟨?_, ?_, hdown⟩
    · rw [hnoted.order, hresting.orders]
      exact (mem_openBuyRows.mp ho).1
    · rw [hnoted.cancels, hresting.cancels]
      exact hunsent
  apply ends_desk_selectOrders
  have hgiveUp := Dropped.idle answer (idle_giveUp now (openBuyRows d₂.db) e) hdropped
  refine Raising.Ends.mono hgiveUp ?_ fun _ _ h => h
  intro cancel d₃ h₃
  apply Raising.Ends.bind
  have hblock := fun reason (report : OrderManagementReport) => Dropped.idle answer
    (.bind (idle_blockNewEntries now reason) fun _ => .pure report) h₃
  refine Raising.Ends.mono (hblock _ _) ?_ fun _ _ h => h
  intro management d₄ h₄
  have htail := fun value value' (result : SupervisorReport) => Dropped.idle answer
    (idle_setFlags now value value' result) h₄
  exact htail _ _ _

/-- What holds after the stages, returned or raised, holds after the pass, if the flags
    of a review do not matter to it. -/
theorem supervisorPass_ends {calendar : Calendar} {config : OrderManagementConfig}
    {snapshot : Snapshot} {P : Desk → Prop} (hP : ∀ d d', Resting d d' → P d → P d') {d : Desk}
    (h : Raising.Ends (deskHandler answer) (supervisorStages now calendar config snapshot)
      (fun _ => P) (fun _ => P) d) :
    Raising.Ends (deskHandler answer) (supervisorPass now calendar config snapshot)
      (fun _ => P) (fun _ => P) d := by
  apply Raising.Ends.bind
  apply Raising.Ends.attempt
  refine Raising.Ends.mono h (fun _ _ h' => h') ?_
  intro e d₁ h₁
  apply Raising.Ends.bind
  apply Raising.Ends.attempt
  exact Raising.Ends.mono (Idle.ends answer (idle_flagReview now) d₁) (fun _ d₂ hr => hP d₁ d₂ hr h₁)
    fun _ d₂ hr => hP d₁ d₂ hr h₁

end Stage

/-! ### The request -/

/-- The order records of an iteration, if it got any. -/
def recordsRead (prepared : Except Exn Snapshot) : Option (List OrderRecord) :=
  prepared.toOption.bind fun snapshot => snapshot.orders.toOption

/-- On this snapshot the cancel stage lowers the flag, and then has no records for the
    open BUYs, or comes to one whose status update raises. -/
def Snapshot.DropsRequest (snapshot : Snapshot) (db : Database) : Prop :=
  match snapshot.orders with
  | .error _ => openBuyRows db ≠ []
  | .ok orders => (∀ o ∈ reconciledRows db, poisonous orders o = false) ∧
      ∃ o ∈ openBuyRows db, cancelStuck orders o = true

/-- The iteration gets as far as the cancel stage and drops the request there. -/
def RequestDropped (now : DateTime) (expectedOwnerId : Option String)
    (prepared : Except Exn Snapshot) (db : Database) : Prop :=
  leaseIsValid db expectedOwnerId now = true ∧
    ∃ snapshot, prepared = .ok snapshot ∧ snapshot.DropsRequest db

/-- A cancellation was sent for the order, or its status says that one is pending or in
    doubt, or the request is still up. -/
def RequestKept (id : String) (d : Desk) : Prop :=
  id ∈ d.cancels ∨
    (∃ o, d.order id = some o ∧ (o.status = .cancelPending ∨ o.status = .unknown)) ∨
    requestUp d.db = true

theorem Reached.kept {id text : String} {d : Desk} (h : Reached id text d) : RequestKept id d := by
  rcases h with hsent | ⟨o, ho, -, hstatus⟩
  · exact .inl hsent
  · exact .inr (.inl ⟨o, ho, hstatus⟩)

theorem Dropped.not_kept {o : BrokerOrder} {d : Desk}
    (hstatus : o.status = .acknowledged ∨ o.status = .partiallyFilled) (h : Dropped o d) :
    ¬RequestKept o.clientOrderId d := by
  rintro (hsent | ⟨row, hrow, hrowStatus⟩ | hup)
  · exact h.unsent hsent
  · rw [h.untouched, Option.some.injEq] at hrow
    subst hrow
    rcases hstatus with hstatus | hstatus <;> rw [hstatus] at hrowStatus <;>
      rcases hrowStatus with hrowStatus | hrowStatus <;> cases hrowStatus
  · unfold requestUp at hup
    rw [h.down] at hup
    revert hup
    decide

theorem cancelStuck_openAtBroker {orders : List OrderRecord} {o : BrokerOrder}
    (h : cancelStuck orders o = true) : openAtBroker (some orders) o := by
  rintro records hrecords record hrecord
  cases hrecords
  rw [Option.mem_def] at hrecord
  simp only [cancelStuck, hrecord, Bool.and_eq_true] at h
  exact h.1.1.1.2

section Iteration

variable (answer : List String → Except Exn Unit) (now : DateTime) (calendar : Calendar)
  (config : OrderManagementConfig)

/-- A pass that does not drop the request keeps it for every order that may be open at
    the broker. -/
theorem supervisorPass_kept {snapshot : Snapshot} {d : Desk} (hdb : ProgramState d.db)
    (hup : requestUp d.db = true)
    (hparsed : ∀ records ∈ snapshot.orders.toOption, ∀ r ∈ records, Parsed r)
    (hkeeps : ¬snapshot.DropsRequest d.db) {o : BrokerOrder} (ho : o ∈ openBuyRows d.db)
    (hopen : openAtBroker snapshot.orders.toOption o) :
    Raising.Ends (deskHandler answer) (supervisorPass now calendar config snapshot)
      (fun _ => RequestKept o.clientOrderId) (fun _ => RequestKept o.clientOrderId) d := by
  obtain ⟨read, account⟩ := snapshot
  cases read with
  | error e => exact absurd (List.ne_nil_of_mem ho) hkeeps
  | ok orders =>
    have hparsed' : ∀ r ∈ orders, Parsed r := hparsed orders rfl
    by_cases hfine : ∀ x ∈ reconciledRows d.db, poisonous orders x = false
    · have hfree : ∀ x ∈ openBuyRows d.db, cancelStuck orders x = false := by
        intro x hx
        rw [Bool.eq_false_iff]
        exact fun hstuck => hkeeps ⟨hfine, x, hx, hstuck⟩
      have hstages := supervisorStages_reached answer now calendar config hdb hup hparsed' account
        hfine hfree ho hopen
      exact Raising.Ends.mono (supervisorPass_ends answer now (fun _ _ hr h => h.resting hr) hstages)
        (fun _ _ h => h.kept) fun _ _ h => h.kept
    · push Not at hfine
      obtain ⟨x, hx, hpoison⟩ := hfine
      rw [ne_eq, Bool.not_eq_false] at hpoison
      have hstages : Raising.Ends (deskHandler answer)
          (supervisorStages now calendar config ⟨.ok orders, account⟩)
          (fun _ d' => requestUp d'.db = true) (fun _ d' => requestUp d'.db = true) d :=
        Raising.Ends.mono (supervisorStages_raises answer now calendar config hdb hparsed' account
          ⟨x, hx, hpoison⟩) (fun _ _ h => h.elim) fun _ _ h => h.trans hup
      exact Raising.Ends.mono (supervisorPass_ends answer now
        (fun _ _ hr h => hr.requestUp.trans h) hstages) (fun _ _ h => .inr (.inr h))
          fun _ _ h => .inr (.inr h)

/-- A pass that drops the request leaves an order behind that may be open at the broker. -/
theorem supervisorPass_lost {snapshot : Snapshot} {d : Desk} (hdb : ProgramState d.db)
    (hup : requestUp d.db = true)
    (hparsed : ∀ records ∈ snapshot.orders.toOption, ∀ r ∈ records, Parsed r)
    (hunsent : d.cancels = []) (hdrops : snapshot.DropsRequest d.db) :
    ∃ o ∈ openBuyRows d.db, openAtBroker snapshot.orders.toOption o ∧
      Raising.Ends (deskHandler answer) (supervisorPass now calendar config snapshot)
        (fun _ => Dropped o) (fun _ => Dropped o) d := by
  obtain ⟨read, account⟩ := snapshot
  cases read with
  | error e =>
    obtain ⟨o, ho⟩ := List.exists_mem_of_ne_nil _ (show openBuyRows d.db ≠ [] from hdrops)
    have hstages := supervisorStages_unread answer now calendar config hup e account ho
      (by rw [hunsent]; exact List.not_mem_nil)
    exact ⟨o, ho, fun records hrecords => (by cases hrecords),
      supervisorPass_ends answer now (fun _ _ hr h => h.resting hr) hstages⟩
  | ok orders =>
    obtain ⟨hfine, o, ho, hstuck⟩ := hdrops
    have hstages : Raising.Ends (deskHandler answer)
        (supervisorStages now calendar config ⟨.ok orders, account⟩)
        (fun _ => Dropped o) (fun _ => Dropped o) d :=
      Raising.Ends.mono (supervisorStages_dropped answer now calendar config hdb hup
        (hparsed orders rfl) account hfine ho hstuck (by rw [hunsent]; exact List.not_mem_nil))
        (fun _ _ h => h.elim) fun _ _ h => h
    exact ⟨o, ho, cancelStuck_openAtBroker hstuck,
      supervisorPass_ends answer now (fun _ _ hr h => h.resting hr) hstages⟩

/-- An iteration with a lease and a snapshot is a pass. -/
theorem oneIteration_ends {snapshot : Snapshot} {expectedOwnerId : Option String} {P : Desk → Prop}
    {d : Desk} (hlease : leaseIsValid d.db expectedOwnerId now = true)
    (h : Raising.Ends (deskHandler answer) (supervisorPass now calendar config snapshot)
      (fun _ => P) (fun _ => P) d) :
    Raising.Ends (deskHandler answer) (oneIteration now calendar config expectedOwnerId (.ok snapshot))
      (fun _ => P) (fun _ => P) d := by
  apply ends_desk_select
  rw [if_pos hlease]
  exact Raising.Ends.bind (Raising.Ends.mono h (fun _ _ h' => h') fun _ _ h' => h')

/-- An iteration without a lease or without a snapshot keeps the request up. -/
theorem oneIteration_idle {expectedOwnerId : Option String} {prepared : Except Exn Snapshot} {d : Desk}
    (h : leaseIsValid d.db expectedOwnerId now = false ∨ ∃ e, prepared = .error e) :
    Raising.Ends (deskHandler answer) (oneIteration now calendar config expectedOwnerId prepared)
      (fun _ => Resting d) (fun _ => Resting d) d := by
  apply ends_desk_select
  split
  · rename_i hlease
    obtain ⟨e, rfl⟩ := h.resolve_left (by rw [hlease]; decide)
    apply Raising.Ends.bind
    apply Raising.Ends.attempt
    exact Idle.ends answer (idle_flagReview now) d
  · exact ⟨fun _ => rfl, rfl, rfl⟩

end Iteration

/-! ### A request that meets a failed read -/

namespace LostRequest

def opening : DateTime := .combine 20000 9 0 0 (some DateTime.kstOffset)

/-- A lease of a minute. -/
def lease : ServiceLease :=
  ⟨serviceLeaseName, "owner-1", opening, opening, .iso (.combine 20000 9 1 0 (some DateTime.kstOffset))⟩

def leased : Database :=
  { Database.empty with serviceLeases := Database.empty.serviceLeases.upsert lease }

def calls : List Op :=
  [.claimOrderIntent opening ⟨"client-1", some "d1", "005930", "BUY", .int 4, .int 100, none⟩,
   .recordOrderSubmission opening "client-1" "K1" none,
   .setRuntimeMetadata opening cancelRequestKey (.text "true") none]

/-- An order at the broker and the request of the operator. -/
def asked : Database := runOps calls leased

theorem asked_programState : ProgramState asked := by
  refine .call _ (.call _ (.call _ (.other .empty ⟨rfl, rfl, rfl, rfl⟩) ?_) ?_) ?_ <;>
    · intro now a he; cases he

def accepting : List String → Except Exn Unit := fun _ => .ok ()

def config : OrderManagementConfig := ⟨30, 30⟩

def unread : Snapshot := ⟨.error ⟨"TimeoutError", "TimeoutError", "TimeoutError"⟩, .ok []⟩

/-- The order is where it was, nothing was sent, and the request is down. -/
theorem unread_iteration :
    let d := (Raising.eval (deskHandler accepting)
      (oneIteration opening none config (some "owner-1") (.ok unread)) ⟨asked, []⟩).2
    d.cancels = [] ∧ (d.order "client-1").map (·.status) = some .acknowledged ∧
      requestUp d.db = false := by
  decide +kernel

/-- The record of the order, open at the broker. -/
def working : OrderRecord := ⟨"K1", "005930", some .buy, 4, 0, 4, some (.fin 100), none, .unfilled, some "06010"⟩

def read : Snapshot := ⟨.ok [working], .ok []⟩

theorem parsed_working : Parsed working :=
  ⟨fun field => List.lookup field [("odno", "K1"), ("pdno", "005930"), ("sll_buy_dvsn_cd", "02"),
    ("ord_qty", "4"), ("tot_ccld_qty", "0"), ("ord_unpr", "100"), ("ord_gno_brno", "06010")],
    Except.eq_ok_of_toOption (by decide +kernel)⟩

end LostRequest

end AutoTrader
