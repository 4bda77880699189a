/-
  AutoTrader/Ledger/Frame.lean
  ============================
  **What a call can touch.**

  `Op.call_outcome` is the inversion lemma for the whole alphabet: a call raises
  and changes nothing, or has one of seven effects.  From it: orders are appended
  and rewritten, never deleted, and keep their intent (`Op.exec_orders`); only
  `apply_broker_fill` adds a fill and only `materialize_order_fills` changes
  positions and applications (`Op.exec_ledger`); only `set_runtime_metadata`
  writes metadata.  A new method means one more case here.
-/
import AutoTrader.Storage.Operations

namespace AutoTrader

open Relational Transactional

/-! ### Orders are never deleted and keep their intent -/

/-- The columns of an order that no method rewrites. -/
structure SameIntent (o o' : BrokerOrder) : Prop where
  clientOrderId : o'.clientOrderId = o.clientOrderId
  signalId : o'.signalId = o.signalId
  symbol : o'.symbol = o.symbol
  side : o'.side = o.side
  requestedQty : o'.requestedQty = o.requestedQty
  requestedPrice : o'.requestedPrice = o.requestedPrice
  createdAt : o'.createdAt = o.createdAt

theorem SameIntent.refl (o : BrokerOrder) : SameIntent o o := ⟨rfl, rfl, rfl, rfl, rfl, rfl, rfl⟩

theorem SameIntent.trans {o o' o'' : BrokerOrder} (h : SameIntent o o') (h' : SameIntent o' o'') :
    SameIntent o o'' where
  clientOrderId := h'.clientOrderId.trans h.clientOrderId
  signalId := h'.signalId.trans h.signalId
  symbol := h'.symbol.trans h.symbol
  side := h'.side.trans h.side
  requestedQty := h'.requestedQty.trans h.requestedQty
  requestedPrice := h'.requestedPrice.trans h.requestedPrice
  createdAt := h'.createdAt.trans h.createdAt

/-- What a call can do to `broker_orders`. -/
inductive OrdersAfter (db : Database) : Table BrokerOrder BrokerOrder.clientOrderId → Prop
  | same : OrdersAfter db db.brokerOrders
  | claimed (now : DateTime) (a : IntentArgs) (row : BrokerOrder) : intentRow now a = .ok row →
      db.brokerOrders.find? row.clientOrderId = none →
      OrdersAfter db (db.brokerOrders.insertOrIgnore row).1
  | rewritten (id : String) (f : BrokerOrder → BrokerOrder)
      (hf : ∀ r, (f r).clientOrderId = r.clientOrderId) : (∀ r, SameIntent r (f r)) →
      OrdersAfter db (db.brokerOrders.update id f hf)

/-- An order is still there after any call, with the same intent. -/
theorem OrdersAfter.persists {db : Database} {t : Table BrokerOrder BrokerOrder.clientOrderId}
    (h : OrdersAfter db t) {id : String} {o : BrokerOrder}
    (ho : db.brokerOrders.find? id = some o) : ∃ o', t.find? id = some o' ∧ SameIntent o o' := by
  cases h with
  | same => exact ⟨o, ho, SameIntent.refl o⟩
  | claimed now a row hrow hfree =>
    obtain ⟨-, hrows⟩ := Table.insertOrIgnore_of_free hfree
    exact ⟨o, by rw [Table.find?_append hrows, ho]; rfl, SameIntent.refl o⟩
  | rewritten key f hf hsame =>
    rw [Table.find?_update]
    split
    · rename_i hid
      exact ⟨f o, by rw [← hid, ho]; rfl, hsame o⟩
    · exact ⟨o, ho, SameIntent.refl o⟩

/-- A SELECT of order rows lists no order twice. -/
theorem orderedRows_nodup (db : Database) (p : BrokerOrder → Bool) {first second : BrokerOrder → String} :
    ((orderedBy first second (db.brokerOrders.rows.filter p)).map (·.clientOrderId)).Nodup := by
  have hperm : (orderedBy first second (db.brokerOrders.rows.filter p)).Perm
      (db.brokerOrders.rows.filter p) := List.perm_insertionSort _ _
  exact ((hperm.map _).nodup_iff).mpr
    (db.brokerOrders.nodup.sublist (List.filter_sublist.map _))

/-! ### The bookings of one call -/

/-- The database after booking one fill and recording it. -/
def bookedOnce (now : DateTime) (order : BrokerOrder) (fill : BrokerFill)
    (t : Table LivePosition LivePosition.positionId) (db : Database) : Database :=
  { db with
    livePositions := t
    fillApplications :=
      (db.fillApplications.insertOrIgnore ⟨fill.fillId, order.clientOrderId, now⟩).1 }

/-- The bookings of a list of fills, one after the other. -/
inductive Booked (now : DateTime) (c : CheckedMaterialize) (order : BrokerOrder) :
    List BrokerFill → Database → Database → Prop
  | nil (db : Database) : Booked now c order [] db db
  | cons {fill : BrokerFill} {rest : List BrokerFill} {db db' : Database}
      {t : Table LivePosition LivePosition.positionId} :
      db.fillApplications.find? fill.fillId = none → Booking c order fill db t →
      Booked now c order rest (bookedOnce now order fill t db) db' →
      Booked now c order (fill :: rest) db db'

/-- A loop that goes through books every fill of its list. -/
theorem booked_of_loop {now : DateTime} {c : CheckedMaterialize} {order : BrokerOrder}
    (fills : List BrokerFill) {n n' : Nat} {db db' : Database}
    (h : (fills.foldlM (applyFillStep now c order) n).run db = (.ok n', db')) :
    Booked now c order fills db db' ∧ n' = n + fills.length := by
  induction fills generalizing n db with
  | nil =>
    simp only [List.foldlM_nil, Exec.run_pure, Prod.mk.injEq, Except.ok.injEq] at h
    obtain ⟨rfl, rfl⟩ := h
    exact ⟨.nil db, rfl⟩
  | cons fill rest ih =>
    rw [List.foldlM_cons] at h
    obtain ⟨n₁, db₁, hstep, hrest⟩ := Exec.run_bind_eq_ok h
    obtain ⟨rfl, hfree, t, hbook, rfl⟩ := applyFillStep_ok hstep
    obtain ⟨hbooked, hn⟩ := ih hrest
    refine ⟨.cons hfree hbook hbooked, ?_⟩
    simp only [List.length_cons]
    omega

/-- What a list of bookings leaves alone, and the rows it records. -/
theorem Booked.frame {now : DateTime} {c : CheckedMaterialize} {order : BrokerOrder}
    {fills : List BrokerFill} {db db' : Database} (h : Booked now c order fills db db') :
    db' = { db with livePositions := db'.livePositions, fillApplications := db'.fillApplications } ∧
    db'.fillApplications.rows = db.fillApplications.rows ++
      fills.map fun f => ⟨f.fillId, order.clientOrderId, now⟩ := by
  induction h with
  | nil db => exact ⟨rfl, by simp⟩
  | @cons fill rest db db' t hfree _ _ ih =>
    obtain ⟨hframe, hrows⟩ := ih
    obtain ⟨-, hone⟩ := Table.insertOrIgnore_of_free
      (r := (⟨fill.fillId, order.clientOrderId, now⟩ : FillApplication)) hfree
    refine ⟨hframe, ?_⟩
    rw [hrows]
    simp only [bookedOnce, hone, List.map_cons, List.append_assoc, List.singleton_append]

theorem materializeOrderFills_ok {now : DateTime} {a : MaterializeArgs} {db db' : Database} {n : Nat}
    (h : (materializeOrderFills now a).run db = (.ok n, db')) :
    ∃ c order, checkMaterialize a = .ok c ∧ db.brokerOrders.find? a.clientOrderId = some order ∧
      Booked now c order (db.unappliedFills a.clientOrderId) db db' ∧
      n = (db.unappliedFills a.clientOrderId).length := by
  rcases materializeOrderFills_cases now a db with ⟨e, hr⟩ | ⟨c, order, m, db₁, hc, horder, hloop, hr⟩
  · rw [hr] at h; cases h
  · rw [hr] at h
    simp only [Prod.mk.injEq, Except.ok.injEq] at h
    obtain ⟨rfl, rfl⟩ := h
    obtain ⟨hbooked, hn⟩ := booked_of_loop _ hloop
    exact ⟨c, order, hc, horder, hbooked, by omega⟩

/-! ### The alphabet -/

theorem setRuntimeMetadata_cases (now : DateTime) (key : String) (value : MetadataValue)
    (updatedAt : Option DateTime) (db : Database) :
    (∃ e, (setRuntimeMetadata now key value updatedAt).run db = (.error e, db)) ∨
    (setRuntimeMetadata now key value updatedAt).run db =
      (.ok (), { db with
        runtimeMetadata := db.runtimeMetadata.upsert ⟨key, value, updatedAt.getD now⟩ }) := by
  unfold setRuntimeMetadata
  cases requireNonempty key "key" with
  | error e => exact Or.inl ⟨e, rfl⟩
  | ok _ => exact Or.inr rfl

/-- An audit raises, is skipped, or is inserted unless its id is taken. -/
theorem recordBrokerOrderAudit_cases (now : DateTime) (a : AuditArgs) (db : Database) :
    (∃ e, (recordBrokerOrderAudit now a).run db = (.error e, db)) ∨
    (a.price.value = .nan ∧ (recordBrokerOrderAudit now a).run db = (.ok false, db)) ∨
    (∃ row, auditRow now a = .ok row ∧ a.price.value ≠ .nan ∧ (recordBrokerOrderAudit now a).run db =
      (.ok (db.brokerOrderAudits.insertOrIgnore row).2,
        { db with brokerOrderAudits := (db.brokerOrderAudits.insertOrIgnore row).1 })) := by
  unfold recordBrokerOrderAudit
  cases hrow : auditRow now a with
  | error e => exact .inl ⟨e, rfl⟩
  | ok row =>
    have hprice : row.price = a.price := by
      unfold auditRow at hrow
      obtain ⟨_, -, hrow⟩ := Except.bind_eq_ok hrow
      split at hrow
      · cases hrow
      · cases hrow; rfl
    rw [Exec.run_ofExcept_ok_bind, hprice, Exec.run_ite]
    by_cases hnan : a.price.value = .nan
    · rw [if_pos hnan]
      exact .inr (.inl ⟨hnan, rfl⟩)
    · rw [if_neg hnan]
      exact .inr (.inr ⟨row, rfl, hnan, rfl⟩)

/-- The order whose row a call writes. -/
def Op.target : Op → Option String
  | .claimOrderIntent _ a => some a.clientOrderId
  | .markOrderSubmitting _ id _ => some id
  | .recordOrderSubmission _ id _ _ => some id
  | .markOrderUnknown _ id _ _ => some id
  | .updateBrokerOrderStatus _ id _ => some id
  | .applyBrokerFill _ a => some a.clientOrderId
  | .materializeOrderFills .. => none
  | .setRuntimeMetadata .. => none
  | .recordBrokerOrderAudit .. => none

/-- What a call that returns makes of the database. -/
inductive OpEffect (op : Op) (db : Database) : Database → Prop
  | same : OpEffect op db db
  | claimed (now : DateTime) (a : IntentArgs) (row : BrokerOrder) : op = .claimOrderIntent now a →
      intentRow now a = .ok row → db.brokerOrders.find? row.clientOrderId = none →
      OpEffect op db { db with brokerOrders := (db.brokerOrders.insertOrIgnore row).1 }
  | rewritten (id : String) (f : BrokerOrder → BrokerOrder)
      (hf : ∀ r, (f r).clientOrderId = r.clientOrderId) : op.target = some id →
      (∀ r, SameIntent r (f r)) →
      OpEffect op db { db with brokerOrders := db.brokerOrders.update id f hf }
  | filled (now : DateTime) (a : FillArgs) (c : CheckedFill) (order : BrokerOrder) :
      op = .applyBrokerFill now a → checkFill a = .ok c →
      db.brokerOrders.find? a.clientOrderId = some order → db.brokerFills.find? a.fillId = none →
      order.filledQty + c.quantity.val ≤ order.requestedQty →
      OpEffect op db { db with
        brokerFills := (db.brokerFills.insertOrIgnore (fillRow now a c order)).1
        brokerOrders := db.brokerOrders.update a.clientOrderId (rollFill (fillRow now a c order))
          (rollFill_clientOrderId _) }
  | booked (now : DateTime) (a : MaterializeArgs) (c : CheckedMaterialize) (order : BrokerOrder)
      (db' : Database) : op = .materializeOrderFills now a → checkMaterialize a = .ok c →
      db.brokerOrders.find? a.clientOrderId = some order →
      Booked now c order (db.unappliedFills a.clientOrderId) db db' → OpEffect op db db'
  | noted (now : DateTime) (key : String) (value : MetadataValue) (updatedAt : Option DateTime) :
      op = .setRuntimeMetadata now key value updatedAt →
      OpEffect op db { db with
        runtimeMetadata := db.runtimeMetadata.upsert ⟨key, value, updatedAt.getD now⟩ }
  | audited (row : BrokerOrderAudit) :
      OpEffect op db { db with brokerOrderAudits := (db.brokerOrderAudits.insertOrIgnore row).1 }

/-- A call raises and leaves the whole database as it was, or returns. -/
inductive Op.Outcome {α : Type} (op : Op) (db : Database) : Except Exn α × Database → Prop
  | raised (e : Exn) : Outcome op db (.error e, db)
  | returned (reply : α) {db' : Database} : OpEffect op db db' → Outcome op db (.ok reply, db')

theorem rewriteOrder_outcome (op : Op) {id : String} (hop : op.target = some id)
    {check : Except Exn Unit} {cond : BrokerOrder → Bool} {f : BrokerOrder → BrokerOrder}
    {hf : ∀ r, (f r).clientOrderId = r.clientOrderId} (h : ∀ r, SameIntent r (f r)) (db : Database) :
    op.Outcome db ((rewriteOrder id check cond f hf).run db) := by
  rcases rewriteOrder_cases id check cond f hf db with ⟨e, hrun⟩ | ⟨-, hrun⟩ | ⟨o, -, -, hrun⟩
  · rw [hrun]
    exact .raised e
  · rw [hrun]
    exact .returned false .same
  · rw [hrun]
    exact .returned true (.rewritten id f hf hop h)

/-- What a call can do, for the whole alphabet. -/
theorem Op.call_outcome (op : Op) (db : Database) : op.Outcome db (op.call db) := by
  cases op with
  | claimOrderIntent now a =>
    simp only [Op.call, Op.run]
    rcases claimOrderIntent_cases now a db with ⟨e, hr⟩ | ⟨-, hr⟩ | ⟨row, hrow, hfree, hr⟩
    · rw [hr]; exact .raised e
    · rw [hr]; exact .returned _ .same
    · rw [hr]; exact .returned _ (.claimed now a row rfl hrow hfree)
  | markOrderSubmitting now id at' =>
    refine rewriteOrder_outcome (.markOrderSubmitting now id at') rfl (fun r => ?_) db
    exact ⟨rfl, rfl, rfl, rfl, rfl, rfl, rfl⟩
  | recordOrderSubmission now id broker at' =>
    refine rewriteOrder_outcome (.recordOrderSubmission now id broker at') rfl (fun r => ?_) db
    exact ⟨rfl, rfl, rfl, rfl, rfl, rfl, rfl⟩
  | markOrderUnknown now id error at' =>
    refine rewriteOrder_outcome (.markOrderUnknown now id error at') rfl (fun r => ?_) db
    exact ⟨rfl, rfl, rfl, rfl, rfl, rfl, rfl⟩
  | updateBrokerOrderStatus now id u =>
    simp only [Op.call, Op.run]
    rcases updateBrokerOrderStatus_cases now id u db with
      ⟨e, hr⟩ | ⟨c, -, -, hr⟩ | ⟨o, c, -, -, -, hr⟩
    · rw [hr]; exact .raised e
    · rw [hr]; exact .returned _ .same
    · rw [hr]
      exact .returned _ (.rewritten id _ _ rfl fun r => ⟨rfl, rfl, rfl, rfl, rfl, rfl, rfl⟩)
  | applyBrokerFill now a =>
    simp only [Op.call, Op.run]
    rcases applyBrokerFill_cases now a db with
      ⟨e, hr⟩ | ⟨-, hr⟩ | ⟨c, order, hc, horder, hfree, hfit, hr⟩
    · rw [hr]; exact .raised e
    · rw [hr]; exact .returned _ .same
    · rw [hr]; exact .returned _ (.filled now a c order rfl hc horder hfree hfit)
  | materializeOrderFills now a =>
    simp only [Op.call, Op.run]
    rcases materializeOrderFills_cases now a db with ⟨e, hr⟩ | ⟨c, order, n, db', hc, horder, hloop, hr⟩
    · rw [hr]; exact .raised e
    · rw [hr]; exact .returned _ (.booked now a c order db' rfl hc horder (booked_of_loop _ hloop).1)
  | setRuntimeMetadata now key value at' =>
    simp only [Op.call, Op.run]
    rcases setRuntimeMetadata_cases now key value at' db with ⟨e, hr⟩ | hr
    · rw [hr]; exact .raised e
    · rw [hr]; exact .returned _ (.noted now key value at' rfl)
  | recordBrokerOrderAudit now a =>
    simp only [Op.call, Op.run]
    rcases recordBrokerOrderAudit_cases now a db with ⟨e, hr⟩ | ⟨-, hr⟩ | ⟨row, -, -, hr⟩
    · rw [hr]; exact .raised e
    · rw [hr]; exact .returned _ .same
    · rw [hr]; exact .returned _ (.audited row)

theorem Op.exec_effect (op : Op) (db : Database) : OpEffect op db (op.exec db) := by
  have h := op.call_outcome db
  unfold Op.exec
  generalize op.call db = r at h
  cases h with
  | raised e => exact .same
  | returned reply heffect => exact heffect

theorem Op.exec_orders (op : Op) (db : Database) : OrdersAfter db (op.exec db).brokerOrders := by
  have h := op.exec_effect db
  generalize op.exec db = db' at h ⊢
  cases h with
  | same => exact .same
  | claimed now a row _ hrow hfree => exact .claimed now a row hrow hfree
  | rewritten id f hf _ hsame => exact .rewritten id f hf hsame
  | filled now a c order =>
    exact .rewritten a.clientOrderId _ (rollFill_clientOrderId _)
      fun r => ⟨rfl, rfl, rfl, rfl, rfl, rfl, rfl⟩
  | booked now a c order _ _ _ _ hbooked =>
    rw [hbooked.frame.1]
    exact .same
  | noted => exact .same
  | audited => exact .same

/-- A call leaves every other row alone. -/
theorem Op.exec_others (op : Op) (db : Database) {k : String} (hk : op.target ≠ some k) :
    (op.exec db).brokerOrders.find? k = db.brokerOrders.find? k := by
  have h := op.exec_effect db
  generalize op.exec db = db' at h ⊢
  cases h with
  | same => rfl
  | claimed now a row hop hrow hfree =>
    have hne : row.clientOrderId ≠ k := by
      rw [(intentRow_ok hrow).1]
      exact fun h => hk (by rw [hop, Op.target, h])
    simp only
    rw [Table.find?_append (Table.insertOrIgnore_of_free hfree).2, if_neg hne, Option.or_none]
  | rewritten id f hf hop =>
    exact Table.find?_update_ne _ (fun h => hk (by rw [hop, h])) f hf
  | filled now a c order hop =>
    exact Table.find?_update_ne _ (fun h => hk (by rw [hop, Op.target, h])) _ (rollFill_clientOrderId _)
  | booked now a c order _ _ _ _ hbooked => rw [hbooked.frame.1]
  | noted => rfl
  | audited => rfl

/-- What a call can do to fills, positions and applications. -/
inductive LedgerAfter (db db' : Database) : Prop
  | same : db'.brokerFills = db.brokerFills → db'.livePositions = db.livePositions →
      db'.fillApplications = db.fillApplications → LedgerAfter db db'
  | filled (now : DateTime) (a : FillArgs) (c : CheckedFill) (order : BrokerOrder) :
      checkFill a = .ok c → db.brokerOrders.find? a.clientOrderId = some order →
      db.brokerFills.find? a.fillId = none →
      order.filledQty + c.quantity.val ≤ order.requestedQty →
      db' = { db with
        brokerFills := (db.brokerFills.insertOrIgnore (fillRow now a c order)).1
        brokerOrders := db.brokerOrders.update a.clientOrderId (rollFill (fillRow now a c order))
          (rollFill_clientOrderId _) } → LedgerAfter db db'
  | booked (now : DateTime) (a : MaterializeArgs) (c : CheckedMaterialize) (order : BrokerOrder) :
      checkMaterialize a = .ok c → db.brokerOrders.find? a.clientOrderId = some order →
      Booked now c order (db.unappliedFills a.clientOrderId) db db' → LedgerAfter db db'

theorem Op.exec_ledger (op : Op) (db : Database) : LedgerAfter db (op.exec db) := by
  have h := op.exec_effect db
  generalize op.exec db = db' at h ⊢
  cases h with
  | same => exact .same rfl rfl rfl
  | claimed => exact .same rfl rfl rfl
  | rewritten => exact .same rfl rfl rfl
  | filled now a c order _ hc horder hfree hfit => exact .filled now a c order hc horder hfree hfit rfl
  | booked now a c order _ _ hc horder hbooked => exact .booked now a c order hc horder hbooked
  | noted => exact .same rfl rfl rfl
  | audited => exact .same rfl rfl rfl

/-- Only `apply_broker_fill` adds fills. -/
theorem Op.exec_fills {op : Op} (h : ∀ now a, op ≠ .applyBrokerFill now a) (db : Database) :
    (op.exec db).brokerFills = db.brokerFills := by
  have heffect := op.exec_effect db
  generalize op.exec db = db' at heffect ⊢
  cases heffect with
  | same => rfl
  | claimed => rfl
  | rewritten => rfl
  | filled now a c order hop => exact absurd hop (h now a)
  | booked now a c order _ _ _ _ hbooked => rw [hbooked.frame.1]
  | noted => rfl
  | audited => rfl

/-- Only `materialize_order_fills` changes positions. -/
theorem Op.exec_livePositions {op : Op} (h : ∀ now a, op ≠ .materializeOrderFills now a)
    (db : Database) : (op.exec db).livePositions = db.livePositions := by
  have heffect := op.exec_effect db
  generalize op.exec db = db' at heffect ⊢
  cases heffect with
  | booked now a c order _ hop => exact absurd hop (h now a)
  | same => rfl
  | claimed => rfl
  | rewritten => rfl
  | filled => rfl
  | noted => rfl
  | audited => rfl

/-- What a position keeps, whatever is booked. -/
structure SameEntry (p p' : LivePosition) : Prop where
  signalId : p'.signalId = p.signalId
  symbol : p'.symbol = p.symbol

/-- A position is still there after a booking. -/
theorem Booking.persists {c : CheckedMaterialize} {order : BrokerOrder} {fill : BrokerFill}
    {db : Database} {t : Table LivePosition LivePosition.positionId} (h : Booking c order fill db t)
    {id : String} {p : LivePosition} (hp : db.livePositions.find? id = some p) :
    ∃ p', t.find? id = some p' ∧ SameEntry p p' := by
  have hupdate : ∀ (old : LivePosition) (f : LivePosition → LivePosition)
      (hf : ∀ r, (f r).positionId = r.positionId), (∀ r, SameEntry r (f r)) →
      ∃ p', (db.livePositions.update old.positionId f hf).find? id = some p' ∧ SameEntry p p' := by
    intro old f hf hsame
    rw [Table.find?_update]
    split
    · rename_i hid
      exact ⟨f p, by rw [← hid, hp]; rfl, hsame p⟩
    · exact ⟨p, hp, rfl, rfl⟩
  cases h with
  | opened stop take _ _ _ _ _ _ _ hfree =>
    obtain ⟨-, hrows⟩ := Table.insertOrIgnore_of_free hfree
    exact ⟨p, by rw [Table.find?_append hrows, hp]; rfl, rfl, rfl⟩
  | enlarged old => exact hupdate old _ _ fun _ => ⟨rfl, rfl⟩
  | closed old => exact hupdate old _ _ fun _ => ⟨rfl, rfl⟩
  | reduced old => exact hupdate old _ _ fun _ => ⟨rfl, rfl⟩

theorem Booked.persists {now : DateTime} {c : CheckedMaterialize} {order : BrokerOrder}
    {fills : List BrokerFill} {db db' : Database} (h : Booked now c order fills db db')
    {id : String} {p : LivePosition} (hp : db.livePositions.find? id = some p) :
    ∃ p', db'.livePositions.find? id = some p' ∧ SameEntry p p' := by
  induction h generalizing p with
  | nil => exact ⟨p, hp, rfl, rfl⟩
  | cons _ hbook _ ih =>
    obtain ⟨p₁, hp₁, hsame₁⟩ := hbook.persists hp
    obtain ⟨p₂, hp₂, hsame₂⟩ := ih hp₁
    exact ⟨p₂, hp₂, hsame₂.signalId.trans hsame₁.signalId, hsame₂.symbol.trans hsame₁.symbol⟩

/-- What no call takes away: orders with their intent, positions with their entry. -/
structure LedgersKept (db db' : Database) : Prop where
  orders : ∀ id o, db.brokerOrders.find? id = some o →
    ∃ o', db'.brokerOrders.find? id = some o' ∧ SameIntent o o'
  positions : ∀ id p, db.livePositions.find? id = some p →
    ∃ p', db'.livePositions.find? id = some p' ∧ SameEntry p p'

theorem LedgersKept.refl (db : Database) : LedgersKept db db where
  orders := fun _ o ho => ⟨o, ho, .refl o⟩
  positions := fun _ p hp => ⟨p, hp, rfl, rfl⟩

theorem LedgersKept.trans {db db' db'' : Database} (h : LedgersKept db db')
    (h' : LedgersKept db' db'') : LedgersKept db db'' where
  orders := by
    intro id o ho
    obtain ⟨o₁, ho₁, hsame₁⟩ := h.orders id o ho
    obtain ⟨o₂, ho₂, hsame₂⟩ := h'.orders id o₁ ho₁
    exact ⟨o₂, ho₂, hsame₁.trans hsame₂⟩
  positions := by
    intro id p hp
    obtain ⟨p₁, hp₁, hsame₁⟩ := h.positions id p hp
    obtain ⟨p₂, hp₂, hsame₂⟩ := h'.positions id p₁ hp₁
    exact ⟨p₂, hp₂, hsame₂.signalId.trans hsame₁.signalId, hsame₂.symbol.trans hsame₁.symbol⟩

theorem Op.exec_kept (op : Op) (db : Database) : LedgersKept db (op.exec db) where
  orders := fun _ _ ho => (op.exec_orders db).persists ho
  positions := by
    intro id p hp
    have hledger := op.exec_ledger db
    generalize op.exec db = db' at hledger ⊢
    cases hledger with
    | same _ hpositions => exact ⟨p, by rw [hpositions]; exact hp, rfl, rfl⟩
    | filled now a c order _ _ _ _ hdb => exact ⟨p, by rw [hdb]; exact hp, rfl, rfl⟩
    | booked now a c order _ _ hbooked => exact hbooked.persists hp

/-- Only `set_runtime_metadata` writes metadata. -/
theorem Op.exec_metadata {op : Op} {key : String}
    (h : ∀ now value at', op ≠ .setRuntimeMetadata now key value at') (db : Database) :
    (op.exec db).getRuntimeMetadata key = db.getRuntimeMetadata key := by
  have heffect := op.exec_effect db
  generalize op.exec db = db' at heffect ⊢
  cases heffect with
  | same => rfl
  | claimed => rfl
  | rewritten => rfl
  | filled => rfl
  | booked now a c order _ _ _ _ hbooked => rw [hbooked.frame.1]; rfl
  | noted now key' value at' hop =>
    have hne : key ≠ key' := fun hkey => h now value at' (by rw [hop, hkey])
    simp only [Database.getRuntimeMetadata]
    rw [Table.find?_upsert_ne _ hne]
  | audited => rfl

/-- No call of the ledgers touches the approval requests. -/
theorem Op.exec_approvalRequests (op : Op) (db : Database) :
    (op.exec db).approvalRequests = db.approvalRequests := by
  have heffect := op.exec_effect db
  generalize op.exec db = db' at heffect ⊢
  cases heffect with
  | same => rfl
  | claimed => rfl
  | rewritten => rfl
  | filled => rfl
  | booked now a c order _ _ _ _ hbooked => rw [hbooked.frame.1]
  | noted => rfl
  | audited => rfl

/-- A call that raises leaves the whole database as it was. -/
theorem Op.exec_of_raises {op : Op} {db : Database} (h : op.raises db) : op.exec db = db := by
  obtain ⟨e, he⟩ := h
  have houtcome := op.call_outcome db
  unfold Op.exec
  generalize op.call db = r at he houtcome
  cases houtcome with
  | raised e' => rfl
  | returned reply heffect => cases he

end AutoTrader
