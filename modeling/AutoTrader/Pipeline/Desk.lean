/-
  AutoTrader/Pipeline/Desk.lean
  =============================
  **Running alone, with a log of the cancellations.**

  A desk is a database and the list of cancellations sent so far, each by the local
  order it was sent for.  The broker's answer to a cancellation may depend on all
  the ones before it, so that every behaviour of the broker is one function.

  A program that sends nothing to the broker does to the desk what it does to the
  database.
-/
import AutoTrader.Pipeline.Alphabet

namespace AutoTrader

open Relational Transactional Interleave

structure Desk where
  db : Database
  cancels : List String

/-- The row of an order. -/
def Desk.order (d : Desk) (id : String) : Option BrokerOrder := d.db.brokerOrders.find? id

def deskHandler (answer : List String → Except Exn Unit) : (o : Act) → Desk → o.Reply × Desk
  | .read query, d => (query d.db, d)
  | .tryRead query, d => (.ok (query d.db), d)
  | .selectOrders query, d => (query d.db, d)
  | .call op, d => ((op.call d.db).1, { d with db := op.exec d.db })
  | .submitOrder .., d => (.ok none, d)
  | .cancelOrder id .., d => (answer d.cancels, { d with cancels := d.cancels ++ [id] })

/-- The action sends nothing to the broker. -/
def Act.isLocal : Act → Prop
  | .submitOrder .. => False
  | .cancelOrder .. => False
  | _ => True

/-- The action does not write the metadata under `key`. -/
def Act.leavesKey (key : String) : Act → Prop
  | .call (.setRuntimeMetadata _ key' _ _) => key' ≠ key
  | _ => True

theorem Act.isLocal_of_byReconcile (o : Act) (h : o.byReconcile) : o.isLocal := by
  cases o with
  | submitOrder => exact h.elim
  | cancelOrder => exact h.elim
  | _ => trivial

theorem Act.isLocal_of_byNotice (o : Act) (h : o.byNotice) : o.isLocal := by
  cases o with
  | submitOrder => exact h.elim
  | cancelOrder => exact h.elim
  | _ => trivial

section Desk

variable (answer : List String → Except Exn Unit)

theorem eval_desk_of_local (broker : BrokerReplies) {α : Type} {p : Pipeline α}
    (hp : Raising.Only (S := trading) Act.isLocal p) (d : Desk) :
    Raising.eval (deskHandler answer) p d =
      ((Raising.eval (dbHandler broker) p d.db).1,
        { d with db := (Raising.eval (dbHandler broker) p d.db).2 }) := by
  have hprog : ∀ (q : Prog trading (Except Exn α)), q.Only Act.isLocal → ∀ d : Desk,
      q.eval (deskHandler answer) d =
        ((q.eval (dbHandler broker) d.db).1, { d with db := (q.eval (dbHandler broker) d.db).2 }) := by
    intro q
    induction q with
    | ret a => intro _ d; rfl
    | act o k ih =>
      intro hq d
      cases o with
      | read query => exact ih _ (hq.2 _) _
      | tryRead query => exact ih _ (hq.2 _) _
      | selectOrders query => exact ih _ (hq.2 _) _
      | call op => exact ih _ (hq.2 _) _
      | submitOrder id request => exact hq.1.elim
      | cancelOrder id number branch quantity price => exact hq.1.elim
  exact hprog p.run hp d

/-- What a local program does to the database it does to the desk. -/
theorem ends_desk_of_local (broker : BrokerReplies) {α : Type} {p : Pipeline α}
    (hp : Raising.Only (S := trading) Act.isLocal p) {Q : α → Database → Prop}
    {E : Exn → Database → Prop} {d : Desk} (h : Raising.Ends (dbHandler broker) p Q E d.db) :
    Raising.Ends (deskHandler answer) p (fun a d' => Q a d'.db ∧ d'.cancels = d.cancels)
      (fun e d' => E e d'.db ∧ d'.cancels = d.cancels) d := by
  unfold Raising.Ends at h ⊢
  rw [eval_desk_of_local answer broker hp d]
  rcases hr : Raising.eval (dbHandler broker) p d.db with ⟨r, db'⟩
  rw [hr] at h ⊢
  cases r with
  | ok a => exact ⟨h, rfl⟩
  | error e => exact ⟨h, rfl⟩

theorem deskHandler_leavesKey {key : String} (o : Act) (d : Desk) (ho : o.leavesKey key) :
    (deskHandler answer o d).2.db.getRuntimeMetadata key = d.db.getRuntimeMetadata key := by
  cases o with
  | read query => rfl
  | tryRead query => rfl
  | selectOrders query => rfl
  | call op => exact Op.exec_metadata (fun now value at' heq => by subst heq; exact ho rfl) d.db
  | submitOrder id request => rfl
  | cancelOrder id number branch quantity price => rfl

/-- A program that does not write the key leaves its value. -/
theorem ends_desk_leavesKey {key : String} {α : Type} {p : Pipeline α}
    (hp : Raising.Only (S := trading) (Act.leavesKey key) p) {value : Option MetadataValue} {d : Desk}
    (hd : d.db.getRuntimeMetadata key = value) :
    Raising.Ends (deskHandler answer) p (fun _ d' => d'.db.getRuntimeMetadata key = value)
      (fun _ d' => d'.db.getRuntimeMetadata key = value) d :=
  Raising.Ends.of_only (fun o d ho hd => (deskHandler_leavesKey answer o d ho).trans hd) hp hd

@[simp] theorem eval_desk_select (d : Desk) {β : Type} (query : Database → β) :
    Raising.eval (deskHandler answer) (select query) d = (.ok (query d.db), d) := rfl

theorem ends_desk_select {α β : Type} {query : Database → β} {f : β → Pipeline α}
    {Q : α → Desk → Prop} {E : Exn → Desk → Prop} {d : Desk}
    (h : Raising.Ends (deskHandler answer) (f (query d.db)) Q E d) :
    Raising.Ends (deskHandler answer) (select query >>= f) Q E d := h

theorem ends_desk_selectOrders {α : Type} {query : Database → List BrokerOrder}
    {f : List BrokerOrder → Pipeline α} {Q : α → Desk → Prop} {E : Exn → Desk → Prop} {d : Desk}
    (h : Raising.Ends (deskHandler answer) (f (query d.db)) Q E d) :
    Raising.Ends (deskHandler answer) (selectOrders query >>= f) Q E d := h

theorem ends_desk_reraise {α : Type} {r : Except Exn α} {Q : α → Desk → Prop} {E : Exn → Desk → Prop}
    {d : Desk} (hok : ∀ a, r = .ok a → Q a d) (herror : ∀ e, r = .error e → E e d) :
    Raising.Ends (deskHandler answer) (reraise r) Q E d := by
  cases r with
  | ok a => exact hok a rfl
  | error e => exact herror e rfl

/-- A call by its two outcomes; one that raises leaves everything as it was. -/
theorem ends_desk_execute {op : Op} {Q : op.Reply → Desk → Prop} {E : Exn → Desk → Prop} {d : Desk}
    (hok : ∀ a, (op.call d.db).1 = .ok a → Q a { d with db := op.exec d.db })
    (herror : op.raises d.db → ∀ e, E e d) :
    Raising.Ends (deskHandler answer) (execute op) Q E d := by
  change Raising.Ends (deskHandler answer) (reraise (op.call d.db).1) Q E { d with db := op.exec d.db }
  refine ends_desk_reraise answer hok fun e he => ?_
  have hraises : op.raises d.db := ⟨e, he⟩
  rw [Op.exec_of_raises hraises]
  exact herror hraises e

theorem ends_desk_cancelOrder {id number branch : String} {quantity price : Int}
    {Q : Unit → Desk → Prop} {E : Exn → Desk → Prop} {d : Desk}
    (hok : answer d.cancels = .ok () → Q () { d with cancels := d.cancels ++ [id] })
    (herror : ∀ e, answer d.cancels = .error e → E e { d with cancels := d.cancels ++ [id] }) :
    Raising.Ends (deskHandler answer) (cancelOrder id number branch quantity price) Q E d :=
  ends_desk_reraise answer (fun _ h => hok h) herror

theorem deskHandler_leavesOrders {o : Act} (ho : o.leavesOrders) (d : Desk) (k : String) :
    (deskHandler answer o d).2.order k = d.order k := by
  cases o with
  | read query => rfl
  | tryRead query => rfl
  | selectOrders query => rfl
  | call op => exact op.exec_others d.db (by rw [show op.target = none from ho]; exact nofun)
  | submitOrder id request => rfl
  | cancelOrder id number branch quantity price => rfl

/-- A program that leaves the orders alone leaves the row of an order. -/
theorem ends_desk_leavesOrders {α : Type} {p : Pipeline α} (hp : LeavesOrders p) {k : String}
    {row : Option BrokerOrder} {d : Desk} (hd : d.order k = row) :
    Raising.Ends (deskHandler answer) p (fun _ d' => d'.order k = row) (fun _ d' => d'.order k = row) d :=
  Raising.Ends.of_only (fun _ d ho hd => (deskHandler_leavesOrders answer ho d k).trans hd) hp hd

/-- Orders and cancellations are the same. -/
structure Noted (d d' : Desk) : Prop where
  orders : d'.db.brokerOrders = d.db.brokerOrders
  cancels : d'.cancels = d.cancels

theorem Noted.order {d d' : Desk} (h : Noted d d') (k : String) : d'.order k = d.order k := by
  rw [Desk.order, h.orders]
  rfl

theorem Noted.trans {d d' d'' : Desk} (h : Noted d d') (h' : Noted d' d'') : Noted d d'' :=
  ⟨h'.orders.trans h.orders, h'.cancels.trans h.cancels⟩

/-- Writing metadata under a name never raises. -/
theorem ends_desk_setMetadata {key : String} (hkey : Text.blank key = false) (now : DateTime)
    (value : MetadataValue) (updatedAt : Option DateTime) (d : Desk) :
    Raising.Ends (deskHandler answer) (execute (.setRuntimeMetadata now key value updatedAt))
      (fun _ d' => Noted d d' ∧ d'.db.getRuntimeMetadata key = some value) (fun _ _ => False) d := by
  have hcall : (Op.setRuntimeMetadata now key value updatedAt).call d.db = (.ok (), { d.db with
      runtimeMetadata := d.db.runtimeMetadata.upsert ⟨key, value, updatedAt.getD now⟩ }) := by
    simp only [Op.call, Op.run, setRuntimeMetadata, requireNonempty_of hkey,
      Exec.run_ofExcept_ok_bind]
    rfl
  refine ends_desk_execute answer ?_ ?_
  · intro _ _
    rw [Op.exec, hcall]
    refine ⟨⟨rfl, rfl⟩, ?_⟩
    simp only [Database.getRuntimeMetadata]
    rw [Table.find?_upsert_self d.db.runtimeMetadata ⟨key, value, updatedAt.getD now⟩]
    rfl
  · rintro ⟨e, he⟩
    rw [hcall] at he
    cases he

theorem ends_desk_flagReview (now : DateTime) (d : Desk) :
    Raising.Ends (deskHandler answer) (flagReview now) (fun _ => Noted d) (fun _ _ => False) d := by
  apply Raising.Ends.bind
  refine Raising.Ends.mono (ends_desk_setMetadata answer (by decide) now _ _ d) ?_ fun _ _ he => he
  intro _ d₁ h₁
  refine Raising.Ends.mono (ends_desk_setMetadata answer (by decide) now _ _ d₁) ?_ fun _ _ he => he
  exact fun _ d₂ h₂ => h₁.1.trans h₂.1

/-- Marking a known order UNKNOWN never raises. -/
theorem ends_desk_markOrderUnknown {id error : String} (hid : Text.blank id = false)
    (herror : Text.blank error = false) (now : DateTime) (updatedAt : Option DateTime) {d : Desk}
    {o : BrokerOrder} (ho : d.order id = some o) :
    Raising.Ends (deskHandler answer) (execute (.markOrderUnknown now id (some error) updatedAt))
      (fun _ d' => d'.cancels = d.cancels ∧ d'.order id = some { o with
        status := .unknown, updatedAt := updatedAt.getD now, error := some error })
      (fun _ _ => False) d := by
  have hcall : (Op.markOrderUnknown now id (some error) updatedAt).call d.db = (.ok true, { d.db with
      brokerOrders := d.db.brokerOrders.update id (fun o => { o with
        status := .unknown, updatedAt := updatedAt.getD now, error := some error }) fun _ => rfl }) :=
    rewriteOrder_of_find? hid (requireNonempty_of herror "error") ho rfl
  refine ends_desk_execute answer ?_ ?_
  · intro _ _
    rw [Op.exec, hcall]
    refine ⟨rfl, ?_⟩
    have hfind := Table.find?_update_self d.db.brokerOrders id (fun o => { o with
      status := .unknown, updatedAt := updatedAt.getD now, error := some error }) fun _ => rfl
    rw [show d.db.brokerOrders.find? id = some o from ho] at hfind
    exact hfind
  · rintro ⟨e, he⟩
    rw [hcall] at he
    cases he

end Desk

/-! ### Programs about one order -/

/-- An action of order management about the order `id` alone. -/
def Act.concerns (id : String) : Act → Prop
  | .read _ => True
  | .tryRead _ => True
  | .selectOrders _ => True
  | .call (.updateBrokerOrderStatus _ id' _) => id' = id
  | .call (.markOrderUnknown _ id' _ _) => id' = id
  | .call (.setRuntimeMetadata _ key _ _) => ∀ k, k ≠ id → key ≠ pendingKey k
  | .cancelOrder id' .. => id' = id
  | _ => False

theorem Act.target_of_concerns {id : String} {op : Op} (h : Act.concerns id (.call op)) :
    op.target = none ∨ op.target = some id := by
  cases op with
  | updateBrokerOrderStatus now id' u => exact .inr (congrArg some h)
  | markOrderUnknown now id' error at' => exact .inr (congrArg some h)
  | setRuntimeMetadata => exact .inl rfl
  | _ => exact h.elim

theorem pendingKey_injective {id id' : String} (h : pendingKey id = pendingKey id') : id = id' := by
  have hlist := congrArg String.toList h
  unfold pendingKey at hlist
  rw [String.toList_append, String.toList_append] at hlist
  exact String.ext (List.append_cancel_left hlist)

/-- A text that starts otherwise is the key of no marker. -/
theorem ne_pendingKey {key : String} (h : key.toList.take 24 ≠ "order_management.pending".toList)
    (id : String) : key ≠ pendingKey id := by
  rintro rfl
  refine h ?_
  unfold pendingKey
  rw [String.toList_append, List.take_append_of_le_length (by decide)]
  decide

theorem confirmedKey_ne_pendingKey (symbol id : String) : confirmedKey symbol ≠ pendingKey id := by
  refine ne_pendingKey ?_ id
  unfold confirmedKey
  rw [String.toList_append, List.take_append_of_le_length (by decide)]
  decide

/-- No other order was touched, and no cancellation sent for another. -/
structure OnlyRow (id : String) (d d' : Desk) : Prop where
  others : ∀ k, k ≠ id → d'.order k = d.order k
  kept : ∀ k ∈ d.cancels, k ∈ d'.cancels
  sent : ∀ k ∈ d'.cancels, k ∈ d.cancels ∨ k = id

theorem OnlyRow.refl (id : String) (d : Desk) : OnlyRow id d d :=
  ⟨fun _ _ => rfl, fun _ hk => hk, fun _ hk => .inl hk⟩

theorem OnlyRow.trans {id : String} {d d' d'' : Desk} (h : OnlyRow id d d') (h' : OnlyRow id d' d'') :
    OnlyRow id d d'' where
  others := fun k hk => (h'.others k hk).trans (h.others k hk)
  kept := fun k hk => h'.kept k (h.kept k hk)
  sent := by
    intro k hk
    rcases h'.sent k hk with hk | hk
    · exact h.sent k hk
    · exact .inr hk

theorem deskHandler_concerns (answer : List String → Except Exn Unit) {id : String} {o : Act}
    (ho : o.concerns id) (d : Desk) : OnlyRow id d (deskHandler answer o d).2 := by
  cases o with
  | read query => exact .refl id d
  | tryRead query => exact .refl id d
  | selectOrders query => exact .refl id d
  | call op =>
    refine ⟨fun k hk => op.exec_others d.db ?_, fun _ hk => hk, fun _ hk => .inl hk⟩
    rcases Act.target_of_concerns ho with ho | ho
    · rw [ho]; exact nofun
    · rw [ho]; exact fun heq => hk (Option.some.inj heq).symm
  | submitOrder => exact ho.elim
  | cancelOrder id' number branch quantity price =>
    obtain rfl : id' = id := ho
    refine ⟨fun _ _ => rfl, fun k hk => List.mem_append_left _ hk, fun k hk => ?_⟩
    exact (List.mem_append.mp hk).imp_right List.mem_singleton.mp

abbrev Concerns (id : String) {α : Type} (p : Pipeline α) : Prop :=
  Raising.Only (S := trading) (Act.concerns id) p

theorem ends_desk_concerns (answer : List String → Except Exn Unit) {id : String} {α : Type}
    {p : Pipeline α} (hp : Concerns id p) (d : Desk) :
    Raising.Ends (deskHandler answer) p (fun _ => OnlyRow id d) (fun _ => OnlyRow id d) d :=
  Raising.Ends.of_only (fun _ d' ho hd => hd.trans (deskHandler_concerns answer ho d')) hp (.refl id d)

theorem concerns_reraise {id : String} {α : Type} (r : Except Exn α) : Concerns id (reraise r) := by
  cases r with
  | ok a => exact .pure a
  | error e => exact .throw e

theorem concerns_execute {id : String} {op : Op} (h : Act.concerns id (.call op)) :
    Concerns id (execute op) :=
  .bind (Raising.Only.ask (S := trading) (o := .call op) h) concerns_reraise

theorem concerns_cancelOrder (id number branch : String) (quantity price : Int) :
    Concerns id (cancelOrder id number branch quantity price) :=
  .bind (Raising.Only.ask (S := trading) (o := .cancelOrder id number branch quantity price) rfl)
    concerns_reraise

theorem concerns_select {id : String} {β : Type} (query : Database → β) : Concerns id (select query) :=
  Raising.Only.ask (S := trading) (o := .read query) trivial

/-- Writing metadata under another key than those of the markers. -/
theorem concerns_setMetadata {id key : String} (h : ∀ k, key ≠ pendingKey k) (now : DateTime)
    (value : MetadataValue) (updatedAt : Option DateTime) :
    Concerns id (execute (.setRuntimeMetadata now key value updatedAt)) :=
  concerns_execute fun k _ => h k

/-- Writing the marker of the order. -/
theorem concerns_setMarker (now : DateTime) (id : String) (value : MetadataValue)
    (updatedAt : Option DateTime) :
    Concerns id (execute (.setRuntimeMetadata now (pendingKey id) value updatedAt)) :=
  concerns_execute fun _ hk h => hk (pendingKey_injective h).symm

theorem concerns_markRequestUnknown (now : DateTime) (id error : String) :
    Concerns id (markRequestUnknown now id error) :=
  .bind (concerns_execute rfl) fun _ =>
    .bind (concerns_setMetadata (ne_pendingKey (by decide)) ..) fun _ =>
      concerns_setMetadata (ne_pendingKey (by decide)) ..

theorem concerns_cancelBuy (now : DateTime) (orders : List OrderRecord) (acc : CancelReport)
    (o : BrokerOrder) : Concerns o.clientOrderId (cancelBuy now orders acc o) := by
  unfold cancelBuy
  dsimp only
  split
  · exact .bind (concerns_markRequestUnknown ..) fun _ => .pure _
  split
  · exact .bind (concerns_markRequestUnknown ..) fun _ => .pure _
  split
  · exact .pure _
  split
  · exact .bind (concerns_markRequestUnknown ..) fun _ => .pure _
  · refine .bind (concerns_execute rfl) fun _ => ?_
    refine .bind (.attempt (.bind (concerns_reraise _) fun _ => concerns_cancelOrder ..)) fun r => ?_
    cases r with
    | ok u => exact .bind (concerns_setMarker ..) fun _ => .pure _
    | error e => exact .bind (concerns_markRequestUnknown ..) fun _ => .pure _

theorem concerns_markUnknown (now : DateTime) (id reason : String) :
    Concerns id (markUnknown now id reason) :=
  .bind (concerns_execute rfl) fun _ =>
    .bind (concerns_setMetadata (ne_pendingKey (by decide)) ..) fun _ =>
      .bind (concerns_setMetadata (ne_pendingKey (by decide)) ..) fun _ =>
        concerns_setMetadata (ne_pendingKey (by decide)) ..

theorem concerns_requestCancel (now : DateTime) (o : BrokerOrder) (record : OrderRecord)
    (entryBarKey : Option String) :
    Concerns o.clientOrderId (requestCancel now o record entryBarKey) :=
  .bind (concerns_reraise _) fun _ => .bind (concerns_execute rfl) fun _ =>
    .bind (concerns_cancelOrder ..) fun _ => concerns_setMarker ..

theorem concerns_reconcilePendingMarker (now : DateTime) (o : BrokerOrder)
    (record : Option OrderRecord) (marker : PendingMarker) :
    Concerns o.clientOrderId (reconcilePendingMarker now o record marker) := by
  unfold reconcilePendingMarker
  dsimp only
  split
  · exact .pure _
  split
  · exact .pure _
  split
  · exact .bind (concerns_execute rfl) fun _ =>
      .bind (concerns_setMetadata (confirmedKey_ne_pendingKey _) ..) fun _ =>
        .bind (concerns_setMarker ..) fun _ => .pure _
  · exact .bind (concerns_execute rfl) fun _ => .pure _

theorem concerns_manageActive (now : DateTime) (calendar : Calendar) (config : OrderManagementConfig)
    (entryBarKey : Option String) (record : Option OrderRecord) (o : BrokerOrder) (acc : ManageState) :
    Concerns o.clientOrderId (manageActive now calendar config entryBarKey record o acc) := by
  unfold manageActive
  dsimp only
  split
  · exact .pure _
  split
  · exact .pure _
  split
  · exact .bind (concerns_markUnknown ..) fun _ => .pure _
  split
  · exact .pure _
  split
  · exact .pure _
  split
  · exact .bind (concerns_markUnknown ..) fun _ => .pure _
  split
  · unfold cancelStale
    dsimp only
    split
    · exact .bind (concerns_markUnknown ..) fun _ => .pure _
    · refine .bind (.attempt (concerns_requestCancel ..)) fun r => ?_
      cases r with
      | ok u => exact .pure _
      | error e => exact .bind (concerns_markUnknown ..) fun _ => .pure _
  · exact .pure _

theorem concerns_manageOrder (now : DateTime) (calendar : Calendar) (config : OrderManagementConfig)
    (entryBarKey : Option String) (orders : List OrderRecord) (acc : ManageState) (o : BrokerOrder) :
    Concerns o.clientOrderId (manageOrder now calendar config entryBarKey orders acc o) := by
  unfold manageOrder
  refine .bind (concerns_select _) fun value => ?_
  split
  · refine .bind (concerns_reconcilePendingMarker ..) fun r => ?_
    cases r with
    | confirmed => exact .pure _
    | pending => exact .pure _
  · exact concerns_manageActive ..

end AutoTrader
