/-
  AutoTrader/Safety/CancelOnce.lean
  =================================
  **How often a cancellation is sent for an order.**

  That a cancellation was sent is remembered in the row, as CANCEL_PENDING or UNKNOWN,
  and, once the broker accepted it, in a marker.  An ambiguous answer leaves no marker;
  the next reconciliation copies the broker's open record over UNKNOWN, and the
  order is stale again.  The operator's request does not look at the marker, so that a
  fill notice, which replaces CANCEL_PENDING by PARTIALLY_FILLED, is enough for it.

  The argument follows one order through a pass: the other iterations of the three
  loops leave it alone, and its own iteration sends nothing if the memory holds.
-/
import AutoTrader.Safety.CancelRequest

namespace AutoTrader

open Relational Transactional Interleave

/-! ### What an order can be spared -/

/-- The action touches neither the row nor the marker of the order `k`, and sends no
    cancellation for it. -/
def Act.spares (k : String) : Act → Prop
  | .call op => op.target ≠ some k ∧ (Act.call op).leavesKey (pendingKey k)
  | .cancelOrder id .. => id ≠ k
  | _ => True

/-- The row, the marker and the cancellations of the order `k` are the same. -/
structure Spared (k : String) (d d' : Desk) : Prop where
  row : d'.order k = d.order k
  marker : d'.db.getRuntimeMetadata (pendingKey k) = d.db.getRuntimeMetadata (pendingKey k)
  count : d'.cancels.count k = d.cancels.count k

theorem Spared.refl (k : String) (d : Desk) : Spared k d d := ⟨rfl, rfl, rfl⟩

theorem Spared.trans {k : String} {d d' d'' : Desk} (h : Spared k d d') (h' : Spared k d' d'') :
    Spared k d d'' :=
  ⟨h'.row.trans h.row, h'.marker.trans h.marker, h'.count.trans h.count⟩

section Spares

variable (answer : List String → Except Exn Unit)

theorem deskHandler_spares {k : String} {o : Act} (ho : o.spares k) (d : Desk) :
    Spared k d (deskHandler answer o d).2 := by
  cases o with
  | call op =>
    exact ⟨op.exec_others d.db fun h => ho.1 h, deskHandler_leavesKey answer (.call op) d ho.2, rfl⟩
  | cancelOrder id number branch quantity price =>
    refine ⟨rfl, rfl, ?_⟩
    change (d.cancels ++ [id]).count k = d.cancels.count k
    have hne : ¬(id == k) = true := by simpa using show id ≠ k from ho
    rw [List.count_append, List.count_singleton, if_neg hne, Nat.add_zero]
  | _ => exact .refl k d

abbrev Spares (k : String) {α : Type} (p : Pipeline α) : Prop :=
  Raising.Only (S := trading) (Act.spares k) p

theorem Spares.ends {k : String} {α : Type} {p : Pipeline α} (hp : Spares k p) (d : Desk) :
    Raising.Ends (deskHandler answer) p (fun _ => Spared k d) (fun _ => Spared k d) d :=
  Raising.Ends.of_only (fun _ d' ho hd => hd.trans (deskHandler_spares answer ho d')) hp (.refl k d)

end Spares

theorem spares_setMetadata {k key : String} (h : key ≠ pendingKey k) (now : DateTime)
    (value : MetadataValue) (updatedAt : Option DateTime) :
    Spares k (execute (.setRuntimeMetadata now key value updatedAt)) := by
  refine .bind (Raising.Only.ask (S := trading)
    (o := .call (.setRuntimeMetadata now key value updatedAt)) ⟨nofun, h⟩) fun r => ?_
  cases r with
  | ok a => exact .pure a
  | error e => exact .throw e

theorem spares_flagReview (k : String) (now : DateTime) : Spares k (flagReview now) :=
  .bind (spares_setMetadata (ne_pendingKey (by decide) k) ..) fun _ =>
    spares_setMetadata (ne_pendingKey (by decide) k) ..

theorem Act.spares_of_concerns {id k : String} (hne : k ≠ id) (o : Act) (h : o.concerns id) :
    o.spares k := by
  cases o with
  | call op =>
    refine ⟨?_, ?_⟩
    · rcases Act.target_of_concerns h with htarget | htarget <;> rw [htarget]
      · exact nofun
      · exact fun heq => hne (Option.some.inj heq).symm
    · cases op with
      | setRuntimeMetadata now key value at' => exact h k hne
      | _ => trivial
  | cancelOrder => exact fun heq => hne (heq.symm.trans h)
  | submitOrder => exact h.elim
  | _ => trivial

/-! ### The reconciliation, order by order -/

/-- The action writes no row but that of the order `id`. -/
def Act.onRow (id : String) : Act → Prop
  | .call op => op.target = none ∨ op.target = some id
  | _ => True

abbrev OnRow (id : String) {α : Type} (p : Pipeline α) : Prop :=
  Raising.Only (S := trading) (Act.onRow id) p

theorem LeavesOrders.onRow {α : Type} {p : Pipeline α} (hp : LeavesOrders p) (id : String) :
    OnRow id p := by
  refine Raising.Only.mono (fun o ho => ?_) hp
  cases o with
  | call op => exact .inl ho
  | _ => trivial

theorem onRow_execute {id : String} {op : Op} (h : op.target = some id) : OnRow id (execute op) :=
  .bind (Raising.Only.ask (S := trading) (o := .call op) (.inr h)) fun r =>
    (leavesOrders_reraise r).onRow id

theorem onRow_settleOrder (now : DateTime) (o : BrokerOrder) (record : OrderRecord) (acc : PassState) :
    OnRow o.clientOrderId (settleOrder now o record acc) := by
  unfold settleOrder
  split
  · exact .pure _
  · refine .bind (onRow_execute rfl) fun updated => ?_
    refine .bind (.attempt ((leavesOrders_materializeLocalFills now o).onRow _)) fun r => ?_
    cases r with
    | ok n => exact .pure _
    | error e => exact .pure _

theorem onRow_bookDifference (now : DateTime) (o : BrokerOrder) (record : OrderRecord)
    (acc : PassState) : OnRow o.clientOrderId (bookDifference now o record acc) := by
  unfold bookDifference
  dsimp only
  split
  · exact onRow_settleOrder ..
  · refine .bind ((leavesOrders_reraise _).onRow _) fun price => ?_
    refine .bind (.attempt (onRow_execute rfl)) fun r => ?_
    cases r with
    | ok inserted => exact onRow_settleOrder ..
    | error e => exact .pure _

theorem onRow_reconcileOrder (now : DateTime) (orders : List OrderRecord) (acc : PassState)
    (o : BrokerOrder) : OnRow o.clientOrderId (reconcileOrder now orders acc o) := by
  unfold reconcileOrder
  dsimp only
  split
  · exact .pure _
  split
  · exact .pure _
  split
  · exact .pure _
  split
  · exact .pure _
  split
  · exact .pure _
  · exact onRow_bookDifference ..

theorem Act.leavesMarkers_of_byReconcile (k : String) (o : Act) (h : o.byReconcile) :
    o.leavesKey (pendingKey k) := by
  cases o with
  | call op =>
    cases op with
    | setRuntimeMetadata now key value at' =>
      have hkey : key ∈ reviewKeys := h
      simp only [reviewKeys, List.mem_cons, List.not_mem_nil, or_false] at hkey
      rcases hkey with rfl | rfl
      · exact ne_pendingKey (by decide) k
      · exact ne_pendingKey (by decide) k
    | _ => trivial
  | _ => trivial

/-- The iteration over another order spares `k`. -/
theorem spares_reconcileOrder {k : String} (now : DateTime) (orders : List OrderRecord) (acc : PassState)
    {o : BrokerOrder} (hne : k ≠ o.clientOrderId) : Spares k (reconcileOrder now orders acc o) := by
  refine Raising.Only.mono ?_
    ((byReconcile_reconcileOrder now orders acc o).and (onRow_reconcileOrder now orders acc o))
  rintro act ⟨hby, hon⟩
  cases act with
  | call op =>
    refine ⟨?_, Act.leavesMarkers_of_byReconcile k _ hby⟩
    rcases hon with hon | hon <;> rw [hon]
    · exact nofun
    · exact fun heq => hne (Option.some.inj heq).symm
  | cancelOrder => exact hby.elim
  | _ => trivial

section Rows

variable (answer : List String → Except Exn Unit)

/-- A loop over rows in which every iteration but its own spares `k`. -/
theorem ends_rowLoop {k : String} {α : Type} {f : α → BrokerOrder → Pipeline α}
    {rows : List BrokerOrder} (hnodup : (rows.map (·.clientOrderId)).Nodup) {A E : Desk → Prop}
    (hA : ∀ d d', Spared k d d' → A d → A d') (hE : ∀ d d', Spared k d d' → E d → E d')
    (hAE : ∀ d, A d → E d) {s : Desk}
    (hother : ∀ x ∈ rows, k ≠ x.clientOrderId → ∀ acc, Spares k (f acc x))
    (hown : ∀ x ∈ rows, x.clientOrderId = k → ∀ acc d, Spared k s d →
      Raising.Ends (deskHandler answer) (f acc x) (fun _ => A) (fun _ => E) d)
    (hnone : (∀ x ∈ rows, k ≠ x.clientOrderId) → A s) (hstart : E s) (acc : α) :
    Raising.Ends (deskHandler answer) (rows.foldlM f acc) (fun _ => A) (fun _ => E) s := by
  have hloop := Raising.Ends.foldlM (h := deskHandler answer) (f := f) (E := fun _ => E)
    (I := fun rest _ d => (rest.map (·.clientOrderId)).Nodup ∧ (∀ x ∈ rest, x ∈ rows) ∧
      ((Spared k s d ∧ ∃ x ∈ rest, x.clientOrderId = k) ∨
        (A d ∧ ∀ x ∈ rest, k ≠ x.clientOrderId))) ?_ rows (a := acc) (s := s) ?_
  · refine Raising.Ends.mono hloop ?_ fun _ _ h => h
    rintro acc' d ⟨-, -, hturn⟩
    rcases hturn with ⟨-, x, hx, -⟩ | ⟨ha, -⟩
    · cases hx
    · exact ha
  · rintro x rest acc' d ⟨hnodup', hsub, hturn⟩
    rw [List.map_cons, List.nodup_cons] at hnodup'
    have hx : x ∈ rows := hsub x List.mem_cons_self
    have hsub' : ∀ y ∈ rest, y ∈ rows := fun y hy => hsub y (List.mem_cons_of_mem _ hy)
    rcases hturn with ⟨hspared, y, hy, hyk⟩ | ⟨ha, hrest⟩
    · by_cases hxk : x.clientOrderId = k
      · -- its own turn
        refine Raising.Ends.mono (hown x hx hxk acc' d hspared) ?_ fun _ _ h => h
        refine fun _ d' ha => ⟨hnodup'.2, hsub', .inr ⟨ha, fun z hz heq => ?_⟩⟩
        exact hnodup'.1 (List.mem_map.mpr ⟨z, hz, heq.symm.trans hxk.symm⟩)
      · refine Raising.Ends.mono (Spares.ends answer (hother x hx (Ne.symm hxk) acc') d) ?_ ?_
        · refine fun _ d' h => ⟨hnodup'.2, hsub', .inl ⟨hspared.trans h, y, ?_, hyk⟩⟩
          rcases List.mem_cons.mp hy with rfl | hy
          · exact absurd hyk hxk
          · exact hy
        · exact fun _ d' h => hE s d' (hspared.trans h) hstart
    · refine Raising.Ends.mono (Spares.ends answer (hother x hx (hrest x List.mem_cons_self) acc') d) ?_ ?_
      · exact fun _ d' h => ⟨hnodup'.2, hsub', .inr ⟨hA d d' h ha,
          fun z hz => hrest z (List.mem_cons_of_mem _ hz)⟩⟩
      · exact fun _ d' h => hAE d' (hA d d' h ha)
  · refine ⟨hnodup, fun _ hx => hx, ?_⟩
    by_cases hk : ∃ x ∈ rows, x.clientOrderId = k
    · exact .inl ⟨.refl k s, hk⟩
    · have hk' : ∀ x ∈ rows, k ≠ x.clientOrderId := fun x hx heq => hk ⟨x, hx, heq.symm⟩
      exact .inr ⟨hnone hk', hk'⟩

/-- What a reconciliation makes of the order `k`. -/
structure Reread (now : DateTime) (orders : List OrderRecord) (k : String) (d d' : Desk) : Prop where
  row : (d'.order k = d.order k ∧ ∀ o ∈ reconciledRows d.db, k ≠ o.clientOrderId) ∨
    ∃ o ∈ reconciledRows d.db, o.clientOrderId = k ∧ ∃ o', d'.order k = some o' ∧ RowAfter now orders o o'
  marker : d'.db.getRuntimeMetadata (pendingKey k) = d.db.getRuntimeMetadata (pendingKey k)
  count : d'.cancels.count k = d.cancels.count k

theorem Reread.spared {now : DateTime} {orders : List OrderRecord} {k : String} {d d₁ d₂ : Desk}
    (hs : Spared k d₁ d₂) (h : Reread now orders k d d₁) : Reread now orders k d d₂ where
  row := by rw [hs.row]; exact h.row
  marker := hs.marker.trans h.marker
  count := hs.count.trans h.count

theorem spares_compareHoldings (k : String) (now : DateTime) (acc : PassState)
    (account : Except ReadError (List AccountPosition)) : Spares k (compareHoldings now acc account) := by
  have hby : ByReconcile (compareHoldings now acc account) := by
    unfold compareHoldings
    cases account with
    | error e => exact byReconcile_finishPass ..
    | ok account => exact .bind (readsOnly_select _).byReconcile fun _ => byReconcile_finishPass ..
  refine Raising.Only.mono ?_ (hby.and (leavesOrders_compareHoldings now acc account))
  rintro act ⟨hact, hleaves⟩
  cases act with
  | call op =>
    refine ⟨?_, Act.leavesMarkers_of_byReconcile k _ hact⟩
    rw [show op.target = none from hleaves]
    exact nofun
  | cancelOrder => exact hact.elim
  | _ => trivial

theorem reconcileBrokerState_reread (now : DateTime) (k : String) {orders : List OrderRecord}
    (hparsed : ∀ r ∈ orders, Parsed r) (account : Except ReadError (List AccountPosition)) (d : Desk) :
    Raising.Ends (deskHandler answer) (reconcileBrokerState now (.ok orders) account)
      (fun _ => Reread now orders k d) (fun _ d' => d'.cancels.count k = d.cancels.count k) d := by
  let broker : BrokerReplies := ⟨fun _ _ => .ok none, fun _ _ _ _ => .ok ()⟩
  apply ends_desk_selectOrders
  apply Raising.Ends.bind
  have hloop := ends_rowLoop answer (k := k) (f := reconcileOrder now orders) (s := d)
    (A := Reread now orders k d) (E := fun d' => d'.cancels.count k = d.cancels.count k)
    (reconciledRows_nodup d.db) (fun _ _ hs h => h.spared hs) (fun _ _ hs h => hs.count.trans h)
    (fun _ h => h.count) (fun x _ hne acc => spares_reconcileOrder now orders acc hne) ?_
    (fun hnone => ⟨.inl ⟨rfl, hnone⟩, rfl, rfl⟩) rfl PassState.empty
  · refine Raising.Ends.mono hloop ?_ fun _ _ h => h
    intro acc d₁ h₁
    have htail := fun acc' => Spares.ends answer (spares_compareHoldings k now acc' account) d₁
    exact Raising.Ends.mono (htail _) (fun _ _ hs => h₁.spared hs) fun _ _ hs => hs.count.trans h₁.count
  · intro x hx hxk acc d₁ hspared
    have hfind : d₁.order x.clientOrderId = some x := by
      rw [hxk, hspared.row, ← hxk]
      exact d.db.brokerOrders.find?_of_mem (mem_reconciledRows.mp hx).1
    have hby := byReconcile_reconcileOrder now orders acc x
    have hrow := ends_desk_of_local answer broker (hby.mono Act.isLocal_of_byReconcile)
      (reconcileOrder_row broker now hparsed acc hfind)
    have hmarker := ends_desk_leavesKey answer (hby.mono (Act.leavesMarkers_of_byReconcile k)) (d := d₁)
      hspared.marker
    refine Raising.Ends.mono (hrow.and hmarker) ?_ ?_
    · rintro _ d₂ ⟨⟨⟨o', ho', hafter⟩, hcancels⟩, hkey⟩
      refine ⟨.inr ⟨x, hx, hxk, o', ?_, hafter⟩, hkey, ?_⟩
      · rw [← hxk]
        exact ho'
      · rw [hcancels]
        exact hspared.count
    · rintro _ d₂ ⟨⟨-, hcancels⟩, -⟩
      rw [hcancels]
      exact hspared.count

end Rows

/-! ### Which rows are cancelled -/

/-- The row is in a status from which orders are cancelled. -/
def BrokerOrder.isLive (o : BrokerOrder) : Bool :=
  o.status = .acknowledged || o.status = .partiallyFilled

/-- The cancel stage sends a cancellation for the row, when the request is up. -/
def operatorCancels (orders : List OrderRecord) (requested : Bool) (o : BrokerOrder) : Bool :=
  requested && o.side = .buy && o.isLive &&
    (byBrokerId orders o.brokerIdText).any fun record =>
      record.side = some .buy && record.isOpen && truthy record.orderBranch &&
        0 < record.remainingQuantity

/-- `manage_stale_orders` sends a cancellation for the row. -/
def managerCancels (now : DateTime) (calendar : Calendar) (config : OrderManagementConfig)
    (orders : List OrderRecord) (marker : Option PendingMarker) (o : BrokerOrder) : Bool :=
  marker.isNone && o.isLive &&
    (byBrokerId orders o.brokerIdText).any fun record =>
      record.isOpen && sameOrder o record && (isStale calendar config o now).1 &&
        (invalidCancelFields record).isNone

/-- The marker of an order. -/
def Desk.marker (d : Desk) (id : String) : Option PendingMarker :=
  pendingMarker (d.db.getRuntimeMetadata (pendingKey id))

/-- One of the two stages sends a cancellation for the row. -/
def cancels (now : DateTime) (calendar : Calendar) (config : OrderManagementConfig)
    (orders : List OrderRecord) (d : Desk) (o : BrokerOrder) : Bool :=
  operatorCancels orders (requestUp d.db) o ||
    managerCancels now calendar config orders (d.marker o.clientOrderId) o

/-- The row with the status of its record copied into it. -/
def recopied (now : DateTime) (orders : List OrderRecord) (o : BrokerOrder) : BrokerOrder :=
  match (byBrokerId orders o.brokerIdText).bind fun record => localStatusForBroker record.status with
  | none => o
  | some status => { o with status := keptPending o.status status, updatedAt := now }

/-- The memory of an earlier cancellation does not hold: an order it was sent for would be
    cancelled again, as its row is or once the reconciliation has copied the record. -/
def CancelsAgain (now : DateTime) (calendar : Calendar) (config : OrderManagementConfig)
    (orders : List OrderRecord) (d : Desk) : Prop :=
  ∃ o ∈ reconciledRows d.db, o.clientOrderId ∈ d.cancels ∧
    (cancels now calendar config orders d o = true ∨
      cancels now calendar config orders d (recopied now orders o) = true)

theorem isLive_of_terminal {o : BrokerOrder} (h : o.status.terminal = true) : o.isLive = false := by
  unfold BrokerOrder.isLive
  cases hs : o.status <;> rw [hs] at h <;> first | rfl | cases h

theorem cancels_of_not_live {now : DateTime} {calendar : Calendar} {config : OrderManagementConfig}
    {orders : List OrderRecord} {d : Desk} {o : BrokerOrder} (h : o.isLive = false) :
    cancels now calendar config orders d o = false := by
  simp [cancels, operatorCancels, managerCancels, h]

theorem isStale_congr {calendar : Calendar} {config : OrderManagementConfig} {o o' : BrokerOrder}
    {now : DateTime} (hside : o'.side = o.side) (hsubmitted : o'.submittedAt = o.submittedAt)
    (hupdated : o'.updatedAt = o.updatedAt) :
    isStale calendar config o' now = isStale calendar config o now := by
  unfold isStale ageSeconds
  rw [hside, hsubmitted, hupdated]

/-- What the reconciliation copied is cancelled like the row it was predicted to be. -/
theorem cancels_recopied {now : DateTime} {calendar : Calendar} {config : OrderManagementConfig}
    {orders : List OrderRecord} {d : Desk} {o o' : BrokerOrder} {record : OrderRecord}
    {status : OrderStatus} (hrecord : byBrokerId orders o.brokerIdText = some record)
    (hstatus : localStatusForBroker record.status = some status)
    (hcopied : o'.status = keptPending o.status status) (htext : o'.brokerIdText = o.brokerIdText)
    (hupdated : o'.updatedAt = now) (hterms : SameTerms o o')
    (hid : o'.clientOrderId = o.clientOrderId) :
    cancels now calendar config orders d o' = cancels now calendar config orders d (recopied now orders o) := by
  have hre : recopied now orders o =
      { o with status := keptPending o.status status, updatedAt := now } := by
    simp only [recopied, hrecord, Option.bind_some, hstatus]
  have htext' : (recopied now orders o).brokerIdText = o.brokerIdText := by rw [hre]; rfl
  have hstale : isStale calendar config o' now = isStale calendar config (recopied now orders o) now :=
    isStale_congr (by rw [hre]; exact hterms.side) (by rw [hre]; exact hterms.submittedAt)
      (by rw [hre]; exact hupdated)
  have hsame : ∀ r, sameOrder o' r = sameOrder (recopied now orders o) r := by
    intro r
    rw [hre]
    simp only [sameOrder, hterms.side, hterms.symbol]
  have hlive : o'.isLive = (recopied now orders o).isLive := by
    rw [hre]
    simp only [BrokerOrder.isLive, hcopied]
  have hside : o'.side = (recopied now orders o).side := by rw [hre]; exact hterms.side
  have hid' : o'.clientOrderId = (recopied now orders o).clientOrderId := by rw [hre]; exact hid
  simp only [cancels, operatorCancels, managerCancels, htext, htext', hstale, hsame, hlive, hside, hid']

/-! ### Programs that send nothing -/

abbrev Silent {α : Type} (p : Pipeline α) : Prop := Raising.Only (S := trading) Act.isLocal p

theorem silent_reraise {α : Type} (r : Except Exn α) : Silent (reraise r) := by
  cases r with
  | ok a => exact .pure a
  | error e => exact .throw e

theorem silent_execute (op : Op) : Silent (execute op) :=
  .bind (Raising.Only.ask (S := trading) (o := .call op) trivial) silent_reraise

theorem silent_flagReview (now : DateTime) : Silent (flagReview now) :=
  .bind (silent_execute _) fun _ => silent_execute _

theorem silent_markRequestUnknown (now : DateTime) (id error : String) :
    Silent (markRequestUnknown now id error) :=
  .bind (silent_execute _) fun _ => silent_flagReview now

theorem silent_blockNewEntries (now : DateTime) (reason : String) : Silent (blockNewEntries now reason) :=
  .bind (silent_execute _) fun _ => .bind (silent_execute _) fun _ => silent_execute _

theorem silent_markUnknown (now : DateTime) (id reason : String) : Silent (markUnknown now id reason) :=
  .bind (silent_execute _) fun _ => silent_blockNewEntries now reason

theorem silent_reconcilePendingMarker (now : DateTime) (o : BrokerOrder) (record : Option OrderRecord)
    (marker : PendingMarker) : Silent (reconcilePendingMarker now o record marker) := by
  unfold reconcilePendingMarker
  dsimp only
  split
  · exact .pure _
  split
  · exact .pure _
  split
  · exact .bind (silent_execute _) fun _ => .bind (silent_execute _) fun _ =>
      .bind (silent_execute _) fun _ => .pure _
  · exact .bind (silent_execute _) fun _ => .pure _

section Stages

variable (answer : List String → Except Exn Unit)

theorem Silent.ends {α : Type} {p : Pipeline α} (hp : Silent p) (d : Desk) :
    Raising.Ends (deskHandler answer) p (fun _ d' => d'.cancels = d.cancels)
      (fun _ d' => d'.cancels = d.cancels) d := by
  refine Raising.Ends.of_only (R := fun d' : Desk => d'.cancels = d.cancels) ?_ hp rfl
  intro o d' ho hd
  cases o with
  | submitOrder => exact ho.elim
  | cancelOrder => exact ho.elim
  | _ => exact hd

/-- A cancellation was sent for the order at most once. -/
def Once (k : String) (d : Desk) : Prop := d.cancels.count k ≤ 1

theorem Silent.once {k : String} {α : Type} {p : Pipeline α} (hp : Silent p) {d : Desk}
    (h : Once k d) :
    Raising.Ends (deskHandler answer) p (fun _ => Once k) (fun _ => Once k) d := by
  unfold Once at h ⊢
  refine Raising.Ends.mono (hp.ends answer d) ?_ ?_
  · intro _ d' hcancels
    rw [hcancels]
    exact h
  · intro _ d' hcancels
    rw [hcancels]
    exact h

theorem Once.spared {k : String} {d d' : Desk} (hs : Spared k d d') (h : Once k d) : Once k d' := by
  unfold Once
  rw [hs.count]
  exact h

/-- A first cancellation. -/
theorem Once.send {k : String} {d : Desk} (h : k ∉ d.cancels) :
    Once k { d with cancels := d.cancels ++ [k] } := by
  unfold Once
  rw [List.count_append, List.count_eq_zero.mpr h, List.count_singleton_self]

theorem Once.of_not_mem {k : String} {d : Desk} (h : k ∉ d.cancels) : Once k d := by
  unfold Once
  rw [List.count_eq_zero.mpr h]
  exact Nat.zero_le 1

variable (now : DateTime) (calendar : Calendar) (config : OrderManagementConfig)

/-- Sent at most once, and if it was, `manage_stale_orders` sends no other. -/
structure Held (orders : List OrderRecord) (k : String) (d : Desk) : Prop where
  once : Once k d
  kept : k ∈ d.cancels → ∀ o, d.order k = some o →
    managerCancels now calendar config orders (d.marker k) o = false

theorem Held.spared {orders : List OrderRecord} {k : String} {d d' : Desk} (hs : Spared k d d')
    (h : Held now calendar config orders k d) : Held now calendar config orders k d' := by
  refine ⟨h.once.spared hs, fun hk o ho => ?_⟩
  have hmem : k ∈ d.cancels := by
    rw [← List.count_pos_iff, ← hs.count]
    exact List.count_pos_iff.mpr hk
  have hmarker : d'.marker k = d.marker k := by
    unfold Desk.marker
    rw [hs.marker]
  rw [hmarker]
  exact h.kept hmem o (by rw [← hs.row]; exact ho)

theorem Held.of_unknown {orders : List OrderRecord} {k : String} {d : Desk} (h : Once k d)
    (hunknown : ∀ o, d.order k = some o → o.status = .unknown) :
    Held now calendar config orders k d := by
  refine ⟨h, fun _ o ho => ?_⟩
  have hlive : o.isLive = false := by
    simp only [BrokerOrder.isLive, hunknown o ho]
    decide
  simp only [managerCancels, hlive, Bool.and_false, Bool.false_and]

theorem Held.of_marker {orders : List OrderRecord} {k : String} {d : Desk} (h : Once k d)
    (hmarker : (d.marker k).isSome = true) : Held now calendar config orders k d := by
  refine ⟨h, fun _ o _ => ?_⟩
  have hsome : (d.marker k).isNone = false := by
    rw [← Option.not_isSome, hmarker, Bool.not_true]
  simp only [managerCancels, hsome, Bool.false_and]

/-- Marking an order UNKNOWN leaves no other status, if it returns. -/
theorem ends_markOrderUnknown (id : String) (error : Option String) (updatedAt : Option DateTime)
    (d : Desk) :
    Raising.Ends (deskHandler answer) (execute (.markOrderUnknown now id error updatedAt))
      (fun _ d' => d'.cancels = d.cancels ∧ ∀ o, d'.order id = some o → o.status = .unknown)
      (fun _ d' => d'.cancels = d.cancels) d := by
  refine ends_desk_execute answer ?_ fun _ _ => rfl
  intro a ha
  refine ⟨rfl, fun o ho => ?_⟩
  have ho' : ((Op.markOrderUnknown now id error updatedAt).exec d.db).brokerOrders.find? id = some o := ho
  have hcases := rewriteOrder_cases id (requireNonemptyIfGiven error "error") (fun _ => true)
    (fun o => { o with status := .unknown, updatedAt := updatedAt.getD now, error := error })
    (fun _ => rfl) d.db
  simp only [Op.exec, Op.call, Op.run, markOrderUnknown] at ha ho'
  rcases hcases with ⟨e, hr⟩ | ⟨hno, hr⟩ | ⟨row, hrow, -, hr⟩
  · rw [hr] at ha
    cases ha
  · rw [hr] at ho'
    exact absurd (hno o ho') (by decide)
  · rw [hr] at ho'
    simp only [Table.find?_update_self, hrow, Option.map_some, Option.some.injEq] at ho'
    rw [← ho']

/-- The order becomes UNKNOWN, or the write raises. -/
theorem markRequestUnknown_held {orders : List OrderRecord} {id error : String} {d : Desk}
    (h : Once id d) :
    Raising.Ends (deskHandler answer) (markRequestUnknown now id error)
      (fun _ => Held now calendar config orders id) (fun _ => Once id) d := by
  apply Raising.Ends.bind
  refine Raising.Ends.mono (ends_markOrderUnknown answer now id (some error) (some now) d) ?_ ?_
  · rintro _ d₁ ⟨hcancels, hunknown⟩
    have h₁ : Once id d₁ := by
      unfold Once
      rw [hcancels]
      exact h
    have hheld : Held now calendar config orders id d₁ := .of_unknown now calendar config h₁ hunknown
    exact Raising.Ends.mono (Spares.ends answer (spares_flagReview id now) d₁) (fun _ _ hs => hheld.spared now calendar config hs)
      fun _ _ hs => hheld.once.spared hs
  · intro _ d₁ hcancels
    unfold Once
    rw [hcancels]
    exact h

theorem pendingKey_named (id : String) : Text.blank (pendingKey id) = false := by
  unfold pendingKey
  rw [Text.blank_append, show Text.blank "order_management.pending." = false by decide, Bool.false_and]

/-- Storing a marker never raises, and then the marker is there. -/
theorem setMarker_held {orders : List OrderRecord} {id : String} {d : Desk} (h : Once id d)
    (members : List (String × Option String)) :
    Raising.Ends (deskHandler answer)
      (execute (.setRuntimeMetadata now (pendingKey id) (.object members) (some now)))
      (fun _ => Held now calendar config orders id) (fun _ _ => False) d := by
  refine Raising.Ends.mono (ends_desk_setMetadata answer (pendingKey_named id) now _ _ d) ?_
    fun _ _ he => he
  rintro _ d' ⟨hnoted, hvalue⟩
  refine .of_marker now calendar config ?_ ?_
  · unfold Once
    rw [hnoted.cancels]
    exact h
  · unfold Desk.marker
    rw [hvalue]
    rfl

/-- The iteration of the cancel stage over the order itself. -/
theorem cancelBuy_held {orders : List OrderRecord} {x : BrokerOrder} (acc : CancelReport) {d : Desk}
    (hx : x.side = .buy) (hlive : x.isLive = true) (hheld : Held now calendar config orders x.clientOrderId d)
    (hfirst : x.clientOrderId ∈ d.cancels → operatorCancels orders true x = false) :
    Raising.Ends (deskHandler answer) (cancelBuy now orders acc x)
      (fun _ => Held now calendar config orders x.clientOrderId) (fun _ => Once x.clientOrderId) d := by
  have hunknown : ∀ (error : String) (acc' : CancelReport) (d' : Desk), Once x.clientOrderId d' →
      Raising.Ends (deskHandler answer) (do markRequestUnknown now x.clientOrderId error; pure acc')
        (fun _ => Held now calendar config orders x.clientOrderId) (fun _ => Once x.clientOrderId) d' := by
    intro error acc' d' honce
    apply Raising.Ends.bind
    exact Raising.Ends.mono (markRequestUnknown_held answer now calendar config honce)
      (fun _ _ h => h) fun _ _ h => h
  unfold cancelBuy
  dsimp only
  split
  · exact hunknown _ _ d hheld.once
  · rename_i record hrecord
    split
    · exact hunknown _ _ d hheld.once
    · rename_i hside
      rw [not_ne_iff] at hside
      split
      · exact hheld
      · rename_i hopen
        split
        · exact hunknown _ _ d hheld.once
        · rename_i hfields
          obtain ⟨hbranch, hremaining⟩ := not_or.mp hfields
          -- the guards are those of the predicate, so nothing was sent before
          have hunsent : x.clientOrderId ∉ d.cancels := by
            intro hk
            have hisOpen : record.isOpen = true := by
              simp only [OrderRecord.isOpen, Bool.or_eq_true, decide_eq_true_eq]
              by_contra hneither
              exact hopen (not_or.mp hneither)
            have hnot := hfirst hk
            simp [operatorCancels, hx, hlive, hrecord, hside, hisOpen, hbranch,
              not_le.mp hremaining] at hnot
          apply Raising.Ends.bind
          refine ends_desk_execute answer ?_ fun _ _ => hheld.once
          intro updated hupdated
          set d₁ : Desk := { d with db := (Op.updateBrokerOrderStatus now x.clientOrderId
            (recordUpdate now .cancelPending record none)).exec d.db } with hd₁
          apply Raising.Ends.bind
          apply Raising.Ends.attempt
          apply Raising.Ends.bind
          refine ends_desk_reraise answer ?_ fun e _ => hunknown _ _ d₁ hheld.once
          intro price _
          have hsent : Once x.clientOrderId { d₁ with cancels := d₁.cancels ++ [x.clientOrderId] } :=
            .send hunsent
          refine ends_desk_cancelOrder answer ?_ fun e _ => hunknown _ _ _ hsent
          intro _
          apply Raising.Ends.bind
          refine Raising.Ends.mono (setMarker_held answer now calendar config hsent _) (fun _ _ h => h)
            fun _ _ he => he.elim

/-- The manager's iteration over the order itself. -/
theorem manageOrder_once (entryBarKey : Option String) {orders : List OrderRecord} {x : BrokerOrder}
    (acc : ManageState) {d : Desk} (hx : d.order x.clientOrderId = some x)
    (hheld : Held now calendar config orders x.clientOrderId d) :
    Raising.Ends (deskHandler answer) (manageOrder now calendar config entryBarKey orders acc x)
      (fun _ => Once x.clientOrderId) (fun _ => Once x.clientOrderId) d := by
  have hsilent : ∀ {α : Type} {p : Pipeline α} (d' : Desk), Silent p → Once x.clientOrderId d' →
      Raising.Ends (deskHandler answer) p (fun _ => Once x.clientOrderId)
        (fun _ => Once x.clientOrderId) d' := fun d' hp honce => hp.once answer honce
  unfold manageOrder
  apply ends_desk_select
  split
  · rename_i marker _
    refine hsilent d (.bind (silent_reconcilePendingMarker ..) fun r => ?_) hheld.once
    cases r with
    | pending => exact .pure _
    | confirmed => exact .pure _
  · rename_i hmarker
    have hfirst : managerCancels now calendar config orders none x = true → x.clientOrderId ∉ d.cancels := by
      intro hcancels hk
      have hnot := hheld.kept hk x hx
      rw [show d.marker x.clientOrderId = none from hmarker, hcancels] at hnot
      cases hnot
    unfold manageActive
    dsimp only
    split
    · exact hheld.once
    split
    · exact hheld.once
    rename_i hstatus
    split
    · exact hsilent d (.bind (silent_markUnknown ..) fun _ => .pure _) hheld.once
    split
    · exact hheld.once
    · rename_i record hrecord
      split
      · exact hheld.once
      rename_i hopen
      split
      · exact hsilent d (.bind (silent_markUnknown ..) fun _ => .pure _) hheld.once
      rename_i hsame
      split
      · rename_i hstale
        unfold cancelStale
        dsimp only
        split
        · exact hsilent d (.bind (silent_markUnknown ..) fun _ => .pure _) hheld.once
        · rename_i hfields
          have hunsent : x.clientOrderId ∉ d.cancels := by
            apply hfirst
            have hlive : x.isLive = true := by
              simp only [BrokerOrder.isLive, Bool.or_eq_true, decide_eq_true_eq]
              by_contra hneither
              exact hstatus (not_or.mp hneither)
            have hisOpen : record.isOpen = true := by
              simp only [OrderRecord.isOpen, Bool.or_eq_true, decide_eq_true_eq]
              by_contra hneither
              exact hopen (not_or.mp hneither)
            rw [Bool.not_eq_false] at hsame
            simp only [managerCancels, hrecord, hlive, hisOpen, hsame, hstale, hfields, Option.any_some,
              Option.isNone_none, Bool.and_self]
          apply Raising.Ends.bind
          apply Raising.Ends.attempt
          have hrequest : Raising.Ends (deskHandler answer)
              (requestCancel now x record entryBarKey) (fun _ => Once x.clientOrderId)
              (fun _ => Once x.clientOrderId) d := by
            apply Raising.Ends.bind
            refine ends_desk_reraise answer ?_ fun e _ => hheld.once
            intro price _
            apply Raising.Ends.bind
            refine ends_desk_execute answer ?_ fun _ _ => hheld.once
            intro updated _
            apply Raising.Ends.bind
            have hsent := fun db : Database => Once.send (d := { d with db := db }) hunsent
            refine ends_desk_cancelOrder answer ?_ fun e _ => hsent _
            intro _
            exact hsilent _ (silent_execute _) (hsent _)
          refine Raising.Ends.mono hrequest (fun _ _ h => h) ?_
          intro e d₁ h₁
          exact hsilent d₁ (.bind (silent_markUnknown ..) fun _ => .pure _) h₁
      · exact hheld.once

theorem manageStaleOrders_once (entryBarKey : Option String) {orders : List OrderRecord} {k : String}
    {d : Desk} (hheld : Held now calendar config orders k d) :
    Raising.Ends (deskHandler answer) (manageStaleOrders now calendar config entryBarKey (.ok orders))
      (fun _ => Once k) (fun _ => Once k) d := by
  apply ends_desk_selectOrders
  apply Raising.Ends.bind
  have hloop := ends_rowLoop answer (k := k) (f := manageOrder now calendar config entryBarKey orders)
    (s := d) (A := Once k) (E := Once k) (managedRows_nodup d.db) (fun _ _ hs h => h.spared hs)
    (fun _ _ hs h => h.spared hs) (fun _ h => h)
    (fun x _ hne acc => (concerns_manageOrder now calendar config entryBarKey orders acc x).mono
      (Act.spares_of_concerns hne)) ?_ (fun _ => hheld.once) hheld.once ManageState.empty
  · refine Raising.Ends.mono hloop ?_ fun _ _ h => h
    intro acc d₁ h₁
    refine Silent.once answer ?_ h₁
    dsimp only
    split
    · exact .bind (silent_blockNewEntries ..) fun _ => .pure _
    · exact .pure _
  · intro x hx hxk acc d₁ hspared
    subst hxk
    refine manageOrder_once answer now calendar config entryBarKey acc ?_
      (hheld.spared now calendar config hspared)
    rw [hspared.row]
    exact mem_managedRows hx

/-- The cancel stage, if it sends nothing to an order that had its cancellation. -/
theorem cancelRequestedBuys_held {orders : List OrderRecord} {k : String} {d : Desk}
    (hheld : Held now calendar config orders k d)
    (hfirst : k ∈ d.cancels → ∀ o, d.order k = some o → operatorCancels orders (requestUp d.db) o = false) :
    Raising.Ends (deskHandler answer) (cancelRequestedBuys now (.ok orders))
      (fun _ => Held now calendar config orders k) (fun _ => Once k) d := by
  unfold cancelRequestedBuys
  apply ends_desk_select
  split
  · exact hheld
  · rename_i hup
    rw [Bool.not_eq_false] at hup
    apply Raising.Ends.bind
    have hflag : Spares k (setFlag now cancelRequestKey "false") :=
      spares_setMetadata (pendingKey_ne_cancelRequestKey k).symm ..
    refine Raising.Ends.mono (Spares.ends answer hflag d) ?_ fun _ _ hs => hheld.once.spared hs
    intro _ d₁ hs₁
    have hheld₁ := hheld.spared now calendar config hs₁
    apply ends_desk_selectOrders
    have hloop := ends_rowLoop answer (k := k) (f := cancelBuy now orders) (s := d₁)
      (A := Held now calendar config orders k) (E := Once k) (openBuyRows_nodup d₁.db)
      (fun _ _ hs h => h.spared now calendar config hs) (fun _ _ hs h => h.spared hs) (fun _ h => h.once)
      (fun x _ hne acc => (concerns_cancelBuy now orders acc x).mono (Act.spares_of_concerns hne)) ?_
      (fun _ => hheld₁) hheld₁.once CancelReport.empty
    · exact hloop
    · intro x hx hxk acc d₂ hs₂
      subst hxk
      obtain ⟨hfind, hside, hstatus⟩ := mem_openBuyRows.mp hx
      have hlive : x.isLive = true := by
        simpa only [BrokerOrder.isLive, Bool.or_eq_true, decide_eq_true_eq] using hstatus
      refine cancelBuy_held answer now calendar config acc hside hlive
        (hheld₁.spared now calendar config hs₂) fun hk => ?_
      have hmem : x.clientOrderId ∈ d.cancels := by
        rw [← List.count_pos_iff, ← hs₁.count, ← hs₂.count]
        exact List.count_pos_iff.mpr hk
      have hnot := hfirst hmem x (by rw [← hs₁.row]; exact hfind)
      rw [show requestUp d.db = true from hup] at hnot
      exact hnot

/-- After the reconciliation no stage cancels an order again. -/
theorem Reread.not_cancelled {orders : List OrderRecord} {k : String} {d d₁ : Desk}
    (h : Reread now orders k d d₁)
    (hrequest : d₁.db.getRuntimeMetadata cancelRequestKey = d.db.getRuntimeMetadata cancelRequestKey)
    (hmemory : ¬CancelsAgain now calendar config orders d) (hk : k ∈ d₁.cancels) {o₁ : BrokerOrder}
    (ho₁ : d₁.order k = some o₁) : cancels now calendar config orders d₁ o₁ = false := by
  have hid₁ : o₁.clientOrderId = k := d₁.db.brokerOrders.key_of_find? ho₁
  have hmem : k ∈ d.cancels := by
    rw [← List.count_pos_iff, ← h.count]
    exact List.count_pos_iff.mpr hk
  have hlook : ∀ o, o.clientOrderId = k →
      cancels now calendar config orders d₁ o = cancels now calendar config orders d o := by
    intro o hid
    unfold cancels requestUp Desk.marker
    rw [hrequest, hid, h.marker]
  rcases h.row with ⟨hrow, hnot⟩ | ⟨o, ho, hid, o', ho', hafter⟩
  · -- not looked at, hence terminal
    rw [hrow] at ho₁
    have hterminal : o₁.status.terminal = true := by
      by_contra hactive
      rw [Bool.not_eq_true] at hactive
      refine hnot o₁ (mem_reconciledRows.mpr ⟨d.db.brokerOrders.mem_of_find? ho₁, .inl ?_⟩) hid₁.symm
      exact hactive
    exact cancels_of_not_live (isLive_of_terminal hterminal)
  · rw [ho₁, Option.some.injEq] at ho'
    subst ho'
    rw [hlook o₁ hid₁]
    have hneither : ¬(cancels now calendar config orders d o = true ∨
        cancels now calendar config orders d (recopied now orders o) = true) :=
      fun hagain => hmemory ⟨o, ho, hid ▸ hmem, hagain⟩
    obtain ⟨hsame, hcopied⟩ := not_or.mp hneither
    cases hafter with
    | same => exact Bool.eq_false_iff.mpr hsame
    | copied record status hrecord hstatus _ hcopy htext hupdated hterms =>
      rw [cancels_recopied hrecord hstatus hcopy htext hupdated hterms (hid₁.trans hid.symm)]
      exact Bool.eq_false_iff.mpr hcopied

/-- The memory holds against the records of the snapshot. -/
def MemoryHolds (snapshot : Snapshot) (d : Desk) : Prop :=
  ∀ orders, snapshot.orders = .ok orders → ¬CancelsAgain now calendar config orders d

theorem silent_finishPass (acc : PassState) : Silent (finishPass now acc) :=
  (byReconcile_finishPass now acc).mono Act.isLocal_of_byReconcile

/-- Without records nothing is cancelled. -/
theorem silent_supervisorStages_unread (e : ReadError)
    (account : Except ReadError (List AccountPosition)) :
    Silent (supervisorStages now calendar config ⟨.error e, account⟩) := by
  unfold supervisorStages
  refine .bind (silent_finishPass now _) fun reconciliation => ?_
  refine .bind ?_ fun cancel => ?_
  · unfold cancelRequestedBuys
    refine .bind (Raising.Only.ask (S := trading) trivial) fun value => ?_
    split
    · exact .pure _
    · refine .bind (silent_execute _) fun _ => .bind (Raising.Only.ask (S := trading) trivial) fun rows => ?_
      dsimp only
      split
      · exact .pure _
      · exact .bind (silent_flagReview now) fun _ => .pure _
  · refine .bind (.bind (silent_blockNewEntries ..) fun _ => .pure _) fun management => ?_
    exact .bind (silent_execute _) fun _ => .bind (silent_execute _) fun _ => .pure _

theorem supervisorStages_once {snapshot : Snapshot}
    (hparsed : ∀ orders, snapshot.orders = .ok orders → ∀ r ∈ orders, Parsed r) {k : String} {d : Desk}
    (h : Once k d) (hmemory : MemoryHolds now calendar config snapshot d) :
    Raising.Ends (deskHandler answer) (supervisorStages now calendar config snapshot)
      (fun _ => Once k) (fun _ => Once k) d := by
  obtain ⟨read, account⟩ := snapshot
  cases read with
  | error e => exact (silent_supervisorStages_unread now calendar config e account).once answer h
  | ok orders =>
    unfold supervisorStages
    apply Raising.Ends.bind
    have hreread := reconcileBrokerState_reread answer now k (hparsed orders rfl) account d
    have hrequest := ends_desk_leavesKey answer
      ((byReconcile_reconcileBrokerState now (.ok orders) account).mono Act.leavesRequest_of_byReconcile)
      (d := d) rfl
    refine Raising.Ends.mono (hreread.and hrequest) ?_ ?_
    swap
    · rintro e d₁ ⟨hcount, -⟩
      unfold Once
      rw [hcount]
      exact h
    rintro reconciliation d₁ ⟨h₁, hrequest₁⟩
    have hcalm : k ∈ d₁.cancels → ∀ o, d₁.order k = some o →
        cancels now calendar config orders d₁ o = false := fun hk o ho =>
      h₁.not_cancelled now calendar config hrequest₁ (hmemory orders rfl) hk ho
    have hheld : Held now calendar config orders k d₁ := by
      refine ⟨?_, fun hk o ho => ?_⟩
      · unfold Once
        rw [h₁.count]
        exact h
      · have hnot := hcalm hk o ho
        rw [cancels, Bool.or_eq_false_iff, d₁.db.brokerOrders.key_of_find? ho] at hnot
        exact hnot.2
    apply Raising.Ends.bind
    refine Raising.Ends.mono (cancelRequestedBuys_held answer now calendar config hheld ?_) ?_
      fun _ _ h' => h'
    · intro hk o ho
      have hnot := hcalm hk o ho
      rw [cancels, Bool.or_eq_false_iff] at hnot
      exact hnot.1
    intro cancel d₂ h₂
    apply Raising.Ends.bind
    refine Raising.Ends.mono (manageStaleOrders_once answer now calendar config none h₂) ?_
      fun _ _ h' => h'
    intro management d₃ h₃
    have htail := fun value value' (result : SupervisorReport) => Silent.once answer (p := do
      setFlag now "operator_review" value
      setFlag now "block_new_entries" value'
      pure result) (.bind (silent_execute _) fun _ => .bind (silent_execute _) fun _ => .pure _) h₃
    exact htail _ _ _

theorem supervisorPass_once {snapshot : Snapshot}
    (hparsed : ∀ orders, snapshot.orders = .ok orders → ∀ r ∈ orders, Parsed r) {k : String} {d : Desk}
    (h : Once k d) (hmemory : MemoryHolds now calendar config snapshot d) :
    Raising.Ends (deskHandler answer) (supervisorPass now calendar config snapshot)
      (fun _ => Once k) (fun _ => Once k) d := by
  apply Raising.Ends.bind
  apply Raising.Ends.attempt
  refine Raising.Ends.mono (supervisorStages_once answer now calendar config hparsed h hmemory)
    (fun _ _ h' => h') ?_
  intro e d₁ h₁
  apply Raising.Ends.bind
  exact Raising.Ends.attempt (Silent.once answer (silent_flagReview now) h₁)

end Stages

/-! ### Runs -/

/-- What can happen at the desk; `answer` is what the broker makes of the cancellations
    of a pass. -/
inductive DeskEvent where
  | pass (now : DateTime) (calendar : Calendar) (config : OrderManagementConfig) (snapshot : Snapshot)
      (answer : List String → Except Exn Unit)
  | notice (now : DateTime) (notice : FillNotice) (tradingDate : Option Int)
      (received : Option DateTime)
  | request (now : DateTime)

namespace DeskEvent

def exec : DeskEvent → Desk → Desk
  | .pass now calendar config snapshot answer, d =>
    (Raising.eval (deskHandler answer) (supervisorPass now calendar config snapshot) d).2
  | .notice now n tradingDate received, d =>
    (Raising.eval (deskHandler fun _ => .ok ()) (applyFillNotice now n tradingDate received) d).2
  | .request now, d =>
    (Raising.eval (deskHandler fun _ => .ok ()) (setFlag now cancelRequestKey "true") d).2

/-- The records come from the parser. -/
def ReadsParsed : DeskEvent → Prop
  | .pass _ _ _ snapshot _ => ∀ orders, snapshot.orders = .ok orders → ∀ r ∈ orders, Parsed r
  | _ => True

/-- A pass starts with the memory of the cancellations in place. -/
def Remembers : DeskEvent → Desk → Prop
  | .pass now calendar config snapshot _, d => MemoryHolds now calendar config snapshot d
  | _, _ => True

end DeskEvent

def runDesk (events : List DeskEvent) (d : Desk) : Desk := events.foldl (fun d e => e.exec d) d

/-- Every event of the run starts with the memory in place. -/
def RunRemembers : List DeskEvent → Desk → Prop
  | [], _ => True
  | e :: events, d => e.Remembers d ∧ RunRemembers events (e.exec d)

theorem DeskEvent.exec_once {e : DeskEvent} (hparsed : e.ReadsParsed) {k : String} {d : Desk}
    (h : Once k d) (hmemory : e.Remembers d) : Once k (e.exec d) := by
  cases e with
  | pass now calendar config snapshot answer =>
    exact (supervisorPass_once answer now calendar config hparsed h hmemory).store
  | notice now n tradingDate received =>
    have hsilent : Silent (applyFillNotice now n tradingDate received) :=
      (byNotice_applyFillNotice now n tradingDate received).mono Act.isLocal_of_byNotice
    exact (hsilent.once _ h).store
  | request now =>
    have hsilent : Silent (setFlag now cancelRequestKey "true") := silent_execute _
    exact (hsilent.once _ h).store

theorem runDesk_once {events : List DeskEvent} (hparsed : ∀ e ∈ events, e.ReadsParsed) {k : String}
    {d : Desk} (h : Once k d) (hmemory : RunRemembers events d) : Once k (runDesk events d) := by
  induction events generalizing d with
  | nil => exact h
  | cons e events ih =>
    exact ih (fun e' he' => hparsed e' (List.mem_cons_of_mem _ he'))
      (DeskEvent.exec_once (hparsed e List.mem_cons_self) h hmemory.1) hmemory.2

theorem RunRemembers.left {events events' : List DeskEvent} {d : Desk}
    (h : RunRemembers (events ++ events') d) : RunRemembers events d := by
  induction events generalizing d with
  | nil => trivial
  | cons e events ih => exact ⟨h.1, ih h.2⟩

/-- **One cancellation for each order.**  In every run of passes, fill notices and
    requests of the operator whose passes start with the memory of the earlier
    cancellations in place, and at every moment of it, at most one was sent for each order. -/
theorem cancel_at_most_once (db : Database) (events : List DeskEvent)
    (hparsed : ∀ e ∈ events, e.ReadsParsed) (hmemory : RunRemembers events ⟨db, []⟩)
    (past future : List DeskEvent) (hmoment : events = past ++ future) (id : String) :
    (runDesk past ⟨db, []⟩).cancels.count id ≤ 1 := by
  subst hmoment
  have hstart : Once id ⟨db, []⟩ := .of_not_mem List.not_mem_nil
  exact runDesk_once (fun e he => hparsed e (List.mem_append_left _ he)) hstart hmemory.left

/-! ### A cancellation that timed out -/

namespace TimedOut

def opening : DateTime := .combine 20000 9 0 0 (some DateTime.kstOffset)

def at' (minute second : Nat) : DateTime := .combine 20000 9 minute second (some DateTime.kstOffset)

def calls : List Op :=
  [.claimOrderIntent opening ⟨"client-1", some "d1", "005930", "BUY", .int 4, .int 100, none⟩,
   .recordOrderSubmission opening "client-1" "K1" none]

/-- An order at the broker. -/
def submitted : Database := runOps calls Database.empty

/-- The broker reports the order open. -/
def snapshot : Snapshot := ⟨.ok [LostRequest.working], .ok []⟩

def timeout : List String → Except Exn Unit := fun _ => .error (.other "TimeoutError" "timeout")

def accepting : List String → Except Exn Unit := fun _ => .ok ()

/-- Two passes, a minute after the submission and a second later. -/
def passes (answer : List String → Except Exn Unit) : List DeskEvent :=
  [.pass (at' 1 0) none ⟨30, 30⟩ snapshot answer, .pass (at' 1 1) none ⟨30, 30⟩ snapshot answer]

theorem readsParsed (answer : List String → Except Exn Unit) : ∀ e ∈ passes answer, e.ReadsParsed := by
  have hsnapshot : ∀ orders, snapshot.orders = .ok orders → ∀ r ∈ orders, Parsed r := by
    rintro orders horders r hr
    cases horders
    rw [List.mem_singleton.mp hr]
    exact LostRequest.parsed_working
  intro e he
  simp only [passes, List.mem_cons, List.not_mem_nil, or_false] at he
  rcases he with rfl | rfl
  · exact hsnapshot
  · exact hsnapshot

/-- The broker reports the order open in every snapshot, the operator asks for nothing, and
    the cancellation is sent twice. -/
theorem timed_out_cancel_repeats :
    ∃ db events, (∀ e ∈ events, e.ReadsParsed) ∧
      (∀ e ∈ events, ∃ now answer record, e = .pass now none ⟨30, 30⟩ ⟨.ok [record], .ok []⟩ answer ∧
        record.orderNumber = "K1" ∧ record.status = .unfilled) ∧
      (runDesk events ⟨db, []⟩).cancels.count "client-1" = 2 := by
  refine ⟨submitted, passes timeout, readsParsed timeout, ?_, by decide +kernel⟩
  intro e he
  simp only [passes, List.mem_cons, List.not_mem_nil, or_false] at he
  rcases he with rfl | rfl
  · exact ⟨_, _, LostRequest.working, rfl, rfl, rfl⟩
  · exact ⟨_, _, LostRequest.working, rfl, rfl, rfl⟩

/-- When the broker accepts it, the second pass finds the memory in place. -/
theorem accepted_cancel_once :
    (runDesk (passes accepting) ⟨submitted, []⟩).cancels.count "client-1" ≤ 1 := by
  refine cancel_at_most_once submitted (passes accepting) (readsParsed accepting) ?_
    (passes accepting) [] (List.append_nil _).symm "client-1"
  refine ⟨?_, ?_, trivial⟩
  · intro orders horders
    cases horders
    unfold CancelsAgain
    decide +kernel
  · intro orders horders
    cases horders
    unfold CancelsAgain
    decide +kernel

end TimedOut

end AutoTrader
