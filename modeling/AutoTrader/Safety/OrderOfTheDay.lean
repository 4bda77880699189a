/-
  AutoTrader/Safety/OrderOfTheDay.lean
  ====================================
  **Which order an execution is attributed to.**

  Broker order numbers come round again, so rows of several days can carry the same one.
  A notice is attributed to the only row that carries its number, and to no row when
  there are several.  A pass compares every row it looks at with the record of its
  number: it leaves a row alone that is of another symbol or side, and a terminal row
  whose fills are all applied it does not look at.  What it does to an order depends on
  the row and the fills of that order, whatever the other rows carry.
-/
import AutoTrader.Safety.OrderPass
import AutoTrader.Safety.ReconcileTotal

namespace AutoTrader

open Relational Transactional Interleave

/-! ### A notice and its order -/

/-- The one row that carries a number. -/
def Database.OnlyRowOf (db : Database) (number : String) (o : BrokerOrder) : Prop :=
  (db.brokerOrders.rows.filter fun o => o.brokerOrderId = some number) = [o]

section Notice

variable (broker : BrokerReplies) {now : DateTime} {notice : FillNotice} {tradingDate : Option Int}
  {received : Option DateTime}

/-- The fill of a notice is recorded under an order. -/
def Database.recordedUnder (db : Database) (c fillId : String) : Prop :=
  ∃ f ∈ db.brokerFills.rows, f.fillId = fillId ∧ f.clientOrderId = c

/-- What a call keeps, and what it has recorded when it says that the notice was applied. -/
def NoticeKeeps (R : Database → Prop) (c : String) (notice : FillNotice) (result : FillNoticeApplyResult)
    (db : Database) : Prop :=
  R db ∧ (result.outcome = .applied → db.recordedUnder c (noticeFillId notice))

/-- The notice was refused: nothing but flags changed. -/
def NoticeRefused (result : FillNoticeApplyResult) (db db' : Database) : Prop :=
  result.blocked = true ∧ result.outcome = .blocked ∧ SameLedger db db'

theorem blockNotice_refuses (at' : DateTime) (reason : String) (id fillId : Option String) (db : Database) :
    Raising.Ends (dbHandler broker) (blockNotice at' reason id fillId)
      (fun result => NoticeRefused result db) (fun _ => SameLedger db) db := by
  have hblocked : Raising.Ends (dbHandler broker) (blockNotice at' reason id fillId)
      (fun result _ => result.blocked = true ∧ result.outcome = .blocked) (fun _ _ => True) db := by
    unfold blockNotice
    refine Raising.Ends.seq Raising.Ends.trivial fun _ _ _ => ?_
    refine Raising.Ends.seq Raising.Ends.trivial fun _ _ _ => ?_
    refine Raising.Ends.seq Raising.Ends.trivial fun _ _ _ => ?_
    exact ⟨rfl, rfl⟩
  refine ((blockNotice_ends broker at' reason id fillId db).and hblocked).mono ?_ ?_
  · exact fun _ _ h => ⟨h.2.1, h.2.2, h.1⟩
  · exact fun _ _ h => h.1

theorem blockNotice_keeps {R : Database → Prop} {c : String}
    (hflags : ∀ db₁ db₂, R db₁ → SameLedger db₁ db₂ → R db₂) {db : Database} (hdb : R db)
    (at' : DateTime) (reason : String) (id fillId : Option String) :
    Raising.Ends (dbHandler broker) (blockNotice at' reason id fillId) (NoticeKeeps R c notice)
      (fun _ => R) db := by
  refine (blockNotice_refuses broker at' reason id fillId db).mono ?_ ?_
  · rintro result db' ⟨-, houtcome, hsame⟩
    refine ⟨hflags db db' hdb hsame, fun happlied => ?_⟩
    rw [houtcome] at happlied
    cases happlied
  · exact fun _ db' h => hflags db db' hdb h

/-- What a notice can do to the order `o` it was matched with: the calls that keep `R`. -/
structure NoticeCallsKeep (R : Database → Prop) (o : BrokerOrder) : Prop where
  flags : ∀ db₁ db₂, R db₁ → SameLedger db₁ db₂ → R db₂
  status : ∀ at' status db, R db →
    R ((Op.updateBrokerOrderStatus at' o.clientOrderId (noticeStatus at' status)).exec db)
  fill : ∀ at' a db, a.clientOrderId = o.clientOrderId → R db → R ((Op.applyBrokerFill at' a).exec db)
  materialize : ∀ at' a db, a.clientOrderId = o.clientOrderId → R db →
    R ((Op.materializeOrderFills at' a).exec db)

section Calls

variable {R : Database → Prop} {o : BrokerOrder} {db : Database}

/-- Anything but `applied` is answered. -/
theorem NoticeKeeps.other (hdb : R db) {result : FillNoticeApplyResult} (h : result.outcome ≠ .applied) :
    NoticeKeeps R o.clientOrderId notice result db := ⟨hdb, fun happlied => absurd happlied h⟩

theorem changeStatus_keeps (hR : NoticeCallsKeep R o) (hdb : R db) (at' : DateTime) (status : OrderStatus)
    {f : Except Exn Bool → Pipeline FillNoticeApplyResult}
    (hf : ∀ answer db', R db' → Raising.Ends (dbHandler broker) (f answer) (NoticeKeeps R o.clientOrderId notice)
      (fun _ => R) db') :
    Raising.Ends (dbHandler broker) (Raising.attempt (execute (.updateBrokerOrderStatus at' o.clientOrderId
      (noticeStatus at' status))) >>= f) (NoticeKeeps R o.clientOrderId notice) (fun _ => R) db := by
  have hupdated := hR.status at' status db hdb
  refine Raising.Ends.bind (Raising.Ends.attempt (ends_execute_exec broker db ?_ ?_))
  · exact fun _ _ => hf _ _ hupdated
  · exact fun _ _ => hf _ _ hupdated

theorem applyAccepted_keeps (hR : NoticeCallsKeep R o) (hdb : R db) (at' : DateTime) (existing : Nat) :
    Raising.Ends (dbHandler broker) (applyAccepted at' o existing) (NoticeKeeps R o.clientOrderId notice) (fun _ => R) db := by
  have hblock : ∀ {db'} reason, R db' → Raising.Ends (dbHandler broker)
      (blockNotice at' reason (some o.clientOrderId) none) (NoticeKeeps R o.clientOrderId notice) (fun _ => R) db' :=
    fun reason h => blockNotice_keeps broker hR.flags h at' reason _ _
  unfold applyAccepted
  refine Raising.Ends.ite (fun _ => hblock _ hdb) fun _ => ?_
  refine Raising.Ends.ite (fun _ => NoticeKeeps.other hdb nofun) fun _ => ?_
  refine Raising.Ends.ite (fun _ => NoticeKeeps.other hdb nofun) fun _ => ?_
  refine Raising.Ends.ite (fun _ => hblock _ hdb) fun _ => ?_
  refine Raising.Ends.ite (fun _ => hblock _ hdb) fun _ => ?_
  refine Raising.Ends.ite (fun _ => hblock _ hdb) fun _ => ?_
  refine Raising.Ends.ite (fun _ => ?_) fun _ => NoticeKeeps.other hdb nofun
  refine changeStatus_keeps broker hR hdb at' .acknowledged fun answer db' hdb' => ?_
  cases answer with
  | ok _ => exact NoticeKeeps.other hdb' nofun
  | error _ => exact hblock _ hdb'

theorem applyRejected_keeps (hR : NoticeCallsKeep R o) (hdb : R db) (at' : DateTime) (existing : Nat) :
    Raising.Ends (dbHandler broker) (applyRejected at' o existing) (NoticeKeeps R o.clientOrderId notice) (fun _ => R) db := by
  have hblock : ∀ {db'} reason, R db' → Raising.Ends (dbHandler broker)
      (blockNotice at' reason (some o.clientOrderId) none) (NoticeKeeps R o.clientOrderId notice) (fun _ => R) db' :=
    fun reason h => blockNotice_keeps broker hR.flags h at' reason _ _
  unfold applyRejected
  refine Raising.Ends.ite (fun _ => hblock _ hdb) fun _ => ?_
  refine Raising.Ends.ite (fun _ => NoticeKeeps.other hdb nofun) fun _ => ?_
  refine Raising.Ends.ite (fun _ => hblock _ hdb) fun _ => ?_
  refine changeStatus_keeps broker hR hdb at' .rejected fun answer db' hdb' => ?_
  cases answer with
  | ok _ => exact NoticeKeeps.other hdb' nofun
  | error _ => exact hblock _ hdb'

theorem materialize_keeps (hR : NoticeCallsKeep R o) (hdb : R db) (at' : DateTime)
    (risk : Option EntryRisk) :
    Raising.Ends (dbHandler broker) (execute (.materializeOrderFills at'
      (materializeArgs o.clientOrderId risk))) (fun _ => R) (fun _ => R) db :=
  have hbooked := hR.materialize at' (materializeArgs o.clientOrderId risk) db rfl hdb
  ends_execute_exec broker db (fun _ _ => hbooked) fun _ _ => hbooked

/-- A fill that was inserted is recorded, and stays so when it is applied. -/
theorem bookNotice_keeps (hR : NoticeCallsKeep R o) (hdb : R db) (at' : DateTime) {a : FillArgs}
    (hid : a.clientOrderId = o.clientOrderId) (hfill : a.fillId = noticeFillId notice)
    (risk : Option EntryRisk) :
    Raising.Ends (dbHandler broker) (bookNotice at' a risk) (NoticeKeeps R o.clientOrderId notice) (fun _ => R) db := by
  have hfilled := hR.fill at' a db hid hdb
  unfold bookNotice
  refine Raising.Ends.bind (ends_execute_exec broker db (fun inserted hinserted => ?_) fun _ _ => hfilled)
  cases inserted with
  | false => exact NoticeKeeps.other hfilled nofun
  | true =>
    have hrecorded : ((Op.applyBrokerFill at' a).exec db).recordedUnder o.clientOrderId
        (noticeFillId notice) := by
      rcases applyBrokerFill_cases at' a db with ⟨e, hr⟩ | ⟨-, hr⟩ | ⟨checked, order, -, -, hfree, -, hr⟩
      · simp only [Op.call, Op.run, hr] at hinserted
        cases hinserted
      · simp only [Op.call, Op.run, hr] at hinserted
        cases hinserted
      · have hrows := (Table.insertOrIgnore_of_free (r := fillRow at' a checked order) hfree).2
        refine ⟨fillRow at' a checked order, ?_, hfill, hid⟩
        simp only [Op.exec, Op.call, Op.run, hr, hrows]
        exact List.mem_append_right _ List.mem_cons_self
    have hbooked := hR.materialize at' (materializeArgs a.clientOrderId risk) _ hid hfilled
    have hkept : ((Op.materializeOrderFills at' (materializeArgs a.clientOrderId risk)).exec
        ((Op.applyBrokerFill at' a).exec db)).recordedUnder o.clientOrderId (noticeFillId notice) := by
      unfold Database.recordedUnder at hrecorded ⊢
      rw [Op.exec_fills (by simp)]
      exact hrecorded
    exact Raising.Ends.bind (ends_execute_exec broker _ (fun _ _ => ⟨hbooked, fun _ => hkept⟩) fun _ _ => hbooked)

theorem applyExecution_keeps (hR : NoticeCallsKeep R o) (hdb : R db) (at' received : DateTime)
    (side : Side) (orderNo : String) (filledAt : DateTime) :
    Raising.Ends (dbHandler broker) (applyExecution at' received notice side orderNo filledAt o)
      (NoticeKeeps R o.clientOrderId notice) (fun _ => R) db := by
  have hblock : ∀ {db'} reason fillId, R db' → Raising.Ends (dbHandler broker)
      (blockNotice received reason (some o.clientOrderId) fillId) (NoticeKeeps R o.clientOrderId notice) (fun _ => R) db' :=
    fun reason fillId h => blockNotice_keeps broker hR.flags h received reason _ fillId
  unfold applyExecution
  apply ends_select
  refine Raising.Ends.ite (fun _ => ?_) fun _ => ?_
  · -- the fill is known: it may still have to be applied
    refine Raising.Ends.seq (R := fun _ => R) ?_ fun answer db' hdb' => ?_
    · unfold materializeIfNeeded
      apply ends_select
      refine Raising.Ends.ite (fun _ => hdb) fun _ => ?_
      apply ends_riskFor
      intro risk
      refine Raising.Ends.ite (fun _ => hdb) fun _ => ?_
      refine Raising.Ends.bind (Raising.Ends.attempt ((materialize_keeps broker hR hdb at' risk).mono ?_ ?_))
      · exact fun _ _ h => h
      · exact fun _ _ h => h
    · cases answer with
      | none => exact hblock _ _ hdb'
      | some n => exact NoticeKeeps.other hdb' nofun
  refine Raising.Ends.ite (fun _ => hblock _ _ hdb) fun _ => ?_
  refine Raising.Ends.ite (fun _ => hblock _ _ hdb) fun _ => ?_
  refine Raising.Ends.ite (fun _ => hblock _ _ hdb) fun _ => ?_
  apply ends_riskFor
  intro risk
  refine Raising.Ends.ite (fun _ => hblock _ _ hdb) fun _ => ?_
  refine Raising.Ends.bind (Raising.Ends.attempt
    ((bookNotice_keeps broker hR hdb at' rfl rfl risk).mono ?_ ?_))
  · exact fun _ _ h => h
  · exact fun _ _ h => hblock _ _ h

end Calls

/-- **A notice keeps** what its flags and the calls for the order of its number keep. -/
theorem applyFillNotice_keeps {R : Database → Prop} {c : String} {db : Database} (hdb : R db)
    (hflags : ∀ db₁ db₂, R db₁ → SameLedger db₁ db₂ → R db₂)
    (hmatched : ∀ number o, publicIdentifier notice.orderNo = some number → db.OnlyRowOf number o →
      o.clientOrderId = c ∧ NoticeCallsKeep R o) :
    Raising.Ends (dbHandler broker) (applyFillNotice now notice tradingDate received)
      (NoticeKeeps R c notice) (fun _ => R) db := by
  have hblock : ∀ at' reason id, Raising.Ends (dbHandler broker) (blockNotice at' reason id none)
      (NoticeKeeps R c notice) (fun _ => R) db := fun at' reason id =>
    blockNotice_keeps broker hflags hdb at' reason id none
  unfold applyFillNotice
  apply Raising.Ends.bind
  refine .of_eval (eval_reraise broker db _) ?_
  rcases filledAt notice.fillTime tradingDate (receivedAt now received) with e | reason | filledAt
  · exact hdb
  · exact hblock _ _ _
  cases noticeSide notice.side with
  | none => exact hblock _ _ _
  | some side =>
    cases hnumber : publicIdentifier notice.orderNo with
    | none => exact hblock _ _ _
    | some number =>
      apply ends_selectOrders
      split
      · exact hblock _ _ _
      · exact hblock _ _ _
      · rename_i o honly
        obtain ⟨rfl, hR⟩ := hmatched number o hnumber honly
        cases identityMismatch o notice side with
        | some mismatch => exact hblock _ _ _
        | none =>
          apply ends_select
          cases notice.kind with
          | accepted => exact applyAccepted_keeps broker hR hdb _ _
          | rejected => exact applyRejected_keeps broker hR hdb _ _
          | filled => exact applyExecution_keeps broker hR hdb _ _ _ _ _

/-- A number that is not the number of one row refuses the notice. -/
theorem applyFillNotice_refuses {db : Database}
    (hnumber : ∀ number o, publicIdentifier notice.orderNo = some number → ¬ db.OnlyRowOf number o) :
    Raising.Ends (dbHandler broker) (applyFillNotice now notice tradingDate received)
      (fun result => NoticeRefused result db) (fun _ => SameLedger db) db := by
  have hblock : ∀ at' reason id, Raising.Ends (dbHandler broker) (blockNotice at' reason id none)
      (fun result => NoticeRefused result db) (fun _ => SameLedger db) db := fun at' reason id =>
    blockNotice_refuses broker at' reason id none db
  unfold applyFillNotice
  apply Raising.Ends.bind
  refine .of_eval (eval_reraise broker db _) ?_
  rcases filledAt notice.fillTime tradingDate (receivedAt now received) with e | reason | filledAt
  · exact .refl db
  · exact hblock _ _ _
  cases noticeSide notice.side with
  | none => exact hblock _ _ _
  | some side =>
    cases hpublic : publicIdentifier notice.orderNo with
    | none => exact hblock _ _ _
    | some number =>
      apply ends_selectOrders
      split
      · exact hblock _ _ _
      · exact hblock _ _ _
      · rename_i o honly
        exact absurd honly (hnumber number o hpublic)

theorem OnlyOrder.sameLedger {id : String} {db db' : Database} (h : SameLedger db db') :
    OnlyOrder id db db' where
  others := fun k _ => by rw [h.orders]
  fills := fun f hf => .inl (by rwa [h.fills] at hf)
  applied := fun f hf => by
    obtain ⟨a, ha, hid⟩ := Database.applied_iff.mp hf
    exact Database.applied_iff.mpr ⟨a, by rwa [h.applications], hid⟩

theorem onlyOrder_noticeCalls {db : Database} {o : BrokerOrder} {c : String} (ho : o.clientOrderId = c) :
    NoticeCallsKeep (OnlyOrder c db) o where
  flags := fun _ _ h hsame => h.trans (.sameLedger hsame)
  status := fun at' status db₁ h => h.trans (ho ▸ OnlyOrder.status at' o.clientOrderId _ db₁)
  fill := fun at' a db₁ ha h => h.trans (ho ▸ ha ▸ OnlyOrder.fill at' a db₁)
  materialize := fun at' a db₁ _ h => by
    refine h.trans ?_
    rcases materializeOrderFills_cases at' a db₁ with ⟨e, hr⟩ | ⟨-, -, m, db₂, -, -, -, hr⟩
    · simp only [Op.exec, Op.call, Op.run, hr]
      exact .refl c db₁
    · obtain ⟨checked, order, -, -, hbooked, -⟩ := materializeOrderFills_ok hr
      simp only [Op.exec, Op.call, Op.run, hr]
      exact .booked c hbooked

end Notice

/-! ### A pass and one order -/

section Pass

variable (broker : BrokerReplies) (now : DateTime) {c : String}

/-- A pass that returns has handled every order it looks at: what the iteration of the
    order establishes, and what happens elsewhere keeps, holds after the pass. -/
theorem pass_own {R : Database → Prop} {db : Database} {o : BrokerOrder} (hselected : o ∈ reconciledRows db)
    (haside : ∀ db₁ db₂, R db₁ → Aside o.clientOrderId db₁ db₂ → R db₂) {records : List OrderRecord}
    (hown : ∀ acc db₁, Aside o.clientOrderId db db₁ →
      Raising.Ends (dbHandler broker) (reconcileOrder now records acc o) (fun _ => R) (fun _ _ => True) db₁)
    (account : Except ReadError (List AccountPosition)) :
    Raising.Ends (dbHandler broker) (reconcileBrokerState now (.ok records) account) (fun _ => R)
      (fun _ _ => True) db := by
  have hfinish : ∀ {db₁ : Database} (acc : PassState), R db₁ →
      Raising.Ends (dbHandler broker) (finishPass now acc) (fun _ => R) (fun _ _ => True) db₁ := by
    intro db₁ acc h₁
    refine Raising.Ends.mono (finishPass_ends broker now db₁ acc) ?_ fun _ _ he => he.elim
    exact fun _ db₂ h₂ => haside db₁ db₂ h₁ (.sameLedger h₂.1)
  unfold reconcileBrokerState
  apply ends_selectOrders
  apply Raising.Ends.bind
  -- the order is still to come and nothing happened to it, or it was handled
  have hloop := Raising.Ends.foldlM (h := dbHandler broker) (f := reconcileOrder now records)
    (E := fun _ _ => True) (I := fun rest _ db₁ => (rest.map (·.clientOrderId)).Nodup ∧
      ((o ∈ rest ∧ Aside o.clientOrderId db db₁) ∨
        (o.clientOrderId ∉ rest.map (·.clientOrderId) ∧ R db₁))) ?_ (reconciledRows db)
    (a := PassState.empty) (s := db) ⟨reconciledRows_nodup db, .inl ⟨hselected, .refl _ db⟩⟩
  · refine Raising.Ends.mono hloop ?_ fun _ _ he => he
    rintro acc db₁ ⟨-, ⟨hmem, -⟩ | ⟨-, h₁⟩⟩
    · cases hmem
    cases account with
    | error e => exact hfinish _ h₁
    | ok account => exact ends_select broker db₁ (hfinish _ h₁)
  · rintro x rest acc db₁ ⟨hnodup, hstate⟩
    rw [List.map_cons, List.nodup_cons] at hnodup
    rcases hstate with ⟨hmem, hbefore⟩ | ⟨hdone, h₁⟩
    · rcases List.mem_cons.mp hmem with rfl | hrest
      · refine Raising.Ends.mono (hown acc db₁ hbefore) ?_ fun _ _ he => he
        exact fun _ db₂ h₂ => ⟨hnodup.2, .inr ⟨hnodup.1, h₂⟩⟩
      · have hne : o.clientOrderId ≠ x.clientOrderId := fun heq =>
          hnodup.1 (heq ▸ List.mem_map_of_mem hrest)
        refine Raising.Ends.mono (reconcileOrder_aside broker now hne records acc db₁) ?_
          fun _ _ _ => trivial
        exact fun _ db₂ h₂ => ⟨hnodup.2, .inl ⟨hrest, hbefore.trans h₂⟩⟩
    · rw [List.map_cons, List.mem_cons, not_or] at hdone
      refine Raising.Ends.mono (reconcileOrder_aside broker now hdone.1 records acc db₁) ?_
        fun _ _ _ => trivial
      exact fun _ db₂ h₂ => ⟨hnodup.2, .inr ⟨hdone.2, haside db₁ db₂ h₁ h₂⟩⟩

/-- An order that a pass does not look at, or whose record is of another symbol or side. -/
def Passed (records : List OrderRecord) (o : BrokerOrder) (db : Database) : Prop :=
  o ∈ reconciledRows db → ∀ record, byBrokerId records o.brokerIdText = some record →
    sameOrder o record = false

/-- A pass leaves such an order alone. -/
theorem pass_passes {db : Database} {o : BrokerOrder} (ho : db.brokerOrders.find? c = some o)
    {records : List OrderRecord} (hpassed : Passed records o db)
    (account : Except ReadError (List AccountPosition)) :
    Aside c db (Raising.eval (dbHandler broker) (reconcileBrokerState now (.ok records) account) db).2 := by
  refine pass_order broker now (.refl c db) (fun _ _ h h' => h.trans h') _ ?_ account
  rintro _ ⟨⟩ o' hselected ho' acc db₁ haside
  obtain rfl := Option.some.inj (ho'.symm.trans ho)
  refine reconcileOrder_keeps broker now haside (fun record hrecord hsame => ?_) acc
  rw [hpassed hselected record hrecord] at hsame
  cases hsame

end Pass

/-! ### What an order is to a pass -/

/-- The row of an order, its fills, and the cumulative quantities booked for it. -/
structure OrderView where
  row : BrokerOrder
  fills : List BrokerFill
  booked : Int → Bool

/-- The order as a ledger has it. -/
structure Database.Shows (db : Database) (c : String) (v : OrderView) : Prop where
  row : db.brokerOrders.find? c = some v.row
  fills : db.fillsOf c = v.fills
  booked : ∀ n, db.recorded (reconcileFillId c n) = v.booked n

section View

variable {now : DateTime} {c : String} {v : OrderView}

theorem Database.Shows.aside {db db' : Database} (h : db.Shows c v) (haside : Aside c db db') :
    db'.Shows c v where
  row := haside.row.trans h.row
  fills := haside.fills.trans h.fills
  booked := by
    intro n
    rw [← h.booked n, Bool.eq_iff_iff]
    exact ⟨haside.fresh n, haside.recorded _⟩

/-- A status update rewrites the row by what the row is. -/
theorem shows_update (now : DateTime) (c : String) (u : StatusUpdate) (v : OrderView) :
    ∃ v', ∀ db : Database, db.Shows c v →
      ((Op.updateBrokerOrderStatus now c u).exec db).Shows c v' := by
  simp only [Op.exec, Op.call, Op.run, updateBrokerOrderStatus]
  cases requireNonempty c "client_order_id" with
  | error e => exact ⟨v, fun _ h => h⟩
  | ok _ =>
    cases checkUpdate u with
    | error e => exact ⟨v, fun _ h => h⟩
    | ok checked =>
      cases hfits : withinRequested checked v.row with
      | false =>
        refine ⟨v, fun db h => ?_⟩
        have hnone : db.brokerOrders.updateWhere c (withinRequested checked) (updatedHeader now u checked)
            (updatedHeader_clientOrderId now u checked) = (db.brokerOrders, false) := by
          simp only [Table.updateWhere, h.row, hfits, Bool.false_eq_true, if_false]
        simp only [Exec.run_ofExcept_ok_bind, Exec.run_atomically, onOrders, Exec.run_statement, hnone]
        exact h
      | true =>
        refine ⟨{ v with row := updatedHeader now u checked v.row }, fun db h => ?_⟩
        have hsome := Table.updateWhere_of_find? h.row (withinRequested checked) hfits
          (updatedHeader now u checked) (updatedHeader_clientOrderId now u checked)
        simp only [Exec.run_ofExcept_ok_bind, Exec.run_atomically, onOrders, Exec.run_statement, hsome]
        refine ⟨?_, h.fills, h.booked⟩
        simp only [Table.find?_update_self, h.row, Option.map_some]

/-- What a fill of a cumulative quantity answers depends on the order. -/
theorem fill_answer (now : DateTime) {a : FillArgs} (hid : a.clientOrderId = c) {n : Int}
    (hfill : a.fillId = reconcileFillId c n) (v : OrderView) :
    ∃ answer, ∀ db : Database, db.Shows c v → ((Op.applyBrokerFill now a).call db).1 = answer := by
  subst hid
  simp only [Op.call, Op.run, applyBrokerFill]
  cases checkFill a with
  | error e => exact ⟨.error e, fun _ _ => rfl⟩
  | ok checked =>
    -- the checks, the insert and the update in their order, each on the row of the view
    let refusal (message : String) : Except Exn Bool := .error (.valueError message)
    refine ⟨if a.symbol.all (· = v.row.symbol) then
        if checked.side.all (· = v.row.side) then
          if a.brokerOrderId.all fun given => v.row.brokerOrderId.all (given = ·) then
            if v.booked n then .ok false
            else if v.row.filledQty + checked.quantity.val ≤ v.row.requestedQty then .ok true
            else refusal "fill quantity exceeds requested order quantity"
          else refusal "fill broker_order_id does not match order"
        else refusal "fill side does not match order"
      else refusal "fill symbol does not match order", fun db h => ?_⟩
    simp only [Exec.run_ofExcept_ok_bind, Exec.run_atomically, Exec.run_query_bind, h.row,
      Exec.run_require_bind]
    by_cases hsymbol : (a.symbol.all (· = v.row.symbol)) = true
    swap
    · rw [if_neg hsymbol, if_neg hsymbol]
    by_cases hside : (checked.side.all (· = v.row.side)) = true
    swap
    · rw [if_pos hsymbol, if_neg hside, if_pos hsymbol, if_neg hside]
    by_cases hbroker :
        (a.brokerOrderId.all fun given => v.row.brokerOrderId.all (given = ·)) = true
    swap
    · rw [if_pos hsymbol, if_pos hside, if_neg hbroker, if_pos hsymbol, if_pos hside, if_neg hbroker]
    rw [if_pos hsymbol, if_pos hside, if_pos hbroker, if_pos hsymbol, if_pos hside, if_pos hbroker]
    have hbooked : (db.brokerFills.find? a.fillId).isSome = v.booked n := by
      rw [← h.booked n, hfill]
      rfl
    rcases db.brokerFills.insertOrIgnore_cases (fillRow now a checked v.row) with
      ⟨⟨f, htaken⟩, hins⟩ | ⟨hfree, hflag, -⟩
    · have hknown : v.booked n = true := by
        rw [← hbooked]
        exact Option.isSome_iff_exists.mpr ⟨f, htaken⟩
      rw [if_pos hknown]
      simp only [onFills, Exec.run_statement_bind, hins]
      rfl
    · have hnew : ¬ v.booked n = true := by
        rw [← hbooked, Option.isSome_iff_exists, not_exists]
        intro f hf
        cases hf.symm.trans hfree
      rw [if_neg hnew]
      simp only [onFills, Exec.run_statement_bind, hflag]
      by_cases hfits : v.row.filledQty + checked.quantity.val ≤ v.row.requestedQty
      · have hupdated := Table.updateWhere_of_find? h.row
          (fun o => o.filledQty + (fillRow now a checked v.row).quantity ≤ o.requestedQty)
          (decide_eq_true hfits) (rollFill (fillRow now a checked v.row)) (rollFill_clientOrderId _)
        rw [if_pos hfits]
        simp only [if_true, onOrders, Exec.run_statement_bind, hupdated]
        rfl
      · have hunfit : decide (v.row.filledQty + (fillRow now a checked v.row).quantity ≤
            v.row.requestedQty) = false := decide_eq_false hfits
        have hnone : db.brokerOrders.updateWhere a.clientOrderId
            (fun o => o.filledQty + (fillRow now a checked v.row).quantity ≤ o.requestedQty)
            (rollFill (fillRow now a checked v.row)) (rollFill_clientOrderId _) =
            (db.brokerOrders, false) := by
          simp only [Table.updateWhere, h.row, hunfit, Bool.false_eq_true, if_false]
        rw [if_neg hfits]
        simp only [if_true, onOrders, Exec.run_statement_bind, hnone]
        rfl

/-- A fill of a cumulative quantity adds to the order what the order is given. -/
theorem shows_fill (now : DateTime) {a : FillArgs} (hid : a.clientOrderId = c) {n : Int}
    (hfill : a.fillId = reconcileFillId c n) (v : OrderView) :
    ∃ answer v', ∀ db : Database, db.Shows c v →
      ((Op.applyBrokerFill now a).call db).1 = answer ∧
        ((Op.applyBrokerFill now a).exec db).Shows c v' := by
  obtain ⟨answer, hanswer⟩ := fill_answer now hid hfill v
  have hsame : ∀ db : Database, db.Shows c v → answer ≠ .ok true →
      ((Op.applyBrokerFill now a).exec db).Shows c v := by
    intro db h hne
    have hr := hanswer db h
    rcases applyBrokerFill_cases now a db with ⟨e, hrun⟩ | ⟨-, hrun⟩ | ⟨_, _, -, -, -, -, hrun⟩
    · simpa only [Op.exec, Op.call, Op.run, hrun] using h
    · simpa only [Op.exec, Op.call, Op.run, hrun] using h
    · simp only [Op.call, Op.run, hrun] at hr
      exact absurd hr.symm hne
  by_cases hinserted : answer = .ok true
  swap
  · exact ⟨answer, v, fun db h => ⟨hanswer db h, hsame db h hinserted⟩⟩
  cases hchecked : checkFill a with
  | error e =>
    refine ⟨answer, v, fun db h => ⟨hanswer db h, ?_⟩⟩
    rcases applyBrokerFill_cases now a db with ⟨e, hrun⟩ | ⟨-, hrun⟩ | ⟨checked, _, hok, -⟩
    · simpa only [Op.exec, Op.call, Op.run, hrun] using h
    · simpa only [Op.exec, Op.call, Op.run, hrun] using h
    · cases hchecked.symm.trans hok
  | ok checked =>
    let fill := fillRow now a checked v.row
    refine ⟨answer, ⟨rollFill fill v.row, v.fills ++ [fill], fun m => v.booked m || decide (n = m)⟩,
      fun db h => ⟨hanswer db h, ?_⟩⟩
    have hr := (hanswer db h).trans hinserted
    rcases applyBrokerFill_cases now a db with
      ⟨e, hrun⟩ | ⟨-, hrun⟩ | ⟨checked', order, hok, horder, hfree, -, hrun⟩
    · simp only [Op.call, Op.run, hrun] at hr
      cases hr
    · simp only [Op.call, Op.run, hrun] at hr
      cases hr
    · obtain rfl := Except.ok.inj (hchecked.symm.trans hok)
      subst hid
      obtain rfl := Option.some.inj (h.row.symm.trans horder)
      have hrows := (Table.insertOrIgnore_of_free (r := fill) hfree).2
      simp only [Op.exec, Op.call, Op.run, hrun]
      refine ⟨?_, ?_, fun m => ?_⟩
      · simp only [Table.find?_update_self, h.row, Option.map_some]
        rfl
      · rw [fillsOf_append db _ hrows, h.fills]
        exact congrArg (v.fills ++ ·) (if_pos rfl)
      · rw [Database.recorded_append hrows, h.booked m]
        have hiff : fill.fillId = reconcileFillId a.clientOrderId m ↔ n = m := by
          constructor
          · exact fun heq => (reconcileFillId_injective (hfill.symm.trans heq)).2
          · rintro rfl
            exact hfill
        exact congrArg (v.booked m || ·) (decide_eq_decide.mpr hiff)

end View

/-! ### What a pass does to an order -/

section Determined

variable (broker : BrokerReplies) (now : DateTime) {c : String}

/-- A step of a pass ends with one view of the order, whatever the ledger is besides. -/
def Determined (c : String) (v : OrderView) (m : PassState → Pipeline PassState) : Prop :=
  ∃ v' : OrderView, ∀ acc db, db.Shows c v →
    Raising.Ends (dbHandler broker) (m acc) (fun _ db' => db'.Shows c v') (fun _ _ => True) db

theorem Determined.same {v : OrderView} (f : PassState → PassState) :
    Determined broker c v fun acc => pure (f acc) := ⟨v, fun _ _ h => h⟩

theorem Determined.ite {v : OrderView} {p : Prop} [Decidable p] {m n : PassState → Pipeline PassState}
    (hm : p → Determined broker c v m) (hn : ¬ p → Determined broker c v n) :
    Determined broker c v fun acc => if p then m acc else n acc := by
  by_cases hp : p
  · simpa only [if_pos hp] using hm hp
  · simpa only [if_neg hp] using hn hp

theorem Determined.after {v : OrderView} {m : PassState → Pipeline PassState}
    (hm : Determined broker c v m) (f : PassState → PassState) :
    Determined broker c v fun acc => m (f acc) := by
  obtain ⟨v', hends⟩ := hm
  exact ⟨v', fun acc => hends (f acc)⟩

theorem settleOrder_determined {o : BrokerOrder} (ho : o.clientOrderId = c) (record : OrderRecord)
    (v : OrderView) : Determined broker c v (settleOrder now o record) := by
  subst ho
  unfold settleOrder
  cases hstatus : localStatusForBroker record.status with
  | none => exact .same broker _
  | some status =>
    obtain ⟨v', hupdated⟩ := shows_update now o.clientOrderId (recordUpdate now
      (keptPending o.status status) record
      (if (keptPending o.status status).terminal then some now else none)) v
    refine ⟨v', fun acc db h => ?_⟩
    have hshown := hupdated db h
    refine Raising.Ends.bind (ends_execute_exec broker db (fun updated _ => ?_) fun _ _ => trivial)
    refine Raising.Ends.bind (Raising.Ends.attempt (Raising.Ends.mono (materializeLocalFills_keeps
      broker now (R := fun db => db.Shows o.clientOrderId v') hshown (fun a => ?_) o) ?_ ?_))
    · exact hshown.aside (.materialize _ now a _)
    · exact fun _ _ h => h
    · exact fun _ _ h => h

theorem bookDifference_determined {o : BrokerOrder} (ho : o.clientOrderId = c) (record : OrderRecord)
    (v : OrderView) : Determined broker c v (bookDifference now o record) := by
  unfold bookDifference
  dsimp only
  refine .ite broker (fun _ => settleOrder_determined broker now ho record v) fun _ => ?_
  cases hprice : incrementalFillPrice o record (record.filledQuantity - o.filledQty) with
  | error e => exact ⟨v, fun _ _ _ => trivial⟩
  | ok price =>
    obtain ⟨answer, v', hfilled⟩ := shows_fill now (a := reconcileFillArgs now o record
      (record.filledQuantity - o.filledQty) price) ho
      (congrArg (reconcileFillId · record.filledQuantity) ho) v
    have hcall : ∀ {db : Database} {w : OrderView} (f : Except Exn Bool → Pipeline PassState),
        db.Shows c v → (∀ db', db'.Shows c v' → Raising.Ends (dbHandler broker) (f answer)
          (fun _ db' => db'.Shows c w) (fun _ _ => True) db') →
        Raising.Ends (dbHandler broker) (Raising.attempt (execute (.applyBrokerFill now
          (reconcileFillArgs now o record (record.filledQuantity - o.filledQty) price))) >>= f)
          (fun _ db' => db'.Shows c w) (fun _ _ => True) db := by
      intro db w f h hf
      obtain ⟨hanswer, hshown⟩ := hfilled db h
      refine Raising.Ends.bind (Raising.Ends.attempt (ends_execute_exec broker db ?_ ?_))
      · rintro inserted hr
        obtain rfl := hanswer.symm.trans hr
        exact hf _ hshown
      · rintro e hr
        obtain rfl := hanswer.symm.trans hr
        exact hf _ hshown
    cases answer with
    | error e => exact ⟨v', fun acc db h => hcall _ h fun db' h' => h'⟩
    | ok inserted =>
      obtain ⟨w, hsettled⟩ := settleOrder_determined broker now ho record v'
      exact ⟨w, fun acc db h => hcall _ h fun db' h' => hsettled _ db' h'⟩

/-- What the iteration of an order does to it is a matter of its row, its fills and the records. -/
theorem reconcileOrder_determined (records : List OrderRecord) {v : OrderView}
    (hv : v.row.clientOrderId = c) :
    Determined broker c v fun acc => reconcileOrder now records acc v.row := by
  unfold reconcileOrder
  dsimp only
  refine .ite broker (fun _ => .same broker _) fun _ => ?_
  cases byBrokerId records v.row.brokerIdText with
  | none => exact .same broker _
  | some record =>
    refine .ite broker (fun _ => .same broker _) fun _ => ?_
    refine .ite broker (fun _ => .same broker _) fun _ => ?_
    refine .ite broker (fun _ => .same broker _) fun _ => ?_
    exact (bookDifference_determined broker now hv record v).after broker _

/-- **A pass and an order.**  What a pass makes of an order it looks at depends on the
    row, the fills and the booked quantities of the order, and on the records. -/
theorem pass_determined (records : List OrderRecord) {v : OrderView} (hv : v.row.clientOrderId = c) :
    ∃ v' : OrderView, ∀ db account, db.Shows c v → v.row ∈ reconciledRows db →
      Raising.Ends (dbHandler broker) (reconcileBrokerState now (.ok records) account)
        (fun _ db' => db'.Shows c v') (fun _ _ => True) db := by
  subst hv
  obtain ⟨v', hown⟩ := reconcileOrder_determined broker now records (v := v) rfl
  refine ⟨v', fun db account h hselected => ?_⟩
  refine pass_own broker now hselected (fun _ _ h₁ haside => h₁.aside haside) ?_ account
  exact fun acc db₁ haside => hown acc db₁ (h.aside haside)

end Determined

/-! ### Attribution -/

/-- **Executions are attributed by the number.**  A notice is applied to the one row that
    carries its number, and refused when no row or several rows do.  A pass leaves the
    orders alone that it does not look at or whose record is of another symbol or side;
    what it makes of an order it looks at does not depend on the other rows, and when it
    returns it took the record over or has a reason for that order. -/
theorem executions_attributed (broker : BrokerReplies) (now : DateTime) (c : String) :
    (∀ db notice tradingDate received,
      (∀ number o, publicIdentifier notice.orderNo = some number → db.OnlyRowOf number o →
        o.clientOrderId = c) →
      Raising.Ends (dbHandler broker) (applyFillNotice now notice tradingDate received)
        (NoticeKeeps (OnlyOrder c db) c notice) (fun _ => OnlyOrder c db) db) ∧
    (∀ db notice tradingDate received,
      (∀ number o, publicIdentifier notice.orderNo = some number → ¬ db.OnlyRowOf number o) →
      Raising.Ends (dbHandler broker) (applyFillNotice now notice tradingDate received)
        (fun result => NoticeRefused result db) (fun _ => SameLedger db) db) ∧
    (∀ db records account o, db.brokerOrders.find? c = some o → Passed records o db →
      Aside c db
        (Raising.eval (dbHandler broker) (reconcileBrokerState now (.ok records) account) db).2) ∧
    (∀ records v, v.row.clientOrderId = c → ∃ v', ∀ db account, db.Shows c v →
      v.row ∈ reconciledRows db →
      Raising.Ends (dbHandler broker) (reconcileBrokerState now (.ok records) account)
        (fun _ db' => db'.Shows c v') (fun _ _ => True) db) ∧
    (∀ db records account, ProgramState db → (∀ r ∈ records, Parsed r) →
      ∀ o ∈ reconciledRows db, o.clientOrderId = c →
      Raising.Ends (dbHandler broker) (reconcileBrokerState now (.ok records) account)
        (fun report db' => Accounted records report.reasons db' o) (fun _ _ => True) db) := by
  refine ⟨?_, ?_, ?_, ?_, ?_⟩
  · intro db notice tradingDate received honly
    refine applyFillNotice_keeps broker (.refl c db) (fun _ _ h hsame => h.trans (.sameLedger hsame)) ?_
    exact fun number o hnumber ho =>
      ⟨honly number o hnumber ho, onlyOrder_noticeCalls (honly number o hnumber ho)⟩
  · exact fun db notice tradingDate received hnumber => applyFillNotice_refuses broker hnumber
  · exact fun db records account o ho hpassed => pass_passes broker now ho hpassed account
  · exact fun records v hv => pass_determined broker now records hv
  · intro db records account hdb hparsed o ho _
    refine (reconcileBrokerState_ends broker now hdb hparsed account).mono ?_ fun _ _ _ => trivial
    exact fun _ _ h => h.1.2 o ho

/-! ### A number that came round again -/

namespace NumberAgain

open LateNotice

def yesterday : DateTime := .combine 19999 9 0 0 (some DateTime.kstOffset)

/-- The order of yesterday was cancelled, the order of today is at the broker. -/
def calls : List Op :=
  [.claimOrderIntent yesterday ⟨"b0", some "d0", "005930", "BUY", .int 10, .int 100, none⟩,
   .recordOrderSubmission yesterday "b0" "K1" none,
   .updateBrokerOrderStatus yesterday "b0"
     ⟨.cancelled, none, none, none, none, none, some yesterday⟩,
   .claimOrderIntent opening ⟨"b1", some "d1", "005930", "BUY", .int 10, .int 100, none⟩,
   .recordOrderSubmission opening "b1" "K1" none]

/-- The two of them carry one number. -/
def ledger : Database := runOps calls Database.empty

theorem ledger_programState : ProgramState ledger := by
  refine .call _ (.call _ (.call _ (.call _ (.call _ .empty ?_) ?_) ?_) ?_) ?_ <;>
    · intro now a he; cases he

/-- The row of the daily inquiry: three of ten shares are filled. -/
def row : StatusRow := fun field =>
  List.lookup field [("odno", "K1"), ("pdno", "005930"), ("sll_buy_dvsn_cd", "02"), ("ord_qty", "10"),
    ("tot_ccld_qty", "3"), ("avg_prvs", "100")]

def ofToday : OrderRecord :=
  ⟨"K1", "005930", some .buy, 10, 3, 7, none, some (.fin 100), .partiallyFilled, none⟩

/-- A pass over the records of today. -/
def polledToday (db : Database) : Database :=
  (Raising.eval (dbHandler broker) (reconcileBrokerState later (.ok [ofToday]) (.ok [])) db).2

theorem parsed_ofToday : ∀ r ∈ [ofToday], Parsed r := by
  intro r hr
  rw [List.mem_singleton.mp hr]
  exact ⟨row, Except.eq_ok_of_toOption (by decide +kernel)⟩

/-- Both rows carry the number of the notice. -/
theorem no_only_row (number : String) (o : BrokerOrder)
    (hnumber : publicIdentifier notice.orderNo = some number) : ¬ ledger.OnlyRowOf number o := by
  intro honly
  have hpublic : publicIdentifier notice.orderNo = some "K1" := by decide +kernel
  obtain rfl := Option.some.inj (hpublic.symm.trans hnumber)
  have htwo : (ledger.brokerOrders.rows.filter fun o => o.brokerOrderId = some "K1").length = 2 := by
    decide +kernel
  rw [honly] at htwo
  cases htwo

/-- The pass books the execution for the order of today and leaves that of yesterday
    alone; the notice is refused, and applied where the older row is missing. -/
theorem attributed_today :
    (∃ old, ledger.brokerOrders.find? "b0" = some old ∧ old.brokerOrderId = some "K1") ∧
    Aside "b0" ledger (polledToday ledger) ∧
    (∃ o, (polledToday ledger).brokerOrders.find? "b1" = some o ∧ o.filledQty = 3) ∧
    Raising.Ends (dbHandler broker) (applyFillNotice later notice none (some later))
      (fun result => NoticeRefused result ledger) (fun _ => SameLedger ledger) ledger ∧
    Raising.Ends (dbHandler broker) (applyFillNotice later notice none (some later))
      (NoticeKeeps (OnlyOrder "b1" submitted) "b1" notice) (fun _ => OnlyOrder "b1" submitted)
      submitted ∧
    (∃ o ∈ reconciledRows ledger, o.clientOrderId = "b1" ∧
      Raising.Ends (dbHandler broker) (reconcileBrokerState later (.ok [ofToday]) (.ok []))
        (fun report db' => Accounted [ofToday] report.reasons db' o) (fun _ _ => True) ledger) := by
  have hselected : (reconciledRows ledger).map (·.clientOrderId) = ["b1"] := by decide +kernel
  have hrow : (ledger.brokerOrders.find? "b0").map (·.brokerOrderId) = some (some "K1") := by
    decide +kernel
  have hfilled : ((polledToday ledger).brokerOrders.find? "b1").map (·.filledQty) = some 3 := by
    decide +kernel
  obtain ⟨old, hold, hnumber⟩ := Option.map_eq_some_iff.mp hrow
  obtain ⟨o, ho, hid⟩ : ∃ o ∈ reconciledRows ledger, o.clientOrderId = "b1" :=
    List.mem_map.mp (by rw [hselected]; exact List.mem_cons_self)
  obtain ⟨hnotice, hrefused, -, -, haccounted⟩ := executions_attributed broker later "b1"
  obtain ⟨-, -, hpassed, -, -⟩ := executions_attributed broker later "b0"
  refine ⟨⟨old, hold, hnumber⟩, ?_, Option.map_eq_some_iff.mp hfilled, ?_, ?_, ⟨o, ho, hid, ?_⟩⟩
  · refine hpassed ledger [ofToday] _ old hold fun hmem => ?_
    have hlooked : old.clientOrderId ∈ (reconciledRows ledger).map (·.clientOrderId) :=
      List.mem_map_of_mem hmem
    rw [hselected, ledger.brokerOrders.key_of_find? hold] at hlooked
    exact absurd hlooked (by decide)
  · exact hrefused ledger notice _ _ no_only_row
  · refine hnotice submitted notice _ _ fun number o _ honly => ?_
    have hids : ∀ o ∈ submitted.brokerOrders.rows, o.clientOrderId = "b1" := by decide +kernel
    have hmem : o ∈ submitted.brokerOrders.rows.filter fun o => o.brokerOrderId = some number := by
      rw [Database.OnlyRowOf.eq_1] at honly
      rw [honly]
      exact List.mem_cons_self
    exact hids o (List.mem_of_mem_filter hmem)
  · exact haccounted ledger [ofToday] _ ledger_programState parsed_ofToday o ho hid

/-- The order of today is at the broker with the number, symbol, side and quantity of
    the notice, and the row of the day before makes the notice ambiguous. -/
theorem older_row_refuses_notice :
    ∃ older today : BrokerOrder, ledger.brokerOrders.rows = [older, today] ∧
      (older.brokerOrderId, older.status, older.createdAt) =
        (some notice.orderNo, .cancelled, yesterday) ∧
      (today.brokerOrderId, today.status, today.createdAt) =
        (some notice.orderNo, .acknowledged, opening) ∧
      identityMismatch today notice .buy = none ∧
      (Raising.eval (dbHandler broker) (applyFillNotice later notice none (some later))
        ledger).1.toOption = some ⟨.blocked, true, none, none, 0, some "broker_order_ambiguous"⟩ ∧
      (Raising.eval (dbHandler broker) (applyFillNotice later notice none (some later))
        ledger).2.brokerFills.rows.length = 0 := by
  have htwo : ledger.brokerOrders.rows.length = 2 := by decide +kernel
  have hfields : (ledger.brokerOrders.rows.map fun o =>
      (o.brokerOrderId, o.status, o.createdAt, identityMismatch o notice .buy)) =
      [(some "K1", .cancelled, yesterday, none), (some "K1", .acknowledged, opening, none)] := by
    decide +kernel
  obtain ⟨older, today, hrows⟩ := List.length_eq_two.mp htwo
  rw [hrows] at hfields
  simp only [List.map_cons, List.map_nil, List.cons.injEq, Prod.mk.injEq, and_true] at hfields
  obtain ⟨⟨hnumber₀, hstatus₀, hcreated₀, -⟩, hnumber₁, hstatus₁, hcreated₁, hmatches⟩ := hfields
  refine ⟨older, today, hrows, ?_, ?_, hmatches, by decide +kernel, by decide +kernel⟩
  · rw [hnumber₀, hstatus₀, hcreated₀]
    rfl
  · rw [hnumber₁, hstatus₁, hcreated₁]
    rfl

end NumberAgain

end AutoTrader
