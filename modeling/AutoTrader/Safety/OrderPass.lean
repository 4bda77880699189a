/-
  AutoTrader/Safety/OrderPass.lean
  ================================
  **A reconciliation pass, seen from one order.**

  A pass handles every order once, with the row it read before the loop.  The
  iterations of the other orders leave the row, the fills and the cumulative fill
  ids of the order `c` alone (`Aside`), so its own iteration starts from the row
  that was read.  What a pass does to `c` is therefore what its own iteration
  does: `pass_order`.
-/
import AutoTrader.Safety.FillChannels

namespace AutoTrader

open Relational Transactional Interleave

/-! ### The iterations of other orders -/

/-- Nothing happened to the order `c`, and no cumulative quantity of it was booked. -/
structure Aside (c : String) (db db' : Database) : Prop extends Apart c db db' where
  fresh : ∀ n, db'.recorded (reconcileFillId c n) = true → db.recorded (reconcileFillId c n) = true

theorem Aside.refl (c : String) (db : Database) : Aside c db db := ⟨.refl c db, fun _ h => h⟩

theorem Aside.trans {c : String} {db db' db'' : Database} (h : Aside c db db')
    (h' : Aside c db' db'') : Aside c db db'' :=
  ⟨h.toApart.trans h'.toApart, fun n hn => h.fresh n (h'.fresh n hn)⟩

/-- A change that adds no fill books no quantity. -/
theorem Aside.of_apart {c : String} {db db' : Database} (h : Apart c db db')
    (hfills : db'.brokerFills = db.brokerFills) : Aside c db db' := by
  refine ⟨h, fun n hn => ?_⟩
  unfold Database.recorded at hn ⊢
  rw [← hfills]
  exact hn

theorem Aside.sameLedger {c : String} {db db' : Database} (h : SameLedger db db') : Aside c db db' :=
  .of_apart (.sameLedger h) h.fills

theorem Aside.status {c id : String} (hid : c ≠ id) (now : DateTime) (u : StatusUpdate)
    (db : Database) : Aside c db ((Op.updateBrokerOrderStatus now id u).exec db) :=
  .of_apart (.status hid now u db) (Op.exec_fills (by simp) db)

theorem Aside.materialize (c : String) (now : DateTime) (a : MaterializeArgs) (db : Database) :
    Aside c db ((Op.materializeOrderFills now a).exec db) :=
  .of_apart (.materialize c now a db) (Op.exec_fills (by simp) db)

theorem Aside.fill {c : String} {a : FillArgs} (hid : c ≠ a.clientOrderId)
    (hfill : ∀ n, a.fillId ≠ reconcileFillId c n) (now : DateTime) (db : Database) :
    Aside c db ((Op.applyBrokerFill now a).exec db) := by
  refine ⟨.fill hid now db, fun n hn => ?_⟩
  rcases applyBrokerFill_cases now a db with ⟨e, hr⟩ | ⟨-, hr⟩ | ⟨checked, order, -, -, hfree, -, hr⟩
  · simpa only [Op.exec, Op.call, Op.run, hr] using hn
  · simpa only [Op.exec, Op.call, Op.run, hr] using hn
  · have hrows := (Table.insertOrIgnore_of_free (r := fillRow now a checked order) hfree).2
    simp only [Op.exec, Op.call, Op.run, hr] at hn
    rw [Database.recorded_append hrows, Bool.or_eq_true, decide_eq_true_eq] at hn
    exact hn.resolve_right (hfill n)

section Pass

variable (broker : BrokerReplies) (now : DateTime)

/-! ### The steps of an iteration -/

theorem materializeLocalFills_keeps {R : Database → Prop} {db : Database} (hdb : R db)
    (hbooked : ∀ a, R ((Op.materializeOrderFills now a).exec db)) (o : BrokerOrder) :
    Raising.Ends (dbHandler broker) (materializeLocalFills now o) (fun _ => R) (fun _ => R) db := by
  have hcall : ∀ a, Raising.Ends (dbHandler broker) (execute (.materializeOrderFills now a))
      (fun _ => R) (fun _ => R) db :=
    fun a => ends_execute_exec broker db (fun _ _ => hbooked a) fun _ _ => hbooked a
  unfold materializeLocalFills
  split
  · apply ends_select
    split
    · exact hdb
    · exact hcall _
  · exact hcall _

/-- Settling an order keeps what copying its record and applying its fills keep. -/
theorem settleOrder_keeps {R : Database → Prop} {o : BrokerOrder} {record : OrderRecord}
    {db : Database} (hdb : R db)
    (hcopied : ∀ status completedAt, localStatusForBroker record.status = some status →
      R ((Op.updateBrokerOrderStatus now o.clientOrderId
        (recordUpdate now (keptPending o.status status) record completedAt)).exec db))
    (hbooked : ∀ db' a, R db' → R ((Op.materializeOrderFills now a).exec db')) (acc : PassState) :
    Raising.Ends (dbHandler broker) (settleOrder now o record acc) (fun _ => R) (fun _ => R) db := by
  unfold settleOrder
  split
  · exact hdb
  · rename_i status hstatus
    have hupdate := hcopied status
      (if (keptPending o.status status).terminal then some now else none) hstatus
    apply Raising.Ends.bind
    refine ends_execute_exec broker db ?_ fun _ _ => hupdate
    intro updated _
    apply Raising.Ends.bind
    apply Raising.Ends.attempt
    exact Raising.Ends.mono
      (materializeLocalFills_keeps broker now hupdate (fun a => hbooked _ a hupdate) o)
      (fun _ _ h => h) fun _ _ h => h

/-- Booking the difference: the price can be refused, the call can raise, and the
    order is settled after it returned. -/
theorem bookDifference_keeps {R : Database → Prop} {o : BrokerOrder} {record : OrderRecord}
    {db : Database} (hdb : R db)
    (hsettled : record.filledQuantity = o.filledQty → ∀ acc,
      Raising.Ends (dbHandler broker) (settleOrder now o record acc) (fun _ => R) (fun _ => R) db)
    (hbooked : record.filledQuantity ≠ o.filledQty → ∀ price,
      incrementalFillPrice o record (record.filledQuantity - o.filledQty) = .ok price →
      let fill := Op.applyBrokerFill now
        (reconcileFillArgs now o record (record.filledQuantity - o.filledQty) price)
      (∀ e, (fill.call db).1 = .error e → R (fill.exec db)) ∧
      ∀ inserted, (fill.call db).1 = .ok inserted → ∀ acc,
        Raising.Ends (dbHandler broker) (settleOrder now o record acc) (fun _ => R) (fun _ => R)
          (fill.exec db))
    (acc : PassState) :
    Raising.Ends (dbHandler broker) (bookDifference now o record acc) (fun _ => R) (fun _ => R)
      db := by
  unfold bookDifference
  dsimp only
  split
  · rename_i hzero
    exact hsettled (by omega) acc
  · rename_i hdelta
    apply Raising.Ends.bind
    refine .of_eval (eval_reraise broker db _) ?_
    cases hprice : incrementalFillPrice o record (record.filledQuantity - o.filledQty) with
    | error e => exact hdb
    | ok price =>
      obtain ⟨hraised, hreturned⟩ := hbooked (by omega) price hprice
      apply Raising.Ends.bind
      apply Raising.Ends.attempt
      refine ends_execute_exec broker db ?_ ?_
      · exact fun inserted hr => hreturned inserted hr _
      · exact fun e hr => hraised e hr

/-- An iteration either leaves its order alone or books the difference to a record
    that is about it and not behind it. -/
theorem reconcileOrder_keeps {R : Database → Prop} {orders : List OrderRecord} {o : BrokerOrder}
    {db : Database} (hdb : R db)
    (hbooked : ∀ record, byBrokerId orders o.brokerIdText = some record → sameOrder o record = true →
      (o.filledQty : Int) ≤ record.filledQuantity → ∀ acc,
      Raising.Ends (dbHandler broker) (bookDifference now o record acc) (fun _ => R) (fun _ => R) db)
    (acc : PassState) :
    Raising.Ends (dbHandler broker) (reconcileOrder now orders acc o) (fun _ => R) (fun _ => R)
      db := by
  unfold reconcileOrder
  dsimp only
  split
  · exact hdb
  · split
    · exact hdb
    · rename_i record hrecord
      split
      · exact hdb
      · rename_i hsame
        split
        · exact hdb
        · rename_i hgrown
          split
          · exact hdb
          · exact hbooked record hrecord (by simpa using hsame) (by omega) _

/-! ### The pass -/

/-- The iteration of another order. -/
theorem reconcileOrder_aside {c : String} {o : BrokerOrder} (ho : c ≠ o.clientOrderId)
    (orders : List OrderRecord) (acc : PassState) (db : Database) :
    Raising.Ends (dbHandler broker) (reconcileOrder now orders acc o) (fun _ => Aside c db)
      (fun _ => Aside c db) db := by
  have hsettle : ∀ {db' : Database} (record : OrderRecord) (acc : PassState), Aside c db db' →
      Raising.Ends (dbHandler broker) (settleOrder now o record acc) (fun _ => Aside c db)
        (fun _ => Aside c db) db' :=
    fun record acc h => settleOrder_keeps broker now h
      (fun _ _ _ => h.trans (.status ho now _ _)) (fun db' a h' => h'.trans (.materialize c now a db')) acc
  refine reconcileOrder_keeps broker now (.refl c db) ?_ acc
  intro record _ _ _ acc'
  refine bookDifference_keeps broker now (.refl c db) (fun _ acc => hsettle record acc (.refl c db))
    ?_ acc'
  intro _ price _
  have hfill := Aside.fill (a := reconcileFillArgs now o record
    (record.filledQuantity - o.filledQty) price) ho
    (fun n hn => ho (reconcileFillId_injective hn).1.symm) now db
  exact ⟨fun _ _ => hfill, fun _ _ acc => hsettle record acc hfill⟩

/-- **A pass is its iteration of the order.**  What holds before the pass, survives
    what happens elsewhere and is established by the order's own iteration from the
    row that was read, holds after the pass. -/
theorem pass_order {c : String} {R : Database → Prop} {db : Database} (hdb : R db)
    (haside : ∀ db₁ db₂, R db₁ → Aside c db₁ db₂ → R db₂)
    (orders : Except ReadError (List OrderRecord))
    (hown : ∀ records, orders = .ok records → ∀ o ∈ reconciledRows db, db.brokerOrders.find? c = some o →
      ∀ acc db₁, Aside c db db₁ →
      Raising.Ends (dbHandler broker) (reconcileOrder now records acc o) (fun _ => R) (fun _ => R)
        db₁)
    (account : Except ReadError (List AccountPosition)) :
    R (Raising.eval (dbHandler broker) (reconcileBrokerState now orders account) db).2 := by
  have hfinish : ∀ {db₁ : Database} (acc : PassState), R db₁ →
      Raising.Ends (dbHandler broker) (finishPass now acc) (fun _ => R) (fun _ => R) db₁ := by
    intro db₁ acc h₁
    refine Raising.Ends.mono (finishPass_ends broker now db₁ acc) ?_ fun _ _ he => he.elim
    exact fun _ db₂ h₂ => haside db₁ db₂ h₁ (.sameLedger h₂.1)
  apply Raising.Ends.store
  unfold reconcileBrokerState
  cases orders with
  | error e => exact hfinish _ hdb
  | ok records =>
    apply ends_selectOrders
    apply Raising.Ends.bind
    -- the order is still to come and nothing happened to it, or it was handled
    have hloop := Raising.Ends.foldlM (h := dbHandler broker) (f := reconcileOrder now records)
      (E := fun _ => R) (I := fun rest _ db₁ => (rest.map (·.clientOrderId)).Nodup ∧
        (∀ o ∈ rest, o ∈ reconciledRows db ∧ (o.clientOrderId = c → db.brokerOrders.find? c = some o)) ∧
        R db₁ ∧
        (Aside c db db₁ ∨ ∀ o ∈ rest, o.clientOrderId ≠ c)) ?_ (reconciledRows db)
      (a := PassState.empty) (s := db) ?_
    · refine Raising.Ends.mono hloop ?_ fun _ _ he => he
      rintro acc db₁ ⟨-, -, h₁, -⟩
      cases account with
      | error e => exact hfinish _ h₁
      | ok account => exact ends_select broker db₁ (hfinish _ h₁)
    · rintro x rest acc db₁ ⟨hnodup, hread, h₁, hstate⟩
      rw [List.map_cons, List.nodup_cons] at hnodup
      have hrest : ∀ o ∈ rest, o ∈ reconciledRows db ∧
          (o.clientOrderId = c → db.brokerOrders.find? c = some o) :=
        fun o ho => hread o (List.mem_cons_of_mem _ ho)
      obtain ⟨hselected, hrow⟩ := hread x List.mem_cons_self
      by_cases hx : x.clientOrderId = c
      · -- its own iteration; no later row has its id
        have hbefore : Aside c db db₁ :=
          hstate.resolve_right fun hnone => hnone x List.mem_cons_self hx
        refine Raising.Ends.mono
          (hown records rfl x hselected (hrow hx) acc db₁ hbefore) ?_ fun _ _ he => he
        intro acc' db₂ h₂
        refine ⟨hnodup.2, hrest, h₂, .inr fun o ho hoc => hnodup.1 ?_⟩
        exact List.mem_map.mpr ⟨o, ho, hoc.trans hx.symm⟩
      · refine Raising.Ends.mono (reconcileOrder_aside broker now (Ne.symm hx) records acc db₁) ?_ ?_
        · intro acc' db₂ h₂
          refine ⟨hnodup.2, hrest, haside db₁ db₂ h₁ h₂, ?_⟩
          refine hstate.imp (fun h => h.trans h₂) fun hnone o ho => ?_
          exact hnone o (List.mem_cons_of_mem _ ho)
        · exact fun _ db₂ h₂ => haside db₁ db₂ h₁ h₂
    · refine ⟨reconciledRows_nodup db, ?_, hdb, .inl (.refl c db)⟩
      refine fun o ho => ⟨ho, ?_⟩
      rintro rfl
      exact db.brokerOrders.find?_of_mem (mem_reconciledRows.mp ho).1

end Pass

end AutoTrader
