/-
  AutoTrader/Safety/Reconciliation.lean
  =====================================
  **A reconciliation pass unblocks only on explained states.**

  The verdict of `reconcile_broker_state` is the absence of reasons, so soundness
  means that every way through the loop body either leaves a reason or leaves its
  order explained: matched by a record, with the record's filled quantity in the
  header and no fill left unapplied.  `reconcileOrder_ends` says this for one
  order, and the loop invariant adds the frame: an iteration touches the rows of
  its own order only, so orders explained earlier stay explained.

  One branch relies on the history of the database.  `update_broker_order_status`
  silently skips a filled quantity above the requested one, and the over-fill
  check of `apply_broker_fill` is not reached when the fill id is recorded
  already; no pass ever records `reconcile:<id>:cum:<n>` with such an `n`.
-/
import AutoTrader.Ledger.Bookable
import AutoTrader.Pipeline.FillNotice
import AutoTrader.Pipeline.Reconcile
import Mathlib.Data.List.Dedup

namespace AutoTrader

open Relational Transactional Interleave

/-! ### Fill ids of passes -/

theorem reconcileFillId_injective {c d : String} {m n : Int}
    (h : reconcileFillId c m = reconcileFillId d n) : c = d ∧ m = n := by
  have hsplit : ∀ (id : String) (k : Int),
      reconcileFillId id k = ("reconcile:" ++ id ++ ":cum") ++ ":" ++ toString k := by
    intro id k
    have hcum : (":cum:" : String) = ":cum" ++ ":" := by decide
    simp only [reconcileFillId, hcum, String.append_assoc]
  rw [hsplit, hsplit] at h
  obtain ⟨hfront, hback⟩ :=
    Text.append_colon_inj (Text.colon_notMem_int m) (Text.colon_notMem_int n) h
  have hid := (String.append_left_inj ":cum").mp hfront
  exact ⟨(String.append_right_inj "reconcile:").mp hid, Text.toString_int_injective hback⟩

theorem noticeFillId_ne_reconcile (notice : FillNotice) (c : String) (n : Int) :
    noticeFillId notice ≠ reconcileFillId c n := by
  intro h
  have hlist := congrArg String.toList h
  simp only [noticeFillId, reconcileFillId, String.toList_append] at hlist
  have hk : ("kis:fill:" : String).toList = 'k' :: "is:fill:".toList := by decide
  have hr : ("reconcile:" : String).toList = 'r' :: "econcile:".toList := by decide
  rw [hk, hr] at hlist
  simp at hlist

/-! ### The states a program run leaves behind -/

/-- A fill under the id of a cumulative quantity states no more than was asked for. -/
def CumulativeWithin (db : Database) : Prop :=
  ∀ f ∈ db.brokerFills.rows, ∀ c n, f.fillId = reconcileFillId c n →
    ∃ o, db.brokerOrders.find? c = some o ∧ n ≤ o.requestedQty

/-- The ledger tables are the same. -/
structure SameLedger (db db' : Database) : Prop where
  orders : db'.brokerOrders = db.brokerOrders
  fills : db'.brokerFills = db.brokerFills
  positions : db'.livePositions = db.livePositions
  applications : db'.fillApplications = db.fillApplications

/-- The databases the program can leave behind: any calls of the methods, in which
    fills under the id of a cumulative quantity come from passes only, whole
    passes on any broker data, and any change of the other tables. -/
inductive ProgramState : Database → Prop
  | empty : ProgramState Database.empty
  | call {db : Database} (op : Op) : ProgramState db →
      (∀ now a, op = .applyBrokerFill now a → ∀ c n, a.fillId ≠ reconcileFillId c n) →
      ProgramState (op.exec db)
  | pass {db : Database} (broker : BrokerReplies) (now : DateTime)
      (orders : Except ReadError (List OrderRecord))
      (account : Except ReadError (List AccountPosition)) : ProgramState db →
      ProgramState (Raising.eval (dbHandler broker) (reconcileBrokerState now orders account) db).2
  | other {db db' : Database} : ProgramState db → SameLedger db db' → ProgramState db'

/-- What program states have in common. -/
structure ProgramLedger (db : Database) : Prop where
  ledger : LedgerState db
  cumulative : CumulativeWithin db

theorem ProgramLedger.congr {db db' : Database} (h : ProgramLedger db) (hs : SameLedger db db') :
    ProgramLedger db' where
  ledger :=
    { positions := h.ledger.positions.congr hs.positions hs.fills hs.applications
      owned := by rw [hs.fills, hs.orders]; exact h.ledger.owned
      named := by rw [hs.orders]; exact h.ledger.named
      keyed := by rw [hs.positions]; exact h.ledger.keyed }
  cumulative := by
    unfold CumulativeWithin
    rw [hs.fills, hs.orders]
    exact h.cumulative

/-- A call keeps the bound when a fill it adds respects it. -/
theorem ProgramLedger.exec {db : Database} (h : ProgramLedger db) (op : Op)
    (hfill : ∀ now a, op = .applyBrokerFill now a → ∀ c n, a.fillId = reconcileFillId c n →
      ∃ o, db.brokerOrders.find? c = some o ∧ ∀ checked order, checkFill a = .ok checked →
        db.brokerOrders.find? a.clientOrderId = some order →
        order.filledQty + checked.quantity.val ≤ order.requestedQty → n ≤ o.requestedQty) :
    ProgramLedger (op.exec db) := by
  refine ⟨h.ledger.exec op, ?_⟩
  have horders := op.exec_orders db
  have hold : ∀ f ∈ db.brokerFills.rows, ∀ c n, f.fillId = reconcileFillId c n →
      ∃ o, (op.exec db).brokerOrders.find? c = some o ∧ n ≤ o.requestedQty := by
    intro f hf c n hid
    obtain ⟨o, ho, hn⟩ := h.cumulative f hf c n hid
    obtain ⟨o', ho', hsame⟩ := horders.persists ho
    exact ⟨o', ho', by rw [hsame.requestedQty]; exact hn⟩
  by_cases hop : ∃ now a, op = .applyBrokerFill now a
  · obtain ⟨now, a, rfl⟩ := hop
    rcases applyBrokerFill_cases now a db with
      ⟨e, hr⟩ | ⟨-, hr⟩ | ⟨checked, order, hc, horder, hfree, hfit, hr⟩
    · simp only [Op.exec, Op.call, Op.run, hr]; exact h.cumulative
    · simp only [Op.exec, Op.call, Op.run, hr]; exact h.cumulative
    · have hfills : ((Op.applyBrokerFill now a).exec db).brokerFills.rows =
          db.brokerFills.rows ++ [fillRow now a checked order] := by
        simp only [Op.exec, Op.call, Op.run, hr]
        exact (Table.insertOrIgnore_of_free (r := fillRow now a checked order) hfree).2
      intro f hf c n hid
      rw [hfills] at hf
      rcases List.mem_append.mp hf with hf | hf
      · exact hold f hf c n hid
      · rw [List.mem_singleton.mp hf] at hid
        obtain ⟨o, ho, hn⟩ := hfill now a rfl c n hid
        obtain ⟨o', ho', hsame⟩ := horders.persists ho
        exact ⟨o', ho', by rw [hsame.requestedQty]; exact hn checked order hc horder hfit⟩
  · intro f hf
    rw [Op.exec_fills (fun now a he => hop ⟨now, a, he⟩)] at hf
    exact hold f hf

/-! ### The frame of one order -/

theorem Database.applied_iff {db : Database} {f : BrokerFill} :
    db.applied f = true ↔ ∃ a ∈ db.fillApplications.rows, a.fillId = f.fillId := by
  unfold Database.applied
  constructor
  · intro h
    obtain ⟨a, ha⟩ := Option.isSome_iff_exists.mp h
    exact ⟨a, db.fillApplications.mem_of_find? ha, db.fillApplications.key_of_find? ha⟩
  · rintro ⟨a, ha, hid⟩
    rw [← hid, db.fillApplications.find?_of_mem ha]
    rfl

/-- Handling the order `id` leaves the other orders alone, adds fills of `id` only
    and never takes an application back. -/
structure OnlyOrder (id : String) (db db' : Database) : Prop where
  others : ∀ k, k ≠ id → db'.brokerOrders.find? k = db.brokerOrders.find? k
  fills : ∀ f ∈ db'.brokerFills.rows, f ∈ db.brokerFills.rows ∨ f.clientOrderId = id
  applied : ∀ f, db.applied f = true → db'.applied f = true

theorem OnlyOrder.refl (id : String) (db : Database) : OnlyOrder id db db where
  others := fun _ _ => rfl
  fills := fun _ hf => .inl hf
  applied := fun _ hf => hf

theorem OnlyOrder.trans {id : String} {db db' db'' : Database} (h : OnlyOrder id db db')
    (h' : OnlyOrder id db' db'') : OnlyOrder id db db'' where
  others := fun k hk => (h'.others k hk).trans (h.others k hk)
  fills := by
    intro f hf
    rcases h'.fills f hf with hf | hf
    · exact h.fills f hf
    · exact .inr hf
  applied := fun f hf => h'.applied f (h.applied f hf)

theorem OnlyOrder.status (now : DateTime) (id : String) (u : StatusUpdate) (db : Database) :
    OnlyOrder id db ((Op.updateBrokerOrderStatus now id u).exec db) := by
  rcases updateBrokerOrderStatus_cases now id u db with
    ⟨e, hr⟩ | ⟨c, -, -, hr⟩ | ⟨o, c, -, -, -, hr⟩
  · simp only [Op.exec, Op.call, Op.run, hr]; exact .refl id db
  · simp only [Op.exec, Op.call, Op.run, hr]; exact .refl id db
  · simp only [Op.exec, Op.call, Op.run, hr]
    refine ⟨?_, fun _ hf => .inl hf, fun _ hf => hf⟩
    intro k hk
    simp only [Table.find?_update_ne _ hk]

theorem OnlyOrder.fill (now : DateTime) (a : FillArgs) (db : Database) :
    OnlyOrder a.clientOrderId db ((Op.applyBrokerFill now a).exec db) := by
  rcases applyBrokerFill_cases now a db with ⟨e, hr⟩ | ⟨-, hr⟩ | ⟨c, order, -, -, hfree, -, hr⟩
  · simp only [Op.exec, Op.call, Op.run, hr]; exact .refl _ db
  · simp only [Op.exec, Op.call, Op.run, hr]; exact .refl _ db
  · simp only [Op.exec, Op.call, Op.run, hr]
    refine ⟨?_, ?_, fun _ hf => hf⟩
    · intro k hk
      simp only [Table.find?_update_ne _ hk]
    intro f hf
    rw [(Table.insertOrIgnore_of_free (r := fillRow now a c order) hfree).2] at hf
    rcases List.mem_append.mp hf with hf | hf
    · exact .inl hf
    · rw [List.mem_singleton.mp hf]; exact .inr rfl

theorem OnlyOrder.booked {now : DateTime} {c : CheckedMaterialize} {order : BrokerOrder}
    {fills : List BrokerFill} {db db' : Database} (id : String)
    (h : Booked now c order fills db db') : OnlyOrder id db db' := by
  obtain ⟨hframe, hrows⟩ := h.frame
  refine ⟨?_, ?_, ?_⟩
  · intro k _; rw [hframe]
  · intro f hf; rw [hframe] at hf; exact .inl hf
  · intro f hf
    obtain ⟨a, ha, hid⟩ := Database.applied_iff.mp hf
    refine Database.applied_iff.mpr ⟨a, ?_, hid⟩
    rw [hrows]
    exact List.mem_append_left _ ha

/-! ### One order -/

/-- The header carries the record and no fill of the order is unapplied. -/
structure Settled (id : String) (record : OrderRecord) (db : Database) : Prop where
  header : ∃ o, db.brokerOrders.find? id = some o ∧ o.brokerOrderId = some record.orderNumber ∧
    (o.filledQty : Int) = record.filledQuantity
  applied : ∀ f ∈ db.brokerFills.rows, f.clientOrderId = id → db.applied f = true

/-- The record that explains a local order, as it was read and as it is now. -/
structure Explained (orders : List OrderRecord) (o : BrokerOrder) (db : Database) : Prop where
  known : o.status ≠ .unknown
  named : o.brokerIdText ≠ ""
  record : ∃ record ∈ orders, o.brokerOrderId = some record.orderNumber ∧
    record.symbol = o.symbol ∧ record.side = some o.side ∧
    (record.orderedQuantity ≠ 0 → record.orderedQuantity = o.requestedQty) ∧
    Settled o.clientOrderId record db

/-- What a step of the pass leaves behind when it raises. -/
def Raised (_ : Exn) (db : Database) : Prop := ProgramLedger db

/-- What handling the order `id` leaves behind: the verdict `P` unless there is a
    reason, and matches among the earlier ones and `matched`. -/
structure Handled (id : String) (matched : List String) (P : Database → Prop) (acc : PassState)
    (db : Database) (acc' : PassState) (db' : Database) : Prop where
  ledger : ProgramLedger db'
  only : OnlyOrder id db db'
  matched : ∀ m ∈ acc'.matched, m ∈ acc.matched ++ matched
  verdict : acc'.reasons = [] → acc.reasons = [] ∧ P db'

/-- The reasons with which an iteration refuses the record of its order. -/
def refusalKinds : List String :=
  ["local_order_unconfirmed:", "broker_order_missing:", "order_identity_mismatch:",
   "fill_regression:", "order_quantity_mismatch:", "fill_apply_failed:", "broker_status_unknown:",
   "materialize_failed:"]

/-- One of the reasons refuses the record of the order. -/
def Refused (id : String) (reasons : List String) : Prop :=
  ∃ reason ∈ reasons, ∃ kind ∈ refusalKinds, ∃ detail, reason = kind ++ id ++ detail

/-- `Handled` for one order among others: reasons stay, and the order has one of
    its own or the verdict. -/
structure Processed (id : String) (matched : List String) (P : Database → Prop) (acc : PassState)
    (db : Database) (acc' : PassState) (db' : Database) : Prop where
  ledger : ProgramLedger db'
  only : OnlyOrder id db db'
  matched : ∀ m ∈ acc'.matched, m ∈ acc.matched ++ matched
  kept : ∀ reason ∈ acc.reasons, reason ∈ acc'.reasons
  verdict : Refused id acc'.reasons ∨ P db'

/-- The record that an iteration took over for its order. -/
structure Taken (orders : List OrderRecord) (o : BrokerOrder) (db : Database) : Prop where
  named : o.brokerIdText ≠ ""
  record : ∃ record, byBrokerId orders o.brokerIdText = some record ∧ sameOrder o record = true ∧
    (record.orderedQuantity ≠ 0 → record.orderedQuantity = o.requestedQty) ∧
    Settled o.clientOrderId record db

section Pass

variable (broker : BrokerReplies) (now : DateTime)

theorem materialize_ends {db : Database} (h : ProgramLedger db) (a : MaterializeArgs) :
    Raising.Ends (dbHandler broker) (execute (.materializeOrderFills now a))
      (fun _ db' => ProgramLedger db' ∧ OnlyOrder a.clientOrderId db db' ∧
        db'.brokerOrders = db.brokerOrders ∧
        ∀ f ∈ db'.brokerFills.rows, f.clientOrderId = a.clientOrderId → db'.applied f = true)
      (fun _ db' => db' = db) db := by
  apply ends_execute
  have hledger := h.exec (.materializeOrderFills now a) (by intro now' a' he; cases he)
  rcases hr : (materializeOrderFills now a).run db with ⟨r, db'⟩
  cases r with
  | error e =>
    rcases materializeOrderFills_cases now a db with ⟨e', hr'⟩ | ⟨c, order, m, db₁, -, -, -, hr'⟩
    · simp only [Op.call, Op.run, hr']
      exact rfl
    · rw [hr'] at hr; cases hr
  | ok n =>
    obtain ⟨c, order, -, -, hbooked, -⟩ := materializeOrderFills_ok hr
    simp only [Op.exec, Op.call, Op.run, hr] at hledger ⊢
    refine ⟨hledger, .booked _ hbooked, by rw [hbooked.frame.1], ?_⟩
    intro f hf hid
    by_contra hnot
    have hmem : f ∈ db'.unappliedFills a.clientOrderId :=
      Database.mem_unappliedFills.mpr ⟨hf, hid, by simpa using hnot⟩
    rw [unappliedFills_of_booked hbooked] at hmem
    cases hmem

theorem materializeLocalFills_ends {db : Database} (h : ProgramLedger db) (o : BrokerOrder) :
    Raising.Ends (dbHandler broker) (materializeLocalFills now o)
      (fun _ db' => ProgramLedger db' ∧ OnlyOrder o.clientOrderId db db' ∧
        db'.brokerOrders = db.brokerOrders ∧
        ∀ f ∈ db'.brokerFills.rows, f.clientOrderId = o.clientOrderId → db'.applied f = true)
      (fun _ db' => db' = db) db := by
  unfold materializeLocalFills
  split
  · apply ends_select
    split
    · exact rfl
    · exact materialize_ends broker now h _
  · exact materialize_ends broker now h _

theorem addReason_reasons_ne (acc : PassState) (reason : String) :
    (acc.addReason reason).reasons ≠ [] := by
  simp [PassState.addReason]

theorem Refused.addReason {id reason : String} (acc : PassState) (kind detail : String)
    (hkind : kind ∈ refusalKinds) (hreason : reason = kind ++ id ++ detail) :
    Refused id (acc.addReason reason).reasons :=
  ⟨reason, List.mem_append_right _ (List.mem_singleton_self _), kind, hkind, detail, hreason⟩

/-- A branch that refuses the record and touches nothing. -/
theorem Processed.refused {id : String} {P : Database → Prop} {acc acc' : PassState} {db : Database}
    {matched : List String} (h : ProgramLedger db) (hm : ∀ m ∈ acc'.matched, m ∈ acc.matched ++ matched)
    (hkept : ∀ reason ∈ acc.reasons, reason ∈ acc'.reasons) {reason : String}
    (kind detail : String) (hkind : kind ∈ refusalKinds) (hreason : reason = kind ++ id ++ detail) :
    Processed id matched P acc db (acc'.addReason reason) db where
  ledger := h
  only := .refl id db
  matched := hm
  kept := fun reason hr => List.mem_append_left _ (hkept reason hr)
  verdict := .inl (.addReason acc' kind detail hkind hreason)

/-- Copying a record that does not raise leaves its number and its quantity in the
    header: the row is skipped only when they stand there already. -/
theorem recordUpdate_header {db : Database} {id : String} {cur : BrokerOrder} {record : OrderRecord}
    {status : OrderStatus} {completedAt : Option DateTime} {flag : Bool}
    (hcur : db.brokerOrders.find? id = some cur)
    (hfit : record.filledQuantity ≤ cur.requestedQty ∨
      (cur.filledQty = record.filledQuantity ∧ cur.brokerOrderId = some record.orderNumber))
    (hflag : ((Op.updateBrokerOrderStatus now id
      (recordUpdate now status record completedAt)).call db).1 = .ok flag) :
    ∃ o', ((Op.updateBrokerOrderStatus now id
        (recordUpdate now status record completedAt)).exec db).brokerOrders.find? id = some o' ∧
      o'.brokerOrderId = some record.orderNumber ∧ (o'.filledQty : Int) = record.filledQuantity := by
  rcases updateBrokerOrderStatus_cases now id (recordUpdate now status record completedAt) db with
    ⟨e, hr⟩ | ⟨c, hc, hno, hr⟩ | ⟨o', c, hc, ho', hw, hr⟩
  · simp [Op.call, Op.run, hr] at hflag
  · simp only [Op.exec, Op.call, Op.run, hr]
    obtain ⟨hq, hpos, -⟩ := checkUpdate_ok hc
    have hq0 := hpos record.filledQuantity rfl
    have hskip := hno cur hcur
    simp only [withinRequested, hq, recordUpdate, Option.map_some, decide_eq_false_iff_not,
      not_le] at hskip
    rcases hfit with hle | ⟨hsame, hid⟩
    · omega
    · exact ⟨cur, hcur, hid, hsame⟩
  · simp only [Op.exec, Op.call, Op.run, hr, Table.find?_update_self, ho', Option.map_some]
    obtain ⟨hq, hpos, -⟩ := checkUpdate_ok hc
    have hq0 := hpos record.filledQuantity rfl
    refine ⟨_, rfl, rfl, ?_⟩
    simp only [updatedHeader, hq, recordUpdate, Option.map_some, Option.getD_some]
    omega

theorem settleOrder_ends {db : Database} (h : ProgramLedger db) (o cur : BrokerOrder)
    (record : OrderRecord) (acc : PassState)
    (hcur : db.brokerOrders.find? o.clientOrderId = some cur)
    (hfit : record.filledQuantity ≤ cur.requestedQty ∨
      (cur.filledQty = record.filledQuantity ∧ cur.brokerOrderId = some record.orderNumber)) :
    Raising.Ends (dbHandler broker) (settleOrder now o record acc)
      (Processed o.clientOrderId [] (Settled o.clientOrderId record) acc db) Raised db := by
  unfold settleOrder
  split
  · exact Processed.refused h (by simp) (fun _ hr => hr) "broker_status_unknown:" "" (by decide)
      (by rw [String.append_empty])
  · rename_i status _
    apply Raising.Ends.bind
    apply ends_execute
    -- the update raises, skips the row because of its quantity, or rewrites it
    let u := recordUpdate now (keptPending o.status status) record
      (if (keptPending o.status status).terminal then some now else none)
    have honly := OnlyOrder.status now o.clientOrderId u db
    have hledger := h.exec (.updateBrokerOrderStatus now o.clientOrderId u)
      (by intro now' a' he; cases he)
    rcases hcall : (Op.updateBrokerOrderStatus now o.clientOrderId u).call db with ⟨r, db₁⟩
    rw [Op.exec, hcall] at honly hledger
    cases r with
    | error e => exact hledger
    | ok flag =>
      obtain ⟨o', ho', hid, hqty⟩ := recordUpdate_header now hcur hfit (by rw [hcall])
      rw [Op.exec, hcall] at ho'
      apply Raising.Ends.bind
      apply Raising.Ends.attempt
      refine Raising.Ends.mono (materializeLocalFills_ends broker now hledger o) ?_ ?_
      · rintro n db₂ ⟨hledger₂, honly₂, horders, happlied⟩
        refine ⟨hledger₂, honly.trans honly₂, ?_, ?_, .inr ⟨⟨o', ?_, hid, hqty⟩, happlied⟩⟩
        · cases flag <;> simp
        · cases flag <;> exact fun _ hr => hr
        · change db₂.brokerOrders.find? o.clientOrderId = some o'
          rw [horders]
          exact ho'
      · rintro e db₂ rfl
        refine ⟨hledger, honly, ?_, ?_, .inl ?_⟩
        · cases flag <;> simp [PassState.addReason]
        · intro reason hr
          cases flag <;> exact List.mem_append_left _ hr
        · exact .addReason _ "materialize_failed:" (":" ++ e.typeName) (by decide)
            (by simp only [String.append_assoc])

theorem checkFill_quantity {a : FillArgs} {c : CheckedFill} {n : Int} (hn : a.quantity = .int n)
    (h : checkFill a = .ok c) : (c.quantity.val : Int) = n := by
  unfold checkFill at h
  obtain ⟨_, -, h⟩ := Except.bind_eq_ok h
  obtain ⟨_, -, h⟩ := Except.bind_eq_ok h
  obtain ⟨quantity, hq, h⟩ := Except.bind_eq_ok h
  obtain ⟨_, -, h⟩ := Except.bind_eq_ok h
  obtain ⟨_, -, h⟩ := Except.bind_eq_ok h
  obtain ⟨_, -, h⟩ := Except.bind_eq_ok h
  obtain ⟨_, -, h⟩ := Except.bind_eq_ok h
  cases h
  rw [hn, validateQuantity] at hq
  obtain ⟨_, -, hq⟩ := Except.bind_eq_ok hq
  split at hq
  · cases hq
    simp only
    omega
  · cases hq

theorem bookDifference_ends {db : Database} (h : ProgramLedger db) (o : BrokerOrder)
    (record : OrderRecord) (acc : PassState)
    (ho : db.brokerOrders.find? o.clientOrderId = some o)
    (hid : o.brokerOrderId = some record.orderNumber) :
    Raising.Ends (dbHandler broker) (bookDifference now o record acc)
      (Processed o.clientOrderId [] (Settled o.clientOrderId record) acc db) Raised db := by
  unfold bookDifference
  dsimp only
  split
  · rename_i hzero
    exact settleOrder_ends broker now h o o record acc ho (.inr ⟨by omega, hid⟩)
  · apply Raising.Ends.bind
    refine .of_eval (eval_reraise broker db _) ?_
    cases hprice : incrementalFillPrice o record (record.filledQuantity - o.filledQty) with
    | error e => exact h
    | ok price =>
      apply Raising.Ends.bind
      apply Raising.Ends.attempt
      apply ends_execute
      let a := reconcileFillArgs now o record (record.filledQuantity - o.filledQty) price
      -- a fill that is recorded now or was recorded before bounds the record's quantity
      have hfits : ∀ c order, checkFill a = .ok c →
          db.brokerOrders.find? a.clientOrderId = some order →
          order.filledQty + c.quantity.val ≤ order.requestedQty →
          record.filledQuantity ≤ o.requestedQty := by
        intro c order hc horder hfit
        have hq := checkFill_quantity (a := a) rfl hc
        have horder' : some o = some order := ho.symm.trans horder
        cases horder'
        omega
      have hledger := h.exec (.applyBrokerFill now a) (by
        intro now' a' he c n hn
        cases he
        obtain ⟨rfl, rfl⟩ := reconcileFillId_injective hn
        exact ⟨o, ho, hfits⟩)
      have honly := OnlyOrder.fill now a db
      rcases applyBrokerFill_cases now a db with
        ⟨e, hr⟩ | ⟨⟨f, hf⟩, hr⟩ | ⟨c, order, hc, horder, hfree, hfit, hr⟩
      · simp only [Op.call, Op.run, a] at hr ⊢
        rw [hr]
        exact Processed.refused h (by simp) (fun _ hr => hr) "fill_apply_failed:" (":" ++ e.typeName)
          (by decide) (by simp only [String.append_assoc])
      · simp only [Op.call, Op.run, a] at hr ⊢
        rw [hr]
        obtain ⟨o', ho', hn⟩ := h.cumulative f (db.brokerFills.mem_of_find? hf) o.clientOrderId
          record.filledQuantity (db.brokerFills.key_of_find? hf)
        rw [ho, Option.some.injEq] at ho'
        subst ho'
        exact settleOrder_ends broker now h o o record acc ho (.inl hn)
      · simp only [Op.exec, Op.call, Op.run, hr] at hledger honly
        have hcur := Table.find?_update_self db.brokerOrders a.clientOrderId
          (rollFill (fillRow now a c order)) (rollFill_clientOrderId _)
        rw [horder, Option.map_some] at hcur
        have hn := hfits c order hc horder hfit
        have horder' : some o = some order := ho.symm.trans horder
        cases horder'
        have hsettle := settleOrder_ends broker now hledger o _ record
          { acc with newFills := acc.newFills + 1 } hcur (.inl hn)
        simp only [Op.call, Op.run, a] at hr ⊢
        rw [hr]
        exact Raising.Ends.mono hsettle
          (fun acc' db' h' => ⟨h'.ledger, honly.trans h'.only, h'.matched, h'.kept, h'.verdict⟩)
          fun _ _ he => he

theorem byBrokerId_some {orders : List OrderRecord} {number : String} {record : OrderRecord}
    (h : byBrokerId orders number = some record) :
    record ∈ orders ∧ record.orderNumber = number := by
  have hmem := List.mem_of_find?_eq_some h
  have hnumber := List.find?_some h
  rw [List.mem_reverse, List.mem_filter] at hmem
  exact ⟨hmem.1, by simpa using hnumber⟩

theorem brokerOrderId_of_brokerIdText {o : BrokerOrder} (h : o.brokerIdText ≠ "") :
    o.brokerOrderId = some o.brokerIdText := by
  unfold BrokerOrder.brokerIdText at h ⊢
  cases hid : o.brokerOrderId with
  | none => rw [hid] at h; exact absurd rfl h
  | some id => rfl

/-- **One iteration.**  Every way through the loop body refuses the record or
    takes it over. -/
theorem reconcileOrder_processed {db : Database} (h : ProgramLedger db) (orders : List OrderRecord)
    (o : BrokerOrder) (acc : PassState) (ho : db.brokerOrders.find? o.clientOrderId = some o) :
    Raising.Ends (dbHandler broker) (reconcileOrder now orders acc o)
      (fun acc' db' => Processed o.clientOrderId [o.brokerIdText] (Taken orders o) acc db acc' db' ∧
        (o.status = .unknown → acc'.reasons ≠ [])) Raised db := by
  unfold reconcileOrder
  dsimp only
  -- the reason for an UNKNOWN row is added first and never removed
  set acc₀ := if o.status = .unknown then acc.addReason ("local_unknown:" ++ o.clientOrderId) else acc
    with hacc₀
  have hmatched₀ : acc₀.matched = acc.matched := by
    rw [hacc₀]; split <;> rfl
  have hkept₀ : ∀ reason ∈ acc.reasons, reason ∈ acc₀.reasons := by
    rw [hacc₀]
    split
    · exact fun reason hr => List.mem_append_left _ hr
    · exact fun reason hr => hr
  have hunknown₀ : o.status = .unknown → acc₀.reasons ≠ [] := by
    intro hunknown
    rw [hacc₀, if_pos hunknown]
    exact addReason_reasons_ne acc _
  have hgrow₀ : ∀ m ∈ acc₀.matched, m ∈ acc.matched ++ [o.brokerIdText] := by
    intro m hm
    rw [hmatched₀] at hm
    exact List.mem_append_left _ hm
  have hgrow₁ : ∀ m ∈ acc₀.matched ++ [o.brokerIdText], m ∈ acc.matched ++ [o.brokerIdText] := by
    rw [hmatched₀]; exact fun m hm => hm
  have hrefuse : ∀ (acc₁ : PassState), acc₁.reasons = acc₀.reasons →
      (∀ m ∈ acc₁.matched, m ∈ acc.matched ++ [o.brokerIdText]) →
      ∀ (kind detail : String) {reason : String}, kind ∈ refusalKinds →
      reason = kind ++ o.clientOrderId ++ detail →
      Processed o.clientOrderId [o.brokerIdText] (Taken orders o) acc db (acc₁.addReason reason) db ∧
        (o.status = .unknown → (acc₁.addReason reason).reasons ≠ []) := by
    intro acc₁ hreasons hmatched kind detail reason hkind hreason
    refine ⟨.refused h hmatched ?_ kind detail hkind hreason, fun _ => addReason_reasons_ne acc₁ reason⟩
    rw [hreasons]
    exact hkept₀
  split
  · exact hrefuse _ rfl hgrow₀ "local_order_unconfirmed:" "" (by decide)
      (by rw [String.append_empty])
  · rename_i hnamed
    split
    · exact hrefuse _ rfl hgrow₀ "broker_order_missing:" (":" ++ o.brokerIdText) (by decide)
        (by simp only [String.append_assoc])
    · rename_i record hrecord
      have hid : o.brokerOrderId = some record.orderNumber := by
        rw [brokerOrderId_of_brokerIdText hnamed, (byBrokerId_some hrecord).2]
      let acc₁ : PassState := { acc₀ with matched := acc₀.matched ++ [o.brokerIdText] }
      split
      · exact hrefuse acc₁ rfl hgrow₁ "order_identity_mismatch:" (":" ++ o.brokerIdText) (by decide)
          (by simp only [String.append_assoc])
      · rename_i hsame
        split
        · exact hrefuse acc₁ rfl hgrow₁ "fill_regression:" "" (by decide) (by rw [String.append_empty])
        · split
          · exact hrefuse acc₁ rfl hgrow₁ "order_quantity_mismatch:" "" (by decide)
              (by rw [String.append_empty])
          · rename_i hquantity
            refine Raising.Ends.mono (bookDifference_ends broker now h o record _ ho hid) ?_
              fun _ _ he => he
            intro acc' db' h'
            refine ⟨⟨h'.ledger, h'.only, ?_, ?_, ?_⟩, ?_⟩
            · intro m hm
              exact hgrow₁ m (by simpa using h'.matched m hm)
            · exact fun reason hr => h'.kept reason (hkept₀ reason hr)
            · refine h'.verdict.imp_right fun hsettled => ?_
              refine ⟨hnamed, record, hrecord, by simpa using hsame, ?_, hsettled⟩
              intro hstated
              by_contra hne
              exact hquantity ⟨hstated, hne⟩
            · intro hunknown hnil
              apply hunknown₀ hunknown
              refine List.eq_nil_iff_forall_not_mem.mpr fun reason hr => ?_
              have hmem' := h'.kept reason hr
              rw [hnil] at hmem'
              cases hmem'

theorem Taken.explained {orders : List OrderRecord} {o : BrokerOrder} {db : Database}
    (h : Taken orders o db) (hknown : o.status ≠ .unknown) : Explained orders o db := by
  obtain ⟨record, hrecord, hsame, hquantity, hsettled⟩ := h.record
  obtain ⟨hmem, hnumber⟩ := byBrokerId_some hrecord
  have hid : o.brokerOrderId = some record.orderNumber := by
    rw [brokerOrderId_of_brokerIdText h.named, hnumber]
  have hsame' : o.symbol = record.symbol ∧ record.side = some o.side := by
    simpa [sameOrder] using hsame
  exact ⟨hknown, h.named, record, hmem, hid, hsame'.1.symm, hsame'.2, hquantity, hsettled⟩

/-- An iteration that leaves no reason leaves an explained order. -/
theorem reconcileOrder_ends {db : Database} (h : ProgramLedger db) (orders : List OrderRecord)
    (o : BrokerOrder) (acc : PassState) (ho : db.brokerOrders.find? o.clientOrderId = some o) :
    Raising.Ends (dbHandler broker) (reconcileOrder now orders acc o)
      (Handled o.clientOrderId [o.brokerIdText] (Explained orders o) acc db) Raised db := by
  refine Raising.Ends.mono (reconcileOrder_processed broker now h orders o acc ho) ?_
    fun _ _ he => he
  rintro acc' db' ⟨h', hunknown⟩
  refine ⟨h'.ledger, h'.only, h'.matched, ?_⟩
  intro hnil
  refine ⟨List.eq_nil_iff_forall_not_mem.mpr fun reason hr => ?_, ?_⟩
  · have hmem := h'.kept reason hr
    rw [hnil] at hmem
    cases hmem
  · rcases h'.verdict with ⟨reason, hr, -⟩ | htaken
    · rw [hnil] at hr
      cases hr
    · exact htaken.explained fun hstatus => hunknown hstatus hnil

/-! ### The loop -/

theorem Settled.frame {id k : String} {record : OrderRecord} {db db' : Database}
    (h : Settled id record db) (hk : id ≠ k) (honly : OnlyOrder k db db') :
    Settled id record db' where
  header := by
    obtain ⟨o, ho, hrest⟩ := h.header
    exact ⟨o, by rw [honly.others id hk]; exact ho, hrest⟩
  applied := by
    intro f hf hid
    rcases honly.fills f hf with hf | hf
    · exact honly.applied f (h.applied f hf hid)
    · exact absurd (hid.symm.trans hf) hk

theorem Explained.frame {orders : List OrderRecord} {o : BrokerOrder} {k : String}
    {db db' : Database} (h : Explained orders o db) (hk : o.clientOrderId ≠ k)
    (honly : OnlyOrder k db db') : Explained orders o db' := by
  obtain ⟨hknown, hnamed, record, hmem, hid, hsym, hside, hquantity, hsettled⟩ := h
  exact ⟨hknown, hnamed, record, hmem, hid, hsym, hside, hquantity, hsettled.frame hk honly⟩

/-- The invariant of the loop over `rows`, when `rest` is still to be done: the
    rest is as it was read; without a reason so far, the others are explained and
    every unapplied fill belongs to the rest. -/
structure PassInvariant (orders : List OrderRecord) (rows rest : List BrokerOrder)
    (acc : PassState) (db : Database) : Prop where
  ledger : ProgramLedger db
  sub : ∀ o ∈ rest, o ∈ rows
  pending : ∀ o ∈ rest, db.brokerOrders.find? o.clientOrderId = some o
  done : acc.reasons = [] → ∀ o ∈ rows, o ∈ rest ∨ Explained orders o db
  fills : acc.reasons = [] → ∀ f ∈ db.brokerFills.rows, db.applied f = true ∨
    ∃ o ∈ rest, o.clientOrderId = f.clientOrderId
  matched : ∀ m ∈ acc.matched, ∃ o ∈ rows, o.brokerIdText = m

theorem reconcileLoop_ends {db : Database} {orders : List OrderRecord} {rows : List BrokerOrder}
    (hrows : (rows.map (·.clientOrderId)).Nodup) {acc : PassState}
    (h : PassInvariant orders rows rows acc db) :
    Raising.Ends (dbHandler broker) (rows.foldlM (reconcileOrder now orders) acc)
      (PassInvariant orders rows []) Raised db := by
  have hloop := Raising.Ends.foldlM (h := dbHandler broker) (f := reconcileOrder now orders)
    (E := Raised) (I := fun rest acc db =>
      (rest.map (·.clientOrderId)).Nodup ∧ PassInvariant orders rows rest acc db) ?_ rows
    ⟨hrows, h⟩
  · exact Raising.Ends.mono hloop (fun _ _ h => h.2) fun _ _ he => he
  rintro x rest acc db ⟨hnodup, hinv⟩
  rw [List.map_cons, List.nodup_cons] at hnodup
  have hx := hinv.pending x List.mem_cons_self
  refine Raising.Ends.mono (reconcileOrder_ends broker now hinv.ledger orders x acc hx) ?_
    fun _ _ he => he
  intro acc' db' h'
  refine ⟨hnodup.2, h'.ledger, ?_, ?_, ?_, ?_, ?_⟩
  · intro o ho
    exact hinv.sub o (List.mem_cons_of_mem _ ho)
  · intro o ho
    have hne : o.clientOrderId ≠ x.clientOrderId := by
      intro heq
      exact hnodup.1 (List.mem_map.mpr ⟨o, ho, heq⟩)
    rw [h'.only.others _ hne]
    exact hinv.pending o (List.mem_cons_of_mem _ ho)
  · intro hr o ho
    obtain ⟨hr₀, hexplained⟩ := h'.verdict hr
    by_cases hox : o = x
    · subst hox; exact .inr hexplained
    · rcases hinv.done hr₀ o ho with ho' | ho'
      · rcases List.mem_cons.mp ho' with ho' | ho'
        · exact absurd ho' hox
        · exact .inl ho'
      · -- another row of the same table has another id
        right
        refine ho'.frame ?_ h'.only
        intro heq
        exact hox (List.inj_on_of_nodup_map hrows ho (hinv.sub x List.mem_cons_self) heq)
  · intro hr f hf
    obtain ⟨hr₀, hexplained⟩ := h'.verdict hr
    obtain ⟨record, -, -, -, -, -, hsettled⟩ := hexplained.record
    rcases h'.only.fills f hf with hold | hold
    · rcases hinv.fills hr₀ f hold with happ | ⟨o, ho, hid⟩
      · exact .inl (h'.only.applied f happ)
      · rcases List.mem_cons.mp ho with rfl | ho
        · exact .inl (hsettled.applied f hf hid.symm)
        · exact .inr ⟨o, ho, hid⟩
    · exact .inl (hsettled.applied f hf hold)
  · intro m hm
    rcases List.mem_append.mp (h'.matched m hm) with hm | hm
    · exact hinv.matched m hm
    · exact ⟨x, hinv.sub x List.mem_cons_self, (List.mem_singleton.mp hm).symm⟩

theorem mem_reconciledRows {db : Database} {o : BrokerOrder} :
    o ∈ reconciledRows db ↔ o ∈ db.brokerOrders.rows ∧
      (o.status.terminal = false ∨
        ∃ f ∈ db.brokerFills.rows, f.clientOrderId = o.clientOrderId ∧ db.applied f = false) := by
  simp only [reconciledRows, mem_orderedBy, List.mem_filter, Bool.or_eq_true, Bool.not_eq_true',
    List.any_eq_true, Database.fillsOf, decide_eq_true_eq, Database.unapplied, Database.applied,
    and_assoc, Option.isSome_eq_false_iff]

theorem reconciledRows_nodup (db : Database) :
    ((reconciledRows db).map (·.clientOrderId)).Nodup :=
  orderedRows_nodup db _

theorem PassInvariant.start {db : Database} (h : ProgramLedger db) (orders : List OrderRecord) :
    PassInvariant orders (reconciledRows db) (reconciledRows db) PassState.empty db where
  ledger := h
  sub := fun _ ho => ho
  pending := fun o ho => db.brokerOrders.find?_of_mem (mem_reconciledRows.mp ho).1
  done := fun _ o ho => .inl ho
  fills := by
    intro _ f hf
    cases happ : db.applied f with
    | true => exact .inl rfl
    | false =>
      obtain ⟨o, ho, -, -⟩ := h.ledger.owned f hf
      have hid := db.brokerOrders.key_of_find? ho
      exact .inr ⟨o, mem_reconciledRows.mpr
        ⟨db.brokerOrders.mem_of_find? ho, .inr ⟨f, hf, hid.symm, happ⟩⟩, hid⟩
  matched := by
    intro m hm
    cases hm

/-! ### The end of a pass -/

theorem SameLedger.refl (db : Database) : SameLedger db db := ⟨rfl, rfl, rfl, rfl⟩

theorem SameLedger.trans {db db' db'' : Database} (h : SameLedger db db')
    (h' : SameLedger db' db'') : SameLedger db db'' where
  orders := h'.orders.trans h.orders
  fills := h'.fills.trans h.fills
  positions := h'.positions.trans h.positions
  applications := h'.applications.trans h.applications

theorem setFlag_ends (db : Database) {key : String} (hkey : Text.blank key = false) (value : String) :
    Raising.Ends (dbHandler broker) (setFlag now key value) (fun _ => SameLedger db)
      (fun _ _ => False) db := by
  apply ends_execute
  simp only [Op.call, Op.run, setRuntimeMetadata, requireNonempty_of hkey, Exec.run_ofExcept_ok_bind]
  exact ⟨rfl, rfl, rfl, rfl⟩

/-- The end of a pass never raises; the report blocks when there is a reason. -/
theorem finishPass_ends (db : Database) (acc : PassState) :
    Raising.Ends (dbHandler broker) (finishPass now acc)
      (fun report db' => SameLedger db db' ∧ report.reasons = acc.reasons.eraseDups ∧
        report.blockNewEntries = !report.reasons.isEmpty) (fun _ _ => False) db := by
  unfold finishPass
  apply Raising.Ends.bind
  refine Raising.Ends.mono (setFlag_ends broker now db (by decide) _) ?_ fun _ _ he => he
  intro _ db₁ h₁
  apply Raising.Ends.bind
  refine Raising.Ends.mono (setFlag_ends broker now db₁ (by decide) _) ?_ fun _ _ he => he
  intro _ db₂ h₂
  exact ⟨h₁.trans h₂, rfl, rfl⟩

theorem ReconciliationReport.reasons_nil {report : ReconciliationReport} {reasons : List String}
    (hreasons : report.reasons = reasons.eraseDups)
    (hblock : report.blockNewEntries = !report.reasons.isEmpty)
    (hopen : report.blockNewEntries = false) : reasons = [] := by
  rw [hopen, hreasons] at hblock
  cases reasons with
  | nil => rfl
  | cons reason rest => rw [List.eraseDups_cons] at hblock; cases hblock

/-- Every pass leaves a program ledger behind, whatever the broker answered. -/
theorem ProgramLedger.pass {db : Database} (h : ProgramLedger db)
    (orders : Except ReadError (List OrderRecord))
    (account : Except ReadError (List AccountPosition)) :
    Raising.Ends (dbHandler broker) (reconcileBrokerState now orders account)
      (fun _ => ProgramLedger) Raised db := by
  have hfinish : ∀ {db : Database} (acc : PassState), ProgramLedger db →
      Raising.Ends (dbHandler broker) (finishPass now acc) (fun _ => ProgramLedger) Raised db := by
    intro db acc hdb
    exact Raising.Ends.mono (finishPass_ends broker now db acc) (fun _ _ h' => hdb.congr h'.1)
      fun _ _ h' => h'.elim
  unfold reconcileBrokerState
  cases orders with
  | error e => exact hfinish _ h
  | ok orders =>
    apply ends_selectOrders
    apply Raising.Ends.bind
    refine Raising.Ends.mono
      (reconcileLoop_ends broker now (reconciledRows_nodup db) (.start h orders)) ?_ fun _ _ he => he
    intro acc db' h'
    cases account with
    | error e => exact hfinish _ h'.ledger
    | ok account =>
      apply ends_select
      exact hfinish _ h'.ledger

end Pass

theorem ProgramState.ledger {db : Database} (h : ProgramState db) : ProgramLedger db := by
  induction h with
  | empty => exact ⟨.empty, by intro f hf; cases hf⟩
  | call op _ hop ih =>
    refine ih.exec op ?_
    intro now a he c n hn
    exact absurd hn (hop now a he c n)
  | pass broker now orders account _ ih => exact (ih.pass broker now orders account).store
  | other _ hsame ih => exact ih.congr hsame

/-! ### Holdings -/

theorem brokerQuantity_of_mem {account : List AccountPosition} {p : AccountPosition}
    (hnodup : (account.map (·.symbol)).Nodup) (hp : p ∈ account) :
    brokerQuantity account p.symbol = p.quantity := by
  unfold brokerQuantity
  cases hf : account.reverse.find? fun q => decide (q.symbol = p.symbol) with
  | none =>
    have := List.find?_eq_none.mp hf p (List.mem_reverse.mpr hp)
    simp at this
  | some q =>
    have hq := List.mem_reverse.mp (List.mem_of_find?_eq_some hf)
    have hsym : q.symbol = p.symbol := by simpa using List.find?_some hf
    rw [List.inj_on_of_nodup_map hnodup hq hp hsym]
    rfl

theorem brokerQuantity_of_not_mem {account : List AccountPosition} {symbol : String}
    (h : ∀ p ∈ account, p.symbol ≠ symbol) : brokerQuantity account symbol = 0 := by
  unfold brokerQuantity
  rw [List.find?_eq_none.mpr]
  · rfl
  · intro p hp
    simpa using h p (List.mem_reverse.mp hp)

/-- A symbol that is not compared is held on neither side. -/
theorem quantities_of_not_compared {db : Database} {account : List AccountPosition} {symbol : String}
    (h : symbol ∉ comparedSymbols db account) :
    db.openQuantity symbol = 0 ∧ brokerQuantity account symbol = 0 := by
  have hnot : symbol ∉ db.openSymbols ∧ symbol ∉ account.map (·.symbol) := by
    simpa [comparedSymbols, List.mem_dedup, not_or] using h
  have hopen : db.openPositions symbol = [] := by
    rw [List.eq_nil_iff_forall_not_mem]
    intro p hp
    obtain ⟨hrow, hsymbol, hopen⟩ := Database.mem_openPositions.mp hp
    refine hnot.1 (List.mem_map.mpr ⟨p, List.mem_filter.mpr ⟨hrow, decide_eq_true hopen⟩, hsymbol⟩)
  refine ⟨by simp [Database.openQuantity, hopen], brokerQuantity_of_not_mem fun p hp hsymbol => ?_⟩
  exact hnot.2 (List.mem_map.mpr ⟨p, hp, hsymbol⟩)

/-- Without a mismatch the two quantities agree for every symbol, compared or not. -/
theorem openQuantity_eq_brokerQuantity {db : Database} {account : List AccountPosition}
    (h : (comparedSymbols db account).filterMap (positionMismatch db account) = [])
    (symbol : String) : (db.openQuantity symbol : Int) = brokerQuantity account symbol := by
  by_cases hmem : symbol ∈ comparedSymbols db account
  · have hnone := List.filterMap_eq_nil_iff.mp h symbol hmem
    unfold positionMismatch at hnone
    by_contra hne
    simp [hne] at hnone
  · obtain ⟨hlocal, hbroker⟩ := quantities_of_not_compared hmem
    rw [hlocal, hbroker]
    rfl

/-! ### What a pass does to positions -/

/-- Positions stay as they are, or the unapplied fills of a known order are booked. -/
def PositionStep (db db' : Database) : Prop :=
  db'.livePositions = db.livePositions ∨
  ∃ now c order id, db.brokerOrders.find? id = some order ∧
    Booked now c order (db.unappliedFills id) db db'

theorem dbHandler_positionStep (broker : BrokerReplies) (o : Act) (db : Database) :
    PositionStep db (dbHandler broker o db).2 := by
  cases o with
  | read query => exact .inl rfl
  | tryRead query => exact .inl rfl
  | selectOrders query => exact .inl rfl
  | submitOrder id request => exact .inl rfl
  | cancelOrder id number branch quantity price => exact .inl rfl
  | call op =>
    change PositionStep db (op.exec db)
    rcases op.exec_ledger db with
      ⟨-, hp, -⟩ | ⟨now, a, c, order, -, -, -, -, hdb⟩ | ⟨now, a, c, order, -, horder, hbooked⟩
    · exact .inl hp
    · rw [hdb]; exact .inl rfl
    · exact .inr ⟨now, c, order, a.clientOrderId, horder, hbooked⟩

/-- The positions a pass leaves behind do not depend on the account snapshot. -/
theorem reconcile_positions_independent (broker : BrokerReplies) (now : DateTime) (db : Database)
    (orders : Except ReadError (List OrderRecord))
    (account account' : Except ReadError (List AccountPosition)) :
    (Raising.eval (dbHandler broker) (reconcileBrokerState now orders account) db).2.livePositions =
      (Raising.eval (dbHandler broker)
        (reconcileBrokerState now orders account') db).2.livePositions := by
  have hfinish : ∀ (acc : PassState) (db : Database),
      (Raising.eval (dbHandler broker) (finishPass now acc) db).2.livePositions =
        db.livePositions := by
    intro acc db
    have hends : Raising.Ends (dbHandler broker) (finishPass now acc) (fun _ => SameLedger db)
        (fun _ => SameLedger db) db :=
      Raising.Ends.mono (finishPass_ends broker now db acc) (fun _ _ h => h.1) fun _ _ h => h.elim
    exact hends.store.positions
  have htail : ∀ (acc : PassState) (account : Except ReadError (List AccountPosition))
      (db : Database), (Raising.eval (dbHandler broker) (compareHoldings now acc account)
        db).2.livePositions = db.livePositions := by
    intro acc account db
    cases account with
    | error e => exact hfinish _ db
    | ok account =>
      simp only [compareHoldings, Raising.eval_bind, eval_select]
      exact hfinish _ db
  cases orders with
  | error e => rfl
  | ok orders =>
    simp only [reconcileBrokerState, Raising.eval_bind, eval_selectOrders]
    generalize Raising.eval (dbHandler broker)
      ((reconciledRows db).foldlM (reconcileOrder now orders) PassState.empty) db = loop
    obtain ⟨r, db'⟩ := loop
    cases r with
    | error e => rfl
    | ok acc => exact (htail _ account db').trans (htail _ account' db').symm

/-! ### The verdict -/

/-- The broker still works on the order of a record. -/
def OrderRecord.working (record : OrderRecord) : Prop :=
  0 < record.remainingQuantity ∨ record.status = .unfilled ∨ record.status = .partiallyFilled

/-- What a pass from `db` to `db'` without a reason vouches for. -/
structure PassExplains (orders : List OrderRecord) (account : List AccountPosition)
    (db db' : Database) : Prop where
  active : ∀ o ∈ db.brokerOrders.rows, o.status.terminal = false → Explained orders o db'
  applied : ∀ f ∈ db'.brokerFills.rows, db'.applied f = true
  records : ∀ record ∈ orders, record.working → ∃ o ∈ db.brokerOrders.rows,
    o.brokerOrderId = some record.orderNumber ∧ record.symbol = o.symbol ∧
    record.side = some o.side ∧
    (record.orderedQuantity ≠ 0 → record.orderedQuantity = o.requestedQty) ∧
    Settled o.clientOrderId record db'
  held : ∀ p ∈ account, (db'.openQuantity p.symbol : Int) = p.quantity
  flat : ∀ symbol, (∀ p ∈ account, p.symbol ≠ symbol) → db'.openQuantity symbol = 0

theorem Settled.congr {id : String} {record : OrderRecord} {db db' : Database}
    (h : Settled id record db) (hs : SameLedger db db') : Settled id record db' where
  header := by rw [hs.orders]; exact h.header
  applied := by
    unfold Database.applied
    rw [hs.fills, hs.applications]
    exact h.applied

theorem Explained.congr {orders : List OrderRecord} {o : BrokerOrder} {db db' : Database}
    (h : Explained orders o db) (hs : SameLedger db db') : Explained orders o db' := by
  obtain ⟨hknown, hnamed, record, hmem, hid, hsym, hside, hquantity, hsettled⟩ := h
  exact ⟨hknown, hnamed, record, hmem, hid, hsym, hside, hquantity, hsettled.congr hs⟩

/-- A working record that was not reported is the record of a matched order. -/
theorem matched_of_no_reason {orders : List OrderRecord} {matched : List String}
    (h : brokerOnlyReasons orders matched = []) {record : OrderRecord} (hrecord : record ∈ orders)
    (hworking : record.working) : record.orderNumber ∈ matched := by
  by_contra hnot
  have hnone := List.filter_eq_nil_iff.mp (List.map_eq_nil_iff.mp h) record hrecord
  apply hnone
  simpa [hnot, OrderRecord.working, or_assoc] using hworking

theorem PassExplains.of_loop {orders : List OrderRecord} {account : List AccountPosition}
    {db db₁ db' : Database} {acc : PassState}
    (hnumbers : (orders.map (·.orderNumber)).Nodup) (hsymbols : (account.map (·.symbol)).Nodup)
    (hloop : PassInvariant orders (reconciledRows db) [] acc db₁) (hs : SameLedger db₁ db')
    (hreasons : acc.reasons = []) (honly : brokerOnlyReasons orders acc.matched = [])
    (hmismatch : (comparedSymbols db₁ account).filterMap (positionMismatch db₁ account) = []) :
    PassExplains orders account db db' := by
  have hexplained : ∀ o ∈ reconciledRows db, Explained orders o db' := by
    intro o ho
    rcases hloop.done hreasons o ho with hnil | h
    · cases hnil
    · exact h.congr hs
  have hquantity : ∀ symbol, (db'.openQuantity symbol : Int) = brokerQuantity account symbol := by
    intro symbol
    have hopen : db'.openQuantity symbol = db₁.openQuantity symbol := by
      simp only [Database.openQuantity, Database.openPositions, hs.positions]
    rw [hopen]
    exact openQuantity_eq_brokerQuantity hmismatch symbol
  refine ⟨?_, ?_, ?_, ?_, ?_⟩
  · intro o ho hactive
    exact hexplained o (mem_reconciledRows.mpr ⟨ho, .inl hactive⟩)
  · intro f hf
    rw [hs.fills] at hf
    unfold Database.applied
    rw [hs.applications]
    rcases hloop.fills hreasons f hf with h | ⟨o, ho, -⟩
    · exact h
    · cases ho
  · intro record hrecord hworking
    obtain ⟨o, ho, hnumber⟩ := hloop.matched _ (matched_of_no_reason honly hrecord hworking)
    obtain ⟨-, hnamed, record', hmem, hid, hsym, hside, hqty, hsettled⟩ := hexplained o ho
    -- the numbers are distinct, so the order was matched with this very record
    have hsame : record' = record := by
      apply List.inj_on_of_nodup_map hnumbers hmem hrecord
      have hid' := brokerOrderId_of_brokerIdText hnamed
      rw [hid, hnumber] at hid'
      exact Option.some.inj hid'
    subst hsame
    exact ⟨o, (mem_reconciledRows.mp ho).1, hid, hsym, hside, hqty, hsettled⟩
  · intro p hp
    rw [hquantity, brokerQuantity_of_mem hsymbols hp]
  · intro symbol hnone
    have hq := hquantity symbol
    rw [brokerQuantity_of_not_mem hnone] at hq
    omega

namespace ExplainedPass

def opening : DateTime := .combine 20000 9 0 0 (some DateTime.kstOffset)

def calls : List Op :=
  [.claimOrderIntent opening ⟨"b1", some "d1", "005930", "BUY", .int 4, .int 100, none⟩,
   .recordOrderSubmission opening "b1" "K1" none]

def decision : AiDecisionAudit :=
  ⟨"d1", "005930", "BUY", .fin (4 / 5), some (.fin 100), some (.fin 120), some (.fin 90), some 600⟩

/-- An order at the broker, with the decision it came from. -/
def submitted : Database :=
  { runOps calls Database.empty with
    aiDecisionAudits := (Table.empty.insertOrIgnore decision).1 }

def record : OrderRecord :=
  ⟨"K1", "005930", some .buy, 4, 4, 0, some (.fin 100), some (.fin 100), .filled, none⟩

def broker : BrokerReplies := ⟨fun _ _ => .ok none, fun _ _ _ _ => .ok ()⟩

theorem submitted_programState : ProgramState submitted := by
  have hcalls : ProgramState (runOps calls Database.empty) := by
    refine .call _ (.call _ .empty ?_) ?_
    · intro now a he; cases he
    · intro now a he; cases he
  exact hcalls.other ⟨rfl, rfl, rfl, rfl⟩

end ExplainedPass

end AutoTrader
