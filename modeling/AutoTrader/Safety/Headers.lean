/-
  AutoTrader/Safety/Headers.lean
  ==============================
  **The header of an order and its fills.**

  Only `apply_broker_fill` adds a fill, and it adds the quantity to the header in
  the same transaction.  `update_broker_order_status` writes the quantity a caller
  states, without a fill.  The stages of a supervisor pass state the quantity of
  the snapshot: as long as the row already carries it nothing happens, and as soon
  as it does not the header and the fills drift apart.
-/
import AutoTrader.Ledger.Orders
import AutoTrader.Pipeline.Supervisor
import AutoTrader.Safety.AtMostOnce
import AutoTrader.Safety.Reconciliation

namespace AutoTrader

open Relational Transactional Interleave

/-! ### Processes on one database -/

/-- The processes that share the database. -/
inductive Process : Type 1
  | cycle (c : Cycle)
  | notice (now : DateTime) (n : FillNotice) (tradingDate : Option Int)
      (received : Option DateTime)
  | supervisor (now : DateTime) (calendar : Calendar) (config : OrderManagementConfig)
      (snapshot : Snapshot)

def Process.program : Process → Prog trading Unit
  | .cycle c => c.program
  | .notice now n tradingDate received => detached (applyFillNotice now n tradingDate received)
  | .supervisor now calendar config snapshot =>
    detached (supervisorPass now calendar config snapshot)

/-- One transaction after the other; the broker may answer anything.  Every call
    of a method meets `condition`. -/
def ledgerSem (condition : Op → Database → Prop) : (o : Act) → Database → o.Reply → Database → Prop
  | .read query, db, b, db' => b = query db ∧ db' = db
  | .tryRead query, db, b, db' => (b = .ok (query db) ∨ ∃ e, b = .error e) ∧ db' = db
  | .selectOrders query, db, b, db' => b = query db ∧ db' = db
  | .call op, db, b, db' => condition op db ∧ b = (op.call db).1 ∧ db' = op.exec db
  | .submitOrder .., db, _, db' => db' = db
  | .cancelOrder .., db, _, db' => db' = db

/-- Cycles, notices and supervisor passes in any interleaving; everything else
    changes other tables only. -/
def ledgerSystem (condition : Op → Database → Prop) : System trading Database where
  sem _ := ledgerSem condition
  env := SameLedger
  spawn _ _ q := ∃ process : Process, q = process.program

/-! ### Headers and fills -/

/-- Every header states the sum of its fills, and every fill has a header. -/
structure HeaderSums (db : Database) : Prop where
  sums : ∀ o ∈ db.brokerOrders.rows, o.filledQty = fillQuantity (db.fillsOf o.clientOrderId)
  owned : ∀ f ∈ db.brokerFills.rows, ∃ o, db.brokerOrders.find? f.clientOrderId = some o

/-- A status update that states a filled quantity finds it in the row. -/
def StatesCurrent : Op → Database → Prop
  | .updateBrokerOrderStatus _ id u, db =>
    ∀ n ∈ u.filledQty, ∀ o ∈ db.brokerOrders.find? id, (o.filledQty : Int) = n
  | _, _ => True

instance StatesCurrent.decidable : (op : Op) → (db : Database) → Decidable (StatesCurrent op db)
  | .updateBrokerOrderStatus _ id u, db => inferInstanceAs (Decidable
      (∀ n ∈ u.filledQty, ∀ o ∈ db.brokerOrders.find? id, (o.filledQty : Int) = n))
  | .claimOrderIntent .., _ => .isTrue trivial
  | .markOrderSubmitting .., _ => .isTrue trivial
  | .recordOrderSubmission .., _ => .isTrue trivial
  | .markOrderUnknown .., _ => .isTrue trivial
  | .applyBrokerFill .., _ => .isTrue trivial
  | .materializeOrderFills .., _ => .isTrue trivial
  | .setRuntimeMetadata .., _ => .isTrue trivial
  | .recordBrokerOrderAudit .., _ => .isTrue trivial

/-- Orders stay and their filled quantity does not decrease. -/
def FilledGrows (db db' : Database) : Prop :=
  ∀ id o, db.brokerOrders.find? id = some o →
    ∃ o', db'.brokerOrders.find? id = some o' ∧ o.filledQty ≤ o'.filledQty

theorem FilledGrows.of_orders {db db' : Database} (h : db'.brokerOrders = db.brokerOrders) :
    FilledGrows db db' := by
  intro id o ho
  exact ⟨o, by rw [h]; exact ho, le_rfl⟩

theorem HeaderSums.congr {db db' : Database} (h : HeaderSums db)
    (horders : db'.brokerOrders = db.brokerOrders) (hfills : db'.brokerFills = db.brokerFills) :
    HeaderSums db' := by
  constructor
  · intro o ho
    rw [horders] at ho
    unfold Database.fillsOf
    rw [hfills]
    exact h.sums o ho
  · intro f hf
    rw [hfills] at hf
    rw [horders]
    exact h.owned f hf

/-- Appending an order without fills. -/
theorem HeaderSums.insertOrder {db : Database} (h : HeaderSums db) {row : BrokerOrder}
    (hfree : db.brokerOrders.find? row.clientOrderId = none) (hq : row.filledQty = 0) :
    HeaderSums { db with brokerOrders := (db.brokerOrders.insertOrIgnore row).1 } := by
  obtain ⟨-, hrows⟩ := Table.insertOrIgnore_of_free hfree
  constructor
  · intro o ho
    simp only [hrows] at ho
    rcases List.mem_append.mp ho with ho | ho
    · exact h.sums o ho
    · rw [List.mem_singleton.mp ho, hq]
      -- the id was free, so no fill can refer to it
      have hnone : db.fillsOf row.clientOrderId = [] := by
        apply List.filter_eq_nil_iff.mpr
        intro f hf hid
        obtain ⟨o', ho'⟩ := h.owned f hf
        rw [decide_eq_true_eq.mp hid, hfree] at ho'
        cases ho'
      change 0 = fillQuantity (db.fillsOf row.clientOrderId)
      rw [hnone]
      rfl
  · intro f hf
    obtain ⟨o, ho⟩ := h.owned f hf
    exact ⟨o, by rw [Table.find?_append hrows, ho]; rfl⟩

/-- Rewriting a row without changing its filled quantity. -/
theorem HeaderSums.rewrite {db : Database} (h : HeaderSums db) {id : String}
    {f : BrokerOrder → BrokerOrder} {hf : ∀ r, (f r).clientOrderId = r.clientOrderId}
    (hq : ∀ o, db.brokerOrders.find? id = some o → (f o).filledQty = o.filledQty) :
    HeaderSums { db with brokerOrders := db.brokerOrders.update id f hf } ∧
    FilledGrows db { db with brokerOrders := db.brokerOrders.update id f hf } := by
  refine ⟨⟨?_, ?_⟩, ?_⟩
  · intro o ho
    obtain ⟨r, hr, rfl⟩ := (db.brokerOrders.mem_update id f hf).mp ho
    split
    · rename_i hid
      rw [hf, hq r (hid ▸ db.brokerOrders.find?_of_mem hr)]
      exact h.sums r hr
    · exact h.sums r hr
  · intro g hg
    obtain ⟨o, ho⟩ := h.owned g hg
    simp only [Table.find?_update]
    split
    · rename_i heq
      exact ⟨f o, by rw [← heq, ho]; rfl⟩
    · exact ⟨o, ho⟩
  · intro key o ho
    simp only [Table.find?_update]
    split
    · rename_i heq
      subst heq
      exact ⟨f o, by rw [ho]; rfl, (hq o ho).ge⟩
    · exact ⟨o, ho, le_rfl⟩

/-- A method that rewrites a row without touching its filled quantity. -/
theorem HeaderSums.rewriteCall {db : Database} (h : HeaderSums db) {id : String}
    {check : Except Exn Unit} {cond : BrokerOrder → Bool} (f : BrokerOrder → BrokerOrder)
    {hf : ∀ r, (f r).clientOrderId = r.clientOrderId} (hq : ∀ r, (f r).filledQty = r.filledQty) :
    HeaderSums ((rewriteOrder id check cond f hf).run db).2 ∧
    FilledGrows db ((rewriteOrder id check cond f hf).run db).2 := by
  rcases rewriteOrder_cases id check cond f hf db with ⟨e, hrun⟩ | ⟨-, hrun⟩ | ⟨o, -, -, hrun⟩
  · rw [hrun]; exact ⟨h, .of_orders rfl⟩
  · rw [hrun]; exact ⟨h, .of_orders rfl⟩
  · rw [hrun]; exact h.rewrite fun o _ => hq o

/-- Adding a fill and rolling it into its order. -/
theorem HeaderSums.applyFill {db : Database} (h : HeaderSums db) {order : BrokerOrder}
    {f : BrokerFill} (horder : db.brokerOrders.find? f.clientOrderId = some order)
    (hfree : db.brokerFills.find? f.fillId = none) :
    HeaderSums { db with
      brokerFills := (db.brokerFills.insertOrIgnore f).1
      brokerOrders := db.brokerOrders.update f.clientOrderId (rollFill f)
        (rollFill_clientOrderId f) } := by
  obtain ⟨-, hrows⟩ := Table.insertOrIgnore_of_free hfree
  have hfills := fillsOf_append db { db with
      brokerFills := (db.brokerFills.insertOrIgnore f).1
      brokerOrders := db.brokerOrders.update f.clientOrderId (rollFill f)
        (rollFill_clientOrderId f) } hrows
  constructor
  · intro o ho
    obtain ⟨r, hr, rfl⟩ := (db.brokerOrders.mem_update f.clientOrderId (rollFill f)
      (rollFill_clientOrderId f)).mp ho
    have hsum := h.sums r hr
    by_cases hk : r.clientOrderId = f.clientOrderId
    · rw [if_pos hk]
      change r.filledQty + f.quantity = fillQuantity (Database.fillsOf _ r.clientOrderId)
      rw [hfills, if_pos hk.symm, fillQuantity_append, ← hsum]
      simp [fillQuantity]
    · rw [if_neg hk, hfills, if_neg (Ne.symm hk), List.append_nil]
      exact hsum
  · intro g hg
    simp only [hrows] at hg
    simp only [Table.find?_update]
    rcases List.mem_append.mp hg with hg | hg
    · obtain ⟨o, ho⟩ := h.owned g hg
      split
      · rename_i heq
        exact ⟨rollFill f o, by rw [← heq, ho]; rfl⟩
      · exact ⟨o, ho⟩
    · rw [List.mem_singleton.mp hg, if_pos rfl, horder]
      exact ⟨rollFill f order, rfl⟩

/-- Every call keeps headers and fills together, if the quantity it states is the
    one of the row. -/
theorem HeaderSums.exec (op : Op) {db : Database} (h : HeaderSums db) (hstates : StatesCurrent op db) :
    HeaderSums (op.exec db) ∧ FilledGrows db (op.exec db) := by
  have hnothing : ∀ {db' : Database}, db'.brokerOrders = db.brokerOrders →
      db'.brokerFills = db.brokerFills → HeaderSums db' ∧ FilledGrows db db' :=
    fun horders hfills => ⟨h.congr horders hfills, .of_orders horders⟩
  cases op with
  | claimOrderIntent now a =>
    rcases claimOrderIntent_cases now a db with ⟨e, hr⟩ | ⟨-, hr⟩ | ⟨row, hrow, hfree, hr⟩
    · simp only [Op.exec, Op.call, Op.run, hr]; exact hnothing rfl rfl
    · simp only [Op.exec, Op.call, Op.run, hr]; exact hnothing rfl rfl
    · simp only [Op.exec, Op.call, Op.run, hr]
      refine ⟨h.insertOrder hfree (intentRow_ok hrow).2.2.2.1, ?_⟩
      intro id o ho
      exact ⟨o, by rw [Table.find?_append (Table.insertOrIgnore_of_free hfree).2, ho]; rfl, le_rfl⟩
  | markOrderSubmitting now id at' => exact h.rewriteCall _ fun _ => rfl
  | recordOrderSubmission now id broker at' => exact h.rewriteCall _ fun _ => rfl
  | markOrderUnknown now id error at' => exact h.rewriteCall _ fun _ => rfl
  | updateBrokerOrderStatus now id u =>
    rcases updateBrokerOrderStatus_cases now id u db with
      ⟨e, hr⟩ | ⟨c, -, -, hr⟩ | ⟨o, c, hc, ho, -, hr⟩
    · simp only [Op.exec, Op.call, Op.run, hr]; exact hnothing rfl rfl
    · simp only [Op.exec, Op.call, Op.run, hr]; exact hnothing rfl rfl
    · simp only [Op.exec, Op.call, Op.run, hr]
      apply h.rewrite
      intro r hr'
      -- the row is overwritten with the quantity it already has
      have hq := (checkUpdate_ok hc).1
      cases hu : u.filledQty with
      | none => simp [updatedHeader, hq, hu]
      | some n =>
        have hcurrent := hstates n hu r hr'
        simp only [updatedHeader, hq, hu, Option.map_some, Option.getD_some]
        omega
  | applyBrokerFill now a =>
    rcases applyBrokerFill_cases now a db with
      ⟨e, hr⟩ | ⟨-, hr⟩ | ⟨c, order, -, horder, hfree, -, hr⟩
    · simp only [Op.exec, Op.call, Op.run, hr]; exact hnothing rfl rfl
    · simp only [Op.exec, Op.call, Op.run, hr]; exact hnothing rfl rfl
    · simp only [Op.exec, Op.call, Op.run, hr]
      refine ⟨h.applyFill (f := fillRow now a c order) horder hfree, ?_⟩
      intro id o ho
      simp only [Table.find?_update]
      split
      · rename_i heq
        subst heq
        exact ⟨rollFill (fillRow now a c order) o, by rw [ho]; rfl, Nat.le_add_right _ _⟩
      · exact ⟨o, ho, le_rfl⟩
  | materializeOrderFills now a =>
    rcases materializeOrderFills_cases now a db with ⟨e, hr⟩ | ⟨c, order, m, db₁, -, -, hloop, hr⟩
    · simp only [Op.exec, Op.call, Op.run, hr]; exact hnothing rfl rfl
    · simp only [Op.exec, Op.call, Op.run, hr]
      rw [(booked_of_loop _ hloop).1.frame.1]
      exact hnothing rfl rfl
  | setRuntimeMetadata now key value at' =>
    rcases setRuntimeMetadata_cases now key value at' db with ⟨e, hr⟩ | hr
    · simp only [Op.exec, Op.call, Op.run, hr]; exact hnothing rfl rfl
    · simp only [Op.exec, Op.call, Op.run, hr]; exact hnothing rfl rfl
  | recordBrokerOrderAudit now a =>
    rcases recordBrokerOrderAudit_cases now a db with ⟨e, hr⟩ | ⟨-, hr⟩ | ⟨row, -, -, hr⟩
    · simp only [Op.exec, Op.call, Op.run, hr]; exact hnothing rfl rfl
    · simp only [Op.exec, Op.call, Op.run, hr]; exact hnothing rfl rfl
    · simp only [Op.exec, Op.call, Op.run, hr]; exact hnothing rfl rfl

/-! ### Every run -/

theorem headers_contract :
    (ledgerSystem StatesCurrent).Contract (· = Database.empty) HeaderSums fun _ => FilledGrows where
  init := by
    rintro db rfl
    constructor
    · intro o ho; cases ho
    · intro f hf; cases hf
  env := fun db db' h hs => h.congr hs.orders hs.fills
  spawn := by
    intro i p q h _
    apply Prog.Safe.of_acts
    intro o db b db' hdb hsem
    have hsame : HeaderSums db ∧ FilledGrows db db := ⟨hdb, .of_orders rfl⟩
    cases o with
    | read query => obtain ⟨-, rfl⟩ := hsem; exact hsame
    | tryRead query => obtain ⟨-, rfl⟩ := hsem; exact hsame
    | selectOrders query => obtain ⟨-, rfl⟩ := hsem; exact hsame
    | call op => obtain ⟨hstates, -, rfl⟩ := hsem; exact hdb.exec op hstates
    | submitOrder id request => obtain rfl := hsem; exact hsame
    | cancelOrder id number branch quantity price => obtain rfl := hsem; exact hsame

namespace StaleSnapshot

def now : DateTime := .combine 20000 10 0 0 none

def view : MarketView := ⟨some ⟨now, .fin 100⟩, some ⟨.combine 20000 9 59 0 none, .fin 100⟩⟩

/-- A cycle that buys ten shares. -/
def buy : Cycle where
  args := ⟨brokerSubmitter, some fun _ => true, ⟨false, true, 10, 90, 3⟩, false, true, none⟩
  symbols := ["005930"]
  inputs := fun _ => ⟨now, view, view, none, now, some (.combine 20000 9 59 0 none),
    .direct (.order "d1" 10 (.int 100))⟩
  submitter := .inl rfl

/-- Four of them are executed. -/
def notice : FillNotice where
  kind := .filled
  orderNo := "K1"
  originalOrderNo := ""
  orderQty := 10
  side := "02"
  symbol := "005930"
  fillQty := 4
  fillPrice := 100
  fillTime := "100005"
  receiptType := "0"
  orderKind := "00"
  rejectFlag := "0"
  acceptedFlag := "2"
  orderPrice := 100
  exchangeId := "KRX"

def later : DateTime := .combine 20000 10 0 10 none

/-- What the broker says of the order, when `filled` shares were executed. -/
def snapshot (filled : Int) : Snapshot where
  orders := .ok [⟨"K1", "005930", some .buy, 10, filled, 10 - filled, some (.fin 100),
    if filled = 0 then none else some (.fin 100),
    if filled = 0 then .unfilled else .partiallyFilled, some "00001"⟩]
  account := .ok []

def broker : BrokerReplies := ⟨fun _ _ => .ok (some "K1"), fun _ _ _ _ => .ok ()⟩

def run (process : Process) (db : Database) : Database :=
  (Prog.advance (dbHandler broker) 60 (process.program, db)).2

/-- The decision is stored, and the operator asks to cancel the open BUYs. -/
def prepare (db : Database) : Database :=
  { db with
    aiDecisionAudits := (Table.empty.insertOrIgnore
      ⟨"d1", "005930", "BUY", .fin (4 / 5), some (.fin 100), some (.fin 120), some (.fin 90), some 600⟩).1
    runtimeMetadata := Table.empty.upsert ⟨cancelRequestKey, .text "true", now⟩ }

def bought : Database := run (.cycle buy) Database.empty

def filled : Database := run (.notice now notice none (some later)) (prepare bought)

/-- A pass on a snapshot from before the fill, and one on a current snapshot. -/
def stale : Database := run (.supervisor later none ⟨60, 30⟩ (snapshot 0)) filled

def current : Database := run (.supervisor later none ⟨60, 30⟩ (snapshot 4)) filled

/-- The calls of a method meet a condition. -/
def callMeets (condition : Op → Database → Prop) : Act → Database → Prop
  | .call op, db => condition op db
  | _, _ => True

theorem handler_sem (condition : Op → Database → Prop) (i : Nat) (o : Act) (db : Database)
    (h : callMeets condition o db) :
    (ledgerSystem condition).sem i o db (dbHandler broker o db).1 (dbHandler broker o db).2 := by
  cases o with
  | read query => exact ⟨rfl, rfl⟩
  | tryRead query => exact ⟨.inl rfl, rfl⟩
  | selectOrders query => exact ⟨rfl, rfl⟩
  | call op => exact ⟨h, rfl, rfl⟩
  | submitOrder id request => rfl
  | cancelOrder id number branch quantity price => rfl

theorem run_reachable {condition : Op → Database → Prop} (process : Process) {db : Database}
    (h : (ledgerSystem condition).Reachable (· = Database.empty) ⟨db, fun _ => none⟩)
    (hm : Prog.Meets (callMeets condition) (dbHandler broker) 60 (process.program, db)) :
    (ledgerSystem condition).Reachable (· = Database.empty) ⟨run process db, fun _ => none⟩ :=
  h.steps (System.steps_excursion (i := 0) (handler_sem condition 0) 60 rfl ⟨process, rfl⟩ hm)

instance callMeets.decidable (condition : Op → Database → Prop)
    [∀ op db, Decidable (condition op db)] : (o : Act) → (db : Database) →
      Decidable (callMeets condition o db)
  | .call op, db => inferInstanceAs (Decidable (condition op db))
  | .read _, _ => .isTrue trivial
  | .tryRead _, _ => .isTrue trivial
  | .selectOrders _, _ => .isTrue trivial
  | .submitOrder .., _ => .isTrue trivial
  | .cancelOrder .., _ => .isTrue trivial

theorem filled_reachable {condition : Op → Database → Prop}
    (hbuy : Prog.Meets (callMeets condition) (dbHandler broker) 60
      ((Process.cycle buy).program, Database.empty))
    (hnotice : Prog.Meets (callMeets condition) (dbHandler broker) 60
      ((Process.notice now notice none (some later)).program, prepare bought)) :
    (ledgerSystem condition).Reachable (· = Database.empty) ⟨filled, fun _ => none⟩ := by
  have hbought := run_reachable (.cycle buy) (.init rfl) hbuy
  have hprepared : (ledgerSystem condition).Reachable (· = Database.empty)
      ⟨prepare bought, fun _ => none⟩ := hbought.step (.env ⟨rfl, rfl, rfl, rfl⟩)
  exact run_reachable _ hprepared hnotice

end StaleSnapshot

end AutoTrader
