/-
  AutoTrader/Safety/RefusedOrder.lean
  ===================================
  **An order that the safety gate refused is never resolved.**

  The row is claimed before the gate runs, and `_submit_with_ledger` treats every
  exception as an ambiguous answer of the broker: the row becomes UNKNOWN and has
  no broker id.  A reconciliation pass cannot match a row without a broker id, so
  it leaves the row alone and reports it, pass after pass.  While the row is
  UNKNOWN no SELL of the symbol (for a SELL) and no BUY at all (for a BUY) goes out.
-/
import AutoTrader.Pipeline.AutoTrade
import AutoTrader.Safety.FillChannels

namespace AutoTrader

open Relational Transactional Interleave

/-- The row of an order that was claimed and never sent. -/
def Unconfirmed (id symbol : String) (side : Side) (db : Database) : Prop :=
  ∃ o, db.brokerOrders.find? id = some o ∧ o.status = .unknown ∧ o.brokerOrderId = none ∧
    o.symbol = symbol ∧ o.side = side

theorem Unconfirmed.congr {id symbol : String} {side : Side} {db db' : Database}
    (h : Unconfirmed id symbol side db)
    (hrow : db'.brokerOrders.find? id = db.brokerOrders.find? id) : Unconfirmed id symbol side db' := by
  obtain ⟨o, ho, hrest⟩ := h
  exact ⟨o, by rw [hrow]; exact ho, hrest⟩

/-- It keeps later SELLs of the symbol from being sent. -/
theorem Unconfirmed.unresolved {id symbol : String} {side : Side} {db : Database}
    (h : Unconfirmed id symbol side db) : db.hasUnresolvedOrder symbol side = true := by
  obtain ⟨o, ho, hstatus, -, hsymbol, hside⟩ := h
  apply List.any_eq_true.mpr
  refine ⟨o, db.brokerOrders.mem_of_find? ho, ?_⟩
  simp [hstatus, hsymbol, hside, OrderStatus.terminal]

/-- It keeps every later BUY from being sent. -/
theorem Unconfirmed.unresolvedBuy {id symbol : String} {db : Database}
    (h : Unconfirmed id symbol .buy db) : unresolvedBuy db ≠ none := by
  obtain ⟨o, ho, hstatus, -, -, hside⟩ := h
  unfold AutoTrader.unresolvedBuy
  intro hnone
  rw [Option.map_eq_none_iff, List.find?_eq_none] at hnone
  exact hnone o (db.brokerOrders.mem_of_find? ho) (by simp [hstatus, hside])

/-! ### A pass leaves the row alone and reports it -/

def unconfirmedReason (id : String) : String := "local_order_unconfirmed:" ++ id

section Pass

variable (broker : BrokerReplies) (now : DateTime) {c : String}

/-- What handling another row keeps: the row `c`, and the reasons so far. -/
def LeavesAlone (c : String) (acc : PassState) (db : Database) (acc' : PassState) (db' : Database) :
    Prop :=
  Apart c db db' ∧ acc.reasons ⊆ acc'.reasons

theorem settleOrder_leavesAlone {o : BrokerOrder} (ho : o.clientOrderId ≠ c) (record : OrderRecord)
    (acc : PassState) (db : Database) :
    Raising.Ends (dbHandler broker) (settleOrder now o record acc) (LeavesAlone c acc db)
      (fun _ => Apart c db) db := by
  unfold settleOrder
  split
  · exact ⟨.refl c db, List.subset_append_left _ _⟩
  · rename_i status _
    have hupdate := Apart.status (Ne.symm ho) now (recordUpdate now (keptPending o.status status)
      record (if (keptPending o.status status).terminal then some now else none)) db
    apply Raising.Ends.bind
    refine ends_execute_exec broker db ?_ fun _ _ => hupdate
    intro updated _
    apply Raising.Ends.bind
    apply Raising.Ends.attempt
    have hreasons : acc.reasons ⊆
        (if updated then { acc with updatedOrders := acc.updatedOrders + 1 } else acc).reasons := by
      split
      · exact fun _ hr => hr
      · exact fun _ hr => hr
    refine Raising.Ends.mono (materializeLocalFills_apart broker now c o _) ?_ ?_
    · intro n db₂ hapart
      exact ⟨hupdate.trans hapart, hreasons⟩
    · intro e db₂ hapart
      exact ⟨hupdate.trans hapart, List.Subset.trans hreasons (List.subset_append_left _ _)⟩

theorem bookDifference_leavesAlone {o : BrokerOrder} (ho : o.clientOrderId ≠ c)
    (record : OrderRecord) (acc : PassState) (db : Database) :
    Raising.Ends (dbHandler broker) (bookDifference now o record acc) (LeavesAlone c acc db)
      (fun _ => Apart c db) db := by
  unfold bookDifference
  dsimp only
  split
  · exact settleOrder_leavesAlone broker now ho record acc db
  · apply Raising.Ends.bind
    refine .of_eval (eval_reraise broker db _) ?_
    cases incrementalFillPrice o record (record.filledQuantity - o.filledQty) with
    | error e => exact .refl c db
    | ok price =>
      have hfill := Apart.fill (c := c)
        (a := reconcileFillArgs now o record (record.filledQuantity - o.filledQty) price)
        (Ne.symm ho) now db
      apply Raising.Ends.bind
      apply Raising.Ends.attempt
      refine ends_execute_exec broker db ?_ ?_
      · intro inserted _
        refine Raising.Ends.mono (settleOrder_leavesAlone broker now ho record _ _) ?_ ?_
        · intro acc' db' h'
          refine ⟨hfill.trans h'.1, List.Subset.trans ?_ h'.2⟩
          split
          · exact fun _ hr => hr
          · exact fun _ hr => hr
        · exact fun _ _ h' => hfill.trans h'
      · exact fun e _ => ⟨hfill, List.subset_append_left _ _⟩

/-- A row without a broker id is reported and left alone; every other row is
    another row. -/
theorem reconcileOrder_unconfirmed (orders : List OrderRecord) {o : BrokerOrder}
    (ho : o.clientOrderId = c → o.brokerIdText = "") (acc : PassState) (db : Database) :
    Raising.Ends (dbHandler broker) (reconcileOrder now orders acc o)
      (fun acc' db' => LeavesAlone c acc db acc' db' ∧
        (o.clientOrderId = c → unconfirmedReason c ∈ acc'.reasons))
      (fun _ => Apart c db) db := by
  unfold reconcileOrder
  dsimp only
  have hacc : acc.reasons ⊆ (if o.status = .unknown then
      acc.addReason ("local_unknown:" ++ o.clientOrderId) else acc).reasons := by
    split
    · exact List.subset_append_left _ _
    · exact fun _ hr => hr
  generalize (if o.status = .unknown then acc.addReason ("local_unknown:" ++ o.clientOrderId)
    else acc) = acc₀ at hacc ⊢
  have hreason : ∀ acc₁ : PassState, acc₀.reasons ⊆ acc₁.reasons → ∀ reason,
      LeavesAlone c acc db (acc₁.addReason reason) db :=
    fun acc₁ h₁ reason =>
      ⟨.refl c db, List.Subset.trans (List.Subset.trans hacc h₁) (List.subset_append_left _ _)⟩
  split
  · refine ⟨hreason acc₀ (fun _ hr => hr) _, ?_⟩
    rintro rfl
    exact List.mem_append_right _ (List.mem_singleton.mpr rfl)
  · rename_i hnamed
    have hne : o.clientOrderId ≠ c := fun hc => hnamed (ho hc)
    split
    · exact ⟨hreason acc₀ (fun _ hr => hr) _, fun h => absurd h hne⟩
    · split
      · exact ⟨hreason _ (fun _ hr => hr) _, fun h => absurd h hne⟩
      · split
        · exact ⟨hreason _ (fun _ hr => hr) _, fun h => absurd h hne⟩
        · split
          · exact ⟨hreason _ (fun _ hr => hr) _, fun h => absurd h hne⟩
          · refine Raising.Ends.mono (bookDifference_leavesAlone broker now hne _ _ db) ?_
              fun _ _ he => he
            exact fun _ _ h' => ⟨⟨h'.1, List.Subset.trans hacc h'.2⟩, fun h => absurd h hne⟩

theorem finishPass_reports (acc : PassState) (db : Database) :
    Raising.Ends (dbHandler broker) (finishPass now acc)
      (fun report db' => SameLedger db db' ∧ ∀ reason ∈ acc.reasons,
        reason ∈ report.reasons ∧ report.blockNewEntries = true)
      (fun _ => SameLedger db) db := by
  refine Raising.Ends.mono (finishPass_ends broker now db acc) ?_ fun _ _ he => he.elim
  rintro report db' ⟨hs, hall, hblock⟩
  refine ⟨hs, fun reason hreason => ?_⟩
  have hmem : reason ∈ report.reasons := by
    rw [hall]
    exact List.mem_eraseDups.mpr hreason
  refine ⟨hmem, ?_⟩
  rw [hblock, List.isEmpty_eq_false_iff_exists_mem.mpr ⟨reason, hmem⟩]
  rfl

/-- One pass, on whatever the broker answered. -/
theorem pass_unconfirmed {symbol : String} {side : Side} {db : Database}
    (h : Unconfirmed c symbol side db) (orders : Except ReadError (List OrderRecord))
    (account : Except ReadError (List AccountPosition)) :
    Raising.Ends (dbHandler broker) (reconcileBrokerState now orders account)
      (fun report db' => Unconfirmed c symbol side db' ∧ (orders.toOption ≠ none →
        unconfirmedReason c ∈ report.reasons ∧ report.blockNewEntries = true))
      (fun _ => Unconfirmed c symbol side) db := by
  have hsame : ∀ {db₁ db₂ : Database}, Unconfirmed c symbol side db₁ → SameLedger db₁ db₂ →
      Unconfirmed c symbol side db₂ := fun h₁ hs => h₁.congr (by rw [hs.orders])
  unfold reconcileBrokerState
  cases orders with
  | error e =>
    refine Raising.Ends.mono (finishPass_reports broker now _ db) ?_ fun _ _ he => hsame h he
    exact fun _ _ h' => ⟨hsame h h'.1, fun hno => absurd rfl hno⟩
  | ok orders =>
    apply ends_selectOrders
    apply Raising.Ends.bind
    have hunconfirmed := h
    obtain ⟨o, ho, hstatus, hid, -⟩ := hunconfirmed
    -- the row is among the rows of the pass, as it was read
    have hrow : o ∈ reconciledRows db :=
      mem_reconciledRows.mpr ⟨db.brokerOrders.mem_of_find? ho, .inl (by rw [hstatus]; decide)⟩
    have hread : ∀ x ∈ reconciledRows db, x.clientOrderId = c → x.brokerIdText = "" := by
      rintro x hx rfl
      have hx' := db.brokerOrders.find?_of_mem (mem_reconciledRows.mp hx).1
      rw [ho, Option.some.injEq] at hx'
      rw [← hx', BrokerOrder.brokerIdText, hid]
      rfl
    have hkey : o.clientOrderId = c := db.brokerOrders.key_of_find? ho
    have hfinal : ∀ (acc : PassState) (db' : Database), Apart c db db' →
        unconfirmedReason c ∈ acc.reasons →
        Raising.Ends (dbHandler broker) (finishPass now acc)
          (fun report db'' => Unconfirmed c symbol side db'' ∧
            ((Except.ok (ε := ReadError) orders).toOption ≠ none →
              unconfirmedReason c ∈ report.reasons ∧ report.blockNewEntries = true))
          (fun _ => Unconfirmed c symbol side) db' := by
      intro acc db' hapart hreason
      have h' := h.congr hapart.row
      refine Raising.Ends.mono (finishPass_reports broker now acc db') ?_ fun _ _ he => hsame h' he
      exact fun _ _ hr => ⟨hsame h' hr.1, fun _ => hr.2 _ hreason⟩
    have hloop := Raising.Ends.foldlM (h := dbHandler broker) (f := reconcileOrder now orders)
      (E := fun _ => Unconfirmed c symbol side) (I := fun rest acc db' => Apart c db db' ∧
        (∀ x ∈ rest, x.clientOrderId = c → x.brokerIdText = "") ∧
        (o ∈ rest ∨ unconfirmedReason c ∈ acc.reasons)) ?_ (reconciledRows db)
      (a := PassState.empty) (s := db) ⟨.refl c db, hread, .inl hrow⟩
    · refine Raising.Ends.mono hloop ?_ fun _ _ he => he
      rintro acc db' ⟨hapart, -, hreason⟩
      have hreason : unconfirmedReason c ∈ acc.reasons := hreason.resolve_left (by simp)
      cases account with
      | error e =>
        apply hfinal _ db' hapart
        exact List.mem_append_left _ (List.mem_append_left _ hreason)
      | ok account =>
        apply ends_select
        apply hfinal _ db' hapart
        exact List.mem_append_left _ (List.mem_append_left _ hreason)
    · rintro x rest acc db' ⟨hapart, hrest, hreason⟩
      refine Raising.Ends.mono (reconcileOrder_unconfirmed broker now orders
        (hrest x List.mem_cons_self) acc db') ?_ fun _ _ he => h.congr (hapart.trans he).row
      rintro acc' db'' ⟨⟨hapart', hsub⟩, hreported⟩
      refine ⟨hapart.trans hapart', fun y hy => hrest y (List.mem_cons_of_mem _ hy), ?_⟩
      rcases hreason with hmem | hreason
      · rcases List.mem_cons.mp hmem with rfl | hmem
        · exact .inr (hreported hkey)
        · exact .inl hmem
      · exact .inr (hsub hreason)

end Pass

/-! ### A refused submission -/

section Submission

variable (broker : BrokerReplies)

/-- The error text of a refusal is not blank. -/
theorem refusal_not_blank (e : Exn) : Text.blank (submissionError (gateFailure e)) = false := by
  have hname : (gateFailure e).typeName = "OrderSafetyGateError" := by
    cases e <;> rfl
  unfold submissionError Text.blank
  rw [hname, String.toList_ofList, String.toList_append, String.toList_append]
  rfl

theorem claimed_row {now : DateTime} {a : IntentArgs} {db : Database}
    (h : ((Op.claimOrderIntent now a).call db).1 = .ok true) :
    ∃ row, ((Op.claimOrderIntent now a).exec db).brokerOrders.find? a.clientOrderId = some row ∧
      row.brokerOrderId = none ∧ row.symbol = a.symbol ∧ Side.parse? a.side = some row.side ∧
      Text.blank a.clientOrderId = false := by
  rcases claimOrderIntent_cases now a db with ⟨e, hr⟩ | ⟨-, hr⟩ | ⟨row, hrow, hfree, hr⟩
  · simp [Op.call, Op.run, hr] at h
  · simp [Op.call, Op.run, hr] at h
  · obtain ⟨hid, -, hbroker, -, -, hblank⟩ := intentRow_ok hrow
    obtain ⟨hsymbol, hside⟩ := intentRow_identity hrow
    refine ⟨row, ?_, hbroker, hsymbol, hside, hblank⟩
    simp only [Op.exec, Op.call, Op.run, hr]
    rw [Table.find?_append (Table.insertOrIgnore_of_free hfree).2, ← hid, hfree]
    simp

/-- The database at which the submitter is called. -/
def submittingDatabase (request : OrderRequest) (signalId id : String) (createdAt : DateTime)
    (db : Database) : Database :=
  (Op.markOrderSubmitting createdAt id (some createdAt)).exec
    ((Op.claimOrderIntent createdAt (claimArgs request signalId id createdAt)).exec db)

theorem markOrderSubmitting_row (now : DateTime) {id : String} (at' : Option DateTime)
    {db : Database} {o : BrokerOrder} (hid : Text.blank id = false)
    (ho : db.brokerOrders.find? id = some o) :
    ((Op.markOrderSubmitting now id at').call db).1 = .ok true ∧
    ((Op.markOrderSubmitting now id at').exec db).brokerOrders.find? id =
      some { o with status := .submitting, updatedAt := at'.getD now, error := none } := by
  have hrun : (AutoTrader.markOrderSubmitting now id at').run db = _ :=
    rewriteOrder_of_find? hid rfl ho rfl
  simp only [Op.exec, Op.call, Op.run, hrun]
  exact ⟨trivial, by rw [Table.find?_update_self, ho, Option.map_some]⟩

theorem markOrderUnknown_row {now : DateTime} {id error : String} {at' : Option DateTime}
    {db : Database} {o : BrokerOrder} (hid : Text.blank id = false)
    (herror : Text.blank error = false) (ho : db.brokerOrders.find? id = some o) :
    ((Op.markOrderUnknown now id (some error) at').exec db).brokerOrders.find? id =
      some { o with status := .unknown, updatedAt := at'.getD now, error := some error } := by
  have hrun : (AutoTrader.markOrderUnknown now id (some error) at').run db = _ :=
    rewriteOrder_of_find? hid (requireNonempty_of herror "error") ho rfl
  simp only [Op.exec, Op.call, Op.run, hrun]
  rw [Table.find?_update_self, ho, Option.map_some]

/-- Marking a row without a broker id UNKNOWN. -/
theorem recordUnknown_unconfirmed {id symbol : String} {side : Side} {db : Database}
    {o : BrokerOrder} (ho : db.brokerOrders.find? id = some o) (hid : Text.blank id = false)
    (hbroker : o.brokerOrderId = none) (hsymbol : o.symbol = symbol) (hside : o.side = side)
    {error : String} (herror : Text.blank error = false) (request : OrderRequest)
    (signalId reason : String) (createdAt : DateTime) :
    Raising.Ends (dbHandler broker) (recordUnknown request signalId reason id error createdAt)
      (fun _ => Unconfirmed id symbol side) (fun _ => Unconfirmed id symbol side) db := by
  have hunknown : Unconfirmed id symbol side
      ((Op.markOrderUnknown createdAt id (some error) (some createdAt)).exec db) :=
    ⟨_, markOrderUnknown_row hid herror ho, rfl, hbroker, hsymbol, hside⟩
  have haudit : ∀ {db' : Database} (a : AuditArgs), Unconfirmed id symbol side db' →
      Unconfirmed id symbol side ((Op.recordBrokerOrderAudit createdAt a).exec db') := by
    intro db' a h'
    apply h'.congr
    rcases recordBrokerOrderAudit_cases createdAt a db' with ⟨e, hr⟩ | ⟨-, hr⟩ | ⟨row, -, -, hr⟩
    · simp only [Op.exec, Op.call, Op.run, hr]
    · simp only [Op.exec, Op.call, Op.run, hr]
    · simp only [Op.exec, Op.call, Op.run, hr]
  apply Raising.Ends.bind
  refine ends_execute_exec broker db ?_ fun _ _ => hunknown
  intro _ _
  apply Raising.Ends.bind
  refine ends_execute_exec broker _ ?_ fun _ _ => haudit _ hunknown
  exact fun _ _ => haudit _ hunknown

/-- A submission that the gate refuses. -/
theorem submitWithLedger_refused {guard : Guard} {request : OrderRequest} {signalId id : String}
    {idempotencyKey : Option String} {createdAt : DateTime} {db : Database}
    (hid : id = clientOrderIdOf request.side (submissionKey idempotencyKey signalId))
    (hclaim : ((Op.claimOrderIntent createdAt (claimArgs request signalId id createdAt)).call db).1 =
      .ok true)
    (hrefused : ∃ e, (Raising.eval (dbHandler broker) (safetyGate guard request)
      (submittingDatabase request signalId id createdAt db)).1 = .error e) (reason : String) :
    Raising.Ends (dbHandler broker)
      (submitWithLedger (guardedSubmitter guard) request signalId idempotencyKey reason createdAt)
      (fun _ => Unconfirmed id request.symbol request.side)
      (fun _ => Unconfirmed id request.symbol request.side) db := by
  subst hid
  obtain ⟨row, hrow, hbroker, hsymbol, hside, hblank⟩ := claimed_row hclaim
  have hside : row.side = request.side :=
    (Option.some.inj ((Side.parse?_name request.side).symm.trans hside)).symm
  obtain ⟨hsubmitting, hrow'⟩ := markOrderSubmitting_row createdAt (some createdAt) hblank hrow
  obtain ⟨e, hgate⟩ := hrefused
  have hsame := (readsOnly_safetyGate guard request).eval broker
    (submittingDatabase request signalId (clientOrderIdOf request.side
      (submissionKey idempotencyKey signalId)) createdAt db)
  unfold submitWithLedger
  apply Raising.Ends.bind
  refine ends_execute_exec broker db ?_ fun _ he => by rw [hclaim] at he; cases he
  intro claimed hclaimed
  obtain rfl : claimed = true := Except.ok.inj (hclaimed.symm.trans hclaim)
  rw [if_pos rfl]
  apply Raising.Ends.bind
  refine ends_execute_exec broker _ ?_ fun e he => ?_
  · intro _ _
    apply Raising.Ends.bind
    apply Raising.Ends.attempt
    apply Raising.Ends.bind
    apply Raising.Ends.attempt
    refine .of_eval (Prod.ext hgate hsame) ?_
    exact recordUnknown_unconfirmed broker hrow' hblank hbroker hsymbol hside (refusal_not_blank e)
      request signalId reason createdAt
  · cases he.symm.trans hsubmitting

end Submission

/-! ### Pass after pass -/

/-- A later reconciliation pass with what the broker answers to it. -/
structure LaterPass where
  now : DateTime
  orders : Except ReadError (List OrderRecord)
  account : Except ReadError (List AccountPosition)

def afterPasses (broker : BrokerReplies) (passes : List LaterPass) (db : Database) : Database :=
  passes.foldl (fun db pass => (Raising.eval (dbHandler broker)
    (reconcileBrokerState pass.now pass.orders pass.account) db).2) db

theorem Unconfirmed.afterPasses (broker : BrokerReplies) (passes : List LaterPass) {id symbol : String}
    {side : Side} {db : Database} (h : Unconfirmed id symbol side db) :
    Unconfirmed id symbol side (afterPasses broker passes db) := by
  induction passes generalizing db with
  | nil => exact h
  | cons pass rest ih =>
    apply ih
    apply Raising.Ends.store
    refine Raising.Ends.mono (pass_unconfirmed broker pass.now h pass.orders pass.account) ?_
      fun _ _ he => he
    exact fun _ _ h' => h'.1

/-- **A refused order is never resolved.**  Whenever the gate refuses a claimed
    order, for whatever reason, the order is UNKNOWN when `_submit_with_ledger`
    ends and after any number of passes; it blocks the later orders of its side and
    every pass that reads the broker's orders reports it. -/
theorem refused_order_never_resolved (broker : BrokerReplies) (guard : Guard)
    (request : OrderRequest) (signalId : String) (idempotencyKey : Option String) (reason : String)
    (createdAt : DateTime) (db : Database) (id : String)
    (hid : id = clientOrderIdOf request.side (submissionKey idempotencyKey signalId))
    (hclaim : ((Op.claimOrderIntent createdAt (claimArgs request signalId id createdAt)).call db).1 =
      .ok true)
    (hrefused : ∃ e, (Raising.eval (dbHandler broker) (safetyGate guard request)
      (submittingDatabase request signalId id createdAt db)).1 = .error e)
    (passes : List LaterPass) (after : Database)
    (hafter : after = afterPasses broker passes (Raising.eval (dbHandler broker)
      (submitWithLedger (guardedSubmitter guard) request signalId idempotencyKey reason createdAt)
      db).2) :
    (∃ o, after.brokerOrders.find? id = some o ∧ o.status = .unknown) ∧
    after.hasUnresolvedOrder request.symbol request.side = true ∧
    (request.side = .buy → unresolvedBuy after ≠ none) ∧
    ∀ now orders account report,
      (Raising.eval (dbHandler broker) (reconcileBrokerState now (.ok orders) account) after).1 =
        .ok report →
      "local_order_unconfirmed:" ++ id ∈ report.reasons ∧ report.blockNewEntries = true := by
  have hunconfirmed : Unconfirmed id request.symbol request.side after := by
    rw [hafter]
    apply Unconfirmed.afterPasses
    exact (submitWithLedger_refused broker hid hclaim hrefused reason).store
  refine ⟨?_, hunconfirmed.unresolved, ?_, ?_⟩
  · obtain ⟨o, ho, hstatus, -⟩ := hunconfirmed
    exact ⟨o, ho, hstatus⟩
  · intro hbuy
    rw [hbuy] at hunconfirmed
    exact hunconfirmed.unresolvedBuy
  · intro now orders account report hreport
    have hpass := pass_unconfirmed broker now hunconfirmed (.ok orders) account
    exact (hpass.returned (Prod.ext hreport rfl)).2 (Option.some_ne_none orders)

/-! ### A BUY while the runtime is paused -/

namespace PausedBuy

def now : DateTime := .combine 20000 10 0 0 none

def guard : Guard := ⟨"demo", "auto-trader", "owner-1", some fun _ => true, .ok now⟩

def request : OrderRequest := ⟨"005930", .buy, .int 1, .int 100, "KRX"⟩

def broker : BrokerReplies := ⟨fun _ _ => .ok (some "K1"), fun _ _ _ _ => .ok ()⟩

def refused : Database :=
  (Raising.eval (dbHandler broker)
    (submitWithLedger (guardedSubmitter guard) request "d1" none "ai_approved" now) Database.empty).2

theorem claimed :
    ((Op.claimOrderIntent now (claimArgs request "d1" "ai:buy:d1" now)).call Database.empty).1 =
      .ok true := by
  apply Except.eq_ok_of_toOption
  decide +kernel

theorem gate_raises : ∃ e, (Raising.eval (dbHandler broker) (safetyGate guard request)
    (submittingDatabase request "d1" "ai:buy:d1" now Database.empty)).1 = .error e := by
  cases hr : (Raising.eval (dbHandler broker) (safetyGate guard request)
      (submittingDatabase request "d1" "ai:buy:d1" now Database.empty)).1 with
  | error e => exact ⟨e, rfl⟩
  | ok u =>
    have hnone : (Raising.eval (dbHandler broker) (safetyGate guard request)
        (submittingDatabase request "d1" "ai:buy:d1" now Database.empty)).1.toOption = none := by
      decide +kernel
    rw [hr] at hnone
    cases hnone

/-- A fresh database is paused: the BUY is refused and blocks every later BUY. -/
theorem paused_buy_blocks_buys :
    (refused.brokerOrders.find? "ai:buy:d1").map (·.status) = some .unknown ∧
    unresolvedBuy refused ≠ none :=
  ⟨by decide +kernel, (refused_order_never_resolved broker guard request "d1" none "ai_approved" now
    Database.empty "ai:buy:d1" rfl claimed gate_raises [] refused rfl).2.2.1 rfl⟩

/-- Not every refused order ends in a status that lets trading go on. -/
theorem refused_order_jams :
    ¬ ∀ (broker : BrokerReplies) (guard : Guard) (request : OrderRequest) (signalId : String)
      (idempotencyKey : Option String) (reason : String) (createdAt : DateTime) (db : Database)
      (id : String) (passes : List LaterPass),
      id = clientOrderIdOf request.side (submissionKey idempotencyKey signalId) →
      ((Op.claimOrderIntent createdAt (claimArgs request signalId id createdAt)).call db).1 =
        .ok true →
      (∃ e, (Raising.eval (dbHandler broker) (safetyGate guard request)
        (submittingDatabase request signalId id createdAt db)).1 = .error e) →
      ∀ o, (afterPasses broker passes (Raising.eval (dbHandler broker)
        (submitWithLedger (guardedSubmitter guard) request signalId idempotencyKey reason
          createdAt) db).2).brokerOrders.find? id = some o → o.status.terminal = true := by
  intro hall
  have hunknown : (refused.brokerOrders.find? "ai:buy:d1").map (·.status) = some .unknown := by
    decide +kernel
  obtain ⟨o, ho, hstatus⟩ := Option.map_eq_some_iff.mp hunknown
  have hterminal := hall broker guard request "d1" none "ai_approved" now Database.empty
    "ai:buy:d1" [] rfl claimed gate_raises o ho
  rw [hstatus] at hterminal
  cases hterminal

end PausedBuy

end AutoTrader
