/-
  AutoTrader/Pipeline/Alphabet.lean
  =================================
  **Which actions a notice, a cycle and a reconciliation perform.**

  `apply_fill_notice` books fills and moves its order to ACKNOWLEDGED or REJECTED; a
  cycle claims, submits and audits orders.  Both write metadata only to raise a
  safety block (and a notice to leave its reason).  A reconciliation books fills,
  copies statuses and writes the two flags.  None of them cancels anything.
-/
import AutoTrader.Ledger.Frame
import AutoTrader.Pipeline.AutoTrade
import AutoTrader.Pipeline.FillNotice
import AutoTrader.Pipeline.Supervisor

namespace AutoTrader

open Relational Interleave

/-- The two flags of a safety block. -/
def reviewKeys : List String := ["operator_review", "block_new_entries"]

namespace Act

/-- The actions of `apply_fill_notice`. -/
def byNotice : Act → Prop
  | .read _ => True
  | .tryRead _ => True
  | .selectOrders _ => True
  | .call (.updateBrokerOrderStatus _ _ u) =>
    ∃ now, u = noticeStatus now .acknowledged ∨ u = noticeStatus now .rejected
  | .call (.applyBrokerFill ..) => True
  | .call (.materializeOrderFills ..) => True
  | .call (.setRuntimeMetadata _ key value _) =>
    key ∈ reviewKeys ∧ value = .text "true" ∨ key = "fill_notice.last_reason"
  | _ => False

/-- The actions of `run_auto_trade_cycle`. -/
def byCycle : Act → Prop
  | .read _ => True
  | .tryRead _ => True
  | .selectOrders _ => True
  | .call (.claimOrderIntent ..) => True
  | .call (.markOrderSubmitting ..) => True
  | .call (.recordOrderSubmission ..) => True
  | .call (.markOrderUnknown ..) => True
  | .call (.recordBrokerOrderAudit ..) => True
  | .call (.setRuntimeMetadata _ key value _) => key ∈ reviewKeys ∧ value = .text "true"
  | .submitOrder .. => True
  | _ => False

/-- The actions of `reconcile_broker_state`. -/
def byReconcile : Act → Prop
  | .read _ => True
  | .tryRead _ => True
  | .selectOrders _ => True
  | .call (.updateBrokerOrderStatus ..) => True
  | .call (.applyBrokerFill ..) => True
  | .call (.materializeOrderFills ..) => True
  | .call (.setRuntimeMetadata _ key _ _) => key ∈ reviewKeys
  | _ => False

theorem byNotice_of_isRead (o : Act) (h : o.isRead) : o.byNotice := by
  cases o with
  | read => trivial
  | tryRead => trivial
  | selectOrders => trivial
  | call => exact h.elim
  | submitOrder => exact h.elim
  | cancelOrder => exact h.elim

theorem byCycle_of_isRead (o : Act) (h : o.isRead) : o.byCycle := by
  cases o with
  | read => trivial
  | tryRead => trivial
  | selectOrders => trivial
  | call => exact h.elim
  | submitOrder => exact h.elim
  | cancelOrder => exact h.elim

theorem byReconcile_of_isRead (o : Act) (h : o.isRead) : o.byReconcile := by
  cases o with
  | read => trivial
  | tryRead => trivial
  | selectOrders => trivial
  | call => exact h.elim
  | submitOrder => exact h.elim
  | cancelOrder => exact h.elim

end Act

theorem only_execute {P : Act → Prop} {op : Op} (hread : ∀ o : Act, o.isRead → P o)
    (h : P (.call op)) : Raising.Only (S := trading) P (execute op) :=
  .bind (Raising.Only.ask (S := trading) (o := .call op) h) fun r =>
    (readsOnly_reraise r).mono hread

/-! ### Notices -/

abbrev ByNotice {α : Type} (p : Pipeline α) : Prop := Raising.Only (S := trading) Act.byNotice p

theorem ReadsOnly.byNotice {α : Type} {p : Pipeline α} (hp : ReadsOnly p) : ByNotice p :=
  hp.mono Act.byNotice_of_isRead

theorem byNotice_execute {op : Op} (h : Act.byNotice (.call op)) : ByNotice (execute op) :=
  only_execute Act.byNotice_of_isRead h

theorem byNotice_blockNotice (now : DateTime) (reason : String) (id fillId : Option String) :
    ByNotice (blockNotice now reason id fillId) :=
  .bind (byNotice_execute (.inl ⟨by decide, rfl⟩)) fun _ =>
    .bind (byNotice_execute (.inl ⟨by decide, rfl⟩)) fun _ =>
      .bind (byNotice_execute (.inr rfl)) fun _ => .pure _

theorem readsOnly_riskFor (side : Side) (o : BrokerOrder) : ReadsOnly (riskFor side o) := by
  unfold riskFor entryRisk
  split
  · split
    · exact readsOnly_select _
    · exact .pure _
  · exact .pure _

theorem byNotice_materializeIfNeeded (now : DateTime) (o : BrokerOrder) (side : Side)
    (fillId : String) : ByNotice (materializeIfNeeded now o side fillId) := by
  unfold materializeIfNeeded
  refine .bind (readsOnly_select _).byNotice fun applied => ?_
  split
  · exact .pure _
  · refine .bind (readsOnly_riskFor side o).byNotice fun risk => ?_
    split
    · exact .pure _
    · refine .bind (.attempt (byNotice_execute trivial)) fun r => ?_
      cases r with
      | ok n => exact .pure _
      | error e => exact .pure _

theorem byNotice_applyAccepted (now : DateTime) (o : BrokerOrder) (existingFills : Nat) :
    ByNotice (applyAccepted now o existingFills) := by
  unfold applyAccepted
  dsimp only
  split
  · exact byNotice_blockNotice ..
  split
  · exact .pure _
  split
  · exact .pure _
  split
  · exact byNotice_blockNotice ..
  split
  · exact byNotice_blockNotice ..
  split
  · exact byNotice_blockNotice ..
  split
  · refine .bind (.attempt (byNotice_execute ⟨now, .inl rfl⟩)) fun r => ?_
    cases r with
    | ok n => exact .pure _
    | error e => exact byNotice_blockNotice ..
  · exact .pure _

theorem byNotice_applyRejected (now : DateTime) (o : BrokerOrder) (existingFills : Nat) :
    ByNotice (applyRejected now o existingFills) := by
  unfold applyRejected
  dsimp only
  split
  · exact byNotice_blockNotice ..
  split
  · exact .pure _
  split
  · exact byNotice_blockNotice ..
  · refine .bind (.attempt (byNotice_execute ⟨now, .inr rfl⟩)) fun r => ?_
    cases r with
    | ok n => exact .pure _
    | error e => exact byNotice_blockNotice ..

theorem byNotice_bookNotice (now : DateTime) (args : FillArgs) (risk : Option EntryRisk) :
    ByNotice (bookNotice now args risk) := by
  unfold bookNotice
  refine .bind (byNotice_execute trivial) fun inserted => ?_
  split
  · exact .pure _
  · exact .bind (byNotice_execute trivial) fun n => .pure _

theorem byNotice_applyExecution (now received : DateTime) (notice : FillNotice) (side : Side)
    (orderNo : String) (filledAt : DateTime) (o : BrokerOrder) :
    ByNotice (applyExecution now received notice side orderNo filledAt o) := by
  unfold applyExecution
  refine .bind (readsOnly_select _).byNotice fun known => ?_
  split
  · refine .bind (byNotice_materializeIfNeeded ..) fun n => ?_
    cases n with
    | none => exact byNotice_blockNotice ..
    | some n => exact .pure _
  split
  · exact byNotice_blockNotice ..
  split
  · exact byNotice_blockNotice ..
  split
  · exact byNotice_blockNotice ..
  · refine .bind (readsOnly_riskFor side o).byNotice fun risk => ?_
    split
    · exact byNotice_blockNotice ..
    · refine .bind (.attempt (byNotice_bookNotice ..)) fun r => ?_
      cases r with
      | ok n => exact .pure _
      | error e => exact byNotice_blockNotice ..

theorem byNotice_applyFillNotice (now : DateTime) (notice : FillNotice) (tradingDate : Option Int)
    (received : Option DateTime) : ByNotice (applyFillNotice now notice tradingDate received) := by
  unfold applyFillNotice
  refine .bind (readsOnly_reraise _).byNotice fun filledAt => ?_
  cases filledAt with
  | error reason => exact byNotice_blockNotice ..
  | ok filledAt =>
    dsimp only
    split
    · exact byNotice_blockNotice ..
    split
    · exact byNotice_blockNotice ..
    · refine .bind (Raising.Only.ask (S := trading) trivial) fun rows => ?_
      match rows with
      | [] => exact byNotice_blockNotice ..
      | _ :: _ :: _ => exact byNotice_blockNotice ..
      | [o] =>
        dsimp only
        split
        · exact byNotice_blockNotice ..
        · refine .bind (readsOnly_select _).byNotice fun existing => ?_
          split
          · exact byNotice_applyAccepted ..
          · exact byNotice_applyRejected ..
          · exact byNotice_applyExecution ..

/-! ### Cycles -/

abbrev ByCycle {α : Type} (p : Pipeline α) : Prop := Raising.Only (S := trading) Act.byCycle p

theorem ReadsOnly.byCycle {α : Type} {p : Pipeline α} (hp : ReadsOnly p) : ByCycle p :=
  hp.mono Act.byCycle_of_isRead

theorem byCycle_execute {op : Op} (h : Act.byCycle (.call op)) : ByCycle (execute op) :=
  only_execute Act.byCycle_of_isRead h

theorem byCycle_brokerSubmitter (id : String) (request : OrderRequest) :
    ByCycle (brokerSubmitter id request) :=
  .bind (Raising.Only.ask (S := trading) (o := .submitOrder id request) trivial) fun r =>
    (readsOnly_reraise r).byCycle

theorem byCycle_guardedSubmitter (guard : Guard) (id : String) (request : OrderRequest) :
    ByCycle (guardedSubmitter guard id request) := by
  unfold guardedSubmitter
  refine .bind (.attempt (readsOnly_safetyGate guard request).byCycle) fun r => ?_
  cases r with
  | error e => exact .throw _
  | ok _ => exact byCycle_brokerSubmitter id request

theorem byCycle_recordUnknown (request : OrderRequest) (signalId reason id error : String)
    (createdAt : DateTime) : ByCycle (recordUnknown request signalId reason id error createdAt) :=
  .bind (byCycle_execute trivial) fun _ => .bind (byCycle_execute trivial) fun _ => .pure _

section Submitter

variable {submitter : Submitter} (hsubmitter : ∀ id request, ByCycle (submitter id request))

include hsubmitter

theorem byCycle_submitWithLedger (request : OrderRequest) (signalId : String)
    (idempotencyKey : Option String) (reason : String) (createdAt : DateTime) :
    ByCycle (submitWithLedger submitter request signalId idempotencyKey reason createdAt) := by
  unfold submitWithLedger
  refine .bind (byCycle_execute trivial) fun claimed => ?_
  split
  · unfold submitClaimed
    refine .bind (byCycle_execute trivial) fun _ => ?_
    refine .bind (.attempt (hsubmitter _ request)) fun r => ?_
    cases r with
    | error e => exact byCycle_recordUnknown ..
    | ok broker =>
      dsimp only
      split
      · exact .bind (byCycle_execute trivial) fun _ => .bind (byCycle_execute trivial) fun _ => .pure _
      · exact byCycle_recordUnknown ..
  · exact .pure _

theorem byCycle_maybeExitPosition (calendar : Calendar) (config : AutoTradeConfig) (symbol : String)
    (now : DateTime) (quote : MarketView) (exitPrice : Option (Except Exn PyFloat)) :
    ByCycle (maybeExitPosition submitter calendar config symbol now quote exitPrice) := by
  unfold maybeExitPosition
  refine .bind (readsOnly_select _).byCycle fun positions => ?_
  cases positions with
  | nil => exact .pure _
  | cons position rest =>
    dsimp only
    split
    · exact .pure _
    split
    · exact .pure _
    refine .bind (readsOnly_select _).byCycle fun unresolved => ?_
    split
    · exact .pure _
    refine .bind (readsOnly_select _).byCycle fun attempts => ?_
    split
    · exact .bind (byCycle_execute ⟨by decide, rfl⟩) fun _ =>
        .bind (byCycle_execute ⟨by decide, rfl⟩) fun _ => .pure _
    split
    · exact .pure _
    split
    · exact .pure _
    refine .bind ?_ fun result => .pure _
    exact .bind (readsOnly_reraise _).byCycle fun request =>
      .bind (byCycle_submitWithLedger hsubmitter ..) fun result => .pure _

theorem byCycle_submitEntry (symbol : String) (barStart now : DateTime) (reason : String)
    (outcome : EntryOutcome) : ByCycle (submitEntry submitter symbol barStart now reason outcome) := by
  cases outcome with
  | blocked reason => exact .pure _
  | raised e => exact .throw _
  | order decisionId quantity price =>
    exact .bind (readsOnly_reraise _).byCycle fun request =>
      .bind (byCycle_submitWithLedger hsubmitter ..) fun result => .pure _

theorem byCycle_maybeEnterPosition (symbol : String) (lastBarStart : Option DateTime)
    (now : DateTime) (path : EntryPath) :
    ByCycle (maybeEnterPosition submitter symbol lastBarStart now path) := by
  unfold maybeEnterPosition
  cases lastBarStart with
  | none => exact .pure _
  | some barStart =>
    cases path with
    | approved outcome => exact byCycle_submitEntry hsubmitter ..
    | direct outcome =>
      refine .bind (readsOnly_select _).byCycle fun existing => ?_
      split
      · exact .pure _
      · exact byCycle_submitEntry hsubmitter ..

end Submitter

theorem byCycle_cycleSymbol {args : CycleArgs}
    (hsubmitter : ∀ id request, ByCycle (args.submitter id request)) (symbol : String)
    (inputs : SymbolInputs) : ByCycle (cycleSymbol args symbol inputs) := by
  unfold cycleSymbol
  dsimp only
  split
  · exact .pure _
  split
  · exact .pure _
  refine .bind (readsOnly_select _).byCycle fun stopped => ?_
  split
  · exact .pure _
  split
  · exact .pure _
  refine .bind (byCycle_maybeExitPosition hsubmitter ..) fun result => ?_
  cases result with
  | some result => exact .pure _
  | none =>
    refine .bind (readsOnly_select _).byCycle fun positions => ?_
    split
    · exact .pure _
    split
    · exact .pure _
    split
    · exact .pure _
    split
    · exact .pure _
    split
    · exact .pure _
    · exact byCycle_maybeEnterPosition hsubmitter ..

theorem byCycle_runAutoTradeCycle {args : CycleArgs}
    (hsubmitter : ∀ id request, ByCycle (args.submitter id request)) (symbols : List String)
    (inputs : String → SymbolInputs) : ByCycle (runAutoTradeCycle args symbols inputs) := by
  unfold runAutoTradeCycle
  refine .bind (readsOnly_select _).byCycle fun openSymbols => ?_
  refine .foldlM (fun results symbol => ?_) _ _
  refine .bind (.attempt (byCycle_cycleSymbol hsubmitter symbol (inputs symbol))) fun r => ?_
  cases r with
  | ok result => exact .pure _
  | error e => exact .pure _

/-! ### Reconciliations -/

abbrev ByReconcile {α : Type} (p : Pipeline α) : Prop := Raising.Only (S := trading) Act.byReconcile p

theorem byReconcile_execute {op : Op} (h : Act.byReconcile (.call op)) : ByReconcile (execute op) :=
  only_execute Act.byReconcile_of_isRead h

theorem ReadsOnly.byReconcile {α : Type} {p : Pipeline α} (hp : ReadsOnly p) : ByReconcile p :=
  hp.mono Act.byReconcile_of_isRead

theorem byReconcile_materializeLocalFills (now : DateTime) (o : BrokerOrder) :
    ByReconcile (materializeLocalFills now o) := by
  unfold materializeLocalFills
  split
  · refine .bind (readsOnly_select _).byReconcile fun decision => ?_
    cases decision with
    | none => exact .throw _
    | some decision => exact byReconcile_execute trivial
  · exact byReconcile_execute trivial

theorem byReconcile_settleOrder (now : DateTime) (o : BrokerOrder) (record : OrderRecord)
    (acc : PassState) : ByReconcile (settleOrder now o record acc) := by
  unfold settleOrder
  split
  · exact .pure _
  · refine .bind (byReconcile_execute trivial) fun updated => ?_
    refine .bind (.attempt (byReconcile_materializeLocalFills now o)) fun r => ?_
    cases r with
    | ok n => exact .pure _
    | error e => exact .pure _

theorem byReconcile_bookDifference (now : DateTime) (o : BrokerOrder) (record : OrderRecord)
    (acc : PassState) : ByReconcile (bookDifference now o record acc) := by
  unfold bookDifference
  dsimp only
  split
  · exact byReconcile_settleOrder ..
  · refine .bind (readsOnly_reraise _).byReconcile fun price => ?_
    refine .bind (.attempt (byReconcile_execute trivial)) fun r => ?_
    cases r with
    | ok inserted => exact byReconcile_settleOrder ..
    | error e => exact .pure _

theorem byReconcile_reconcileOrder (now : DateTime) (orders : List OrderRecord) (acc : PassState)
    (o : BrokerOrder) : ByReconcile (reconcileOrder now orders acc o) := by
  unfold reconcileOrder
  dsimp only
  split
  · exact .pure _
  split
  · exact .pure _
  split
  · exact .pure _
  split
  · exact .pure _
  split
  · exact .pure _
  · exact byReconcile_bookDifference ..

theorem byReconcile_finishPass (now : DateTime) (acc : PassState) : ByReconcile (finishPass now acc) :=
  .bind (byReconcile_execute (show _ ∈ reviewKeys by decide)) fun _ =>
    .bind (byReconcile_execute (show _ ∈ reviewKeys by decide)) fun _ => .pure _

theorem byReconcile_reconcileBrokerState (now : DateTime)
    (orders : Except ReadError (List OrderRecord))
    (account : Except ReadError (List AccountPosition)) :
    ByReconcile (reconcileBrokerState now orders account) := by
  unfold reconcileBrokerState
  cases orders with
  | error e => exact byReconcile_finishPass ..
  | ok orders =>
    refine .bind (Raising.Only.ask (S := trading) trivial) fun rows => ?_
    refine .bind (.foldlM (byReconcile_reconcileOrder now orders) rows _) fun acc => ?_
    cases account with
    | error e => exact byReconcile_finishPass ..
    | ok account =>
      exact .bind (readsOnly_select _).byReconcile fun mismatches => byReconcile_finishPass ..

/-- An action that writes no order row and looks at none. -/
def Act.leavesOrders : Act → Prop
  | .read _ => True
  | .tryRead _ => True
  | .call op => op.target = none
  | .cancelOrder .. => True
  | .submitOrder .. => True
  | .selectOrders _ => False

/-! ### Parts of the pipelines that touch no order row -/

abbrev LeavesOrders {α : Type} (p : Pipeline α) : Prop :=
  Raising.Only (S := trading) Act.leavesOrders p

theorem leavesOrders_select {β : Type} (query : Database → β) : LeavesOrders (select query) :=
  Raising.Only.ask (S := trading) (o := .read query) trivial

theorem leavesOrders_reraise {α : Type} (r : Except Exn α) : LeavesOrders (reraise r) := by
  cases r with
  | ok a => exact Raising.Only.pure a
  | error e => exact Raising.Only.throw e

theorem leavesOrders_execute {op : Op} (h : op.target = none) : LeavesOrders (execute op) :=
  Raising.Only.bind (Raising.Only.ask (S := trading) (o := .call op) h) leavesOrders_reraise

theorem leavesOrders_setFlag (now : DateTime) (key value : String) :
    LeavesOrders (setFlag now key value) :=
  leavesOrders_execute rfl

theorem leavesOrders_setFlags (now : DateTime) (key key' value value' : String) {α : Type} (a : α) :
    LeavesOrders (do setFlag now key value; setFlag now key' value'; pure a) :=
  .bind (leavesOrders_setFlag ..) fun _ => .bind (leavesOrders_setFlag ..) fun _ => .pure _

theorem leavesOrders_cancelOrder (id number branch : String) (quantity price : Int) :
    LeavesOrders (cancelOrder id number branch quantity price) :=
  Raising.Only.bind
    (Raising.Only.ask (S := trading) (o := .cancelOrder id number branch quantity price) trivial)
    leavesOrders_reraise

theorem leavesOrders_sendCancel (o : BrokerOrder) (record : OrderRecord) :
    LeavesOrders (sendCancel o record) :=
  .bind (leavesOrders_reraise _) fun _ => leavesOrders_cancelOrder ..

theorem leavesOrders_blockNotice (now : DateTime) (reason : String) (id fillId : Option String) :
    LeavesOrders (blockNotice now reason id fillId) :=
  .bind (leavesOrders_setFlag ..) fun _ => .bind (leavesOrders_setFlag ..) fun _ =>
    .bind (leavesOrders_setFlag ..) fun _ => .pure _

theorem leavesOrders_flagReview (now : DateTime) : LeavesOrders (flagReview now) :=
  .bind (leavesOrders_setFlag ..) fun _ => leavesOrders_setFlag ..

theorem leavesOrders_blockNewEntries (now : DateTime) (reason : String) :
    LeavesOrders (blockNewEntries now reason) :=
  .bind (leavesOrders_execute rfl) fun _ => .bind (leavesOrders_execute rfl) fun _ =>
    leavesOrders_execute rfl

theorem leavesOrders_materializeLocalFills (now : DateTime) (o : BrokerOrder) :
    LeavesOrders (materializeLocalFills now o) := by
  unfold materializeLocalFills
  split
  · refine .bind (leavesOrders_select _) fun decision => ?_
    cases decision with
    | none => exact .throw _
    | some decision => exact leavesOrders_execute rfl
  · exact leavesOrders_execute rfl

theorem leavesOrders_riskFor (side : Side) (o : BrokerOrder) : LeavesOrders (riskFor side o) := by
  unfold riskFor entryRisk
  split
  · split
    · exact leavesOrders_select _
    · exact .pure _
  · exact .pure _

theorem leavesOrders_materializeIfNeeded (now : DateTime) (o : BrokerOrder) (side : Side)
    (fillId : String) : LeavesOrders (materializeIfNeeded now o side fillId) := by
  unfold materializeIfNeeded
  refine .bind (leavesOrders_select _) fun applied => ?_
  split
  · exact .pure _
  · refine .bind (leavesOrders_riskFor side o) fun risk => ?_
    split
    · exact .pure _
    · refine .bind (.attempt (leavesOrders_execute rfl)) fun r => ?_
      cases r with
      | ok n => exact .pure _
      | error e => exact .pure _

theorem leavesOrders_finishPass (now : DateTime) (acc : PassState) :
    LeavesOrders (finishPass now acc) :=
  .bind (leavesOrders_setFlag ..) fun _ => .bind (leavesOrders_setFlag ..) fun _ => .pure _

theorem leavesOrders_compareHoldings (now : DateTime) (acc : PassState)
    (account : Except ReadError (List AccountPosition)) :
    LeavesOrders (compareHoldings now acc account) := by
  cases account with
  | error e => exact leavesOrders_finishPass now _
  | ok account => exact .bind (leavesOrders_select _) fun _ => leavesOrders_finishPass now _

end AutoTrader
