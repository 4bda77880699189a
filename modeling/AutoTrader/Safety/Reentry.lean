/-
  AutoTrader/Safety/Reentry.lean
  ==============================
  **No new entry on the bar of a cancelled one.**

  `manage_stale_orders` remembers under which bar it cancelled an order, and when the
  broker reports the order terminal it writes that bar under the symbol, where
  `can_re_evaluate_entry` looks it up.  It selects active rows only; the
  reconciliation, which runs before it on the same snapshot, has by then copied the
  report into the row, and the bar is never written.

  What remains are the reports that the reconciliation does not copy.  On them the bar is
  written, and it stays until an order of the symbol cancelled on another bar is
  confirmed.
-/
import AutoTrader.Safety.CancelOnce
import AutoTrader.Safety.TerminalOrders

namespace AutoTrader

open Relational Transactional Interleave

/-! ### Reports that a reconciliation does not copy -/

/-- The reconciliation does not copy the record into the row: a check refuses it, the
    booking of its fill fails, or it ends the pass. -/
def reconcileRefuses (o : BrokerOrder) (record : OrderRecord) : Bool :=
  !sameOrder o record || record.filledQuantity < o.filledQty ||
    (record.orderedQuantity ≠ 0 && record.orderedQuantity ≠ o.requestedQty) ||
    stuck o record || priceRefused record || (o.requestedQty : Int) < record.filledQuantity

section Reconcile

variable (broker : BrokerReplies) (now : DateTime)

/-- A settling that raises wrote nothing. -/
theorem settleOrder_raising {o : BrokerOrder} {record : OrderRecord} (acc : PassState) {k : String}
    {row : Option BrokerOrder} {db : Database} (hrow : db.brokerOrders.find? k = row) :
    Raising.Ends (dbHandler broker) (settleOrder now o record acc) (fun _ _ => True)
      (fun _ db' => db'.brokerOrders.find? k = row) db := by
  unfold settleOrder
  split
  · trivial
  · rename_i status _
    apply Raising.Ends.bind
    refine ends_execute_exec broker db ?_ ?_
    · intro updated _
      apply Raising.Ends.bind
      apply Raising.Ends.attempt
      exact Raising.Ends.mono Raising.Ends.trivial (fun _ _ _ => trivial) fun _ _ _ => trivial
    · intro e he
      rw [Op.exec_of_raises ⟨e, he⟩]
      exact hrow

/-- A fill that went through its validation comes from a record with an accepted price. -/
theorem not_priceRefused_of_checkFill {o : BrokerOrder} {record : OrderRecord} {price : PyFloat}
    {c : CheckedFill} (hpriced : ∀ p, o.avgFillPrice = some p → 0 < p)
    (hgrown : (o.filledQty : Int) < record.filledQuantity)
    (hprice : incrementalFillPrice o record (record.filledQuantity - o.filledQty) = .ok price)
    (hc : checkFill (reconcileFillArgs now o record (record.filledQuantity - o.filledQty) price) = .ok c) :
    priceRefused record = false :=
  not_priceRefused_of_fill hpriced (by omega) (by omega) hprice (checkFill_price hc)

/-- A booking that raises leaves the row as it was. -/
theorem bookDifference_raising {o : BrokerOrder} {record : OrderRecord}
    (hid : Text.blank o.clientOrderId = false) (hpriced : ∀ p, o.avgFillPrice = some p → 0 < p)
    (hnumber : Text.blank record.orderNumber = false)
    (hgrown : (o.filledQty : Int) ≤ record.filledQuantity) (acc : PassState) {db : Database}
    (ho : db.brokerOrders.find? o.clientOrderId = some o) :
    Raising.Ends (dbHandler broker) (bookDifference now o record acc) (fun _ _ => True)
      (fun _ db' => db'.brokerOrders.find? o.clientOrderId = some o) db := by
  unfold bookDifference
  dsimp only
  split
  · exact settleOrder_raising broker now acc ho
  · rename_i hdelta
    apply Raising.Ends.bind
    refine .of_eval (eval_reraise broker db _) ?_
    cases hprice : incrementalFillPrice o record (record.filledQuantity - o.filledQty) with
    | error e => exact ho
    | ok price =>
      apply Raising.Ends.bind
      apply Raising.Ends.attempt
      refine ends_execute_exec broker db ?_ fun e _ => trivial
      intro inserted hinserted
      obtain ⟨c, hc⟩ := checkFill_of_applyBrokerFill now hinserted
      have haccepted := not_priceRefused_of_checkFill now hpriced (by omega) hprice hc
      -- the settling that follows does not raise
      refine Raising.Ends.mono (settleOrder_raises broker now hid hnumber (by omega) _ _)
        (fun _ _ _ => trivial) ?_
      intro e db' hrefused
      rw [haccepted, Bool.and_false] at hrefused
      cases hrefused

theorem reconcileOrder_raising {o : BrokerOrder} {orders : List OrderRecord}
    (hid : Text.blank o.clientOrderId = false) (hpriced : ∀ p, o.avgFillPrice = some p → 0 < p)
    (hparsed : ∀ r ∈ orders, Parsed r) (acc : PassState) {db : Database}
    (ho : db.brokerOrders.find? o.clientOrderId = some o) :
    Raising.Ends (dbHandler broker) (reconcileOrder now orders acc o) (fun _ _ => True)
      (fun _ db' => db'.brokerOrders.find? o.clientOrderId = some o) db := by
  unfold reconcileOrder
  dsimp only
  split
  · trivial
  split
  · trivial
  · rename_i record hrecord
    split
    · trivial
    split
    · trivial
    rename_i hgrown
    split
    · trivial
    · exact bookDifference_raising broker now hid hpriced
        (hparsed record (byBrokerId_some hrecord).1).wellFormed.1 (not_lt.mp hgrown) _ ho

/-- A settling skips a row whose requested quantity the record exceeds, and raises on a
    refused price. -/
theorem settleOrder_refused {o : BrokerOrder} {record : OrderRecord} (acc : PassState)
    (hnumber : Text.blank record.orderNumber = false) (hfilled : 0 ≤ record.filledQuantity)
    (hrefused : priceRefused record = true ∨ (o.requestedQty : Int) < record.filledQuantity)
    {db : Database} (ho : db.brokerOrders.find? o.clientOrderId = some o) :
    Raising.Ends (dbHandler broker) (settleOrder now o record acc)
      (fun _ db' => db'.brokerOrders.find? o.clientOrderId = some o) (fun _ _ => True) db := by
  unfold settleOrder
  split
  · exact ho
  · rename_i status _
    apply Raising.Ends.bind
    refine ends_execute_exec broker db ?_ fun _ _ => trivial
    intro updated hupdated
    have hrow : ((Op.updateBrokerOrderStatus now o.clientOrderId (recordUpdate now (keptPending o.status status)
        record (if (keptPending o.status status).terminal then some now else none))).exec
          db).brokerOrders.find? o.clientOrderId = some o := by
      rcases updateBrokerOrderStatus_cases now o.clientOrderId (recordUpdate now (keptPending o.status status)
          record (if (keptPending o.status status).terminal then some now else none)) db with
        ⟨e, hr⟩ | ⟨c, -, -, hr⟩ | ⟨row, c, hc, hfind, hwithin, hr⟩
      · simp only [Op.exec, Op.call, Op.run, hr, ho]
      · simp only [Op.exec, Op.call, Op.run, hr, ho]
      · rw [ho, Option.some.injEq] at hfind
        subst hfind
        rcases hrefused with hprice | hmore
        · obtain ⟨e, he⟩ := (checkUpdate_recordUpdate now hnumber hfilled _ _).mpr hprice
          rw [he] at hc
          cases hc
        · simp only [withinRequested, (checkUpdate_ok hc).1, recordUpdate, Option.map_some,
            decide_eq_true_eq] at hwithin
          omega
    apply Raising.Ends.bind
    apply Raising.Ends.attempt
    refine Raising.Ends.mono
      (ends_leavesOrders broker (leavesOrders_materializeLocalFills now o) hrow) ?_ ?_
    · exact fun _ _ h => h
    · exact fun _ _ h => h

theorem bookDifference_refused {o : BrokerOrder} {record : OrderRecord}
    (hpriced : ∀ p, o.avgFillPrice = some p → 0 < p) (hparsed : Parsed record)
    (hgrown : (o.filledQty : Int) ≤ record.filledQuantity) (acc : PassState)
    (hrefused : (stuck o record || priceRefused record ||
      (o.requestedQty : Int) < record.filledQuantity) = true)
    {db : Database} (ho : db.brokerOrders.find? o.clientOrderId = some o) :
    Raising.Ends (dbHandler broker) (bookDifference now o record acc)
      (fun _ db' => db'.brokerOrders.find? o.clientOrderId = some o) (fun _ _ => True) db := by
  obtain ⟨hnumber, hfilled, -⟩ := hparsed.wellFormed
  rw [Bool.or_eq_true, Bool.or_eq_true, decide_eq_true_eq] at hrefused
  unfold bookDifference
  dsimp only
  split
  · rename_i hdelta
    refine settleOrder_refused broker now acc hnumber hfilled ?_ ho
    rcases hrefused with (hstuck | hprice) | hmore
    · rw [stuck, if_pos (by omega), Bool.and_eq_true] at hstuck
      exact .inl hstuck.2
    · exact .inl hprice
    · exact .inr hmore
  · rename_i hdelta
    apply Raising.Ends.bind
    refine .of_eval (eval_reraise broker db _) ?_
    cases hprice : incrementalFillPrice o record (record.filledQuantity - o.filledQty) with
    | error e => trivial
    | ok price =>
      -- the price is there, so it is the validation or the quantity that refuses
      have hrest : priceRefused record = true ∨ (o.requestedQty : Int) < record.filledQuantity := by
        rcases hrefused with (hstuck | hrefused) | hmore
        · rw [stuck, if_neg (by omega)] at hstuck
          obtain ⟨e, he⟩ := (@incrementalFillPrice_raises o record
            (record.filledQuantity - o.filledQty) (by omega)).mpr hstuck
          rw [hprice] at he
          cases he
        · exact .inl hrefused
        · exact .inr hmore
      apply Raising.Ends.bind
      apply Raising.Ends.attempt
      apply ends_execute
      rcases applyBrokerFill_cases now
          (reconcileFillArgs now o record (record.filledQuantity - o.filledQty) price) db with
        ⟨e, hr⟩ | ⟨-, hr⟩ | ⟨c, order, hc, horder, -, hfit, hr⟩
      · simp only [Op.call, Op.run, hr]
        exact ho
      · simp only [Op.call, Op.run, hr]
        exact settleOrder_refused broker now _ hnumber hfilled hrest ho
      · have horder' : some o = some order := ho.symm.trans horder
        cases horder'
        have hquantity : (c.quantity.val : Int) = record.filledQuantity - o.filledQty :=
          checkFill_quantity rfl hc
        have haccepted := not_priceRefused_of_checkFill now hpriced (by omega) hprice hc
        rcases hrest with hrest | hrest
        · rw [haccepted] at hrest
          cases hrest
        · omega

/-- What the reconciliation refuses stays as it is. -/
theorem reconcileOrder_refused {o : BrokerOrder} {orders : List OrderRecord} {record : OrderRecord}
    (hid : Text.blank o.clientOrderId = false) (hpriced : ∀ p, o.avgFillPrice = some p → 0 < p)
    (hparsed : ∀ r ∈ orders, Parsed r) (hrecord : byBrokerId orders o.brokerIdText = some record)
    (hrefused : reconcileRefuses o record = true) (acc : PassState) {db : Database}
    (ho : db.brokerOrders.find? o.clientOrderId = some o) :
    Raising.Ends (dbHandler broker) (reconcileOrder now orders acc o)
      (fun _ db' => db'.brokerOrders.find? o.clientOrderId = some o)
      (fun _ db' => db'.brokerOrders.find? o.clientOrderId = some o) db := by
  have hleft : Raising.Ends (dbHandler broker) (reconcileOrder now orders acc o)
      (fun _ db' => db'.brokerOrders.find? o.clientOrderId = some o) (fun _ _ => True) db := by
    unfold reconcileOrder
    dsimp only
    rw [hrecord]
    split
    · exact ho
    dsimp only
    split
    · exact ho
    rename_i hsame
    split
    · exact ho
    rename_i hgrown
    split
    · exact ho
    rename_i hquantity
    refine bookDifference_refused broker now hpriced (hparsed record (byBrokerId_some hrecord).1)
      (not_lt.mp hgrown) _ ?_ ho
    rw [Bool.not_eq_false] at hsame
    have hstated : (decide (record.orderedQuantity ≠ 0) &&
        decide (record.orderedQuantity ≠ o.requestedQty)) = false := by
      rw [Bool.eq_false_iff]
      intro hboth
      rw [Bool.and_eq_true, decide_eq_true_eq, decide_eq_true_eq] at hboth
      exact hquantity hboth
    simpa only [reconcileRefuses, hsame, decide_eq_false hgrown, hstated, Bool.not_true, Bool.false_or]
      using hrefused
  refine Raising.Ends.mono (hleft.and (reconcileOrder_raising broker now hid hpriced hparsed acc ho)) ?_ ?_
  · exact fun _ _ h => h.1
  · exact fun _ _ h => h.2

/-! ### Reports that it copies -/

theorem Parsed.symbol {record : OrderRecord} (h : Parsed record) : validateSymbol record.symbol = .ok () := by
  obtain ⟨row, hrow⟩ := h
  unfold parseOrderStatus at hrow
  split at hrow
  · rename_i number symbol _ hsymbol
    split at hrow
    · rename_i hcode
      obtain ⟨parsed, hparsed, hrecord⟩ : ∃ parsed, parseRecord row number symbol = .ok parsed ∧
          parsed = record := by
        cases hparsed : parseRecord row number symbol with
        | error e => rw [hparsed] at hrow; cases hrow
        | ok parsed => rw [hparsed] at hrow; cases hrow; exact ⟨record, rfl, rfl⟩
      have hsame : record.symbol = symbol := by
        rw [← hrecord]
        unfold parseRecord at hparsed
        obtain ⟨_, -, hparsed⟩ := Except.bind_eq_ok hparsed
        obtain ⟨_, -, hparsed⟩ := Except.bind_eq_ok hparsed
        obtain ⟨_, -, hparsed⟩ := Except.bind_eq_ok hparsed
        obtain ⟨_, -, hparsed⟩ := Except.bind_eq_ok hparsed
        cases hparsed
        rfl
      rw [hsame]
      simp [validateSymbol, text_some hsymbol, hcode.1, hcode.2]
    · cases hrow
  · cases hrow

/-- The price of a new fill is positive when the record's price is accepted. -/
theorem incrementalFillPrice_positive {o : BrokerOrder} {record : OrderRecord} {delta : Int}
    {price : PyFloat} (hdelta : 0 < delta) (haccepted : priceRefused record = false)
    (hprice : incrementalFillPrice o record delta = .ok price) :
    ∃ q, (Number.float price).positive? = some q := by
  unfold incrementalFillPrice at hprice
  rw [if_neg (by omega)] at hprice
  unfold priceRefused at haccepted
  cases haverage : record.averageFillPrice with
  | none =>
    rw [haverage] at hprice
    cases hprice
    exact ⟨o.requestedPrice, by simp [Number.positive?, o.requestedPrice.pos]⟩
  | some average =>
    rw [haverage] at hprice haccepted
    obtain ⟨q, hq⟩ : ∃ q, (Number.float average).positive? = some q := by
      rw [Option.isNone_eq_false_iff] at haccepted
      exact Option.isSome_iff_exists.mp haccepted
    cases hprevious : o.avgFillPrice with
    | none =>
      rw [hprevious] at hprice
      cases hprice
      exact ⟨q, hq⟩
    | some previous =>
      rw [hprevious] at hprice
      by_cases hzero : o.filledQty = 0
      · simp only [hzero, if_true] at hprice
        cases hprice
        exact ⟨q, hq⟩
      · simp only [hzero, if_false] at hprice
        split at hprice
        · cases hprice
        · rename_i hgrows
          cases hprice
          have haverage' : average = .fin q.val := Number.value_of_positive? hq
          subst haverage'
          simp only [PyFloat.scale, PyFloat.sub, PyFloat.div, PyFloat.nonpos, decide_eq_true_eq, not_le] at hgrows
          exact ⟨⟨_, hgrows⟩, by simp [PyFloat.scale, PyFloat.sub, PyFloat.div, Number.positive?, hgrows]⟩

/-- The fill of a pass passes its validation. -/
theorem checkFill_reconcile {o : BrokerOrder} {record : OrderRecord} {delta : Int} {price : PyFloat}
    {q : PosRat} (hid : Text.blank o.clientOrderId = false) (hparsed : Parsed record)
    (hside : record.side = some o.side) (hdelta : 0 < delta)
    (hq : (Number.float price).positive? = some q) :
    ∃ hpos, checkFill (reconcileFillArgs now o record delta price) =
      .ok ⟨⟨delta.toNat, hpos⟩, q, some o.side⟩ := by
  refine ⟨Int.pos_iff_toNat_pos.mp hdelta, ?_⟩
  have hfill : Text.blank (reconcileFillId o.clientOrderId record.filledQuantity) = false := by
    unfold reconcileFillId
    rw [Text.blank_append, Text.blank_append, Text.blank_append,
      show Text.blank "reconcile:" = false by decide, Bool.false_and, Bool.false_and, Bool.false_and]
  have hquantity : validateQuantity (.int delta) "quantity" =
      .ok ⟨delta.toNat, Int.pos_iff_toNat_pos.mp hdelta⟩ := by
    have hpositive : (0 : ℚ) < delta := by exact_mod_cast hdelta
    simp only [validateQuantity, validatePositiveNumber, Number.positive?, dif_pos hpositive, dif_pos hdelta]
    rfl
  have hprice : validatePositiveNumber (.float price) "price" = .ok q := by
    simp only [validatePositiveNumber, hq]
  have hside' : validateSideIfGiven (record.side.map Side.name) = .ok (some o.side) := by
    rw [hside]
    cases o.side with
    | buy => rfl
    | sell => rfl
  simp only [checkFill, reconcileFillArgs, requireNonempty_of hfill, requireNonempty_of hid, hquantity,
    hprice, requireNonemptyIfGiven, requireNonempty_of hparsed.wellFormed.1, validateSymbolIfGiven,
    hparsed.symbol, hside']
  rfl

/-- A valid fill that matches its order and fits it does not raise. -/
theorem applyBrokerFill_fits {a : FillArgs} {c : CheckedFill} {order : BrokerOrder} {db : Database}
    (hc : checkFill a = .ok c) (horder : db.brokerOrders.find? a.clientOrderId = some order)
    (hsymbol : a.symbol.all (· = order.symbol) = true) (hside : c.side.all (· = order.side) = true)
    (hbroker : (a.brokerOrderId.all fun given => order.brokerOrderId.all (given = ·)) = true)
    (hfit : order.filledQty + c.quantity.val ≤ order.requestedQty) :
    ∃ inserted, ((applyBrokerFill now a).run db).1 = .ok inserted := by
  unfold applyBrokerFill
  simp only [hc, Exec.run_ofExcept_ok_bind, Exec.run_atomically, Exec.run_query_bind, horder,
    Exec.run_require_bind, hsymbol, hside, hbroker, if_true]
  rcases db.brokerFills.insertOrIgnore_cases (fillRow now a c order) with ⟨-, hins⟩ | ⟨-, hflag, -⟩
  · simp only [onFills, Exec.run_statement_bind, hins]
    exact ⟨false, rfl⟩
  · have hupd := Table.updateWhere_of_find? horder
      (fun o => o.filledQty + (fillRow now a c order).quantity ≤ o.requestedQty)
      (decide_eq_true hfit) (rollFill (fillRow now a c order)) (rollFill_clientOrderId _)
    simp only [onFills, Exec.run_statement_bind, hflag, if_true, onOrders, hupd]
    exact ⟨true, rfl⟩

/-- Settling a terminal record leaves a terminal row. -/
theorem settleOrder_terminal {o cur : BrokerOrder} {record : OrderRecord} (acc : PassState)
    (hfilled : 0 ≤ record.filledQuantity) (hterminal : terminalStatusForBroker record.status ≠ none)
    {db : Database} (hcur : db.brokerOrders.find? o.clientOrderId = some cur)
    (hfit : record.filledQuantity ≤ cur.requestedQty) :
    Raising.Ends (dbHandler broker) (settleOrder now o record acc)
      (fun _ db' => ∃ o', db'.brokerOrders.find? o.clientOrderId = some o' ∧ o'.status.terminal = true)
      (fun _ _ => True) db := by
  unfold settleOrder
  split
  · rename_i hstatus
    refine absurd ?_ hterminal
    cases hs : record.status <;> rw [hs] at hstatus <;> first | rfl | cases hstatus
  · rename_i status hstatus
    have hended : (keptPending o.status status).terminal = true :=
      keptPending_terminal (localStatus_terminal hstatus hterminal)
    apply Raising.Ends.bind
    refine ends_execute_exec broker db ?_ fun _ _ => trivial
    intro updated hupdated
    have hrow : ∃ o', ((Op.updateBrokerOrderStatus now o.clientOrderId
        (recordUpdate now (keptPending o.status status) record
          (if (keptPending o.status status).terminal then some now else none))).exec db).brokerOrders.find?
            o.clientOrderId = some o' ∧ o'.status.terminal = true := by
      rcases updateBrokerOrderStatus_cases now o.clientOrderId (recordUpdate now (keptPending o.status status)
          record (if (keptPending o.status status).terminal then some now else none)) db with
        ⟨e, hr⟩ | ⟨c, hc, hno, hr⟩ | ⟨row, c, hc, hfind, -, hr⟩
      · simp only [Op.call, Op.run, hr] at hupdated
        cases hupdated
      · have hskip := hno cur hcur
        simp only [withinRequested, (checkUpdate_ok hc).1, recordUpdate, Option.map_some,
          decide_eq_false_iff_not, not_le] at hskip
        omega
      · simp only [Op.exec, Op.call, Op.run, hr, Table.find?_update_self, hcur, Option.map_some]
        exact ⟨_, rfl, hended⟩
    obtain ⟨o', ho', hended'⟩ := hrow
    apply Raising.Ends.bind
    apply Raising.Ends.attempt
    refine Raising.Ends.mono
      (ends_leavesOrders broker (leavesOrders_materializeLocalFills now o) ho') ?_ ?_
    · exact fun _ _ h => ⟨o', h, hended'⟩
    · exact fun _ _ h => ⟨o', h, hended'⟩

theorem bookDifference_terminal {o : BrokerOrder} {record : OrderRecord}
    (hid : Text.blank o.clientOrderId = false) (hparsed : Parsed record)
    (hnumbered : o.brokerOrderId = some record.orderNumber) (hsame : sameOrder o record = true)
    (hgrown : (o.filledQty : Int) ≤ record.filledQuantity)
    (haccepted : priceRefused record = false) (hfit : record.filledQuantity ≤ o.requestedQty)
    (hterminal : terminalStatusForBroker record.status ≠ none) (acc : PassState) {db : Database}
    (ho : db.brokerOrders.find? o.clientOrderId = some o) :
    Raising.Ends (dbHandler broker) (bookDifference now o record acc)
      (fun _ db' => ∃ o', db'.brokerOrders.find? o.clientOrderId = some o' ∧ o'.status.terminal = true)
      (fun _ _ => True) db := by
  obtain ⟨-, hfilled, -⟩ := hparsed.wellFormed
  obtain ⟨hsymbol, hside⟩ : o.symbol = record.symbol ∧ record.side = some o.side := by
    simpa only [sameOrder, decide_eq_true_eq] using hsame
  unfold bookDifference
  dsimp only
  split
  · exact settleOrder_terminal broker now acc hfilled hterminal ho hfit
  · rename_i hdelta
    have hpositive : 0 < record.filledQuantity - o.filledQty := by omega
    apply Raising.Ends.bind
    refine .of_eval (eval_reraise broker db _) ?_
    cases hprice : incrementalFillPrice o record (record.filledQuantity - o.filledQty) with
    | error e => trivial
    | ok price =>
      obtain ⟨q, hq⟩ := incrementalFillPrice_positive hpositive haccepted hprice
      obtain ⟨hunits, hc⟩ := checkFill_reconcile now hid hparsed hside hpositive hq
      apply Raising.Ends.bind
      apply Raising.Ends.attempt
      apply ends_execute
      obtain ⟨inserted, hinserted⟩ := applyBrokerFill_fits now hc ho
        (by simp [reconcileFillArgs, hsymbol]) (by simp) (by simp [reconcileFillArgs, hnumbered])
        (by dsimp only; omega)
      rcases applyBrokerFill_cases now
          (reconcileFillArgs now o record (record.filledQuantity - o.filledQty) price) db with
        ⟨e, hr⟩ | ⟨-, hr⟩ | ⟨c, order, hc', horder, -, -, hr⟩
      · rw [hr] at hinserted
        cases hinserted
      · simp only [Op.call, Op.run, hr]
        exact settleOrder_terminal broker now _ hfilled hterminal ho hfit
      · have horder' : some o = some order := ho.symm.trans horder
        cases horder'
        have hcur := Table.find?_update_self db.brokerOrders o.clientOrderId
          (rollFill (fillRow now (reconcileFillArgs now o record (record.filledQuantity - o.filledQty) price) c o))
          (rollFill_clientOrderId _)
        rw [ho, Option.map_some] at hcur
        simp only [Op.call, Op.run, hr]
        exact settleOrder_terminal broker now _ hfilled hterminal hcur hfit

/-- A report that the reconciliation does not refuse leaves a terminal row. -/
theorem reconcileOrder_terminal {o : BrokerOrder} {orders : List OrderRecord} {record : OrderRecord}
    (hid : Text.blank o.clientOrderId = false) (hparsed : ∀ r ∈ orders, Parsed r)
    (hrecord : byBrokerId orders o.brokerIdText = some record)
    (hterminal : terminalStatusForBroker record.status ≠ none)
    (htaken : reconcileRefuses o record = false) (acc : PassState) {db : Database}
    (ho : db.brokerOrders.find? o.clientOrderId = some o) :
    Raising.Ends (dbHandler broker) (reconcileOrder now orders acc o)
      (fun _ db' => ∃ o', db'.brokerOrders.find? o.clientOrderId = some o' ∧ o'.status.terminal = true)
      (fun _ _ => True) db := by
  obtain ⟨hmem, hnumber⟩ := byBrokerId_some hrecord
  have hnamed : o.brokerIdText ≠ "" := by
    intro hempty
    have hblank := (hparsed record hmem).wellFormed.1
    rw [hnumber, hempty] at hblank
    exact absurd hblank (by decide)
  simp only [reconcileRefuses, Bool.or_eq_false_iff, Bool.not_eq_false', decide_eq_false_iff_not, not_lt] at htaken
  obtain ⟨⟨⟨⟨⟨hsame, hgrown⟩, hquantity⟩, -⟩, haccepted⟩, hfit⟩ := htaken
  unfold reconcileOrder
  dsimp only
  rw [if_neg hnamed, hrecord]
  dsimp only
  rw [if_neg (by rw [hsame]; exact Bool.noConfusion), if_neg (not_lt.mpr hgrown), if_neg]
  · exact bookDifference_terminal broker now hid (hparsed record hmem)
      (by rw [brokerOrderId_of_brokerIdText hnamed, hnumber]) hsame hgrown haccepted hfit hterminal _ ho
  · rintro ⟨hstated, hother⟩
    simp [hstated, hother] at hquantity

end Reconcile

/-! ### Passes -/

/-- A pass of the supervisor without the operator's stage: what it is called with, what it
    reads, and what the broker makes of its cancellations. -/
structure ManagementPass where
  now : DateTime
  calendar : Calendar
  config : OrderManagementConfig
  entryBarKey : Option String
  snapshot : Snapshot
  answer : List String → Except Exn Unit

/-- Both stages on one snapshot. -/
def ManagementPass.program (p : ManagementPass) : Pipeline OrderManagementReport := do
  let _ ← reconcileBrokerState p.now p.snapshot.orders p.snapshot.account
  manageStaleOrders p.now p.calendar p.config p.entryBarKey p.snapshot.orders

def ManagementPass.exec (p : ManagementPass) (d : Desk) : Desk :=
  (Raising.eval (deskHandler p.answer) p.program d).2

def runPasses (passes : List ManagementPass) (d : Desk) : Desk := passes.foldl (fun d p => p.exec d) d

/-- The records come from the parser. -/
def ManagementPass.ReadsParsed (p : ManagementPass) : Prop :=
  ∀ orders, p.snapshot.orders = .ok orders → ∀ r ∈ orders, Parsed r

/-- The pass sends a cancellation for the order. -/
def ManagementPass.Cancels (p : ManagementPass) (d : Desk) (id : String) : Prop :=
  d.cancels.count id < (p.exec d).cancels.count id

/-- The broker reports the order with this number CANCELLED, REJECTED or FILLED. -/
def ManagementPass.Reports (p : ManagementPass) (number : String) : Prop :=
  ∃ orders, p.snapshot.orders = .ok orders ∧ ∃ record, byBrokerId orders number = some record ∧
    terminalStatusForBroker record.status ≠ none

/-- An entry of the symbol may be considered on the bar. -/
def Desk.AllowsEntry (d : Desk) (symbol barKey : String) : Prop :=
  ∃ state, canReEvaluateEntry d.db symbol barKey = .ok state ∧ state.allowed = true

/-- No entry on the bar of a cancelled one: whenever a pass cancelled an order, no entry of its
    symbol is allowed until the broker reports the order, and none on the bar of that
    pass from then on. -/
def NoReentry (passes : List ManagementPass) (d₀ : Desk) : Prop :=
  ∀ earlier request seen, earlier ++ request :: seen <+: passes →
    ∀ o barKey, (runPasses earlier d₀).order o.clientOrderId = some o →
      request.Cancels (runPasses earlier d₀) o.clientOrderId → request.entryBarKey = some barKey →
      ((∀ p ∈ seen, ¬p.Reports o.brokerIdText) →
        ∀ key, ¬(runPasses (earlier ++ request :: seen) d₀).AllowsEntry o.symbol key) ∧
      ((∃ p ∈ seen, p.Reports o.brokerIdText) →
        ¬(runPasses (earlier ++ request :: seen) d₀).AllowsEntry o.symbol barKey)

/-! ### Which reports are confirmed -/

/-- The bar under which the last cancellation of the symbol was confirmed. -/
def Desk.confirmedBar (d : Desk) (symbol : String) : Option String :=
  match d.db.getRuntimeMetadata (confirmedKey symbol) with
  | some (.object members) => (members.lookup "bar_key").join
  | _ => none

/-- The marker and the report of an order whose cancellation waits for it. -/
def reportOf (orders : List OrderRecord) (d : Desk) (o : BrokerOrder) : Option (PendingMarker × OrderRecord) :=
  if o.status.terminal then none
  else
    match d.marker o.clientOrderId, byBrokerId orders o.brokerIdText with
    | some marker, some record =>
      if marker.isInvalid = false ∧ terminalStatusForBroker record.status ≠ none then some (marker, record)
      else none
    | _, _ => none

/-- The reports that reach `manage_stale_orders`: each is of an order that was cancelled on one
    bar, as is every other report of its symbol and the last confirmed one. -/
structure ReportsMet (orders : List OrderRecord) (d : Desk) : Prop where
  /-- The reconciliation refuses the report of an order cancelled on a bar. -/
  refused : ∀ o ∈ d.db.brokerOrders.rows, ∀ x ∈ reportOf orders d o,
    (x.1.get "bar_key").isSome = true → reconcileRefuses o x.2 = true
  alike : ∀ o ∈ d.db.brokerOrders.rows, ∀ x ∈ reportOf orders d o, reconcileRefuses o x.2 = true →
    ∀ o' ∈ d.db.brokerOrders.rows, ∀ x' ∈ reportOf orders d o', reconcileRefuses o' x'.2 = true →
      o'.symbol = o.symbol → x'.1.get "bar_key" = x.1.get "bar_key"
  confirmed : ∀ o ∈ d.db.brokerOrders.rows, ∀ x ∈ reportOf orders d o, reconcileRefuses o x.2 = true →
    ∀ barKey ∈ d.confirmedBar o.symbol, x.1.get "bar_key" = some barKey

/-- The broker accepts the cancellations of the pass, and the reports it brings are met. -/
structure PassMet (p : ManagementPass) (d : Desk) : Prop where
  accepted : ∀ log, p.answer log = .ok ()
  reports : ∀ orders, p.snapshot.orders = .ok orders → ReportsMet orders d

def RunMet : List ManagementPass → Desk → Prop
  | [], _ => True
  | p :: passes, d => PassMet p d ∧ RunMet passes (p.exec d)

/-! ### What is remembered of a cancelled order -/

/-- The cancellation of the order waits for its report. -/
structure Waiting (id symbol number barKey : String) (d : Desk) : Prop where
  row : ∃ o, d.order id = some o ∧ o.status.terminal = false ∧ o.symbol = symbol ∧ o.brokerIdText = number
  marker : ∃ marker, d.marker id = some marker ∧ marker.isInvalid = false ∧
    marker.get "bar_key" = some barKey

/-- No entry of the symbol while a cancellation waits. -/
theorem Waiting.not_allowed {id symbol number barKey : String} {d : Desk}
    (h : Waiting id symbol number barKey d) (key : String) : ¬d.AllowsEntry symbol key := by
  obtain ⟨o, ho, hactive, hsymbol, -⟩ := h.row
  have hrow : o ∈ unresolvedOrders d.db symbol := by
    refine List.mem_filter.mpr ⟨d.db.brokerOrders.mem_of_find? ho, ?_⟩
    rw [decide_eq_true_eq]
    refine ⟨hsymbol, ?_⟩
    cases hs : o.status <;> rw [hs] at hactive <;> first | decide | cases hactive
  have hsome : (unresolvedOrders d.db symbol).isEmpty = false := by
    rw [List.isEmpty_eq_false_iff]
    exact List.ne_nil_of_mem hrow
  rintro ⟨state, hstate, hallowed⟩
  unfold canReEvaluateEntry at hstate
  rw [if_pos hsome] at hstate
  cases hstate
  cases hallowed

/-- No entry on the bar that was confirmed last. -/
theorem not_allowed_of_confirmedBar {symbol barKey : String} {d : Desk}
    (h : d.confirmedBar symbol = some barKey) : ¬d.AllowsEntry symbol barKey := by
  rintro ⟨state, hstate, hallowed⟩
  unfold canReEvaluateEntry at hstate
  unfold Desk.confirmedBar at h
  split at hstate
  · cases hstate
    cases hallowed
  · split at hstate
    · rename_i hnone
      rw [hnone] at h
      cases h
    · rename_i htext
      rw [htext] at h
      cases h
    · rename_i members hmembers
      rw [hmembers] at h
      dsimp only at h hstate
      rw [if_pos h] at hstate
      cases hstate
      cases hallowed

theorem Waiting.spared {id symbol number barKey : String} {d d' : Desk} (hs : Spared id d d')
    (h : Waiting id symbol number barKey d) : Waiting id symbol number barKey d' where
  row := by rw [hs.row]; exact h.row
  marker := by unfold Desk.marker; rw [hs.marker]; exact h.marker

/-! ### The reconciliation -/

theorem ne_confirmedKey {key : String} (h : key.toList.take 26 ≠ "order_management.confirmed".toList)
    (symbol : String) : key ≠ confirmedKey symbol := by
  rintro rfl
  refine h ?_
  unfold confirmedKey
  rw [String.toList_append, List.take_append_of_le_length (by decide)]
  decide

theorem Act.leavesConfirmed_of_byReconcile (symbol : String) (o : Act) (h : o.byReconcile) :
    o.leavesKey (confirmedKey symbol) := by
  cases o with
  | call op =>
    cases op with
    | setRuntimeMetadata now key value at' =>
      have hkey : key ∈ reviewKeys := h
      simp only [reviewKeys, List.mem_cons, List.not_mem_nil, or_false] at hkey
      rcases hkey with rfl | rfl
      · exact ne_confirmedKey (by decide) symbol
      · exact ne_confirmedKey (by decide) symbol
    | _ => trivial
  | _ => trivial

/-- Without a report an active row stays active. -/
theorem RowAfter.active {now : DateTime} {orders : List OrderRecord} {o o' : BrokerOrder}
    (h : RowAfter now orders o o') (hactive : o.status.terminal = false)
    (hquiet : ∀ record, byBrokerId orders o.brokerIdText = some record →
      terminalStatusForBroker record.status = none) :
    o'.status.terminal = false ∧ o'.symbol = o.symbol ∧ o'.brokerIdText = o.brokerIdText := by
  cases h with
  | same => exact ⟨hactive, rfl, rfl⟩
  | copied record status hrecord hstatus _ hcopied htext _ hterms =>
    refine ⟨?_, hterms.symbol, htext⟩
    have hopen : status.terminal = false := by
      have hnone := hquiet record hrecord
      cases hs : record.status <;> rw [hs] at hnone hstatus <;> cases hstatus <;>
        first | rfl | cases hnone
    rw [hcopied]
    unfold keptPending
    split
    · rfl
    · exact hopen

section Stages

variable (answer : List String → Except Exn Unit) (now : DateTime)

/-- A waiting cancellation survives a reconciliation that refuses its report. -/
theorem reconcileBrokerState_waiting {id symbol number barKey : String} {d : Desk}
    (hdb : ProgramState d.db) {orders : List OrderRecord} (hparsed : ∀ r ∈ orders, Parsed r)
    (account : Except ReadError (List AccountPosition)) (h : Waiting id symbol number barKey d)
    (hrefused : ∀ o record, d.order id = some o → byBrokerId orders number = some record →
      terminalStatusForBroker record.status ≠ none → reconcileRefuses o record = true) :
    Raising.Ends (deskHandler answer) (reconcileBrokerState now (.ok orders) account)
      (fun _ => Waiting id symbol number barKey) (fun _ => Waiting id symbol number barKey) d := by
  let broker : BrokerReplies := ⟨fun _ _ => .ok none, fun _ _ _ _ => .ok ()⟩
  apply ends_desk_selectOrders
  apply Raising.Ends.bind
  have hloop := ends_rowLoop answer (k := id) (f := reconcileOrder now orders) (s := d)
    (A := Waiting id symbol number barKey) (E := Waiting id symbol number barKey)
    (reconciledRows_nodup d.db) (fun _ _ hs h => h.spared hs) (fun _ _ hs h => h.spared hs)
    (fun _ h => h) (fun x _ hne acc => spares_reconcileOrder now orders acc hne) ?_
    (fun _ => h) h PassState.empty
  · refine Raising.Ends.mono hloop ?_ fun _ _ h => h
    intro acc d₁ h₁
    have htail := fun acc' => Spares.ends answer (spares_compareHoldings id now acc' account) d₁
    exact Raising.Ends.mono (htail _) (fun _ _ hs => h₁.spared hs) fun _ _ hs => h₁.spared hs
  · intro x hx hxk acc d₁ hspared
    subst hxk
    have hmem := (mem_reconciledRows.mp hx).1
    have hfind : d.order x.clientOrderId = some x := d.db.brokerOrders.find?_of_mem hmem
    have hfind₁ : d₁.order x.clientOrderId = some x := by rw [hspared.row, hfind]
    obtain ⟨o, ho, hactive, hsymbol, hnumber⟩ := h.row
    rw [hfind, Option.some.injEq] at ho
    subst ho
    have hid := hdb.ledger.ledger.named x hmem
    -- its own turn leaves the row active, whether there is a report or not
    have hrow : Raising.Ends (dbHandler broker) (reconcileOrder now orders acc x)
        (fun _ db' => ∃ o', db'.brokerOrders.find? x.clientOrderId = some o' ∧
          o'.status.terminal = false ∧ o'.symbol = symbol ∧ o'.brokerIdText = number)
        (fun _ db' => ∃ o', db'.brokerOrders.find? x.clientOrderId = some o' ∧
          o'.status.terminal = false ∧ o'.symbol = symbol ∧ o'.brokerIdText = number) d₁.db := by
      by_cases hreport : ∃ record, byBrokerId orders x.brokerIdText = some record ∧
          terminalStatusForBroker record.status ≠ none
      · obtain ⟨record, hrecord, hterminal⟩ := hreport
        refine Raising.Ends.mono (reconcileOrder_refused broker now hid (hdb.priced x hmem) hparsed hrecord
          (hrefused x record hfind (hnumber ▸ hrecord) hterminal) acc hfind₁) ?_ ?_
        · exact fun _ _ hsame => ⟨x, hsame, hactive, hsymbol, hnumber⟩
        · exact fun _ _ hsame => ⟨x, hsame, hactive, hsymbol, hnumber⟩
      · have hquiet : ∀ record, byBrokerId orders x.brokerIdText = some record →
            terminalStatusForBroker record.status = none := by
          intro record hrecord
          by_contra hterminal
          exact hreport ⟨record, hrecord, hterminal⟩
        refine Raising.Ends.mono ((reconcileOrder_row broker now hparsed acc hfind₁).and
          (reconcileOrder_raising broker now hid (hdb.priced x hmem) hparsed acc hfind₁)) ?_ ?_
        · rintro _ db' ⟨⟨o', ho', hafter⟩, -⟩
          obtain ⟨hactive', hsymbol', hnumber'⟩ := hafter.active hactive hquiet
          exact ⟨o', ho', hactive', hsymbol'.trans hsymbol, hnumber'.trans hnumber⟩
        · exact fun _ _ hsame => ⟨x, hsame.2, hactive, hsymbol, hnumber⟩
    have hby := byReconcile_reconcileOrder now orders acc x
    have hdesk := ends_desk_of_local answer broker (hby.mono Act.isLocal_of_byReconcile) hrow
    have hmarker := ends_desk_leavesKey answer
      (hby.mono (Act.leavesMarkers_of_byReconcile x.clientOrderId)) (d := d₁) hspared.marker
    have hwaiting : ∀ d₂ : Desk, (∃ o', d₂.db.brokerOrders.find? x.clientOrderId = some o' ∧
        o'.status.terminal = false ∧ o'.symbol = symbol ∧ o'.brokerIdText = number) →
        d₂.db.getRuntimeMetadata (pendingKey x.clientOrderId) =
          d.db.getRuntimeMetadata (pendingKey x.clientOrderId) →
        Waiting x.clientOrderId symbol number barKey d₂ := by
      intro d₂ hrow₂ hkey
      refine ⟨hrow₂, ?_⟩
      unfold Desk.marker
      rw [hkey]
      exact h.marker
    refine Raising.Ends.mono (hdesk.and hmarker) ?_ ?_
    · exact fun _ d₂ h₂ => hwaiting d₂ h₂.1.1 h₂.2
    · exact fun _ d₂ h₂ => hwaiting d₂ h₂.1.1 h₂.2

/-- After a reconciliation that returns, a report it does not refuse is in a terminal row. -/
theorem reconcileBrokerState_terminal {d : Desk} (hdb : ProgramState d.db) {orders : List OrderRecord}
    (hparsed : ∀ r ∈ orders, Parsed r) (account : Except ReadError (List AccountPosition))
    {o : BrokerOrder} {record : OrderRecord} (ho : d.order o.clientOrderId = some o)
    (hactive : o.status.terminal = false) (hrecord : byBrokerId orders o.brokerIdText = some record)
    (hterminal : terminalStatusForBroker record.status ≠ none)
    (htaken : reconcileRefuses o record = false) :
    Raising.Ends (deskHandler answer) (reconcileBrokerState now (.ok orders) account)
      (fun _ d' => ∃ o', d'.order o.clientOrderId = some o' ∧ o'.status.terminal = true)
      (fun _ _ => True) d := by
  let broker : BrokerReplies := ⟨fun _ _ => .ok none, fun _ _ _ _ => .ok ()⟩
  have hmem : o ∈ reconciledRows d.db :=
    mem_reconciledRows.mpr ⟨d.db.brokerOrders.mem_of_find? ho, .inl hactive⟩
  apply ends_desk_selectOrders
  apply Raising.Ends.bind
  have hloop := ends_rowLoop answer (k := o.clientOrderId) (f := reconcileOrder now orders) (s := d)
    (A := fun d' => ∃ o', d'.order o.clientOrderId = some o' ∧ o'.status.terminal = true)
    (E := fun _ => True) (reconciledRows_nodup d.db)
    (fun _ _ hs h => by rw [hs.row]; exact h) (fun _ _ _ _ => trivial)
    (fun _ _ => trivial) (fun x _ hne acc => spares_reconcileOrder now orders acc hne) ?_
    (fun hnone => absurd rfl (hnone o hmem)) trivial PassState.empty
  · refine Raising.Ends.mono hloop ?_ fun _ _ h => h
    intro acc d₁ h₁
    have htail := fun acc' => Spares.ends answer (spares_compareHoldings o.clientOrderId now acc' account) d₁
    refine Raising.Ends.mono (htail _) ?_ fun _ _ _ => trivial
    intro _ d₂ hs
    rw [hs.row]
    exact h₁
  · intro x hx hxk acc d₁ hspared
    obtain rfl : x = o := by
      have hfind := d.db.brokerOrders.find?_of_mem (mem_reconciledRows.mp hx).1
      rw [hxk] at hfind
      exact Option.some.inj (hfind.symm.trans ho)
    have hid := hdb.ledger.ledger.named x (d.db.brokerOrders.mem_of_find? ho)
    have hrow := ends_desk_of_local answer broker
      ((byReconcile_reconcileOrder now orders acc x).mono Act.isLocal_of_byReconcile)
      (reconcileOrder_terminal broker now hid hparsed hrecord hterminal htaken acc
        (show d₁.db.brokerOrders.find? x.clientOrderId = some x from hspared.row.trans ho))
    exact Raising.Ends.mono hrow (fun _ _ h => h.1) fun _ _ _ => trivial

/-! ### The management stage -/

/-- A pass over another order touches nothing of this one. -/
theorem Concerns.spares_others {id : String} {α : Type} {p : Pipeline α} (hp : Concerns id p) (d : Desk) :
    Raising.Ends (deskHandler answer) p (fun _ d' => ∀ k, k ≠ id → Spared k d d')
      (fun _ d' => ∀ k, k ≠ id → Spared k d d') d :=
  Raising.Ends.of_only (R := fun d' => ∀ k, k ≠ id → Spared k d d')
    (fun o d' ho hd k hk => (hd k hk).trans (deskHandler_spares answer (Act.spares_of_concerns hk o ho) d'))
    hp fun k _ => .refl k d

/-- Copying a record keeps the order's terms. -/
theorem recordUpdate_active {status : OrderStatus} {record : OrderRecord} {id : String} {db : Database}
    {o : BrokerOrder} (ho : db.brokerOrders.find? id = some o) (hactive : o.status.terminal = false)
    (hstatus : status.terminal = false) (hnumber : record.orderNumber = o.brokerIdText) :
    ∃ o', ((Op.updateBrokerOrderStatus now id (recordUpdate now status record none)).exec
        db).brokerOrders.find? id = some o' ∧
      o'.status.terminal = false ∧ o'.symbol = o.symbol ∧ o'.brokerIdText = o.brokerIdText := by
  rcases updateBrokerOrderStatus_cases now id (recordUpdate now status record none) db with
    ⟨e, hr⟩ | ⟨c, -, -, hr⟩ | ⟨row, c, -, hfind, -, hr⟩
  · simp only [Op.exec, Op.call, Op.run, hr]
    exact ⟨o, ho, hactive, rfl, rfl⟩
  · simp only [Op.exec, Op.call, Op.run, hr]
    exact ⟨o, ho, hactive, rfl, rfl⟩
  · simp only [Op.exec, Op.call, Op.run, hr, Table.find?_update_self, ho, Option.map_some]
    exact ⟨_, rfl, hstatus, rfl, hnumber⟩

theorem updateBrokerOrderStatus_metadata (id : String) (u : StatusUpdate) (db : Database) (key : String) :
    ((Op.updateBrokerOrderStatus now id u).exec db).getRuntimeMetadata key = db.getRuntimeMetadata key :=
  Op.exec_metadata (fun _ _ _ h => by cases h) db

/-- Copying an active status into a waiting row. -/
theorem Waiting.copied {id symbol number barKey : String} {d : Desk} {status : OrderStatus}
    {record : OrderRecord} (h : Waiting id symbol number barKey d) (hstatus : status.terminal = false)
    (hnumber : record.orderNumber = number) :
    Waiting id symbol number barKey { d with
      db := (Op.updateBrokerOrderStatus now id (recordUpdate now status record none)).exec d.db } := by
  obtain ⟨o, ho, hactive, hsymbol, htext⟩ := h.row
  obtain ⟨o', ho', hactive', hsymbol', htext'⟩ :=
    recordUpdate_active now ho hactive hstatus (hnumber.trans htext.symm)
  refine ⟨⟨o', ho', hactive', hsymbol'.trans hsymbol, htext'.trans htext⟩, ?_⟩
  unfold Desk.marker
  rw [updateBrokerOrderStatus_metadata]
  exact h.marker

theorem confirmedKey_injective {symbol symbol' : String} (h : confirmedKey symbol = confirmedKey symbol') :
    symbol = symbol' := by
  have hlist := congrArg String.toList h
  unfold confirmedKey at hlist
  rw [String.toList_append, String.toList_append] at hlist
  exact String.ext (List.append_cancel_left hlist)

theorem confirmedKey_named (symbol : String) : Text.blank (confirmedKey symbol) = false := by
  unfold confirmedKey
  rw [Text.blank_append, show Text.blank "order_management.confirmed." = false by decide, Bool.false_and]

/-- The confirmed bar of a symbol is read from one key. -/
theorem Desk.confirmedBar_congr {d d' : Desk} {symbol : String}
    (h : d'.db.getRuntimeMetadata (confirmedKey symbol) = d.db.getRuntimeMetadata (confirmedKey symbol)) :
    d'.confirmedBar symbol = d.confirmedBar symbol := by
  unfold Desk.confirmedBar
  rw [h]

/-- A program that does not write the key keeps the confirmed bar. -/
theorem ends_confirmedBar {symbol : String} {α : Type} {p : Pipeline α}
    (hp : Raising.Only (S := trading) (Act.leavesKey (confirmedKey symbol)) p) {bar : Option String}
    {d : Desk} (h : d.confirmedBar symbol = bar) :
    Raising.Ends (deskHandler answer) p (fun _ d' => d'.confirmedBar symbol = bar)
      (fun _ d' => d'.confirmedBar symbol = bar) d := by
  refine Raising.Ends.mono (ends_desk_leavesKey answer hp rfl) ?_ ?_
  · exact fun _ d' hkey => (Desk.confirmedBar_congr hkey).trans h
  · exact fun _ d' hkey => (Desk.confirmedBar_congr hkey).trans h

abbrev LeavesConfirmed (symbol : String) {α : Type} (p : Pipeline α) : Prop :=
  Raising.Only (S := trading) (Act.leavesKey (confirmedKey symbol)) p

theorem leavesConfirmed_reraise {symbol : String} {α : Type} (r : Except Exn α) :
    LeavesConfirmed symbol (reraise r) := by
  cases r with
  | ok a => exact .pure a
  | error e => exact .throw e

theorem leavesConfirmed_execute {symbol : String} {op : Op}
    (h : Act.leavesKey (confirmedKey symbol) (.call op)) : LeavesConfirmed symbol (execute op) :=
  .bind (Raising.Only.ask (S := trading) (o := .call op) h) leavesConfirmed_reraise

theorem leavesConfirmed_setMetadata {symbol key : String} (h : key ≠ confirmedKey symbol)
    (value : MetadataValue) (updatedAt : Option DateTime) :
    LeavesConfirmed symbol (execute (.setRuntimeMetadata now key value updatedAt)) :=
  leavesConfirmed_execute h

theorem leavesConfirmed_blockNewEntries (symbol reason : String) :
    LeavesConfirmed symbol (blockNewEntries now reason) :=
  .bind (leavesConfirmed_setMetadata now (ne_confirmedKey (by decide) symbol) ..) fun _ =>
    .bind (leavesConfirmed_setMetadata now (ne_confirmedKey (by decide) symbol) ..) fun _ =>
      leavesConfirmed_setMetadata now (ne_confirmedKey (by decide) symbol) ..

theorem leavesConfirmed_markUnknown (symbol id reason : String) :
    LeavesConfirmed symbol (markUnknown now id reason) :=
  .bind (leavesConfirmed_execute trivial) fun _ => leavesConfirmed_blockNewEntries now symbol reason

theorem leavesConfirmed_requestCancel (symbol : String) (o : BrokerOrder) (record : OrderRecord)
    (entryBarKey : Option String) : LeavesConfirmed symbol (requestCancel now o record entryBarKey) := by
  refine .bind (leavesConfirmed_reraise _) fun price => .bind (leavesConfirmed_execute trivial) fun _ => ?_
  refine .bind (.bind (Raising.Only.ask (S := trading) trivial) leavesConfirmed_reraise) fun _ => ?_
  exact leavesConfirmed_execute (confirmedKey_ne_pendingKey symbol o.clientOrderId).symm

/-- Without a marker nothing is confirmed. -/
theorem leavesConfirmed_manageActive (symbol : String) (calendar : Calendar) (config : OrderManagementConfig)
    (entryBarKey : Option String) (record : Option OrderRecord) (o : BrokerOrder) (acc : ManageState) :
    LeavesConfirmed symbol (manageActive now calendar config entryBarKey record o acc) := by
  have hunknown : ∀ reason (acc' : ManageState), LeavesConfirmed symbol (do
      markUnknown now o.clientOrderId reason
      pure acc') := fun reason _ => .bind (leavesConfirmed_markUnknown ..) fun _ => .pure _
  unfold manageActive
  dsimp only
  split
  · exact .pure _
  split
  · exact .pure _
  split
  · exact hunknown _ _
  split
  · exact .pure _
  split
  · exact .pure _
  split
  · exact hunknown _ _
  split
  · unfold cancelStale
    dsimp only
    split
    · exact hunknown _ _
    · refine .bind (.attempt (leavesConfirmed_requestCancel ..)) fun r => ?_
      cases r with
      | ok u => exact .pure _
      | error e => exact hunknown _ _
  · exact .pure _

/-- The turn of a waiting order: it goes on waiting, or its report is confirmed. -/
theorem reconcilePendingMarker_waiting {x : BrokerOrder} {barKey : String} {marker : PendingMarker}
    {record : Option OrderRecord} {d : Desk}
    (h : Waiting x.clientOrderId x.symbol x.brokerIdText barKey d) (hvalid : marker.isInvalid = false)
    (hbar : marker.get "bar_key" = some barKey) (hnumber : ∀ r ∈ record, r.orderNumber = x.brokerIdText) :
    Raising.Ends (deskHandler answer) (reconcilePendingMarker now x record marker)
      (fun _ d' => Waiting x.clientOrderId x.symbol x.brokerIdText barKey d' ∨
        (∃ r ∈ record, terminalStatusForBroker r.status ≠ none) ∧ d'.confirmedBar x.symbol = some barKey)
      (fun _ d' => Waiting x.clientOrderId x.symbol x.brokerIdText barKey d' ∨
        (∃ r ∈ record, terminalStatusForBroker r.status ≠ none) ∧ d'.confirmedBar x.symbol = some barKey)
      d := by
  unfold reconcilePendingMarker
  dsimp only
  rw [hvalid, if_neg Bool.false_ne_true]
  cases record with
  | none => exact .inl h
  | some r =>
    dsimp only
    cases hstatus : terminalStatusForBroker r.status with
    | none =>
      apply Raising.Ends.bind
      refine ends_desk_execute answer ?_ fun _ _ => .inl h
      exact fun _ _ => .inl (h.copied now rfl (hnumber r rfl))
    | some status =>
      have hreport : ∃ r' ∈ some r, terminalStatusForBroker r'.status ≠ none :=
        ⟨r, rfl, by rw [hstatus]; exact Option.some_ne_none status⟩
      apply Raising.Ends.bind
      refine ends_desk_execute answer ?_ fun _ _ => .inl h
      intro updated _
      apply Raising.Ends.bind
      refine Raising.Ends.mono (ends_desk_setMetadata answer (confirmedKey_named x.symbol) now _ _ _) ?_
        fun _ _ he => he.elim
      rintro _ d₁ ⟨-, hvalue⟩
      have hconfirmed : d₁.confirmedBar x.symbol = some barKey := by
        unfold Desk.confirmedBar
        rw [hvalue, hbar]
        rfl
      apply Raising.Ends.bind
      refine Raising.Ends.mono (ends_confirmedBar answer (leavesConfirmed_setMetadata now
        (confirmedKey_ne_pendingKey x.symbol x.clientOrderId).symm ..) hconfirmed) ?_ ?_
      · exact fun _ _ h' => .inr ⟨hreport, h'⟩
      · exact fun _ _ h' => .inr ⟨hreport, h'⟩

/-- A confirmed bar stays when what is confirmed next was cancelled on it too. -/
theorem reconcilePendingMarker_confirmed {x : BrokerOrder} {symbol barKey : String}
    {marker : PendingMarker} {record : Option OrderRecord} {d : Desk}
    (h : d.confirmedBar symbol = some barKey)
    (hsame : marker.isInvalid = false → ∀ r ∈ record, terminalStatusForBroker r.status ≠ none →
      x.symbol = symbol → marker.get "bar_key" = some barKey) :
    Raising.Ends (deskHandler answer) (reconcilePendingMarker now x record marker)
      (fun _ d' => d'.confirmedBar symbol = some barKey)
      (fun _ d' => d'.confirmedBar symbol = some barKey) d := by
  unfold reconcilePendingMarker
  dsimp only
  split
  · exact h
  rename_i hvalid
  split
  · exact h
  rename_i r
  have hupdate : ∀ u, LeavesConfirmed symbol (execute (.updateBrokerOrderStatus now x.clientOrderId u)) :=
    fun u => leavesConfirmed_execute trivial
  split
  · rename_i status hstatus
    apply Raising.Ends.bind
    refine Raising.Ends.mono (ends_confirmedBar answer (hupdate _) h) ?_ fun _ _ h' => h'
    intro updated d₁ h₁
    apply Raising.Ends.bind
    have hwrite : Raising.Ends (deskHandler answer) (execute (.setRuntimeMetadata now (confirmedKey x.symbol)
        (.object [("bar_key", marker.get "bar_key"), ("client_order_id", some x.clientOrderId)]) (some now)))
        (fun _ d' => d'.confirmedBar symbol = some barKey)
        (fun _ d' => d'.confirmedBar symbol = some barKey) d₁ := by
      by_cases hsymbol : x.symbol = symbol
      · refine Raising.Ends.mono (ends_desk_setMetadata answer (confirmedKey_named x.symbol) now _ _ _) ?_
          fun _ _ he => he.elim
        rintro _ d₂ ⟨-, hvalue⟩
        have hbar := hsame (by simpa using hvalid) r rfl (by rw [hstatus]; exact Option.some_ne_none status) hsymbol
        rw [hsymbol, hbar] at hvalue
        unfold Desk.confirmedBar
        rw [hvalue]
        rfl
      · exact ends_confirmedBar answer
          (leavesConfirmed_setMetadata now (fun heq => hsymbol (confirmedKey_injective heq)) ..) h₁
    refine Raising.Ends.mono hwrite ?_ fun _ _ h' => h'
    intro _ d₂ h₂
    apply Raising.Ends.bind
    exact Raising.Ends.mono (ends_confirmedBar answer (leavesConfirmed_setMetadata now
      (confirmedKey_ne_pendingKey symbol x.clientOrderId).symm ..) h₂) (fun _ _ h' => h') fun _ _ h' => h'
  · apply Raising.Ends.bind
    exact Raising.Ends.mono (ends_confirmedBar answer (hupdate _) h) (fun _ _ h' => h') fun _ _ h' => h'

variable (calendar : Calendar) (config : OrderManagementConfig) (entryBarKey : Option String)

/-- The turn of an order that waits. -/
theorem manageOrder_waiting {orders : List OrderRecord} {x : BrokerOrder} {barKey : String}
    (acc : ManageState) {d : Desk} (h : Waiting x.clientOrderId x.symbol x.brokerIdText barKey d) :
    Raising.Ends (deskHandler answer) (manageOrder now calendar config entryBarKey orders acc x)
      (fun _ d' => Waiting x.clientOrderId x.symbol x.brokerIdText barKey d' ∨
        (∃ r ∈ byBrokerId orders x.brokerIdText, terminalStatusForBroker r.status ≠ none) ∧
          d'.confirmedBar x.symbol = some barKey)
      (fun _ d' => Waiting x.clientOrderId x.symbol x.brokerIdText barKey d' ∨
        (∃ r ∈ byBrokerId orders x.brokerIdText, terminalStatusForBroker r.status ≠ none) ∧
          d'.confirmedBar x.symbol = some barKey) d := by
  obtain ⟨marker, hmarker, hvalid, hbar⟩ := h.marker
  have hread : pendingMarker (d.db.getRuntimeMetadata (pendingKey x.clientOrderId)) = some marker := hmarker
  unfold manageOrder
  apply ends_desk_select
  rw [hread]
  apply Raising.Ends.bind
  refine Raising.Ends.mono (reconcilePendingMarker_waiting answer now h hvalid hbar
    fun r hr => (byBrokerId_some hr).2) ?_ fun _ _ h' => h'
  intro result d₁ h₁
  cases result with
  | confirmed => exact h₁
  | pending => exact h₁

/-- The turn of any order, for the confirmed bar of a symbol. -/
theorem manageOrder_confirmed {orders : List OrderRecord} {x : BrokerOrder} {symbol barKey : String}
    (acc : ManageState) {d : Desk} (h : d.confirmedBar symbol = some barKey)
    (hsame : ∀ marker, d.marker x.clientOrderId = some marker → marker.isInvalid = false →
      ∀ r ∈ byBrokerId orders x.brokerIdText, terminalStatusForBroker r.status ≠ none →
        x.symbol = symbol → marker.get "bar_key" = some barKey) :
    Raising.Ends (deskHandler answer) (manageOrder now calendar config entryBarKey orders acc x)
      (fun _ d' => d'.confirmedBar symbol = some barKey)
      (fun _ d' => d'.confirmedBar symbol = some barKey) d := by
  unfold manageOrder
  apply ends_desk_select
  split
  · rename_i marker hmarker
    apply Raising.Ends.bind
    refine Raising.Ends.mono (reconcilePendingMarker_confirmed answer now h (hsame marker hmarker)) ?_
      fun _ _ h' => h'
    intro result d₁ h₁
    cases result with
    | confirmed => exact h₁
    | pending => exact h₁
  · exact ends_confirmedBar answer (leavesConfirmed_manageActive now symbol calendar config entryBarKey _ x acc) h

/-- The end of the stage writes the flags of a review. -/
theorem manageEnd_waiting {id symbol number barKey : String} (acc : ManageState) (inspected : Nat) {d : Desk}
    (h : Waiting id symbol number barKey d) :
    Raising.Ends (deskHandler answer) (do
        if acc.review then blockNewEntries now "order_management_operator_review"
        pure (⟨inspected, acc.cancelRequested, acc.pending, acc.unknown, acc.confirmed, acc.review,
          acc.review || 0 < acc.pending, acc.actions⟩ : OrderManagementReport))
      (fun _ => Waiting id symbol number barKey) (fun _ => Waiting id symbol number barKey) d := by
  have hspares : Spares id (blockNewEntries now "order_management_operator_review") :=
    .bind (spares_setMetadata (ne_pendingKey (by decide) id) ..) fun _ =>
      .bind (spares_setMetadata (ne_pendingKey (by decide) id) ..) fun _ =>
        spares_setMetadata (ne_pendingKey (by decide) id) ..
  dsimp only
  split
  · apply Raising.Ends.bind
    exact Raising.Ends.mono (Spares.ends answer hspares d) (fun _ _ hs => h.spared hs) fun _ _ hs => h.spared hs
  · exact h

theorem manageEnd_confirmed {symbol barKey : String} (acc : ManageState) (inspected : Nat) {d : Desk}
    (h : d.confirmedBar symbol = some barKey) :
    Raising.Ends (deskHandler answer) (do
        if acc.review then blockNewEntries now "order_management_operator_review"
        pure (⟨inspected, acc.cancelRequested, acc.pending, acc.unknown, acc.confirmed, acc.review,
          acc.review || 0 < acc.pending, acc.actions⟩ : OrderManagementReport))
      (fun _ d' => d'.confirmedBar symbol = some barKey) (fun _ d' => d'.confirmedBar symbol = some barKey) d := by
  dsimp only
  split
  · apply Raising.Ends.bind
    exact Raising.Ends.mono (ends_confirmedBar answer (leavesConfirmed_blockNewEntries now symbol _) h)
      (fun _ _ h' => h') fun _ _ h' => h'
  · exact h

/-- Without a report a waiting order goes on waiting. -/
theorem manageStaleOrders_waiting {orders : List OrderRecord} {id symbol number barKey : String} {d : Desk}
    (h : Waiting id symbol number barKey d)
    (hquiet : ∀ record, byBrokerId orders number = some record →
      terminalStatusForBroker record.status = none) :
    Raising.Ends (deskHandler answer) (manageStaleOrders now calendar config entryBarKey (.ok orders))
      (fun _ => Waiting id symbol number barKey) (fun _ => Waiting id symbol number barKey) d := by
  apply ends_desk_selectOrders
  apply Raising.Ends.bind
  have hloop := ends_rowLoop answer (k := id) (f := manageOrder now calendar config entryBarKey orders)
    (s := d) (A := Waiting id symbol number barKey) (E := Waiting id symbol number barKey)
    (managedRows_nodup d.db) (fun _ _ hs h => h.spared hs) (fun _ _ hs h => h.spared hs) (fun _ h => h)
    (fun x _ hne acc => (concerns_manageOrder now calendar config entryBarKey orders acc x).mono
      (Act.spares_of_concerns hne)) ?_ (fun _ => h) h ManageState.empty
  · refine Raising.Ends.mono hloop ?_ fun _ _ h => h
    exact fun acc d₁ h₁ => manageEnd_waiting answer now acc _ h₁
  · intro x hx hxk acc d₁ hspared
    subst hxk
    have h₁ := h.spared hspared
    obtain ⟨o, ho, -, hsymbol, hnumber⟩ := h₁.row
    obtain rfl : x = o := Option.some.inj ((mem_managedRows hx).symm.trans (hspared.row.symm.trans ho))
    subst hsymbol hnumber
    refine Raising.Ends.mono (manageOrder_waiting answer now calendar config entryBarKey acc h₁) ?_ ?_
    · rintro _ d₂ (hwaiting | ⟨⟨r, hr, hreport⟩, -⟩)
      · exact hwaiting
      · exact absurd (hquiet r hr) hreport
    · rintro _ d₂ (hwaiting | ⟨⟨r, hr, hreport⟩, -⟩)
      · exact hwaiting
      · exact absurd (hquiet r hr) hreport

/-- An order that waits, or whose bar is confirmed, when all that is confirmed for its symbol
    was cancelled on that bar. -/
theorem manageStaleOrders_confirms {orders : List OrderRecord} {id symbol number barKey : String} {d : Desk}
    (h : Waiting id symbol number barKey d ∨ d.confirmedBar symbol = some barKey)
    (hsame : ∀ x ∈ managedRows d.db, ∀ marker, d.marker x.clientOrderId = some marker →
      marker.isInvalid = false → ∀ r ∈ byBrokerId orders x.brokerIdText,
        terminalStatusForBroker r.status ≠ none → x.symbol = symbol → marker.get "bar_key" = some barKey) :
    Raising.Ends (deskHandler answer) (manageStaleOrders now calendar config entryBarKey (.ok orders))
      (fun _ d' => Waiting id symbol number barKey d' ∨ d'.confirmedBar symbol = some barKey)
      (fun _ d' => Waiting id symbol number barKey d' ∨ d'.confirmedBar symbol = some barKey) d := by
  apply ends_desk_selectOrders
  apply Raising.Ends.bind
  have hloop := Raising.Ends.foldlM (h := deskHandler answer)
    (f := manageOrder now calendar config entryBarKey orders)
    (E := fun _ d' => Waiting id symbol number barKey d' ∨ d'.confirmedBar symbol = some barKey)
    (I := fun rest _ d' => (rest.map (·.clientOrderId)).Nodup ∧ (∀ x ∈ rest, x ∈ managedRows d.db) ∧
      (∀ x ∈ rest, Spared x.clientOrderId d d') ∧
      (Waiting id symbol number barKey d' ∨ d'.confirmedBar symbol = some barKey)) ?_
    (managedRows d.db) (a := ManageState.empty) (s := d)
    ⟨managedRows_nodup d.db, fun _ hx => hx, fun x _ => .refl x.clientOrderId d, h⟩
  · refine Raising.Ends.mono hloop ?_ fun _ _ h => h
    rintro acc d₁ ⟨-, -, -, hwaiting | hconfirmed⟩
    · exact Raising.Ends.mono (manageEnd_waiting answer now acc _ hwaiting) (fun _ _ h => .inl h)
        fun _ _ h => .inl h
    · exact Raising.Ends.mono (manageEnd_confirmed answer now acc _ hconfirmed) (fun _ _ h => .inr h)
        fun _ _ h => .inr h
  · rintro x rest acc d₁ ⟨hnodup, hsub, hspared, hstate⟩
    rw [List.map_cons, List.nodup_cons] at hnodup
    have hx := hsub x List.mem_cons_self
    have hown := hspared x List.mem_cons_self
    have hothers := (concerns_manageOrder now calendar config entryBarKey orders acc x).spares_others answer d₁
    have hturn : Raising.Ends (deskHandler answer) (manageOrder now calendar config entryBarKey orders acc x)
        (fun _ d' => Waiting id symbol number barKey d' ∨ d'.confirmedBar symbol = some barKey)
        (fun _ d' => Waiting id symbol number barKey d' ∨ d'.confirmedBar symbol = some barKey) d₁ := by
      rcases hstate with hwaiting | hconfirmed
      · by_cases hxk : x.clientOrderId = id
        · subst hxk
          obtain ⟨o, ho, -, hsymbol, hnumber⟩ := hwaiting.row
          obtain rfl : x = o := Option.some.inj ((mem_managedRows hx).symm.trans (hown.row.symm.trans ho))
          subst hsymbol hnumber
          refine Raising.Ends.mono (manageOrder_waiting answer now calendar config entryBarKey acc hwaiting) ?_ ?_
          · exact fun _ _ h' => h'.imp_right fun hreport => hreport.2
          · exact fun _ _ h' => h'.imp_right fun hreport => hreport.2
        · refine Raising.Ends.mono hothers ?_ ?_
          · exact fun _ _ hs => .inl (hwaiting.spared (hs id (Ne.symm hxk)))
          · exact fun _ _ hs => .inl (hwaiting.spared (hs id (Ne.symm hxk)))
      · refine Raising.Ends.mono (manageOrder_confirmed answer now calendar config entryBarKey acc hconfirmed ?_) ?_ ?_
        · intro marker hmarker
          unfold Desk.marker at hmarker
          rw [hown.marker] at hmarker
          exact hsame x hx marker hmarker
        · exact fun _ _ h' => .inr h'
        · exact fun _ _ h' => .inr h'
    refine Raising.Ends.mono (hturn.and hothers) ?_ fun _ _ h' => h'.1
    rintro _ d₂ ⟨hstate₂, hs⟩
    refine ⟨hnodup.2, fun y hy => hsub y (List.mem_cons_of_mem _ hy), fun y hy => ?_, hstate₂⟩
    have hne : y.clientOrderId ≠ x.clientOrderId :=
      fun heq => hnodup.1 (List.mem_map.mpr ⟨y, hy, heq⟩)
    exact (hspared y (List.mem_cons_of_mem _ hy)).trans (hs _ hne)

/-- The turn of an order: nothing is sent, or the accepted cancellation waits for its report. -/
theorem manageOrder_request {orders : List OrderRecord} {x : BrokerOrder} {barKey : String}
    (haccepted : ∀ log, answer log = .ok ()) (acc : ManageState) {d : Desk}
    (hx : d.order x.clientOrderId = some x) (hactive : x.status.terminal = false) :
    Raising.Ends (deskHandler answer) (manageOrder now calendar config (some barKey) orders acc x)
      (fun _ d' => d'.cancels = d.cancels ∨ Waiting x.clientOrderId x.symbol x.brokerIdText barKey d')
      (fun _ d' => d'.cancels = d.cancels ∨ Waiting x.clientOrderId x.symbol x.brokerIdText barKey d') d := by
  have hsilent : ∀ {α : Type} {p : Pipeline α} (d' : Desk), Silent p → d'.cancels = d.cancels →
      Raising.Ends (deskHandler answer) p
        (fun _ d'' => d''.cancels = d.cancels ∨ Waiting x.clientOrderId x.symbol x.brokerIdText barKey d'')
        (fun _ d'' => d''.cancels = d.cancels ∨ Waiting x.clientOrderId x.symbol x.brokerIdText barKey d'')
        d' := by
    intro α p d' hp hcancels
    refine Raising.Ends.mono (hp.ends answer d') ?_ ?_
    · exact fun _ _ h => .inl (h.trans hcancels)
    · exact fun _ _ h => .inl (h.trans hcancels)
  unfold manageOrder
  apply ends_desk_select
  split
  · refine hsilent d (.bind (silent_reconcilePendingMarker ..) fun r => ?_) rfl
    cases r with
    | pending => exact .pure _
    | confirmed => exact .pure _
  unfold manageActive
  dsimp only
  split
  · exact .inl rfl
  split
  · exact .inl rfl
  split
  · exact hsilent d (.bind (silent_markUnknown ..) fun _ => .pure _) rfl
  split
  · exact .inl rfl
  · rename_i record hrecord
    split
    · exact .inl rfl
    split
    · exact hsilent d (.bind (silent_markUnknown ..) fun _ => .pure _) rfl
    split
    · unfold cancelStale
      dsimp only
      split
      · exact hsilent d (.bind (silent_markUnknown ..) fun _ => .pure _) rfl
      · apply Raising.Ends.bind
        apply Raising.Ends.attempt
        -- an exception before the cancellation is caught, and nothing was sent
        apply Raising.Ends.bind
        have hcaught : ∀ (e : Exn) (d' : Desk), d'.cancels = d.cancels →
            Raising.Ends (deskHandler answer) (do
              markUnknown now x.clientOrderId ("cancel_ambiguous:" ++ e.typeName)
              pure (acc.addUnknown x "cancel_ambiguous"))
            (fun _ d'' => d''.cancels = d.cancels ∨ Waiting x.clientOrderId x.symbol x.brokerIdText barKey d'')
            (fun _ d'' => d''.cancels = d.cancels ∨ Waiting x.clientOrderId x.symbol x.brokerIdText barKey d'')
            d' := fun e d' hcancels => hsilent d' (.bind (silent_markUnknown ..) fun _ => .pure _) hcancels
        refine ends_desk_reraise answer ?_ fun e _ => hcaught e d rfl
        intro price _
        apply Raising.Ends.bind
        refine ends_desk_execute answer ?_ fun _ e => hcaught e d rfl
        intro updated _
        obtain ⟨o', ho', hactive', hsymbol', hnumber'⟩ := @recordUpdate_active now .cancelPending record
          x.clientOrderId d.db x hx hactive rfl (byBrokerId_some hrecord).2
        apply Raising.Ends.bind
        refine ends_desk_cancelOrder answer ?_ fun e he => by rw [haccepted] at he; cases he
        intro _
        refine Raising.Ends.mono (ends_desk_setMetadata answer (pendingKey_named x.clientOrderId) now _ _ _) ?_
          fun _ _ he => he.elim
        rintro _ d₁ ⟨hnoted, hvalue⟩
        have hwaiting : Waiting x.clientOrderId x.symbol x.brokerIdText barKey d₁ := by
          refine ⟨⟨o', by rw [hnoted.order]; exact ho', hactive', hsymbol', hnumber'⟩, ?_⟩
          refine ⟨.fields [("bar_key", some barKey), ("requested_at", some now.isoformat)], ?_, rfl, rfl⟩
          unfold Desk.marker
          rw [hvalue]
          rfl
        exact .inr hwaiting
    · exact .inl rfl

theorem manageStaleOrders_request {orders : List OrderRecord} {o : BrokerOrder} {barKey : String}
    (haccepted : ∀ log, answer log = .ok ()) {d : Desk} (ho : d.order o.clientOrderId = some o) :
    Raising.Ends (deskHandler answer) (manageStaleOrders now calendar config (some barKey) (.ok orders))
      (fun _ d' => d'.cancels.count o.clientOrderId = d.cancels.count o.clientOrderId ∨
        Waiting o.clientOrderId o.symbol o.brokerIdText barKey d')
      (fun _ d' => d'.cancels.count o.clientOrderId = d.cancels.count o.clientOrderId ∨
        Waiting o.clientOrderId o.symbol o.brokerIdText barKey d') d := by
  apply ends_desk_selectOrders
  apply Raising.Ends.bind
  have hframe : ∀ d₁ d₂ : Desk, Spared o.clientOrderId d₁ d₂ →
      (d₁.cancels.count o.clientOrderId = d.cancels.count o.clientOrderId ∨
        Waiting o.clientOrderId o.symbol o.brokerIdText barKey d₁) →
      d₂.cancels.count o.clientOrderId = d.cancels.count o.clientOrderId ∨
        Waiting o.clientOrderId o.symbol o.brokerIdText barKey d₂ :=
    fun _ _ hs h => h.imp (fun hcount => hs.count.trans hcount) fun hwaiting => hwaiting.spared hs
  have hloop := ends_rowLoop answer (k := o.clientOrderId)
    (f := manageOrder now calendar config (some barKey) orders) (s := d)
    (A := fun d' => d'.cancels.count o.clientOrderId = d.cancels.count o.clientOrderId ∨
      Waiting o.clientOrderId o.symbol o.brokerIdText barKey d')
    (E := fun d' => d'.cancels.count o.clientOrderId = d.cancels.count o.clientOrderId ∨
      Waiting o.clientOrderId o.symbol o.brokerIdText barKey d')
    (managedRows_nodup d.db) hframe hframe (fun _ h => h)
    (fun x _ hne acc => (concerns_manageOrder now calendar config (some barKey) orders acc x).mono
      (Act.spares_of_concerns hne)) ?_ (fun _ => .inl rfl) (.inl rfl) ManageState.empty
  · refine Raising.Ends.mono hloop ?_ fun _ _ h => h
    intro acc d₁ h₁
    have hsilent : Silent (do
        if acc.review then blockNewEntries now "order_management_operator_review"
        pure (⟨(managedRows d.db).length, acc.cancelRequested, acc.pending, acc.unknown, acc.confirmed,
          acc.review, acc.review || 0 < acc.pending, acc.actions⟩ : OrderManagementReport)) := by
      dsimp only
      split
      · exact .bind (silent_blockNewEntries ..) fun _ => .pure _
      · exact .pure _
    rcases h₁ with hcount | hwaiting
    · refine Raising.Ends.mono (hsilent.ends answer d₁) ?_ ?_
      · exact fun _ _ h => .inl (by rw [h]; exact hcount)
      · exact fun _ _ h => .inl (by rw [h]; exact hcount)
    · exact Raising.Ends.mono (manageEnd_waiting answer now acc _ hwaiting) (fun _ _ h => .inr h)
        fun _ _ h => .inr h
  · intro x hx hxk acc d₁ hspared
    have hxo : x = o := by
      have hfind := mem_managedRows hx
      rw [hxk] at hfind
      exact Option.some.inj (hfind.symm.trans ho)
    subst hxo
    have hactive : x.status.terminal = false := by
      simpa using (List.mem_filter.mp ((mem_orderedBy _ _).mp hx)).2
    refine Raising.Ends.mono (manageOrder_request answer now calendar config haccepted acc
      (hspared.row.trans ho) hactive) ?_ ?_
    · exact fun _ _ h => h.imp_left fun hcancels => by rw [hcancels]; exact hspared.count
    · exact fun _ _ h => h.imp_left fun hcancels => by rw [hcancels]; exact hspared.count

/-! ### Passes -/

/-- The reports that the management stage meets were there before the reconciliation, which
    refused them. -/
def ReportsKept (orders : List OrderRecord) (d d₁ : Desk) : Prop :=
  ∀ x ∈ managedRows d₁.db, ∀ marker, d₁.marker x.clientOrderId = some marker → marker.isInvalid = false →
    ∀ r ∈ byBrokerId orders x.brokerIdText, terminalStatusForBroker r.status ≠ none →
      x ∈ d.db.brokerOrders.rows ∧ reportOf orders d x = some (marker, r) ∧ reconcileRefuses x r = true

theorem reconcileBrokerState_reports {d : Desk} (hdb : ProgramState d.db) {orders : List OrderRecord}
    (hparsed : ∀ r ∈ orders, Parsed r) (account : Except ReadError (List AccountPosition)) :
    Raising.Ends (deskHandler answer) (reconcileBrokerState now (.ok orders) account)
      (fun _ => ReportsKept orders d) (fun _ _ => True) d := by
  have hreread := Raising.Ends.forall fun k => reconcileBrokerState_reread answer now k hparsed account d
  have hcopied : Raising.Ends (deskHandler answer) (reconcileBrokerState now (.ok orders) account)
      (fun _ d' => ∀ x : BrokerOrder × OrderRecord, d.order x.1.clientOrderId = some x.1 →
        x.1.status.terminal = false → byBrokerId orders x.1.brokerIdText = some x.2 →
        terminalStatusForBroker x.2.status ≠ none → reconcileRefuses x.1 x.2 = false →
        ∃ o', d'.order x.1.clientOrderId = some o' ∧ o'.status.terminal = true)
      (fun _ _ => BrokerOrder × OrderRecord → True) d := by
    refine Raising.Ends.forall fun x => ?_
    by_cases h : d.order x.1.clientOrderId = some x.1 ∧ x.1.status.terminal = false ∧
        byBrokerId orders x.1.brokerIdText = some x.2 ∧ terminalStatusForBroker x.2.status ≠ none ∧
        reconcileRefuses x.1 x.2 = false
    · obtain ⟨ho, hactive, hrecord, hterminal, htaken⟩ := h
      exact Raising.Ends.mono (reconcileBrokerState_terminal answer now hdb hparsed account ho hactive
        hrecord hterminal htaken) (fun _ _ h' _ _ _ _ _ => h') fun _ _ _ => trivial
    · refine Raising.Ends.mono Raising.Ends.trivial ?_ fun _ _ _ => trivial
      exact fun _ _ _ ho hactive hrecord hterminal htaken =>
        absurd ⟨ho, hactive, hrecord, hterminal, htaken⟩ h
  refine Raising.Ends.mono (hreread.and hcopied) ?_ fun _ _ _ => trivial
  rintro _ d₁ ⟨hreread₁, hcopied₁⟩ x hx marker hmarker hvalid r hr hterminal
  have hfind₁ : d₁.order x.clientOrderId = some x := mem_managedRows hx
  have hactive : x.status.terminal = false := by
    simpa using (List.mem_filter.mp ((mem_orderedBy _ _).mp hx)).2
  -- a row with a report that is still active was left alone
  have hfind : d.order x.clientOrderId = some x := by
    rcases (hreread₁ x.clientOrderId).row with ⟨hrow, -⟩ | ⟨o, ho, hid, o', ho', hafter⟩
    · rw [← hrow, hfind₁]
    · obtain rfl : x = o' := Option.some.inj (hfind₁.symm.trans ho')
      cases hafter with
      | same => exact d.db.brokerOrders.find?_of_mem (mem_reconciledRows.mp ho).1
      | copied record status hrecord hstatus _ hcopied htext _ _ =>
        rw [← htext, show byBrokerId orders x.brokerIdText = some r from hr, Option.some.injEq] at hrecord
        subst hrecord
        rw [hcopied, keptPending_terminal (localStatus_terminal hstatus hterminal)] at hactive
        cases hactive
  have hmarker' : d.marker x.clientOrderId = some marker := by
    unfold Desk.marker at hmarker ⊢
    rw [← (hreread₁ x.clientOrderId).marker]
    exact hmarker
  refine ⟨d.db.brokerOrders.mem_of_find? hfind, ?_, ?_⟩
  · unfold reportOf
    rw [hactive, if_neg Bool.false_ne_true, hmarker', show byBrokerId orders x.brokerIdText = some r from hr]
    dsimp only
    rw [if_pos ⟨hvalid, hterminal⟩]
  · rw [← Bool.not_eq_false]
    intro htaken
    obtain ⟨o', ho', hended⟩ := hcopied₁ (x, r) hfind hactive hr hterminal htaken
    rw [hfind₁, Option.some.injEq] at ho'
    rw [← ho', hactive] at hended
    cases hended

end Stages

theorem spares_finishPass (k : String) (now : DateTime) (acc : PassState) : Spares k (finishPass now acc) := by
  have hkey : ∀ key : String, key.toList.take 24 ≠ "order_management.pending".toList →
      ∀ value : String, Spares k (setFlag now key value) :=
    fun key h value => spares_setMetadata (ne_pendingKey h k) ..
  exact .bind (hkey _ (by decide) _) fun _ => .bind (hkey _ (by decide) _) fun _ => .pure _

theorem spares_blockNewEntries (k : String) (now : DateTime) (reason : String) :
    Spares k (blockNewEntries now reason) :=
  .bind (spares_setMetadata (ne_pendingKey (by decide) k) ..) fun _ =>
    .bind (spares_setMetadata (ne_pendingKey (by decide) k) ..) fun _ =>
      spares_setMetadata (ne_pendingKey (by decide) k) ..

namespace ManagementPass

variable {p : ManagementPass} {d : Desk}

theorem exec_of_ends {P : Desk → Prop}
    (h : Raising.Ends (deskHandler p.answer) p.program (fun _ => P) (fun _ => P) d) : P (p.exec d) := h.store

/-- Without records a pass touches no order. -/
theorem spares_of_unread {e : ReadError} (h : p.snapshot.orders = .error e) (k : String) :
    Spares k p.program := by
  unfold program
  rw [h]
  exact .bind (spares_finishPass k p.now _) fun _ => .bind (spares_blockNewEntries k p.now _) fun _ => .pure _

theorem leavesConfirmed_of_unread {e : ReadError} (h : p.snapshot.orders = .error e) (symbol : String) :
    LeavesConfirmed symbol p.program := by
  unfold program
  rw [h]
  refine .bind ((byReconcile_finishPass p.now _).mono (Act.leavesConfirmed_of_byReconcile symbol)) fun _ => ?_
  exact .bind (leavesConfirmed_blockNewEntries p.now symbol _) fun _ => .pure _

theorem exec_programState (hdb : ProgramState d.db) : ProgramState (p.exec d).db := by
  let broker : BrokerReplies := ⟨fun _ _ => .ok none, fun _ _ _ _ => .ok ()⟩
  have hmanaged : Raising.Only (S := trading) (fun o => ∃ id, o.concerns id)
      (manageStaleOrders p.now p.calendar p.config p.entryBarKey p.snapshot.orders) := by
    have hblock : ∀ reason, Raising.Only (S := trading) (fun o => ∃ id, Act.concerns id o)
        (blockNewEntries p.now reason) := fun reason =>
      Raising.Only.mono (fun o h => ⟨"", h⟩) (.bind (concerns_setMetadata (ne_pendingKey (by decide)) ..) fun _ =>
        .bind (concerns_setMetadata (ne_pendingKey (by decide)) ..) fun _ =>
          concerns_setMetadata (ne_pendingKey (by decide)) ..)
    unfold manageStaleOrders
    split
    · exact .bind (hblock _) fun _ => .pure _
    · refine .bind (Raising.Only.ask (S := trading) ⟨"", trivial⟩) fun rows => .bind ?_ fun acc => ?_
      · exact Raising.Only.foldlM (fun acc x => (concerns_manageOrder ..).mono fun o h => ⟨_, h⟩) _ _
      · dsimp only
        split
        · exact .bind (hblock _) fun _ => .pure _
        · exact .pure _
  refine exec_of_ends (P := fun d' => ProgramState d'.db) ?_
  apply Raising.Ends.bind
  have halone : Raising.Ends (dbHandler broker)
      (reconcileBrokerState p.now p.snapshot.orders p.snapshot.account)
      (fun _ => ProgramState) (fun _ => ProgramState) d.db := by
    have hpass := ProgramState.pass broker p.now p.snapshot.orders p.snapshot.account hdb
    unfold Raising.Ends
    rcases hr : Raising.eval (dbHandler broker)
      (reconcileBrokerState p.now p.snapshot.orders p.snapshot.account) d.db with ⟨r, db'⟩
    rw [hr] at hpass ⊢
    cases r with
    | ok report => exact hpass
    | error e => exact hpass
  have hdesk := ends_desk_of_local p.answer broker
    ((byReconcile_reconcileBrokerState ..).mono Act.isLocal_of_byReconcile) halone
  refine Raising.Ends.mono hdesk ?_ fun _ _ h => h.1
  rintro _ d₁ ⟨h₁, -⟩
  refine Raising.Ends.of_only (R := fun d' : Desk => ProgramState d'.db) ?_ hmanaged h₁
  rintro o d' ⟨id, ho⟩ hd'
  cases o with
  | call op =>
    refine ProgramState.call op hd' fun now a heq => ?_
    subst heq
    exact ho.elim
  | _ => exact hd'

/-- While no report of it comes, a waiting order goes on waiting. -/
theorem exec_waiting {id symbol number barKey : String} (hdb : ProgramState d.db) (hparsed : p.ReadsParsed)
    (h : Waiting id symbol number barKey d) (hquiet : ¬p.Reports number) :
    Waiting id symbol number barKey (p.exec d) := by
  refine exec_of_ends (P := Waiting id symbol number barKey) ?_
  cases horders : p.snapshot.orders with
  | error e =>
    exact Raising.Ends.mono (Spares.ends p.answer (spares_of_unread horders id) d) (fun _ _ hs => h.spared hs)
      fun _ _ hs => h.spared hs
  | ok orders =>
    have hnone : ∀ record, byBrokerId orders number = some record →
        terminalStatusForBroker record.status = none := by
      intro record hrecord
      by_contra hterminal
      exact hquiet ⟨orders, horders, record, hrecord, hterminal⟩
    unfold program
    rw [horders]
    apply Raising.Ends.bind
    refine Raising.Ends.mono (reconcileBrokerState_waiting p.answer p.now hdb (hparsed orders horders) _ h
      fun o record _ hrecord hterminal => absurd (hnone record hrecord) hterminal) ?_ fun _ _ h' => h'
    exact fun _ d₁ h₁ => manageStaleOrders_waiting p.answer p.now p.calendar p.config p.entryBarKey h₁ hnone

/-- An order that waits goes on waiting or its bar is confirmed, and a confirmed bar stays. -/
theorem exec_confirms {id symbol number barKey : String} (hdb : ProgramState d.db) (hparsed : p.ReadsParsed)
    (hmet : PassMet p d) (h : Waiting id symbol number barKey d ∨ d.confirmedBar symbol = some barKey) :
    Waiting id symbol number barKey (p.exec d) ∨ (p.exec d).confirmedBar symbol = some barKey := by
  by_cases hreported : d.confirmedBar symbol = some barKey ∨ p.Reports number
  swap
  · obtain ⟨hnot, hquiet⟩ := not_or.mp hreported
    exact .inl (exec_waiting hdb hparsed (h.resolve_right hnot) hquiet)
  refine exec_of_ends
    (P := fun d' => Waiting id symbol number barKey d' ∨ d'.confirmedBar symbol = some barKey) ?_
  cases horders : p.snapshot.orders with
  | error e =>
    rcases h with hwaiting | hconfirmed
    · exact Raising.Ends.mono (Spares.ends p.answer (spares_of_unread horders id) d)
        (fun _ _ hs => .inl (hwaiting.spared hs)) fun _ _ hs => .inl (hwaiting.spared hs)
    · exact Raising.Ends.mono (ends_confirmedBar p.answer (leavesConfirmed_of_unread horders symbol) hconfirmed)
        (fun _ _ h' => .inr h') fun _ _ h' => .inr h'
  | ok orders =>
    have hreports := hmet.reports orders horders
    -- every report that reaches the second stage was cancelled on the bar
    have hsame : ∀ d₁, ReportsKept orders d d₁ → ∀ x ∈ managedRows d₁.db, ∀ marker,
        d₁.marker x.clientOrderId = some marker → marker.isInvalid = false →
        ∀ r ∈ byBrokerId orders x.brokerIdText, terminalStatusForBroker r.status ≠ none →
          x.symbol = symbol → marker.get "bar_key" = some barKey := by
      intro d₁ hkept x hx marker hmarker hvalid r hr hterminal hsymbol
      obtain ⟨hmem, hreport, hrefused⟩ := hkept x hx marker hmarker hvalid r hr hterminal
      rcases hreported with hconfirmed | ⟨orders', horders', record, hrecord, hended⟩
      · exact hreports.confirmed x hmem _ hreport hrefused barKey (by rw [hsymbol]; exact hconfirmed)
      · rw [horders, Except.ok.injEq] at horders'
        subst horders'
        rcases h with hwaiting | hconfirmed
        · obtain ⟨o, ho, hactive, hosymbol, hnumber⟩ := hwaiting.row
          obtain ⟨marker₀, hmarker₀, hvalid₀, hbar₀⟩ := hwaiting.marker
          have hid : o.clientOrderId = id := d.db.brokerOrders.key_of_find? ho
          have hreport₀ : reportOf orders d o = some (marker₀, record) := by
            unfold reportOf
            rw [hactive, if_neg Bool.false_ne_true, hid, hmarker₀, hnumber, hrecord]
            dsimp only
            rw [if_pos ⟨hvalid₀, hended⟩]
          have homem := d.db.brokerOrders.mem_of_find? ho
          have hrefused₀ := hreports.refused o homem _ hreport₀ (by rw [hbar₀]; rfl)
          have halike := hreports.alike o homem _ hreport₀ hrefused₀ x hmem _ hreport hrefused
            (hsymbol.trans hosymbol.symm)
          exact halike.trans hbar₀
        · exact hreports.confirmed x hmem _ hreport hrefused barKey (by rw [hsymbol]; exact hconfirmed)
    unfold program
    rw [horders]
    apply Raising.Ends.bind
    have hstate : Raising.Ends (deskHandler p.answer)
        (reconcileBrokerState p.now (.ok orders) p.snapshot.account)
        (fun _ d' => Waiting id symbol number barKey d' ∨ d'.confirmedBar symbol = some barKey)
        (fun _ d' => Waiting id symbol number barKey d' ∨ d'.confirmedBar symbol = some barKey) d := by
      rcases h with hwaiting | hconfirmed
      · refine Raising.Ends.mono (reconcileBrokerState_waiting p.answer p.now hdb (hparsed orders horders) _
          hwaiting ?_) (fun _ _ h' => .inl h') fun _ _ h' => .inl h'
        intro o record ho hrecord hended
        obtain ⟨o', ho', hactive, -, hnumber⟩ := hwaiting.row
        obtain rfl : o = o' := Option.some.inj (ho.symm.trans ho')
        obtain ⟨marker₀, hmarker₀, hvalid₀, hbar₀⟩ := hwaiting.marker
        have hid : o.clientOrderId = id := d.db.brokerOrders.key_of_find? ho
        refine hreports.refused o (d.db.brokerOrders.mem_of_find? ho) (marker₀, record) ?_ (by rw [hbar₀]; rfl)
        unfold reportOf
        rw [hactive, if_neg Bool.false_ne_true, hid, hmarker₀, hnumber, hrecord]
        dsimp only
        rw [if_pos ⟨hvalid₀, hended⟩]
        rfl
      · exact Raising.Ends.mono (ends_confirmedBar p.answer ((byReconcile_reconcileBrokerState ..).mono
          (Act.leavesConfirmed_of_byReconcile symbol)) hconfirmed) (fun _ _ h' => .inr h') fun _ _ h' => .inr h'
    refine Raising.Ends.mono (hstate.and
      (reconcileBrokerState_reports p.answer p.now hdb (hparsed orders horders) _)) ?_ fun _ _ h' => h'.1
    rintro _ d₁ ⟨h₁, hkept⟩
    exact manageStaleOrders_confirms p.answer p.now p.calendar p.config p.entryBarKey h₁ (hsame d₁ hkept)

/-- A pass that cancels an order leaves it waiting. -/
theorem exec_request {o : BrokerOrder} {barKey : String} (hparsed : p.ReadsParsed) (hmet : PassMet p d)
    (ho : d.order o.clientOrderId = some o) (hcancels : p.Cancels d o.clientOrderId)
    (hbar : p.entryBarKey = some barKey) :
    Waiting o.clientOrderId o.symbol o.brokerIdText barKey (p.exec d) := by
  have hends : (p.exec d).cancels.count o.clientOrderId = d.cancels.count o.clientOrderId ∨
      Waiting o.clientOrderId o.symbol o.brokerIdText barKey (p.exec d) := by
    refine exec_of_ends
      (P := fun d' => d'.cancels.count o.clientOrderId = d.cancels.count o.clientOrderId ∨
        Waiting o.clientOrderId o.symbol o.brokerIdText barKey d') ?_
    cases horders : p.snapshot.orders with
    | error e =>
      exact Raising.Ends.mono (Spares.ends p.answer (spares_of_unread horders o.clientOrderId) d)
        (fun _ _ hs => .inl hs.count) fun _ _ hs => .inl hs.count
    | ok orders =>
      unfold program
      rw [horders, hbar]
      apply Raising.Ends.bind
      refine Raising.Ends.mono (reconcileBrokerState_reread p.answer p.now o.clientOrderId
        (hparsed orders horders) p.snapshot.account d) ?_ fun _ _ hcount => .inl hcount
      intro _ d₁ h₁
      -- the reconciliation keeps the terms of the order
      obtain ⟨o₁, ho₁, hid, hsymbol, hnumber⟩ : ∃ o₁, d₁.order o.clientOrderId = some o₁ ∧
          o₁.clientOrderId = o.clientOrderId ∧ o₁.symbol = o.symbol ∧ o₁.brokerIdText = o.brokerIdText := by
        rcases h₁.row with ⟨hrow, -⟩ | ⟨o', ho', hid, o₁, ho₁, hafter⟩
        · exact ⟨o, hrow.trans ho, rfl, rfl, rfl⟩
        · have hfind := d.db.brokerOrders.find?_of_mem (mem_reconciledRows.mp ho').1
          rw [hid] at hfind
          obtain rfl : o = o' := Option.some.inj (ho.symm.trans hfind)
          have hid₁ : o₁.clientOrderId = o.clientOrderId := d₁.db.brokerOrders.key_of_find? ho₁
          cases hafter with
          | same => exact ⟨o, ho₁, rfl, rfl, rfl⟩
          | copied record status _ _ _ _ htext _ hterms => exact ⟨o₁, ho₁, hid₁, hterms.symbol, htext⟩
      have hrequest := @manageStaleOrders_request p.answer p.now p.calendar p.config orders o₁ barKey
        hmet.accepted d₁ (by rw [hid]; exact ho₁)
      rw [hid, hsymbol, hnumber, h₁.count] at hrequest
      exact hrequest
  rcases hends with hcount | hwaiting
  · exact absurd hcancels (by rw [Cancels, hcount]; exact lt_irrefl _)
  · exact hwaiting

end ManagementPass

/-! ### Runs -/

theorem RunMet.left {passes passes' : List ManagementPass} {d : Desk} (h : RunMet (passes ++ passes') d) :
    RunMet passes d := by
  induction passes generalizing d with
  | nil => trivial
  | cons p passes ih => exact ⟨h.1, ih h.2⟩

theorem RunMet.right {passes passes' : List ManagementPass} {d : Desk} (h : RunMet (passes ++ passes') d) :
    RunMet passes' (runPasses passes d) := by
  induction passes generalizing d with
  | nil => exact h
  | cons p passes ih => exact ih h.2

theorem runPasses_programState {passes : List ManagementPass} {d : Desk} (hdb : ProgramState d.db) :
    ProgramState (runPasses passes d).db := by
  induction passes generalizing d with
  | nil => exact hdb
  | cons p passes ih => exact ih (ManagementPass.exec_programState hdb)

theorem runPasses_waiting {passes : List ManagementPass} {d : Desk} {id symbol number barKey : String}
    (hdb : ProgramState d.db) (hparsed : ∀ p ∈ passes, p.ReadsParsed)
    (h : Waiting id symbol number barKey d) (hquiet : ∀ p ∈ passes, ¬p.Reports number) :
    Waiting id symbol number barKey (runPasses passes d) := by
  induction passes generalizing d with
  | nil => exact h
  | cons p passes ih =>
    refine ih (ManagementPass.exec_programState hdb) (fun q hq => hparsed q (List.mem_cons_of_mem _ hq)) ?_
      fun q hq => hquiet q (List.mem_cons_of_mem _ hq)
    exact ManagementPass.exec_waiting hdb (hparsed p List.mem_cons_self) h (hquiet p List.mem_cons_self)

theorem runPasses_confirms {passes : List ManagementPass} {d : Desk} {id symbol number barKey : String}
    (hdb : ProgramState d.db) (hparsed : ∀ p ∈ passes, p.ReadsParsed) (hmet : RunMet passes d)
    (h : Waiting id symbol number barKey d ∨ d.confirmedBar symbol = some barKey) :
    Waiting id symbol number barKey (runPasses passes d) ∨
      (runPasses passes d).confirmedBar symbol = some barKey := by
  induction passes generalizing d with
  | nil => exact h
  | cons p passes ih =>
    refine ih (ManagementPass.exec_programState hdb) (fun q hq => hparsed q (List.mem_cons_of_mem _ hq))
      hmet.2 ?_
    exact ManagementPass.exec_confirms hdb (hparsed p List.mem_cons_self) hmet.1 h

/-- **No entry on the bar of a cancelled one.**  In every run of passes whose cancellations the
    broker accepts and whose reports are met, no entry of a symbol is allowed while a
    cancellation waits for its report, and none on its bar from then on. -/
theorem no_reentry_of_met (db : Database) (hdb : ProgramState db) (passes : List ManagementPass)
    (hparsed : ∀ p ∈ passes, p.ReadsParsed) (hmet : RunMet passes ⟨db, []⟩) :
    NoReentry passes ⟨db, []⟩ := by
  intro earlier request seen hprefix o barKey ho hcancels hbar
  obtain ⟨future, rfl⟩ := hprefix
  have hmet' := hmet.left.right
  have hdb₁ : ProgramState (runPasses earlier ⟨db, []⟩).db := runPasses_programState hdb
  have hparsed' : ∀ p ∈ request :: seen, p.ReadsParsed := fun p hp =>
    hparsed p (List.mem_append_left _ (List.mem_append_right _ hp))
  have hwaiting := ManagementPass.exec_request (hparsed' request List.mem_cons_self) hmet'.1 ho hcancels hbar
  have hdb₂ := ManagementPass.exec_programState (p := request) hdb₁
  have hseen : ∀ p ∈ seen, p.ReadsParsed := fun p hp => hparsed' p (List.mem_cons_of_mem _ hp)
  have hrun : runPasses (earlier ++ request :: seen) ⟨db, []⟩ =
      runPasses seen (request.exec (runPasses earlier ⟨db, []⟩)) := by
    rw [runPasses, List.foldl_append]
    rfl
  rw [hrun]
  refine ⟨fun hquiet key => ?_, fun _ => ?_⟩
  · exact (runPasses_waiting hdb₂ hseen hwaiting hquiet).not_allowed key
  · rcases runPasses_confirms hdb₂ hseen hmet'.2 (.inl hwaiting) with hstill | hconfirmed
    · exact hstill.not_allowed barKey
    · exact not_allowed_of_confirmedBar hconfirmed

/-! ### A report that the reconciliation sees first -/

namespace SeenFirst

open TimedOut in
/-- A pass a minute after the submission, on a bar. -/
def request : ManagementPass :=
  ⟨at' 1 0, none, ⟨30, 30⟩, some "2024-10-04T09:01", snapshot, accepting⟩

def cancelled (ordered : Int) : OrderRecord :=
  ⟨"K1", "005930", some .buy, ordered, 0, 0, none, none, .cancelled, none⟩

/-- The pass after it, with the report. -/
def report (ordered : Int) : ManagementPass :=
  ⟨TimedOut.at' 2 0, none, ⟨30, 30⟩, some "2024-10-04T09:02", ⟨.ok [cancelled ordered], .ok []⟩,
    TimedOut.accepting⟩

def row (ordered : String) : StatusRow := fun field => List.lookup field
  [("odno", "K1"), ("pdno", "005930"), ("sll_buy_dvsn_cd", "02"), ("ord_qty", ordered),
    ("tot_ccld_qty", "0"), ("rmn_qty", "0"), ("cncl_cfrm_qty", ordered)]

theorem parsed_cancelled : Parsed (cancelled 4) := ⟨row "4", Except.eq_ok_of_toOption (by decide +kernel)⟩

theorem parsed_other : Parsed (cancelled 5) := ⟨row "5", Except.eq_ok_of_toOption (by decide +kernel)⟩

theorem submitted_programState : ProgramState TimedOut.submitted := by
  refine .call _ (.call _ .empty ?_) ?_ <;>
    · intro now a he; cases he

theorem request_parsed : request.ReadsParsed := by
  intro orders horders r hr
  cases horders
  rw [List.mem_singleton.mp hr]
  exact LostRequest.parsed_working

theorem report_parsed {ordered : Int} (h : Parsed (cancelled ordered)) : (report ordered).ReadsParsed := by
  intro orders horders r hr
  cases horders
  rw [List.mem_singleton.mp hr]
  exact h

theorem parsed_passes {ordered : Int} (h : Parsed (cancelled ordered)) :
    ∀ p ∈ [request, report ordered], p.ReadsParsed := by
  intro p hp
  rcases List.mem_cons.mp hp with rfl | hp
  · exact request_parsed
  · rw [List.mem_singleton.mp hp]
    exact report_parsed h

/-- The report of the cancelled order comes, the reconciliation copies it, and an entry is
    allowed on the bar of the cancelled one. -/
theorem reentry_on_cancelled_bar :
    ∃ db passes, ProgramState db ∧ (∀ p ∈ passes, p.ReadsParsed) ∧
      (∀ p ∈ passes, ∀ log, p.answer log = .ok ()) ∧ ¬NoReentry passes ⟨db, []⟩ := by
  refine ⟨TimedOut.submitted, [request, report 4], submitted_programState, parsed_passes parsed_cancelled, ?_, ?_⟩
  · intro p hp log
    rcases List.mem_cons.mp hp with rfl | hp
    · rfl
    · rw [List.mem_singleton.mp hp]
      rfl
  · intro hnone
    obtain ⟨o, ho, hsymbol, hnumber, hid⟩ : ∃ o, TimedOut.submitted.brokerOrders.find? "client-1" = some o ∧
        o.symbol = "005930" ∧ o.brokerIdText = "K1" ∧ o.clientOrderId = "client-1" := by
      have hrow : (TimedOut.submitted.brokerOrders.find? "client-1").map
          (fun o => (o.symbol, o.brokerIdText, o.clientOrderId)) = some ("005930", "K1", "client-1") := by
        decide +kernel
      obtain ⟨o, ho, hfields⟩ := Option.map_eq_some_iff.mp hrow
      simp only [Prod.mk.injEq] at hfields
      exact ⟨o, ho, hfields.1, hfields.2.1, hfields.2.2⟩
    have hcancels : request.Cancels ⟨TimedOut.submitted, []⟩ "client-1" := by
      unfold ManagementPass.Cancels
      decide +kernel
    have hreports : (report 4).Reports "K1" :=
      ⟨[cancelled 4], rfl, cancelled 4, by decide +kernel, by decide⟩
    have hrefused := (hnone [] request [report 4] List.prefix_rfl o "2024-10-04T09:01"
      (by rw [hid]; exact ho) (by rw [hid]; exact hcancels) rfl).2
      ⟨report 4, List.mem_singleton_self _, by rw [hnumber]; exact hreports⟩
    rw [hsymbol] at hrefused
    refine hrefused ⟨⟨true, "no_unresolved_order", none⟩, ?_, rfl⟩
    have hallowed : ((canReEvaluateEntry (runPasses [request, report 4] ⟨TimedOut.submitted, []⟩).db
        "005930" "2024-10-04T09:01").toOption.map fun state =>
          (state.allowed, state.reason, state.lastConfirmedBarKey)) =
        some (true, "no_unresolved_order", none) := by decide +kernel
    obtain ⟨state, hstate, hfields⟩ := Option.map_eq_some_iff.mp hallowed
    obtain ⟨allowed, reason, bar⟩ := state
    simp only [Prod.mk.injEq] at hfields
    obtain ⟨rfl, rfl, rfl⟩ := hfields
    exact Except.eq_ok_of_toOption hstate

/-- A report of another quantity is refused by the reconciliation, and confirmed. -/
theorem refused_report_confirmed : NoReentry [request, report 5] ⟨TimedOut.submitted, []⟩ := by
  refine no_reentry_of_met TimedOut.submitted submitted_programState [request, report 5]
    (parsed_passes parsed_other) ⟨⟨fun _ => rfl, ?_⟩, ⟨fun _ => rfl, ?_⟩, trivial⟩
  · rintro orders horders
    cases horders
    exact ⟨by decide +kernel, by decide +kernel, by decide +kernel⟩
  · rintro orders horders
    cases horders
    exact ⟨by decide +kernel, by decide +kernel, by decide +kernel⟩

end SeenFirst

end AutoTrader
