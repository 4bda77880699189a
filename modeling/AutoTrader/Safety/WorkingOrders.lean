/-
  AutoTrader/Safety/WorkingOrders.lean
  ====================================
  **Orders that still work at the broker.**

  The status of a record is derived from a word, from a rejected quantity or flag,
  from a cancelled quantity or from the quantities alone, in this order.  The last
  two end an order only when nothing remains.  The first two do not look at what
  remains: a word is believed, and one rejected share rejects the order.

  `StatusBacked` is what a row has to say for its status to be true to its
  quantities.  A pass on such rows gives a terminal status to no order that the
  broker still works, also when its new fill completes the requested quantity.
-/
import AutoTrader.Pipeline.OrderStatus
import AutoTrader.Safety.OrderPass
import AutoTrader.Safety.ReconcileTotal

namespace AutoTrader

open Relational Transactional Interleave

/-! ### Rows and their status -/

/-- A record is finished only when nothing works any more, and filled only with the
    ordered quantity. -/
structure NotFinishedEarly (record : OrderRecord) : Prop where
  working : 0 < record.remainingQuantity →
    record.status ≠ .filled ∧ record.status ≠ .cancelled ∧ record.status ≠ .rejected
  filled : record.status = .filled → record.orderedQuantity ≤ record.filledQuantity

/-- `_int_value(_first(row, *names))`, zero where it raises. -/
def statedQuantity (row : StatusRow) (names : List String) : Int :=
  (intValue (first row names)).toOption.getD 0

def statedOrdered (row : StatusRow) : Int :=
  statedQuantity row ["ord_qty", "ORD_QTY", "ordered_quantity"]

def statedFilled (row : StatusRow) : Int :=
  statedQuantity row ["tot_ccld_qty", "ccld_qty", "filled_qty", "TOT_CCLD_QTY"]

/-- The row states a remaining quantity, or fewer shares filled than ordered. -/
def stillWorking (row : StatusRow) : Bool :=
  match first row ["rmn_qty", "remaining_qty", "RMN_QTY"] with
  | some _ => 0 < statedQuantity row ["rmn_qty", "remaining_qty", "RMN_QTY"]
  | none => statedFilled row < statedOrdered row

/-- A rejected quantity or flag. -/
def saysRejected (row : StatusRow) : Bool :=
  0 < statedQuantity row ["rjct_qty", "reject_qty", "RJCT_QTY"] || flag (first row ["rjct_yn", "reject_yn"])

/-- What the row says of the order's end is backed by its quantities. -/
def StatusBacked (row : StatusRow) : Prop :=
  match directStatus.lookup (lowered (first row ["order_status", "ord_status", "status", "STATUS"])) with
  | some .filled => stillWorking row = false ∧ statedOrdered row ≤ statedFilled row
  | some .cancelled => stillWorking row = false
  | some .rejected => stillWorking row = false
  | some _ => True
  | none => saysRejected row = true → stillWorking row = false

theorem statedQuantity_of_ok {row : StatusRow} {names : List String} {n : Int}
    (h : intValue (first row names) = .ok n) : statedQuantity row names = n := by
  rw [statedQuantity, h]
  rfl

/-- The quantities and the status of an accepted row. -/
structure ParsedFrom (row : StatusRow) (record : OrderRecord) : Prop where
  ordered : record.orderedQuantity = statedOrdered row
  filled : record.filledQuantity = statedFilled row
  remaining : 0 < record.remainingQuantity ↔ stillWorking row = true
  status : parseStatus row record.orderedQuantity record.filledQuantity record.remainingQuantity =
    .ok record.status

theorem parsedFrom_of_ok {row : StatusRow} {record : OrderRecord}
    (h : parseOrderStatus row = .ok (some record)) : ParsedFrom row record := by
  unfold parseOrderStatus at h
  split at h
  · rename_i number symbol _ _
    split at h
    · obtain ⟨parsed, hparsed, hrecord⟩ : ∃ parsed, parseRecord row number symbol = .ok parsed ∧
          parsed = record := by
        cases hparsed : parseRecord row number symbol with
        | error e => rw [hparsed] at h; cases h
        | ok parsed => rw [hparsed] at h; cases h; exact ⟨record, rfl, rfl⟩
      unfold parseRecord at hparsed
      obtain ⟨ordered, hordered, hparsed⟩ := Except.bind_eq_ok hparsed
      obtain ⟨filled, hfilled, hparsed⟩ := Except.bind_eq_ok hparsed
      obtain ⟨remaining, hremaining, hparsed⟩ := Except.bind_eq_ok hparsed
      obtain ⟨status, hstatus, hparsed⟩ := Except.bind_eq_ok hparsed
      have hordered' : statedOrdered row = ordered := statedQuantity_of_ok hordered
      have hfilled' : statedFilled row = filled := statedQuantity_of_ok hfilled
      cases hrecord
      cases hparsed
      refine ⟨hordered'.symm, hfilled'.symm, ?_, hstatus⟩
      unfold remainingQuantity at hremaining
      unfold stillWorking
      cases hexplicit : first row ["rmn_qty", "remaining_qty", "RMN_QTY"] with
      | some explicit =>
        have hstated : intValue (first row ["rmn_qty", "remaining_qty", "RMN_QTY"]) = .ok remaining := by
          simpa only [hexplicit] using hremaining
        simp [statedQuantity_of_ok hstated]
      | none =>
        simp only [hexplicit, Except.ok.injEq] at hremaining
        simp [← hremaining, hordered', hfilled']
    · cases h
  · cases h

/-- The four sources of a status, in their order. -/
theorem parseStatus_ok {row : StatusRow} {ordered filled remaining : Int} {status : KisOrderStatus}
    (h : parseStatus row ordered filled remaining = .ok status) :
    match directStatus.lookup (lowered (first row ["order_status", "ord_status", "status", "STATUS"])) with
    | some word => status = word
    | none =>
      if saysRejected row = true then status = .rejected
      else status ≠ .rejected ∧ (status = .cancelled → remaining = 0) ∧
        (status = .filled → ordered ≤ filled ∧ remaining = 0) := by
  unfold parseStatus at h
  cases hword : directStatus.lookup
      (lowered (first row ["order_status", "ord_status", "status", "STATUS"])) with
  | some word =>
    rw [hword] at h
    cases h
    rfl
  | none =>
    rw [hword] at h
    obtain ⟨rejected, hrejected, h⟩ := Except.bind_eq_ok h
    have hstates : saysRejected row = true ↔
        0 < rejected ∨ flag (first row ["rjct_yn", "reject_yn"]) = true := by
      rw [saysRejected, statedQuantity_of_ok hrejected, Bool.or_eq_true, decide_eq_true_eq]
    dsimp only
    split at h
    · rename_i hrejects
      rw [if_pos (hstates.mpr hrejects)]
      cases h
      rfl
    · rename_i hrejects
      rw [if_neg (fun hs => hrejects (hstates.mp hs))]
      obtain ⟨cancelled, -, h⟩ := Except.bind_eq_ok h
      split at h
      · rename_i hcancelled
        cases h
        exact ⟨by decide, fun _ => hcancelled.2, fun hs => absurd hs (by decide)⟩
      · split at h
        · rename_i hall
          cases h
          exact ⟨by decide, fun hs => absurd hs (by decide), fun _ => hall.2⟩
        · -- what is left are statuses of open orders
          have hopen : status = .partiallyFilled ∨ status = .unfilled ∨ status = .unknown := by
            split at h
            · cases h; exact .inl rfl
            · split at h
              · cases h; exact .inr (.inl rfl)
              · cases h; exact .inr (.inr rfl)
          refine ⟨?_, ?_, ?_⟩
          · rintro rfl
            simp at hopen
          · rintro rfl
            simp at hopen
          · rintro rfl
            simp at hopen

/-- **When a record is finished early.**  The status of an accepted row is true to
    its quantities exactly when what the row says of its end is backed by them. -/
theorem notFinishedEarly_iff {row : StatusRow} {record : OrderRecord}
    (h : parseOrderStatus row = .ok (some record)) : NotFinishedEarly record ↔ StatusBacked row := by
  obtain ⟨hordered, hfilled, hremaining, hstatus⟩ := parsedFrom_of_ok h
  have hparsed := parseStatus_ok hstatus
  have hidle : stillWorking row = false ↔ ¬ 0 < record.remainingQuantity := by
    rw [hremaining, Bool.not_eq_true]
  unfold StatusBacked
  cases hword : directStatus.lookup
      (lowered (first row ["order_status", "ord_status", "status", "STATUS"])) with
  | some word =>
    rw [hword] at hparsed
    subst hparsed
    split
    · rename_i hfinal
      have hstated : record.status = .filled := Option.some.inj hfinal
      rw [← hordered, ← hfilled, hidle]
      constructor
      · exact fun h => ⟨fun hworking => (h.working hworking).1 hstated, h.filled hstated⟩
      · exact fun h => ⟨fun hworking => absurd hworking h.1, fun _ => h.2⟩
    · rename_i hfinal
      have hstated : record.status = .cancelled := Option.some.inj hfinal
      rw [hidle]
      constructor
      · exact fun h hworking => (h.working hworking).2.1 hstated
      · refine fun h => ⟨fun hworking => absurd hworking h, fun hfull => ?_⟩
        rw [hstated] at hfull
        cases hfull
    · rename_i hfinal
      have hstated : record.status = .rejected := Option.some.inj hfinal
      rw [hidle]
      constructor
      · exact fun h hworking => (h.working hworking).2.2 hstated
      · refine fun h => ⟨fun hworking => absurd hworking h, fun hfull => ?_⟩
        rw [hstated] at hfull
        cases hfull
    · rename_i hnotFilled hnotCancelled hnotRejected hword'
      have hstated := Option.some.inj hword'
      refine ⟨fun _ => trivial, fun _ => ⟨fun _ => ⟨?_, ?_, ?_⟩, fun hfull => ?_⟩⟩
      · exact fun hs => hnotFilled (hstated.symm.trans hs)
      · exact fun hs => hnotCancelled (hstated.symm.trans hs)
      · exact fun hs => hnotRejected (hstated.symm.trans hs)
      · exact absurd (hstated.symm.trans hfull) hnotFilled
    · rename_i hnone
      cases hnone
  | none =>
    rw [hword] at hparsed
    dsimp only at hparsed ⊢
    split at hparsed
    · rename_i hrejects
      rw [hidle]
      constructor
      · exact fun h _ hworking => (h.working hworking).2.2 hparsed
      · refine fun h => ⟨fun hworking => absurd hworking (h hrejects), fun hfull => ?_⟩
        rw [hparsed] at hfull
        cases hfull
    · rename_i hrejects
      obtain ⟨hnotRejected, hcancelled, hfull⟩ := hparsed
      refine ⟨fun _ hstates => absurd hstates hrejects, fun _ => ⟨fun hworking => ⟨?_, ?_, hnotRejected⟩, ?_⟩⟩
      · exact fun hs => absurd (hfull hs).2 (by omega)
      · exact fun hs => absurd (hcancelled hs) (by omega)
      · exact fun hs => (hfull hs).1

/-! ### A pass on backed records -/

/-- The order has a row, and its status is not terminal. -/
def Database.worksLocally (db : Database) (c : String) : Prop :=
  ∃ o, db.brokerOrders.find? c = some o ∧ o.status.terminal = false

theorem localStatus_open {status : KisOrderStatus} {s : OrderStatus}
    (h : localStatusForBroker status = some s)
    (hopen : status ≠ .filled ∧ status ≠ .cancelled ∧ status ≠ .rejected) : s.terminal = false := by
  obtain ⟨hfilled, hcancelled, hrejected⟩ := hopen
  cases status with
  | unfilled => cases h; rfl
  | partiallyFilled => cases h; rfl
  | filled => exact absurd rfl hfilled
  | cancelled => exact absurd rfl hcancelled
  | rejected => exact absurd rfl hrejected
  | unknown => cases h

theorem keptPending_open {local' status : OrderStatus} (h : status.terminal = false) :
    (keptPending local' status).terminal = false := by
  unfold keptPending
  split
  · rfl
  · exact h

section Pass

variable (broker : BrokerReplies) (now : DateTime)

/-- Copying an open status reopens the row or leaves it alone. -/
theorem worksLocally_copied {db : Database} {c : String} (h : db.worksLocally c) {u : StatusUpdate}
    (hopen : u.status.terminal = false) :
    ((Op.updateBrokerOrderStatus now c u).exec db).worksLocally c := by
  obtain ⟨o, ho, hworks⟩ := h
  rcases updateBrokerOrderStatus_cases now c u db with
    ⟨e, hr⟩ | ⟨checked, -, -, hr⟩ | ⟨cur, checked, -, hcur, -, hr⟩
  · simp only [Op.exec, Op.call, Op.run, hr]; exact ⟨o, ho, hworks⟩
  · simp only [Op.exec, Op.call, Op.run, hr]; exact ⟨o, ho, hworks⟩
  · simp only [Op.exec, Op.call, Op.run, hr]
    exact ⟨updatedHeader now u checked cur, by rw [Table.find?_update_self, hcur, Option.map_some], hopen⟩

theorem worksLocally_aside {c : String} {db db' : Database} (h : db.worksLocally c)
    (hs : Aside c db db') : db'.worksLocally c := by
  obtain ⟨o, ho, hworks⟩ := h
  exact ⟨o, hs.row.trans ho, hworks⟩

/-- Settling a row that is open. -/
theorem settleOrder_works {o : BrokerOrder} {record : OrderRecord} {db : Database}
    (hopen : record.status ≠ .filled ∧ record.status ≠ .cancelled ∧ record.status ≠ .rejected)
    (h : db.worksLocally o.clientOrderId) (acc : PassState) :
    Raising.Ends (dbHandler broker) (settleOrder now o record acc)
      (fun _ db' => db'.worksLocally o.clientOrderId) (fun _ db' => db'.worksLocally o.clientOrderId)
      db := by
  refine settleOrder_keeps (R := fun db => db.worksLocally o.clientOrderId) broker now h ?_ ?_ acc
  · exact fun status _ hstatus =>
      worksLocally_copied now h (keptPending_open (localStatus_open hstatus hopen))
  · exact fun db' a h' => worksLocally_aside h' (.materialize _ now a db')

/-- Settling a row that the new fill completed: an accepted record reopens it. -/
theorem settleOrder_reopens {o cur : BrokerOrder} {record : OrderRecord} {db : Database}
    (hopen : record.status ≠ .filled ∧ record.status ≠ .cancelled ∧ record.status ≠ .rejected)
    (hknown : record.status ≠ .unknown) (hid : Text.blank o.clientOrderId = false)
    (hnumber : Text.blank record.orderNumber = false) (hfilled : 0 ≤ record.filledQuantity)
    (haccepted : priceRefused record = false)
    (hcur : db.brokerOrders.find? o.clientOrderId = some cur)
    (hfit : record.filledQuantity ≤ cur.requestedQty) (acc : PassState) :
    Raising.Ends (dbHandler broker) (settleOrder now o record acc)
      (fun _ db' => db'.worksLocally o.clientOrderId) (fun _ db' => db'.worksLocally o.clientOrderId)
      db := by
  unfold settleOrder
  split
  · rename_i hstatus
    refine absurd ?_ hknown
    cases hs : record.status <;> rw [hs] at hstatus <;> first | rfl | cases hstatus
  · rename_i status hstatus
    let u := recordUpdate now (keptPending o.status status) record
      (if (keptPending o.status status).terminal then some now else none)
    have hreopened : ((Op.updateBrokerOrderStatus now o.clientOrderId u).exec db).worksLocally
        o.clientOrderId := by
      rcases updateBrokerOrderStatus_cases now o.clientOrderId u db with
        ⟨e, hr⟩ | ⟨checked, hchecked, hno, hr⟩ | ⟨row, checked, -, hrow, -, hr⟩
      · -- the price is accepted, so the update does not raise
        have hraises := (updateBrokerOrderStatus_raises now hid u db).mp ⟨e, by
          simp only [Op.call, Op.run, hr]⟩
        rw [(checkUpdate_recordUpdate now hnumber hfilled _ _).mp hraises] at haccepted
        cases haccepted
      · have hskip := hno cur hcur
        simp only [withinRequested, (checkUpdate_ok hchecked).1, u, recordUpdate, Option.map_some,
          decide_eq_false_iff_not, not_le] at hskip
        omega
      · simp only [Op.exec, Op.call, Op.run, hr]
        refine ⟨updatedHeader now u checked row, ?_, keptPending_open (localStatus_open hstatus hopen)⟩
        rw [Table.find?_update_self, hrow, Option.map_some]
    apply Raising.Ends.bind
    refine ends_execute_exec broker db ?_ fun _ _ => hreopened
    intro updated _
    apply Raising.Ends.bind
    apply Raising.Ends.attempt
    refine Raising.Ends.mono (materializeLocalFills_keeps
      (R := fun db => db.worksLocally o.clientOrderId) broker now hreopened ?_ o) ?_ ?_
    · exact fun a => worksLocally_aside hreopened (.materialize _ now a _)
    · exact fun _ _ h => h
    · exact fun _ _ h => h

/-- The iteration of an order whose record is not finished. -/
theorem bookDifference_works {o : BrokerOrder} {record : OrderRecord} (hparsed : Parsed record)
    (hopen : record.status ≠ .filled ∧ record.status ≠ .cancelled ∧ record.status ≠ .rejected)
    (hid : Text.blank o.clientOrderId = false) (hpriced : ∀ p, o.avgFillPrice = some p → 0 < p)
    (hgrown : (o.filledQty : Int) ≤ record.filledQuantity) {db : Database}
    (ho : db.brokerOrders.find? o.clientOrderId = some o) (hworks : o.status.terminal = false)
    (acc : PassState) :
    Raising.Ends (dbHandler broker) (bookDifference now o record acc)
      (fun _ db' => db'.worksLocally o.clientOrderId) (fun _ db' => db'.worksLocally o.clientOrderId)
      db := by
  obtain ⟨hnumber, hfilled, hunknown⟩ := hparsed.wellFormed
  have hdb : db.worksLocally o.clientOrderId := ⟨o, ho, hworks⟩
  refine bookDifference_keeps (R := fun db => db.worksLocally o.clientOrderId) broker now hdb ?_ ?_ acc
  · exact fun _ acc' => settleOrder_works broker now hopen hdb acc'
  · intro hdelta price hprice
    dsimp only
    rcases applyBrokerFill_cases now (reconcileFillArgs now o record
        (record.filledQuantity - o.filledQty) price) db with
      ⟨e, hr⟩ | ⟨-, hr⟩ | ⟨checked, order, hchecked, horder, -, hfit, hr⟩
    · simp only [Op.exec, Op.call, Op.run, hr]
      exact ⟨fun _ _ => hdb, by rintro inserted ⟨⟩⟩
    · simp only [Op.exec, Op.call, Op.run, hr]
      exact ⟨by rintro e ⟨⟩, fun _ _ acc' => settleOrder_works broker now hopen hdb acc'⟩
    · obtain rfl : order = o := Option.some.inj (horder.symm.trans ho)
      have hquantity := checkFill_quantity (a := reconcileFillArgs now order record
        (record.filledQuantity - order.filledQty) price) rfl hchecked
      have haccepted : priceRefused record = false := not_priceRefused_of_fill hpriced (by omega)
        (by omega) hprice (checkFill_price hchecked)
      have hknown : record.status ≠ .unknown := by
        intro hs
        have := hunknown hs
        omega
      simp only [Op.exec, Op.call, Op.run, hr]
      refine ⟨by rintro e ⟨⟩, fun _ _ acc' => ?_⟩
      have hself := Table.find?_update_self db.brokerOrders order.clientOrderId
        (rollFill (fillRow now (reconcileFillArgs now order record
          (record.filledQuantity - order.filledQty) price) checked order)) (rollFill_clientOrderId _)
      rw [ho, Option.map_some] at hself
      refine settleOrder_reopens broker now hopen hknown hid hnumber hfilled haccepted hself ?_ acc'
      simp only [rollFill]
      omega

/-- The pass, on records that are not finished early. -/
theorem pass_works {db : Database} (hdb : ProgramState db) {records : List OrderRecord}
    (hparsed : ∀ record ∈ records, Parsed record ∧ NotFinishedEarly record)
    (account : Except ReadError (List AccountPosition)) {c : String} {o : BrokerOrder}
    (ho : db.brokerOrders.find? c = some o) (hworks : o.status.terminal = false)
    (hworking : ∀ record, byBrokerId records o.brokerIdText = some record →
      0 < record.remainingQuantity) :
    (Raising.eval (dbHandler broker) (reconcileBrokerState now (.ok records) account) db).2.worksLocally
      c := by
  refine pass_order (R := fun db => db.worksLocally c) broker now ⟨o, ho, hworks⟩
    (fun _ _ h₁ h₂ => worksLocally_aside h₁ h₂) _ ?_ account
  rintro _ ⟨⟩ o' - ho' acc db₁ haside
  obtain rfl : o' = o := Option.some.inj (ho'.symm.trans ho)
  have hid : o'.clientOrderId = c := db.brokerOrders.key_of_find? ho
  subst hid
  have hmem := db.brokerOrders.mem_of_find? ho
  have ho₁ := haside.row.trans ho
  refine reconcileOrder_keeps (R := fun db => db.worksLocally o'.clientOrderId) broker now
    ⟨o', ho₁, hworks⟩ ?_ acc
  intro record hrecord _ hgrown acc'
  obtain ⟨hrow, hearly⟩ := hparsed record (byBrokerId_some hrecord).1
  exact bookDifference_works broker now hrow (hearly.working (hworking record hrecord))
    (hdb.ledger.ledger.named o' hmem) (hdb.priced o' hmem) hgrown ho₁ hworks acc'

end Pass

namespace PartialReject

def opening : DateTime := .combine 20000 9 0 0 (some DateTime.kstOffset)

def broker : BrokerReplies := ⟨fun _ _ => .ok none, fun _ _ _ _ => .ok ()⟩

/-- Ten shares acknowledged by the broker. -/
def acknowledged : Database :=
  runOps [.claimOrderIntent opening ⟨"b1", some "d1", "005930", "BUY", .int 10, .int 100, none⟩,
    .recordOrderSubmission opening "b1" "K1" none] Database.empty

theorem acknowledged_programState : ProgramState acknowledged :=
  .call _ (.call _ .empty fun _ _ he => by cases he) fun _ _ he => by cases he

/-- Seven of the ten shares still work; `what` happened to the other three. -/
def row (what : String) : StatusRow := fun field =>
  List.lookup field [("odno", "K1"), ("pdno", "005930"), ("sll_buy_dvsn_cd", "02"), ("ord_qty", "10"),
    ("rmn_qty", "7"), (what, "3")]

def record (filled : Int) (status : KisOrderStatus) : OrderRecord :=
  ⟨"K1", "005930", some .buy, 10, filled, 7, none, none, status, none⟩

theorem row_rejected : parseOrderStatus (row "rjct_qty") = .ok (some (record 0 .rejected)) :=
  Except.eq_ok_of_toOption (by decide +kernel)

theorem row_filled : parseOrderStatus (row "tot_ccld_qty") = .ok (some (record 3 .partiallyFilled)) :=
  Except.eq_ok_of_toOption (by decide +kernel)

def after (record : OrderRecord) : Database :=
  (Raising.eval (dbHandler broker) (reconcileBrokerState opening (.ok [record]) (.ok [])) acknowledged).2

end PartialReject

end AutoTrader
