/-
  AutoTrader/Safety/NoticeOrder.lean
  ==================================
  **The order in which notices arrive does not matter.**

  The websocket may deliver the notices of an order in any order and more than once, with
  acceptances between them.  After a set of executions was delivered, however it was, the row
  of the order, its fills, the applied fills and the holding of its symbol are a function of
  the set (`booksAfter`): what a notice adds to them is a sum, and a notice that is delivered
  again finds its fill recorded and applied.

  The order number is looked up as it stands only up to 64 characters, although neither the
  parser of the feed nor the ledger bounds its length.
-/
import AutoTrader.Broker.ReceivedNotices
import AutoTrader.Ledger.OneFill
import AutoTrader.Lib.AtLeastOnce
import AutoTrader.Safety.OrderOfTheDay

namespace AutoTrader

open Relational Transactional Interleave AtLeastOnce

/-! ### What a set of executions amounts to -/

theorem executedQuantity_perm {ns ns' : List FillNotice} (h : ns.Perm ns') :
    executedQuantity ns = executedQuantity ns' := (h.map _).sum_eq

theorem executedNotional_perm {ns ns' : List FillNotice} (h : ns.Perm ns') :
    executedNotional ns = executedNotional ns' := (h.map _).sum_eq

@[simp] theorem executedNotional_append (ns ns' : List FillNotice) :
    executedNotional (ns ++ ns') = executedNotional ns + executedNotional ns' := by
  simp [executedNotional]

theorem executedQuantity_singleton (n : FillNotice) : executedQuantity [n] = n.quantity := by
  simp [executedQuantity]

theorem executedNotional_singleton (n : FillNotice) : executedNotional [n] = n.quantity * n.fillPrice := by
  simp [executedNotional]

/-- Executions among others are no more than these. -/
theorem executedQuantity_le {ns ns' : List FillNotice} (hnodup : ns.Nodup) (h : ns ⊆ ns') :
    executedQuantity ns ≤ executedQuantity ns' := by
  obtain ⟨arranged, hperm, hsub⟩ := hnodup.subperm h
  rw [← executedQuantity_perm hperm]
  exact (hsub.map _).sum_le_sum fun _ _ => Nat.zero_le _

/-- The average price of the executions; the order keeps what it has without one. -/
def averageAfter (o : BrokerOrder) (ns : List FillNotice) : Option ℚ :=
  if ns = [] then o.avgFillPrice else some (executedNotional ns / executedQuantity ns)

def statusAfter (o : BrokerOrder) (ns : List FillNotice) : OrderStatus :=
  if ns = [] then o.status
  else if executedQuantity ns = o.requestedQty then .filled
  else .partiallyFilled

/-- The holding after bought or sold executions. -/
def heldAfter (side : Side) (held : Option (Nat × ℚ)) (ns : List FillNotice) : Option (Nat × ℚ) :=
  let quantity := (held.map Prod.fst).getD 0
  let entry := (held.map Prod.snd).getD 0
  match side with
  | .buy =>
    if quantity + executedQuantity ns = 0 then none
    else some (quantity + executedQuantity ns,
      (quantity * entry + executedNotional ns) / (quantity + executedQuantity ns : Nat))
  | .sell => if quantity - executedQuantity ns = 0 then none else some (quantity - executedQuantity ns, entry)

theorem heldAfter_nil {held : Option (Nat × ℚ)} (hpos : ∀ h ∈ held, 0 < h.1) (side : Side) :
    heldAfter side held [] = held := by
  cases held with
  | none => cases side <;> rfl
  | some h =>
    obtain ⟨quantity, entry⟩ := h
    have hquantity : 0 < quantity := hpos _ rfl
    have hne : (quantity : ℚ) ≠ 0 := by exact_mod_cast hquantity.ne'
    cases side with
    | buy =>
      simp [heldAfter, executedQuantity, executedNotional, hquantity.ne', mul_div_cancel_left₀ entry hne]
    | sell => simp [heldAfter, executedQuantity, hquantity.ne']

/-- Without executed shares nothing was paid. -/
theorem executedNotional_eq_zero {ns : List FillNotice} (h : executedQuantity ns = 0) : executedNotional ns = 0 := by
  induction ns with
  | nil => rfl
  | cons n rest ih =>
    rw [executedQuantity_cons] at h
    have hn : n.quantity = 0 := by omega
    have hrest := ih (by omega)
    unfold executedNotional at hrest ⊢
    rw [List.map_cons, List.sum_cons, hrest, hn]
    simp

/-- One execution more is one fill more. -/
theorem heldAfter_append {side : Side} {held : Option (Nat × ℚ)} {ns : List FillNotice} {n : FillNotice}
    (hpos : 0 < n.quantity)
    (hcovers : side = .sell → executedQuantity (ns ++ [n]) ≤ (held.map Prod.fst).getD 0) :
    heldAfterFill side n.quantity n.fillPrice (heldAfter side held ns) = heldAfter side held (ns ++ [n]) := by
  unfold heldAfter
  generalize (held.map Prod.fst).getD 0 = quantity at hcovers ⊢
  generalize (held.map Prod.snd).getD 0 = entry
  simp only [executedQuantity_append, executedNotional_append, executedQuantity_singleton,
    executedNotional_singleton] at hcovers ⊢
  cases side with
  | buy =>
    dsimp only
    have hafter : quantity + (executedQuantity ns + n.quantity) ≠ 0 := by omega
    rw [if_neg hafter]
    by_cases hzero : quantity + executedQuantity ns = 0
    · rw [if_pos hzero]
      have hquantity : quantity = 0 := by omega
      have hnone : executedQuantity ns = 0 := by omega
      have hne : (n.quantity : ℚ) ≠ 0 := by exact_mod_cast hpos.ne'
      simp [heldAfterFill, hquantity, hnone, executedNotional_eq_zero hnone, mul_div_cancel_left₀ _ hne]
    · rw [if_neg hzero]
      have hne : ((quantity + executedQuantity ns : Nat) : ℚ) ≠ 0 := by exact_mod_cast hzero
      simp only [heldAfterFill, mul_div_cancel₀ _ hne]
      rw [Nat.add_assoc, add_assoc]
  | sell =>
    dsimp only
    have hcovered := hcovers rfl
    have hleft : quantity - executedQuantity ns ≠ 0 := by omega
    rw [if_neg hleft]
    simp only [heldAfterFill]
    by_cases hall : quantity - executedQuantity ns = n.quantity
    · rw [if_pos hall, if_pos (by omega)]
    · rw [if_neg hall, if_neg (by omega), Nat.sub_sub]

theorem heldAfter_perm (side : Side) (held : Option (Nat × ℚ)) {ns ns' : List FillNotice} (h : ns.Perm ns') :
    heldAfter side held ns = heldAfter side held ns' := by
  unfold heldAfter
  rw [executedQuantity_perm h, executedNotional_perm h]

/-! ### The books of an order -/

/-- The ids of the recorded fills, and of the applied ones. -/
def Database.recordedFills (db : Database) : Set String := {id | (db.brokerFills.find? id).isSome = true}

def Database.appliedFills (db : Database) : Set String := {id | (db.fillApplications.find? id).isSome = true}

theorem Database.recordedFills_append {db db' : Database} {f : BrokerFill}
    (h : db'.brokerFills.rows = db.brokerFills.rows ++ [f]) :
    db'.recordedFills = db.recordedFills ∪ {f.fillId} := by
  ext id
  have hfound := Table.find?_append h id
  change (db'.brokerFills.find? id).isSome = true ↔ (db.brokerFills.find? id).isSome = true ∨ id = f.fillId
  rw [hfound, Option.isSome_or, Bool.or_eq_true]
  refine or_congr_right ?_
  by_cases hid : f.fillId = id
  · rw [if_pos hid]
    exact iff_of_true rfl hid.symm
  · rw [if_neg hid]
    exact iff_of_false (by decide) (Ne.symm hid)

theorem Database.appliedFills_append {db db' : Database} {a : FillApplication}
    (h : db'.fillApplications.rows = db.fillApplications.rows ++ [a]) :
    db'.appliedFills = db.appliedFills ∪ {a.fillId} := by
  ext id
  have hfound := Table.find?_append h id
  change (db'.fillApplications.find? id).isSome = true ↔
    (db.fillApplications.find? id).isSome = true ∨ id = a.fillId
  rw [hfound, Option.isSome_or, Bool.or_eq_true]
  refine or_congr_right ?_
  by_cases hid : a.fillId = id
  · rw [if_pos hid]
    exact iff_of_true rfl hid.symm
  · rw [if_neg hid]
    exact iff_of_false (by decide) (Ne.symm hid)

/-- What the ledgers say of an order. -/
@[ext] structure Books where
  filledQty : Nat
  avgFillPrice : Option ℚ
  status : OrderStatus
  recorded : Set String
  applied : Set String
  held : Option (Nat × ℚ)

def Database.books (db : Database) (o : BrokerOrder) : Option Books :=
  (db.brokerOrders.find? o.clientOrderId).map fun row =>
    ⟨row.filledQty, row.avgFillPrice, row.status, db.recordedFills, db.appliedFills, db.held o.symbol⟩

/-- The fill ids of a set of executions. -/
def fillIds (ns : List FillNotice) : Set String := {id | ∃ n ∈ ns, noticeFillId n = id}

/-- The books after a set of executions of an order that had none. -/
def booksAfter (db : Database) (o : BrokerOrder) (ns : List FillNotice) : Books where
  filledQty := executedQuantity ns
  avgFillPrice := averageAfter o ns
  status := statusAfter o ns
  recorded := db.recordedFills ∪ fillIds ns
  applied := db.appliedFills ∪ fillIds ns
  held := heldAfter o.side (db.held o.symbol) ns

theorem booksAfter_perm (db : Database) (o : BrokerOrder) {ns ns' : List FillNotice} (h : ns.Perm ns') :
    booksAfter db o ns = booksAfter db o ns' := by
  have hnil : ns = [] ↔ ns' = [] := ⟨fun he => (he ▸ h).nil_eq.symm, fun he => (he ▸ h).eq_nil⟩
  have hids : fillIds ns = fillIds ns' := by
    ext id
    exact exists_congr fun n => and_congr_left fun _ => h.mem_iff
  simp only [booksAfter, averageAfter, statusAfter, executedQuantity_perm h, executedNotional_perm h,
    heldAfter_perm _ _ h, hids, hnil]

theorem fillIds_append (ns : List FillNotice) (n : FillNotice) :
    fillIds (ns ++ [n]) = fillIds ns ∪ {noticeFillId n} := by
  ext id
  simp [fillIds, or_and_right, exists_or, eq_comm, or_comm]

/-! ### Deliveries -/

/-- A call of `apply_fill_notice`. -/
structure Delivery where
  now : DateTime
  notice : FillNotice
  tradingDate : Option Int
  received : Option DateTime

def Delivery.call (broker : BrokerReplies) (d : Delivery) (db : Database) :
    Except Exn FillNoticeApplyResult × Database :=
  Raising.eval (dbHandler broker) (applyFillNotice d.now d.notice d.tradingDate d.received) db

/-- The execution that a delivery reports. -/
def Delivery.execution (d : Delivery) : Option FillNotice :=
  if d.notice.kind = .filled then some d.notice else none

theorem Delivery.execution_some {d : Delivery} {n : FillNotice} (h : d.execution = some n) :
    d.notice.kind = .filled ∧ d.notice = n := by
  obtain ⟨hkind, heq⟩ := Option.ite_none_right_eq_some.mp h
  exact ⟨hkind, Option.some.inj heq⟩

/-- A notice of the feed that is about an order. -/
structure Matches (number : String) (o : BrokerOrder) (n : FillNotice) : Prop where
  parsed : n.Parsed
  orderNo : n.orderNo = number
  symbol : n.symbol = o.symbol
  side : noticeSide n.side = some o.side
  orderQty : n.orderQty = o.requestedQty

theorem Matches.same {number : String} {o o' : BrokerOrder} {n : FillNotice} (h : Matches number o n)
    (hsame : SameIntent o o') : Matches number o' n where
  parsed := h.parsed
  orderNo := h.orderNo
  symbol := h.symbol.trans hsame.symbol.symm
  side := by rw [hsame.side]; exact h.side
  orderQty := by rw [hsame.requestedQty]; exact h.orderQty

/-- A delivery of one of the executions of an order, or of an acceptance of it. -/
structure Delivers (number : String) (o : BrokerOrder) (executions : List FillNotice) (d : Delivery) : Prop where
  about : Matches number o d.notice
  timely : NotAhead d.notice.fillTime d.tradingDate (receivedAt d.now d.received)
  kind : d.notice ∈ executions ∨ d.notice.kind = .accepted

/-- Executions that an order still has to book. -/
structure Executions (db : Database) (number : String) (o : BrokerOrder) (ns : List FillNotice) : Prop where
  filled : ∀ n ∈ ns, n.kind = .filled
  about : ∀ n ∈ ns, Matches number o n
  distinct : (ns.map noticeFillId).Nodup
  fits : executedQuantity ns ≤ o.requestedQty
  fresh : ∀ n ∈ ns, db.brokerFills.find? (noticeFillId n) = none

/-- The only row of its number, acknowledged and without a fill. -/
structure Unfilled (db : Database) (number : String) (o : BrokerOrder) : Prop where
  only : db.OnlyRowOf number o
  status : o.status = .acknowledged
  filledQty : o.filledQty = 0
  fills : db.fillsOf o.clientOrderId = []

/-- The risk terms that `_entry_risk` reads for an order. -/
def Database.riskTerms (db : Database) (o : BrokerOrder) : Option EntryRisk :=
  if truthy o.signalId then (db.aiDecisionAudits.find? (o.signalId.getD "")).bind entryRiskOf else none

/-- A BUY can be booked: its risk terms are complete, its signal never opened a position and
    every execution is inside the ladder. -/
def BuyReady (db : Database) (o : BrokerOrder) (ns : List FillNotice) : Prop :=
  ∃ stop take holding, db.riskTerms o = some ⟨.fin stop, .fin take, holding⟩ ∧
    (∀ p ∈ db.livePositions.rows, p.signalId ≠ positionSignal o) ∧
    ∀ n ∈ ns, stop < n.fillPrice ∧ (n.fillPrice : ℚ) < take

/-- A SELL can be booked: the OPEN position covers the order. -/
def SellReady (db : Database) (o : BrokerOrder) : Prop :=
  ∃ p, db.openPosition o.symbol = some p ∧ o.requestedQty ≤ p.quantity

def ReadyToBook (db : Database) (o : BrokerOrder) (ns : List FillNotice) : Prop :=
  match o.side with
  | .buy => BuyReady db o ns
  | .sell => SellReady db o

/-! ### What a delivery reaches -/

section Reach

variable (broker : BrokerReplies) {number : String} {d : Delivery} {row : BrokerOrder} {db : Database}

/-- What the notice of a delivery does once its order is found. -/
def Delivery.handle (d : Delivery) (row : BrokerOrder) (db : Database) : Pipeline FillNoticeApplyResult :=
  let received := receivedAt d.now d.received
  match d.notice.kind with
  | .accepted => applyAccepted received row (fillQuantity (db.fillsOf row.clientOrderId))
  | .rejected => applyRejected received row (fillQuantity (db.fillsOf row.clientOrderId))
  | .filled => applyExecution d.now received d.notice row.side d.notice.orderNo
      (clockTime d.notice.fillTime (noticeDate d.tradingDate received)) row

theorem identityMismatch_of_matches (h : Matches number row d.notice) : identityMismatch row d.notice row.side = none := by
  have hform := h.parsed.wellFormed
  have hquantity : ¬ (d.notice.fillQty < 0 ∨ (d.notice.kind ≠ .filled ∧ d.notice.fillQty ≠ 0)) := by
    by_cases hkind : d.notice.kind = .filled
    · have hpos := (hform.executed hkind).1
      simp only [hkind, not_true_eq_false, ne_eq, false_and, or_false, not_lt]
      omega
    · have hzero := hform.unexecuted hkind
      simp [hzero]
  unfold identityMismatch
  rw [if_neg (not_not.mpr h.symbol.symm), if_neg (not_not.mpr rfl), if_neg (not_not.mpr h.orderQty.symm),
    if_neg hquantity]

/-- A notice of the feed that is about the only row of its number reaches the row. -/
theorem ends_call (hmatch : Matches number row d.notice) (hnumber : number.length ≤ 64)
    (htimely : NotAhead d.notice.fillTime d.tradingDate (receivedAt d.now d.received))
    (honly : db.OnlyRowOf number row) {Q : FillNoticeApplyResult → Database → Prop} {E : Exn → Database → Prop}
    (h : Raising.Ends (dbHandler broker) (d.handle row db) Q E db) :
    Raising.Ends (dbHandler broker) (applyFillNotice d.now d.notice d.tradingDate d.received) Q E db := by
  have hform := hmatch.parsed.wellFormed
  have hpublic : publicIdentifier d.notice.orderNo = some d.notice.orderNo := by
    rw [hform.publicIdentifier, hmatch.orderNo, if_neg (not_lt.mpr hnumber)]
  have hrows : (db.brokerOrders.rows.filter fun o => o.brokerOrderId = some d.notice.orderNo) = [row] := by
    rw [hmatch.orderNo]
    exact honly
  unfold applyFillNotice
  dsimp only
  rw [filledAt_of_notAhead hform.fillTime htimely]
  apply Raising.Ends.bind
  refine .of_eval (eval_reraise broker db _) ?_
  change Raising.Ends _ _ Q E db
  dsimp only
  rw [hmatch.side, hpublic]
  apply ends_selectOrders
  rw [hrows]
  dsimp only
  rw [identityMismatch_of_matches hmatch]
  exact ends_select broker db h

/-- An acceptance of an order whose header agrees with its fills changes nothing. -/
theorem applyAccepted_quiet (received : DateTime) {existing : Nat} (hfills : existing ≤ row.filledQty)
    (hstatus : (row.status = .acknowledged ∧ row.filledQty = 0) ∨
      ((row.status = .partiallyFilled ∨ row.status = .filled) ∧ 0 < row.filledQty)) :
    Raising.Ends (dbHandler broker) (applyAccepted received row existing)
      (fun result db' => result.blocked = false ∧ db' = db) (fun _ _ => False) db := by
  unfold applyAccepted
  dsimp only
  rw [if_neg (not_lt.mpr hfills)]
  rcases hstatus with ⟨hstatus, hzero⟩ | ⟨hstatus | hstatus, hpos⟩
  · rw [hstatus, hzero]
    exact ⟨rfl, rfl⟩
  · rw [hstatus, if_neg nofun, if_pos ⟨.inl rfl, hpos⟩]
    exact ⟨rfl, rfl⟩
  · rw [hstatus, if_neg nofun, if_pos ⟨.inr rfl, hpos⟩]
    exact ⟨rfl, rfl⟩

/-- An execution whose fill is recorded and applied changes nothing. -/
theorem applyExecution_quiet {now received : DateTime} {n : FillNotice} {side : Side} {orderNo : String}
    {filledAt : DateTime} (hrecorded : noticeFillId n ∈ db.recordedFills)
    (happlied : noticeFillId n ∈ db.appliedFills) :
    Raising.Ends (dbHandler broker) (applyExecution now received n side orderNo filledAt row)
      (fun result db' => result.blocked = false ∧ db' = db) (fun _ _ => False) db := by
  have hrecorded' : (db.brokerFills.find? (noticeFillId n)).isSome = true := hrecorded
  have happlied' : (db.fillApplications.find? (noticeFillId n)).isSome = true := happlied
  unfold applyExecution
  apply ends_select
  rw [if_pos hrecorded']
  unfold materializeIfNeeded
  apply Raising.Ends.bind
  apply ends_select
  rw [if_pos happlied']
  exact ⟨rfl, rfl⟩

end Reach

/-! ### The executions delivered so far -/

section Progress

variable (broker : BrokerReplies) {start : Database} {number : String} {o : BrokerOrder}
  {executions seen : List FillNotice}

/-- The ledgers after some executions of an order that had none. -/
structure Executed (start : Database) (number : String) (o : BrokerOrder) (seen : List FillNotice)
    (db : Database) : Prop where
  ledger : LedgerState db
  row : ∃ row, db.OnlyRowOf number row ∧ SameIntent o row ∧ row.filledQty = executedQuantity seen ∧
    row.avgFillPrice = averageAfter o seen ∧ row.status = statusAfter o seen
  positive : ∀ n ∈ seen, 0 < n.quantity
  audits : db.aiDecisionAudits = start.aiDecisionAudits
  fills : fillQuantity (db.fillsOf o.clientOrderId) = executedQuantity seen
  allApplied : db.AllApplied o.clientOrderId
  recorded : db.recordedFills = start.recordedFills ∪ fillIds seen
  applied : db.appliedFills = start.appliedFills ∪ fillIds seen
  held : db.held o.symbol = heldAfter o.side (start.held o.symbol) seen
  untouched : seen = [] → db.livePositions = start.livePositions

theorem Database.OnlyRowOf.mem {db : Database} {row : BrokerOrder} (h : db.OnlyRowOf number row) :
    row ∈ db.brokerOrders.rows ∧ row.brokerOrderId = some number := by
  have hmem : row ∈ db.brokerOrders.rows.filter fun o => o.brokerOrderId = some number := by
    rw [show (db.brokerOrders.rows.filter fun o => o.brokerOrderId = some number) = [row] from h]
    exact List.mem_cons_self
  simpa using hmem

theorem Database.OnlyRowOf.find? {db : Database} {row : BrokerOrder} (h : db.OnlyRowOf number row) :
    db.brokerOrders.find? row.clientOrderId = some row := db.brokerOrders.find?_of_mem h.mem.1

/-- Rewriting the only row of a number, which keeps it. -/
theorem Database.OnlyRowOf.update {db db' : Database} {row : BrokerOrder} (h : db.OnlyRowOf number row)
    {f : BrokerOrder → BrokerOrder} {hf : ∀ r, (f r).clientOrderId = r.clientOrderId}
    (hnumber : (f row).brokerOrderId = some number)
    (horders : db'.brokerOrders = db.brokerOrders.update row.clientOrderId f hf) : db'.OnlyRowOf number (f row) := by
  have hkeeps : ∀ r ∈ db.brokerOrders.rows,
      decide ((if r.clientOrderId = row.clientOrderId then f r else r).brokerOrderId = some number) =
        decide (r.brokerOrderId = some number) := by
    intro r hr
    by_cases hid : r.clientOrderId = row.clientOrderId
    · obtain rfl := db.brokerOrders.eq_of_key_eq hr h.mem.1 hid
      rw [if_pos rfl, hnumber, h.mem.2]
    · rw [if_neg hid]
  unfold Database.OnlyRowOf
  rw [horders]
  simp only [Table.update, List.filter_map]
  rw [show (db.brokerOrders.rows.filter ((fun o => decide (o.brokerOrderId = some number)) ∘
      fun r => if r.clientOrderId = row.clientOrderId then f r else r)) = [row] from
    (List.filter_congr hkeeps).trans h]
  simp

theorem Executed.start_of_unfilled (hdb : LedgerState start) (h : Unfilled start number o) :
    Executed start number o [] start where
  ledger := hdb
  row := ⟨o, h.only, .refl o, h.filledQty, rfl, rfl⟩
  positive := nofun
  audits := rfl
  fills := by rw [h.fills]; rfl
  allApplied := by
    intro f hf
    rw [h.fills] at hf
    cases hf
  recorded := by simp [fillIds]
  applied := by simp [fillIds]
  held := by
    refine (heldAfter_nil ?_ o.side).symm
    intro held hheld
    obtain ⟨p, hp, rfl⟩ := Option.map_eq_some_iff.mp hheld
    obtain ⟨hmem, -, hopen⟩ := Database.openPosition_some hp
    exact (hdb.positions.open_quantity p hmem hopen).1
  untouched := fun _ => rfl

/-- The books are those of the executions. -/
theorem Executed.books {db : Database} (h : Executed start number o seen db) :
    db.books o = some (booksAfter start o seen) := by
  obtain ⟨row, honly, hsame, hqty, havg, hstatus⟩ := h.row
  have hfind := honly.find?
  rw [hsame.clientOrderId] at hfind
  unfold Database.books
  rw [hfind, Option.map_some, hqty, havg, hstatus, h.recorded, h.applied, h.held]
  rfl

theorem statusAfter_filled (hstatus : o.status = .acknowledged) :
    statusAfter o seen = .filled ↔ executedQuantity seen = o.requestedQty := by
  unfold statusAfter
  by_cases hnil : seen = []
  · have hpos := o.requestedQty_pos
    rw [if_pos hnil, hstatus, hnil]
    exact iff_of_false nofun hpos.ne
  · rw [if_neg hnil]
    split
    · exact iff_of_true rfl ‹_›
    · exact iff_of_false nofun ‹_›

theorem executedQuantity_pos (hpos : ∀ n ∈ seen, 0 < n.quantity) (hne : seen ≠ []) : 0 < executedQuantity seen := by
  obtain ⟨n, rest, rfl⟩ := List.exists_cons_of_ne_nil hne
  have hn := hpos n List.mem_cons_self
  rw [executedQuantity_cons]
  omega

variable {d : Delivery} {db : Database}

/-- An acceptance changes nothing. -/
theorem Executed.accept (h : Executed start number o seen db) (hacknowledged : o.status = .acknowledged)
    (hnumber : number.length ≤ 64) (hd : Delivers number o executions d) (hkind : d.notice.kind = .accepted) :
    Raising.Ends (dbHandler broker) (applyFillNotice d.now d.notice d.tradingDate d.received)
      (fun result db' => result.blocked = false ∧ db' = db) (fun _ _ => False) db := by
  obtain ⟨row, honly, hsame, hqty, -, hstatus⟩ := h.row
  refine ends_call broker (hd.about.same hsame) hnumber hd.timely honly ?_
  unfold Delivery.handle
  dsimp only
  rw [hkind]
  refine applyAccepted_quiet broker _ ?_ ?_
  · rw [hsame.clientOrderId, h.fills, hqty]
  · by_cases hnil : seen = []
    · left
      rw [hstatus, hqty, statusAfter, if_pos hnil, hnil]
      exact ⟨hacknowledged, rfl⟩
    · right
      rw [hstatus, hqty, statusAfter, if_neg hnil]
      refine ⟨?_, executedQuantity_pos h.positive hnil⟩
      split
      · exact .inr rfl
      · exact .inl rfl

/-- So does an execution that was delivered before. -/
theorem Executed.again (h : Executed start number o seen db) (hnumber : number.length ≤ 64)
    (hd : Delivers number o executions d) (hkind : d.notice.kind = .filled) (hseen : d.notice ∈ seen) :
    Raising.Ends (dbHandler broker) (applyFillNotice d.now d.notice d.tradingDate d.received)
      (fun result db' => result.blocked = false ∧ db' = db) (fun _ _ => False) db := by
  obtain ⟨row, honly, hsame, -, -, -⟩ := h.row
  have hid : noticeFillId d.notice ∈ fillIds seen := ⟨d.notice, hseen, rfl⟩
  refine ends_call broker (hd.about.same hsame) hnumber hd.timely honly ?_
  unfold Delivery.handle
  dsimp only
  rw [hkind]
  refine applyExecution_quiet broker ?_ ?_
  · rw [h.recorded]
    exact .inr hid
  · rw [h.applied]
    exact .inr hid

/-! #### A new execution -/

/-- The fill of a notice of the feed passes its validation. -/
theorem checkFill_notice {n : FillNotice} (hform : n.WellFormed) (hkind : n.kind = .filled) (side : Side)
    {c : String} (hid : Text.blank c = false) (filledAt received : DateTime) :
    ∃ checked, checkFill (noticeFillArgs n side c n.orderNo filledAt received) = .ok checked ∧
      checked.quantity.val = n.quantity ∧ checked.price.val = n.fillPrice ∧ checked.side = some side := by
  obtain ⟨hqty, hprice⟩ := hform.executed hkind
  have hqty' : (0 : ℚ) < n.fillQty := by exact_mod_cast hqty
  have hprice' : (0 : ℚ) < n.fillPrice := by exact_mod_cast hprice
  have hfill : Text.blank (noticeFillId n) = false := by
    unfold noticeFillId
    rw [Text.blank_append, show Text.blank "kis:fill:" = false by decide, Bool.false_and]
  have hquantity : validateQuantity (.int n.fillQty) "quantity" = .ok ⟨n.fillQty.toNat, by omega⟩ := by
    simp only [validateQuantity, validatePositiveNumber, Number.positive?, dif_pos hqty', dif_pos hqty]
    rfl
  have hpositive : validatePositiveNumber (.float (.fin n.fillPrice)) "price" = .ok ⟨n.fillPrice, hprice'⟩ := by
    simp only [validatePositiveNumber, Number.positive?, dif_pos hprice']
  have hside : validateSideIfGiven (some side.name) = .ok (some side) := by
    cases side with
    | buy => rfl
    | sell => rfl
  refine ⟨⟨⟨n.fillQty.toNat, by omega⟩, ⟨n.fillPrice, hprice'⟩, some side⟩, ?_, rfl, rfl, rfl⟩
  simp only [checkFill, noticeFillArgs, requireNonempty_of hfill, requireNonempty_of hid, hquantity, hpositive,
    requireNonemptyIfGiven, requireNonempty_of hform.numbered, validateSymbolIfGiven, hform.symbol, hside]
  rfl

/-- The fill that a delivery books. -/
def Delivery.fill (d : Delivery) (row : BrokerOrder) : FillArgs :=
  let received := receivedAt d.now d.received
  noticeFillArgs d.notice row.side row.clientOrderId d.notice.orderNo
    (clockTime d.notice.fillTime (noticeDate d.tradingDate received)) received

/-- The execution of a delivery is none of those before it. -/
structure IsNew (seen executions : List FillNotice) (n : FillNotice) : Prop where
  nodup : (seen ++ [n]).Nodup
  among : seen ++ [n] ⊆ executions

theorem IsNew.notice_mem {n : FillNotice} (h : IsNew seen executions n) : n ∈ executions :=
  h.among (List.mem_append_right _ List.mem_cons_self)

theorem IsNew.notin_fillIds {n : FillNotice} (h : IsNew seen executions n)
    (hdistinct : (executions.map noticeFillId).Nodup) : noticeFillId n ∉ fillIds seen := by
  rintro ⟨m, hm, hid⟩
  have hmem : m ∈ executions := h.among (List.mem_append_left _ hm)
  obtain rfl := List.inj_on_of_nodup_map hdistinct hmem h.notice_mem hid
  exact (List.nodup_append.mp h.nodup).2.2 m hm m List.mem_cons_self rfl

theorem Executed.newFill (h : Executed start number o seen db) (hexec : Executions start number o executions)
    (hd : Delivers number o executions d) (hkind : d.notice.kind = .filled) (hnew : IsNew seen executions d.notice)
    {row : BrokerOrder} (honly : db.OnlyRowOf number row) (hsame : SameIntent o row)
    (hqty : row.filledQty = executedQuantity seen) :
    ∃ checked, NewFill (d.fill row) checked row db ∧ checked.quantity.val = d.notice.quantity ∧
      checked.price.val = d.notice.fillPrice := by
  have hmatch := hd.about.same hsame
  have hform := hmatch.parsed.wellFormed
  have hid : Text.blank row.clientOrderId = false := h.ledger.named row honly.mem.1
  obtain ⟨checked, hcheck, hquantity, hprice, hside⟩ := checkFill_notice hform hkind row.side hid
    (clockTime d.notice.fillTime (noticeDate d.tradingDate (receivedAt d.now d.received)))
    (receivedAt d.now d.received)
  refine ⟨checked, ⟨hcheck, honly.find?, ?_, ?_, ?_, ?_, ?_⟩, hquantity, hprice⟩
  · exact decide_eq_true hmatch.symbol
  · rw [hside]
    exact decide_eq_true rfl
  · rw [honly.mem.2]
    exact decide_eq_true hmatch.orderNo
  · have hle := (executedQuantity_le hnew.nodup hnew.among).trans hexec.fits
    rw [executedQuantity_append, executedQuantity_singleton] at hle
    rw [hqty, hquantity, hsame.requestedQty]
    exact hle
  · have hnone : noticeFillId d.notice ∉ db.recordedFills := by
      rw [h.recorded]
      rintro (hstart | hseen)
      · have hfresh := hexec.fresh _ hnew.notice_mem
        rw [Database.recordedFills, Set.mem_ofPred_eq, hfresh] at hstart
        cases hstart
      · exact hnew.notin_fillIds hexec.distinct hseen
    exact Option.not_isSome_iff_eq_none.mp hnone

/-- The fill is the one that is left to apply. -/
theorem Executed.oneFill (h : Executed start number o seen db) {row : BrokerOrder} (hsame : SameIntent o row)
    {checked : CheckedFill} (hfill : NewFill (d.fill row) checked row db) :
    (filledOnce d.now (d.fill row) checked row db).unappliedFills row.clientOrderId =
      [fillRow d.now (d.fill row) checked row] := by
  refine hfill.unappliedFills h.ledger.positions ?_
  change db.AllApplied row.clientOrderId
  rw [hsame.clientOrderId]
  exact h.allApplied

/-- The terms the fills of a row are applied with. -/
def Database.fillTerms (db : Database) (row : BrokerOrder) : Option EntryRisk :=
  if row.side = .buy then db.riskTerms row else none

theorem ends_fillTerms {β : Type} {row : BrokerOrder} {f : Option EntryRisk → Pipeline β}
    {Q : β → Database → Prop} {E : Exn → Database → Prop}
    (hf : Raising.Ends (dbHandler broker) (f (db.fillTerms row)) Q E db) :
    Raising.Ends (dbHandler broker) (riskFor row.side row >>= f) Q E db := by
  unfold riskFor
  unfold Database.fillTerms at hf
  split
  · rename_i hbuy
    rw [if_pos hbuy] at hf
    unfold entryRisk
    unfold Database.riskTerms at hf
    split
    · rename_i htruthy
      rw [if_pos htruthy] at hf
      exact ends_select broker db hf
    · rename_i hfalsy
      rw [if_neg hfalsy] at hf
      exact hf
  · rename_i hsell
    rw [if_neg hsell] at hf
    exact hf

theorem entryRiskOf_valid {audit : AiDecisionAudit} {stop take : ℚ} {holding : Int}
    (h : entryRiskOf audit = some ⟨.fin stop, .fin take, holding⟩) : 0 < stop ∧ 0 < take ∧ 0 < holding := by
  unfold entryRiskOf at h
  split at h
  · split at h
    · rename_i hvalid
      cases h
      obtain ⟨hstop, htake, -, hholding⟩ := hvalid
      exact ⟨of_decide_eq_true hstop, of_decide_eq_true htake, hholding⟩
    · cases h
  · cases h

theorem riskTerms_valid {row : BrokerOrder} {stop take : ℚ} {holding : Int}
    (h : db.riskTerms row = some ⟨.fin stop, .fin take, holding⟩) : 0 < stop ∧ 0 < take ∧ 0 < holding := by
  unfold Database.riskTerms at h
  split at h
  · obtain ⟨audit, -, haudit⟩ := Option.bind_eq_some_iff.mp h
    exact entryRiskOf_valid haudit
  · cases h

theorem Executed.riskTerms_eq (h : Executed start number o seen db) {row : BrokerOrder} (hsame : SameIntent o row) :
    db.riskTerms row = start.riskTerms o := by
  unfold Database.riskTerms
  rw [h.audits, hsame.signalId]

theorem positionSignal_same {row : BrokerOrder} (hsame : SameIntent o row) : positionSignal row = positionSignal o := by
  unfold positionSignal
  rw [hsame.signalId, hsame.clientOrderId]

/-- A new BUY fill can be applied. -/
theorem Executed.buys (h : Executed start number o seen db) (hbuy : o.side = .buy)
    (hready : BuyReady start o executions) {row : BrokerOrder} (hsame : SameIntent o row) {checked : CheckedFill}
    (hfill : NewFill (d.fill row) checked row db) (hprice : checked.price.val = d.notice.fillPrice)
    (hmem : d.notice ∈ executions) :
    ∃ n db', (materializeOrderFills d.now (materializeArgs row.clientOrderId (db.fillTerms row))).run
      (filledOnce d.now (d.fill row) checked row db) = (.ok n, db') := by
  obtain ⟨stop, take, holding, hrisk, hsignal, hladder⟩ := hready
  obtain ⟨hstop, htake, hholding⟩ := riskTerms_valid hrisk
  obtain ⟨hlo, hhi⟩ := hladder _ hmem
  have hrowbuy : row.side = .buy := hsame.side.trans hbuy
  have hterms : db.fillTerms row = some ⟨.fin stop, .fin take, holding⟩ := by
    rw [Database.fillTerms, if_pos hrowbuy, h.riskTerms_eq hsame, hrisk]
  have hone := h.oneFill hsame hfill
  have hargs : (materializeArgs row.clientOrderId (some ⟨.fin stop, .fin take, holding⟩)).stopLossPrice =
      some (.float (.fin stop)) ∧
      (materializeArgs row.clientOrderId (some ⟨.fin stop, .fin take, holding⟩)).takeProfitPrice =
        some (.float (.fin take)) := ⟨rfl, rfl⟩
  rw [hterms]
  refine materialize_buy_of_free (hfill.ledger d.now h.ledger) d.now hfill.find? hrowbuy hargs.1 hargs.2 ?_ ?_ ?_
  · intro f hf
    change f ∈ (filledOnce d.now (d.fill row) checked row db).unappliedFills row.clientOrderId at hf
    rw [hone, List.mem_singleton] at hf
    rw [hf]
    simpa [PyFloat.lt, Number.value, fillRow, hprice] using And.intro hlo hhi
  · exact ⟨by simp [Number.positive?, hstop], by simp [Number.positive?, htake], decide_eq_true hholding,
      by simp [materializeArgs]⟩
  · -- either the holding is enlarged, or nothing was bought yet and the signal is free
    cases hposition : db.openPosition o.symbol with
    | some p =>
      left
      obtain ⟨hp, hsymbol, hopen⟩ := Database.openPosition_some hposition
      refine List.ne_nil_of_mem (Database.mem_openPositions.mpr ⟨hp, ?_, hopen⟩)
      exact hsymbol.trans hsame.symbol.symm
    | none =>
      right
      have hnone := h.held
      rw [Database.held, hposition, Option.map_none, hbuy] at hnone
      have hnil : seen = [] := by
        by_contra hne
        have hpos := executedQuantity_pos h.positive hne
        simp only [heldAfter] at hnone
        rw [if_neg (by omega)] at hnone
        cases hnone
      intro p hp
      have hp' : p ∈ start.livePositions.rows := by
        rw [← h.untouched hnil]
        exact hp
      intro hid
      change p.signalId = positionSignal row at hid
      exact hsignal p hp' (hid.trans (positionSignal_same hsame))

/-- A new SELL fill can be applied. -/
theorem Executed.sells (h : Executed start number o seen db) (hsell : o.side = .sell) (hready : SellReady start o)
    (hexec : Executions start number o executions) {row : BrokerOrder} (hsame : SameIntent o row)
    {checked : CheckedFill} (hfill : NewFill (d.fill row) checked row db)
    (hquantity : checked.quantity.val = d.notice.quantity) (hnew : IsNew seen executions d.notice) :
    ∃ n db', (materializeOrderFills d.now (materializeArgs row.clientOrderId (db.fillTerms row))).run
      (filledOnce d.now (d.fill row) checked row db) = (.ok n, db') := by
  have hrowsell : row.side = .sell := hsame.side.trans hsell
  have hterms : db.fillTerms row = none := by
    rw [Database.fillTerms, if_neg (by rw [hrowsell]; nofun)]
  have hid : Text.blank row.clientOrderId = false :=
    h.ledger.named row (db.brokerOrders.mem_of_find? hfill.found)
  have hvalid : checkMaterialize (materializeArgs row.clientOrderId none) = .ok ⟨none, none, none, "broker_fill"⟩ := by
    simp only [checkMaterialize, materializeArgs, requireNonempty_of hid]
    rfl
  have hone := h.oneFill hsame hfill
  -- what is left of the position covers what is left of the order
  obtain ⟨p, hp, hcovers⟩ := hready
  have hle := (executedQuantity_le hnew.nodup hnew.among).trans (hexec.fits.trans hcovers)
  rw [executedQuantity_append, executedQuantity_singleton] at hle
  have hpos : 0 < checked.quantity.val := checked.quantity.pos
  have hheld := h.held
  simp only [heldAfter, hsell, Database.held, hp, Option.map_some, Option.getD_some] at hheld
  rw [if_neg (by omega)] at hheld
  obtain ⟨old, hold, hquantities⟩ := Option.map_eq_some_iff.mp hheld
  rw [Prod.mk.injEq] at hquantities
  have hposition : (filledOnce d.now (d.fill row) checked row db).openPosition
      (fillRow d.now (d.fill row) checked row).symbol = some old := by
    change db.openPosition row.symbol = some old
    rw [hsame.symbol]
    exact hold
  rw [hterms]
  refine materialize_new_sell hvalid hfill.find? hone hrowsell hposition ?_
  change checked.quantity.val ≤ old.quantity
  omega

theorem Executed.applies (h : Executed start number o seen db) (hready : ReadyToBook start o executions)
    (hexec : Executions start number o executions) {row : BrokerOrder} (hsame : SameIntent o row)
    {checked : CheckedFill} (hfill : NewFill (d.fill row) checked row db)
    (hquantity : checked.quantity.val = d.notice.quantity) (hprice : checked.price.val = d.notice.fillPrice)
    (hnew : IsNew seen executions d.notice) :
    ∃ n db', (materializeOrderFills d.now (materializeArgs row.clientOrderId (db.fillTerms row))).run
      (filledOnce d.now (d.fill row) checked row db) = (.ok n, db') := by
  unfold ReadyToBook at hready
  cases hside : o.side with
  | buy =>
    rw [hside] at hready
    exact h.buys hside hready hsame hfill hprice hnew.notice_mem
  | sell =>
    rw [hside] at hready
    exact h.sells hside hready hexec hsame hfill hquantity hnew

/-- Terms are at hand for a fill that is to be applied. -/
theorem Executed.has_terms (h : Executed start number o seen db) (hready : ReadyToBook start o executions)
    {row : BrokerOrder} (hsame : SameIntent o row) :
    ¬ (row.side = .buy ∧ (db.fillTerms row).isNone = true) := by
  rintro ⟨hbuy, hnone⟩
  have hobuy : o.side = .buy := hsame.side.symm.trans hbuy
  unfold ReadyToBook at hready
  rw [hobuy] at hready
  obtain ⟨stop, take, holding, hrisk, -, -⟩ := hready
  rw [Database.fillTerms, if_pos hbuy, h.riskTerms_eq hsame, hrisk] at hnone
  cases hnone

theorem averageAfter_notional (o : BrokerOrder) (hpos : ∀ n ∈ seen, 0 < n.quantity) :
    (executedQuantity seen : ℚ) * (averageAfter o seen).getD 0 = executedNotional seen := by
  unfold averageAfter
  split
  · rename_i hnil
    rw [hnil]
    simp [executedQuantity, executedNotional]
  · rename_i hne
    have hquantity : (executedQuantity seen : ℚ) ≠ 0 := by exact_mod_cast (executedQuantity_pos hpos hne).ne'
    rw [Option.getD_some, mul_div_cancel₀ _ hquantity]

/-- The row of an order with one execution more. -/
theorem rollFill_after {row : BrokerOrder} {fill : BrokerFill} {n : FillNotice} (hsame : SameIntent o row)
    (hpos : ∀ m ∈ seen, 0 < m.quantity) (hqty : row.filledQty = executedQuantity seen)
    (havg : row.avgFillPrice = averageAfter o seen) (hquantity : fill.quantity = n.quantity)
    (hprice : fill.price.val = n.fillPrice) :
    (rollFill fill row).filledQty = executedQuantity (seen ++ [n]) ∧
      (rollFill fill row).avgFillPrice = averageAfter o (seen ++ [n]) ∧
      (rollFill fill row).status = statusAfter o (seen ++ [n]) := by
  have hne : seen ++ [n] ≠ [] := by simp
  refine ⟨?_, ?_, ?_⟩
  · simp only [rollFill, hqty, hquantity, executedQuantity_append, executedQuantity_singleton]
  · simp only [rollFill, averageAfter, if_neg hne, executedQuantity_append, executedQuantity_singleton,
      executedNotional_append, executedNotional_singleton]
    rw [hqty, havg, averageAfter_notional o hpos, hquantity, hprice, Nat.cast_add]
  · simp only [rollFill, statusAfter, if_neg hne, executedQuantity_append, executedQuantity_singleton, hqty,
      hquantity, hsame.requestedQty]

/-- The ledgers after the two transactions of a new execution. -/
theorem Executed.next (h : Executed start number o seen db) (hexec : Executions start number o executions)
    (hready : ReadyToBook start o executions) (hnew : IsNew seen executions d.notice)
    {row : BrokerOrder} (honly : db.OnlyRowOf number row) (hsame : SameIntent o row)
    (hqty : row.filledQty = executedQuantity seen) (havg : row.avgFillPrice = averageAfter o seen)
    {checked : CheckedFill} (hfill : NewFill (d.fill row) checked row db)
    (hquantity : checked.quantity.val = d.notice.quantity) (hprice : checked.price.val = d.notice.fillPrice)
    {n : Nat} {db' : Database}
    (hrun : (Op.materializeOrderFills d.now (materializeArgs row.clientOrderId (db.fillTerms row))).call
      (filledOnce d.now (d.fill row) checked row db) = (.ok n, db')) :
    Executed start number o (seen ++ [d.notice]) db' := by
  let fill := fillRow d.now (d.fill row) checked row
  have hinserted := hfill.ledger d.now h.ledger
  have hledger : LedgerState db' := by
    have hexec := hinserted.exec (Op.materializeOrderFills d.now
      (materializeArgs row.clientOrderId (db.fillTerms row)))
    rwa [Op.exec, hrun] at hexec
  have hone : (filledOnce d.now (d.fill row) checked row db).unappliedFills row.clientOrderId = [fill] :=
    h.oneFill hsame hfill
  obtain ⟨c, order, -, -, hbooked, -⟩ := materializeOrderFills_ok hrun
  have hnone := unappliedFills_of_booked hbooked
  change Booked d.now c order ((filledOnce d.now (d.fill row) checked row db).unappliedFills row.clientOrderId)
    (filledOnce d.now (d.fill row) checked row db) db' at hbooked
  rw [hone] at hbooked
  obtain ⟨hframe, happlications⟩ := hbooked.frame
  have hfills : db'.brokerFills.rows = db.brokerFills.rows ++ [fill] := by
    rw [hframe]
    exact hfill.rows
  have hpositive : 0 < d.notice.quantity := hquantity ▸ checked.quantity.pos
  have hside : fill.side = o.side := hsame.side
  have hsymbol : fill.symbol = o.symbol := hsame.symbol
  have hfillsOf : db'.fillsOf o.clientOrderId = db.fillsOf o.clientOrderId ++ [fill] := by
    have hid : fill.clientOrderId = o.clientOrderId := hsame.clientOrderId
    rw [fillsOf_append db db' hfills, if_pos hid]
  refine ⟨hledger, ⟨rollFill fill row, ?_, ?_, rollFill_after hsame h.positive hqty havg hquantity hprice⟩, ?_, ?_, ?_,
    ?_, ?_, ?_, ?_, ?_⟩
  · have horders : db'.brokerOrders = db.brokerOrders.update row.clientOrderId (rollFill fill)
        (rollFill_clientOrderId fill) := by
      rw [hframe]
      rfl
    refine honly.update ?_ horders
    simp [rollFill, honly.mem.2]
  · exact hsame.trans ⟨rfl, rfl, rfl, rfl, rfl, rfl, rfl⟩
  · exact List.forall_mem_append.mpr ⟨h.positive, by simpa using hpositive⟩
  · rw [hframe]
    exact h.audits
  · rw [hfillsOf, fillQuantity_append, h.fills, executedQuantity_append, executedQuantity_singleton, ← hquantity]
    simp [fillQuantity, fill, fillRow]
  · intro f hf
    by_contra hnot
    rw [Bool.not_eq_true] at hnot
    have hmem : f ∈ db'.unappliedFills row.clientOrderId := by
      obtain ⟨hrow, hid⟩ := List.mem_filter.mp hf
      rw [Database.mem_unappliedFills, hsame.clientOrderId]
      exact ⟨hrow, of_decide_eq_true hid, hnot⟩
    have hnone' : db'.unappliedFills row.clientOrderId = [] := hnone
    rw [hnone'] at hmem
    cases hmem
  · rw [Database.recordedFills_append hfills, h.recorded, fillIds_append, ← Set.union_assoc]
    rfl
  · rw [Database.appliedFills_append happlications, fillIds_append, ← Set.union_assoc, ← h.applied]
    rfl
  · have hheld := held_booked hinserted.positions hledger.positions hbooked
    rw [hsymbol, hside] at hheld
    have hbefore : (filledOnce d.now (d.fill row) checked row db).held o.symbol =
        heldAfter o.side (start.held o.symbol) seen := h.held
    rw [hheld, hbefore, ← heldAfter_append hpositive]
    · have hq : fill.quantity = d.notice.quantity := hquantity
      have hp : fill.price.val = d.notice.fillPrice := hprice
      rw [hq, hp]
    · intro hsell
      unfold ReadyToBook at hready
      rw [hsell] at hready
      obtain ⟨p, hp, hcovers⟩ := hready
      rw [Database.held, hp]
      exact (executedQuantity_le hnew.nodup hnew.among).trans (hexec.fits.trans hcovers)
  · intro hnil
    simp at hnil

/-- A new execution is booked. -/
theorem Executed.take (h : Executed start number o seen db) (hacknowledged : o.status = .acknowledged)
    (hnumber : number.length ≤ 64) (hexec : Executions start number o executions)
    (hready : ReadyToBook start o executions) (hd : Delivers number o executions d) (hkind : d.notice.kind = .filled)
    (hnew : IsNew seen executions d.notice) :
    Raising.Ends (dbHandler broker) (applyFillNotice d.now d.notice d.tradingDate d.received)
      (fun result db' => result.blocked = false ∧ Executed start number o (seen ++ [d.notice]) db')
      (fun _ _ => False) db := by
  obtain ⟨row, honly, hsame, hqty, havg, hstatus⟩ := h.row
  obtain ⟨checked, hfill, hquantity, hprice⟩ := h.newFill hexec hd hkind hnew honly hsame hqty
  obtain ⟨n, db', hrun⟩ := h.applies hready hexec hsame hfill hquantity hprice hnew
  have hnext := h.next hexec hready hnew honly hsame hqty havg hfill hquantity hprice hrun
  obtain ⟨hqtypos, hpricepos⟩ := hd.about.parsed.wellFormed.executed hkind
  have hfits := hfill.fits
  have hnatqty : (d.notice.quantity : Int) = d.notice.fillQty := Int.toNat_of_nonneg hqtypos.le
  have hopen : ¬ (row.status = .cancelled ∨ row.status = .rejected) := by
    rw [hstatus, statusAfter]
    split
    · rw [hacknowledged]
      simp
    · split
      · simp
      · simp
  refine ends_call broker (hd.about.same hsame) hnumber hd.timely honly ?_
  unfold Delivery.handle
  dsimp only
  rw [hkind]
  dsimp only
  unfold applyExecution
  apply ends_select
  have hfree : (db.brokerFills.find? (noticeFillId d.notice)).isSome = false := by
    rw [show db.brokerFills.find? (noticeFillId d.notice) = none from hfill.free]
    rfl
  rw [hfree, if_neg nofun, if_neg (by omega), if_neg (by omega), if_neg hopen]
  apply ends_fillTerms
  rw [if_neg (h.has_terms hready hsame)]
  apply Raising.Ends.bind
  apply Raising.Ends.attempt
  -- the two transactions, one after the other
  unfold bookNotice
  refine Raising.Ends.after ((eval_execute broker db _).trans (insert_new_fill d.now hfill)) ?_
  rw [Bool.not_true, if_neg nofun]
  refine Raising.Ends.after ((eval_execute broker _ _).trans hrun) ?_
  exact ⟨rfl, hnext⟩

/-- The answer of a call that is not blocked. -/
def Unblocked (answer : Except Exn FillNoticeApplyResult) : Prop :=
  ∃ result, answer = .ok result ∧ result.blocked = false

theorem unblocked_of_ends {P : Database → Prop}
    (h : Raising.Ends (dbHandler broker) (applyFillNotice d.now d.notice d.tradingDate d.received)
      (fun result db' => result.blocked = false ∧ P db') (fun _ _ => False) db) :
    Unblocked (d.call broker db).1 ∧ P (d.call broker db).2 := by
  unfold Delivery.call
  unfold Raising.Ends at h
  rcases heval : Raising.eval (dbHandler broker) (applyFillNotice d.now d.notice d.tradingDate d.received) db with
    ⟨answer, db'⟩
  rw [heval] at h ⊢
  cases answer with
  | ok result => exact ⟨⟨result, rfl, h.1⟩, h.2⟩
  | error e => exact h.elim

/-- The notices of an order accumulate its executions. -/
theorem notices_accumulate (hunfilled : Unfilled start number o) (hnumber : number.length ≤ 64)
    (hexec : Executions start number o executions) (hready : ReadyToBook start o executions) :
    Accumulates (Delivery.call broker) Delivery.execution executions (Delivers number o executions) Unblocked
      (Executed start number o) where
  idle := by
    intro d db seen hd hitem h
    have hkind : d.notice.kind = .accepted := by
      refine hd.kind.resolve_left fun hmem => ?_
      rw [Delivery.execution, if_pos (hexec.filled _ hmem)] at hitem
      cases hitem
    obtain ⟨hanswer, hsame⟩ := unblocked_of_ends broker (h.accept broker hunfilled.status hnumber hd hkind)
    exact ⟨hanswer, by rw [hsame]; exact h⟩
  again := by
    intro d db seen n hd hitem hseen h
    obtain ⟨hkind, rfl⟩ := Delivery.execution_some hitem
    obtain ⟨hanswer, hsame⟩ := unblocked_of_ends broker (h.again broker hnumber hd hkind hseen)
    exact ⟨hanswer, by rw [hsame]; exact h⟩
  take := by
    intro d db seen n hd hitem hnodup hamong h
    obtain ⟨hkind, rfl⟩ := Delivery.execution_some hitem
    exact unblocked_of_ends broker
      (h.take broker hunfilled.status hnumber hexec hready hd hkind ⟨hnodup, hamong⟩)

end Progress

/-- Every execution is delivered at least once, between acceptances and repetitions. -/
structure DeliversAll (number : String) (o : BrokerOrder) (executions : List FillNotice) (ds : List Delivery) :
    Prop where
  each : ∀ d ∈ ds, Delivers number o executions d
  all : ∀ n ∈ executions, ∃ d ∈ ds, d.notice = n

theorem delivered_books (broker : BrokerReplies) {db : Database} (hdb : ProgramState db) {number : String}
    {o : BrokerOrder} {executions : List FillNotice} (hunfilled : Unfilled db number o)
    (hnumber : number.length ≤ 64) (hexec : Executions db number o executions) (hready : ReadyToBook db o executions)
    {ds : List Delivery} (hds : DeliversAll number o executions ds) :
    (∀ answer ∈ (deliverAll (Delivery.call broker) ds db).1, Unblocked answer) ∧
      (deliverAll (Delivery.call broker) ds db).2.books o = some (booksAfter db o executions) := by
  have hitem : ∀ d ∈ ds, ∀ n, d.execution = some n → n ∈ executions := by
    intro d hd n hn
    obtain ⟨hkind, rfl⟩ := Delivery.execution_some hn
    refine (hds.each d hd).kind.resolve_right fun haccepted => ?_
    rw [hkind] at haccepted
    cases haccepted
  have hall : ∀ n ∈ executions, ∃ d ∈ ds, d.execution = some n := by
    intro n hn
    obtain ⟨d, hd, rfl⟩ := hds.all n hn
    exact ⟨d, hd, if_pos (hexec.filled _ hn)⟩
  obtain ⟨hanswers, seen, hperm, hafter⟩ := (notices_accumulate broker hunfilled hnumber hexec hready).delivered
    (List.Nodup.of_map _ hexec.distinct) hds.each hitem hall (Executed.start_of_unfilled hdb.ledger.ledger hunfilled)
  refine ⟨hanswers, ?_⟩
  rw [hafter.books, booksAfter_perm db o hperm]

namespace TwoExecutions

open FillNotices

def opening : DateTime := .combine 20000 9 0 0 (some DateTime.kstOffset)

def later : DateTime := .combine 20000 10 0 0 (some DateTime.kstOffset)

def broker : BrokerReplies := ⟨fun _ _ => .ok none, fun _ _ _ _ => .ok ()⟩

/-- A BUY of ten shares at the broker under a number, with its decision. -/
def submitted (number : String) : Database :=
  { runOps [.claimOrderIntent opening ⟨"b1", some "d1", "005930", "BUY", .int 10, .int 100, none⟩,
      .recordOrderSubmission opening "b1" number none] Database.empty with
    aiDecisionAudits := (Table.empty.insertOrIgnore
      ⟨"d1", "005930", "BUY", .fin (4 / 5), some (.fin 100), some (.fin 120), some (.fin 90), some 600⟩).1 }

def order (number : String) : BrokerOrder where
  clientOrderId := "b1"
  signalId := some "d1"
  symbol := "005930"
  side := .buy
  requestedQty := 10
  requestedPrice := ⟨100, by norm_num⟩
  status := .acknowledged
  brokerOrderId := some number
  filledQty := 0
  avgFillPrice := none
  createdAt := opening
  updatedAt := opening
  submittedAt := some opening
  completedAt := none
  error := none
  requestedQty_pos := by decide

/-- A record of the feed about the order. -/
def record (number event quantity price time : String) : List String :=
  ["C", "A", number, "", "02", "0", "00", "", "005930", quantity, price, time, "N", event, "Y", "", "10", "", "",
    "KRX", "", "", "", "", "", ""]

def noticed (number event quantity price time : String) : FillNotice :=
  (noticeOf (record number event quantity price time)).toFillNotice

def first (number : String) : FillNotice := noticed number "2" "4" "100" "090100"

def second (number : String) : FillNotice := noticed number "2" "6" "110" "090200"

def acceptance (number : String) : FillNotice := noticed number "1" "0" "0" "090030"

def delivery (n : FillNotice) : Delivery := ⟨later, n, none, some later⟩

/-- Out of order, with a repetition and an acceptance between them. -/
def late : List Delivery := [delivery (second "K1"), delivery (acceptance "K1"), delivery (second "K1"), delivery (first "K1")]

def early : List Delivery := [delivery (first "K1"), delivery (second "K1")]

/-- An order number of 65 characters. -/
def long : String := "K1234567890123456789012345678901234567890123456789012345678901234"

theorem submitted_programState (number : String) : ProgramState (submitted number) := by
  refine .other (.call _ (.call _ .empty ?_) ?_) ⟨rfl, rfl, rfl, rfl⟩ <;>
    · intro now a he; cases he

theorem parsed_of {number event quantity price time : String}
    (h : (parseFields (record number event quantity price time)).toOption =
      some (noticeOf (record number event quantity price time))) : (noticed number event quantity price time).Parsed :=
  ⟨_, _, Except.eq_ok_of_toOption h, rfl⟩

theorem submitted_unfilled : Unfilled (submitted "K1") "K1" (order "K1") :=
  ⟨by unfold Database.OnlyRowOf; decide, rfl, rfl, by decide⟩

theorem first_matches : Matches "K1" (order "K1") (first "K1") :=
  ⟨parsed_of (by decide), by decide, rfl, rfl, by decide⟩

theorem second_matches : Matches "K1" (order "K1") (second "K1") :=
  ⟨parsed_of (by decide), by decide, rfl, rfl, by decide⟩

theorem acceptance_matches : Matches "K1" (order "K1") (acceptance "K1") :=
  ⟨parsed_of (by decide), by decide, rfl, rfl, by decide⟩

/-- Its decision has complete risk terms, whatever the number. -/
theorem submitted_terms (number : String) :
    ∃ holding, (submitted number).riskTerms (order number) = some ⟨.fin 90, .fin 120, holding⟩ := by
  have hterms : ((submitted "K1").riskTerms (order "K1")).map (fun r => (r.stopLossPrice, r.takeProfitPrice)) =
      some (.fin 90, .fin 120) := by decide
  have hsame : (submitted number).riskTerms (order number) = (submitted "K1").riskTerms (order "K1") := rfl
  obtain ⟨⟨stop, take, holding⟩, hrisk, hfields⟩ := Option.map_eq_some_iff.mp hterms
  cases hfields
  exact ⟨holding, hsame.trans hrisk⟩

theorem submitted_ready {number : String} {executions : List FillNotice}
    (hnone : (submitted number).livePositions.rows = [])
    (hladder : ∀ n ∈ executions, (90 : ℚ) < n.fillPrice ∧ (n.fillPrice : ℚ) < 120) :
    ReadyToBook (submitted number) (order number) executions := by
  obtain ⟨holding, hrisk⟩ := submitted_terms number
  refine ⟨90, 120, holding, hrisk, ?_, hladder⟩
  intro p hp
  rw [hnone] at hp
  exact absurd hp List.not_mem_nil

theorem two_executions : Executions (submitted "K1") "K1" (order "K1") [first "K1", second "K1"] where
  filled := by decide
  about := by
    intro n hn
    rcases List.mem_pair.mp hn with rfl | rfl
    · exact first_matches
    · exact second_matches
  distinct := by decide +kernel
  fits := by decide
  fresh := fun _ _ => rfl

theorem delivers_of_matches {number : String} {o : BrokerOrder} {executions : List FillNotice} {n : FillNotice}
    (h : Matches number o n) (hahead : NotAhead n.fillTime none later)
    (hkind : n ∈ executions ∨ n.kind = .accepted) : Delivers number o executions (delivery n) :=
  ⟨h, hahead, hkind⟩

theorem first_delivers : Delivers "K1" (order "K1") [first "K1", second "K1"] (delivery (first "K1")) :=
  delivers_of_matches first_matches ⟨by decide, by decide⟩ (.inl List.mem_cons_self)

theorem second_delivers : Delivers "K1" (order "K1") [first "K1", second "K1"] (delivery (second "K1")) :=
  delivers_of_matches second_matches ⟨by decide, by decide⟩
    (.inl (List.mem_cons_of_mem _ List.mem_cons_self))

theorem acceptance_delivers : Delivers "K1" (order "K1") [first "K1", second "K1"] (delivery (acceptance "K1")) :=
  delivers_of_matches acceptance_matches ⟨by decide, by decide⟩ (.inr (by decide))

theorem late_delivers : DeliversAll "K1" (order "K1") [first "K1", second "K1"] late where
  each := by
    intro d hd
    simp only [late, List.mem_cons, List.not_mem_nil, or_false] at hd
    rcases hd with rfl | rfl | rfl | rfl
    · exact second_delivers
    · exact acceptance_delivers
    · exact second_delivers
    · exact first_delivers
  all := by
    intro n hn
    rcases List.mem_pair.mp hn with rfl | rfl
    · exact ⟨delivery (first "K1"), by simp [late], rfl⟩
    · exact ⟨delivery (second "K1"), by simp [late], rfl⟩

theorem early_delivers : DeliversAll "K1" (order "K1") [first "K1", second "K1"] early where
  each := by
    intro d hd
    rcases List.mem_pair.mp hd with rfl | rfl
    · exact first_delivers
    · exact second_delivers
  all := by
    intro n hn
    rcases List.mem_pair.mp hn with rfl | rfl
    · exact ⟨delivery (first "K1"), by simp [early], rfl⟩
    · exact ⟨delivery (second "K1"), by simp [early], rfl⟩

end TwoExecutions

end AutoTrader
