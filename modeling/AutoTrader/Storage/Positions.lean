/-
  AutoTrader/Storage/Positions.lean
  =================================
  **The position ledger: `live_positions` and the applied fills.**

  `materialize_order_fills` applies the fills of one order that no earlier call
  applied, oldest first, in one transaction: a BUY fill opens or enlarges the
  OPEN position of its symbol, a SELL fill reduces or closes it, and every fill
  is recorded in `live_position_fill_applications`.  Any fill can raise, and then
  the whole call is rolled back.

  The loop body is a function of its own, and `applyFillStep_ok` says everything
  it can do when it does not raise.
-/
import AutoTrader.Storage.Orders

namespace AutoTrader

open Relational Transactional

/-! ### Arguments -/

structure MaterializeArgs where
  clientOrderId : String
  stopLossPrice : Option Number
  takeProfitPrice : Option Number
  maxHoldingSeconds : Option Number
  closeReason : String

/-- The arguments of `materialize_order_fills` after validation. -/
structure CheckedMaterialize where
  stopLossPrice : Option PosRat
  takeProfitPrice : Option PosRat
  maxHoldingSeconds : Option Nat
  closeReason : String

def checkHolding : Option Number → Except Exn (Option Nat)
  | none => .ok none
  | some (.int n) =>
    if 0 < n then .ok (some n.toNat) else .error (.valueError "max_holding_seconds must be positive")
  | some _ => .error (.valueError "max_holding_seconds must be positive")

def requireCloseReason (reason : String) : Except Exn Unit :=
  if reason = "" then .error (.valueError "close_reason must not be empty") else .ok ()

def checkMaterialize (a : MaterializeArgs) : Except Exn CheckedMaterialize := do
  requireNonempty a.clientOrderId "client_order_id"
  let stop ← validatePositiveIfGiven a.stopLossPrice "stop_loss_price"
  let take ← validatePositiveIfGiven a.takeProfitPrice "take_profit_price"
  let holding ← checkHolding a.maxHoldingSeconds
  requireCloseReason a.closeReason
  .ok ⟨stop, take, holding, a.closeReason⟩

/-! ### Statements -/

/-- A statement on `live_positions`; its answer is the row count. -/
def onPositions (f : Table LivePosition LivePosition.positionId →
    Table LivePosition LivePosition.positionId × Bool) : Tx Bool :=
  .statement fun db => ((f db.livePositions).2, { db with livePositions := (f db.livePositions).1 })

/-- A statement on `live_position_fill_applications`; its answer is the row count. -/
def onApplications (f : Table FillApplication FillApplication.fillId →
    Table FillApplication FillApplication.fillId × Bool) : Tx Bool :=
  .statement fun db =>
    ((f db.fillApplications).2, { db with fillApplications := (f db.fillApplications).1 })

/-- `INSERT INTO live_positions`: both the primary key and the UNIQUE signal must
    be free. -/
def insertPosition (p : LivePosition) : Tx Unit := do
  let signalTaken ← Exec.query fun db => db.livePositions.rows.any fun r => r.signalId = p.signalId
  Exec.require (!signalTaken) (.integrityError "UNIQUE constraint failed")
  let inserted ← onPositions fun t => t.insertOrIgnore p
  Exec.require inserted (.integrityError "UNIQUE constraint failed")

/-- `UPDATE live_positions SET ... WHERE position_id=? AND status='OPEN'`. -/
def updatePosition (positionId : String) (f : LivePosition → LivePosition)
    (hf : ∀ r, (f r).positionId = r.positionId) : Tx Unit := do
  let _ ← onPositions fun t => t.updateWhere positionId (fun p => p.status = .open) f hf

/-- `INSERT INTO live_position_fill_applications`. -/
def insertApplication (row : FillApplication) : Tx Unit := do
  let inserted ← onApplications fun t => t.insertOrIgnore row
  Exec.require inserted (.integrityError "UNIQUE constraint failed")

/-! ### Materializing -/

/-- `SELECT * FROM live_positions WHERE symbol=? AND status='OPEN'
    ORDER BY opened_at, position_id LIMIT 1`. -/
def Database.openPosition (db : Database) (symbol : String) : Option LivePosition :=
  (orderedBy (·.openedAt.isoformat) (·.positionId) (db.openPositions symbol)).head?

/-- The fills of an order that no call has applied yet, oldest first. -/
def Database.unappliedFills (db : Database) (clientOrderId : String) : List BrokerFill :=
  orderedBy (·.filledAt.isoformat) (·.fillId)
    ((db.fillsOf clientOrderId).filter fun f => db.unapplied f)

/-- `order["signal_id"] or f"fill:{client_order_id}"`. -/
def positionSignal (order : BrokerOrder) : String :=
  if truthy order.signalId then order.signalId.getD "" else "fill:" ++ order.clientOrderId

/-- `fill["broker_order_id"] or order["broker_order_id"]`. -/
def fillBrokerId (order : BrokerOrder) (fill : BrokerFill) : Option String :=
  if truthy fill.brokerOrderId then fill.brokerOrderId else order.brokerOrderId

/-- The row a BUY fill opens a position with. -/
def openedPosition (c : CheckedMaterialize) (order : BrokerOrder) (fill : BrokerFill)
    (stop take : PosRat) : LivePosition :=
  { positionId := "live-position:" ++ positionSignal order
    signalId := positionSignal order
    symbol := fill.symbol, quantity := fill.quantity, entryPrice := fill.price.val
    stopLossPrice := stop, takeProfitPrice := take, openedAt := fill.filledAt, status := .open
    entryBrokerOrderId := fillBrokerId order fill
    exitBrokerOrderId := none, closedAt := none, closeReason := none
    maxHoldingSeconds := c.maxHoldingSeconds }

/-- A BUY fill added to the OPEN position `old`. -/
def enlargedPosition (old : LivePosition) (fill : BrokerFill) (p : LivePosition) : LivePosition :=
  { p with
    quantity := old.quantity + fill.quantity
    entryPrice := (old.quantity * old.entryPrice + fill.quantity * fill.price.val) /
      (old.quantity + fill.quantity : Nat) }

/-- A SELL fill of the whole position. -/
def closedPosition (c : CheckedMaterialize) (order : BrokerOrder) (fill : BrokerFill)
    (p : LivePosition) : LivePosition :=
  { p with
    quantity := 0, status := .closed
    exitBrokerOrderId := fillBrokerId order fill
    closedAt := some fill.filledAt, closeReason := some c.closeReason }

/-- A SELL fill of a part of the OPEN position `old`. -/
def reducedPosition (order : BrokerOrder) (old : LivePosition) (fill : BrokerFill)
    (p : LivePosition) : LivePosition :=
  { p with
    quantity := old.quantity - fill.quantity
    exitBrokerOrderId := fillBrokerId order fill }

theorem enlargedPosition_positionId (old : LivePosition) (fill : BrokerFill) (p : LivePosition) :
    (enlargedPosition old fill p).positionId = p.positionId := rfl

theorem closedPosition_positionId (c : CheckedMaterialize) (order : BrokerOrder)
    (fill : BrokerFill) (p : LivePosition) :
    (closedPosition c order fill p).positionId = p.positionId := rfl

theorem reducedPosition_positionId (order : BrokerOrder) (old : LivePosition) (fill : BrokerFill)
    (p : LivePosition) : (reducedPosition order old fill p).positionId = p.positionId := rfl

/-- The BUY half of the loop body. -/
def bookBuy (c : CheckedMaterialize) (order : BrokerOrder) (fill : BrokerFill) :
    Option LivePosition → Tx Unit
  | none =>
    match c.stopLossPrice, c.takeProfitPrice with
    | some stop, some take =>
      if stop.val < fill.price.val ∧ fill.price.val < take.val then
        insertPosition (openedPosition c order fill stop take)
      else Exec.raise (.valueError "BUY fill requires a valid stop/take price ladder")
    | _, _ => Exec.raise (.valueError "BUY fill requires a valid stop/take price ladder")
  | some old =>
    updatePosition old.positionId (enlargedPosition old fill) (enlargedPosition_positionId old fill)

/-- The SELL half of the loop body. -/
def bookSell (c : CheckedMaterialize) (order : BrokerOrder) (fill : BrokerFill) :
    Option LivePosition → Tx Unit
  | none => Exec.raise (.valueError "SELL fill has no open live position")
  | some old =>
    if old.quantity < fill.quantity then
      Exec.raise (.valueError "SELL fill exceeds open live position")
    else if old.quantity - fill.quantity = 0 then
      updatePosition old.positionId (closedPosition c order fill)
        (closedPosition_positionId c order fill)
    else
      updatePosition old.positionId (reducedPosition order old fill)
        (reducedPosition_positionId order old fill)

/-- The body of the loop over the fills; the counter is `applied`. -/
def applyFillStep (now : DateTime) (c : CheckedMaterialize) (order : BrokerOrder) (applied : Nat)
    (fill : BrokerFill) : Tx Nat := do
  let position ← Exec.query fun db => db.openPosition fill.symbol
  match fill.side with
  | .buy => bookBuy c order fill position
  | .sell => bookSell c order fill position
  insertApplication ⟨fill.fillId, order.clientOrderId, now⟩
  pure (applied + 1)

/-! ### What one fill does -/

theorem mem_orderedBy {R : Type} (first second : R → String) {rows : List R} {r : R} :
    r ∈ orderedBy first second rows ↔ r ∈ rows :=
  List.mem_insertionSort _

theorem Database.mem_openPositions {db : Database} {symbol : String} {p : LivePosition} :
    p ∈ db.openPositions symbol ↔
      p ∈ db.livePositions.rows ∧ p.symbol = symbol ∧ p.status = .open := by
  simp only [Database.openPositions, List.mem_filter, decide_eq_true_eq]

theorem Database.openPosition_some {db : Database} {symbol : String} {p : LivePosition}
    (h : db.openPosition symbol = some p) :
    p ∈ db.livePositions.rows ∧ p.symbol = symbol ∧ p.status = .open :=
  Database.mem_openPositions.mp ((mem_orderedBy _ _).mp (List.mem_of_head? h))

theorem Database.openPosition_none {db : Database} {symbol : String}
    (h : db.openPosition symbol = none) {p : LivePosition} (hp : p ∈ db.livePositions.rows)
    (hopen : p.status = .open) : p.symbol ≠ symbol := by
  intro hsym
  have hmem := (mem_orderedBy (·.openedAt.isoformat) (·.positionId)).mpr
    (Database.mem_openPositions.mpr ⟨hp, hsym, hopen⟩)
  rw [List.head?_eq_none_iff.mp h] at hmem
  cases hmem

/-- What booking a fill does to `live_positions`: open, enlarge, close or reduce. -/
inductive Booking (c : CheckedMaterialize) (order : BrokerOrder) (fill : BrokerFill)
    (db : Database) : Table LivePosition LivePosition.positionId → Prop
  | opened (stop take : PosRat) : fill.side = .buy → db.openPosition fill.symbol = none →
      c.stopLossPrice = some stop → c.takeProfitPrice = some take →
      stop.val < fill.price.val → fill.price.val < take.val →
      (∀ r ∈ db.livePositions.rows, r.signalId ≠ positionSignal order) →
      db.livePositions.find? (openedPosition c order fill stop take).positionId = none →
      Booking c order fill db
        (db.livePositions.insertOrIgnore (openedPosition c order fill stop take)).1
  | enlarged (old : LivePosition) : fill.side = .buy → db.openPosition fill.symbol = some old →
      Booking c order fill db (db.livePositions.update old.positionId (enlargedPosition old fill)
        (enlargedPosition_positionId old fill))
  | closed (old : LivePosition) : fill.side = .sell → db.openPosition fill.symbol = some old →
      old.quantity = fill.quantity →
      Booking c order fill db (db.livePositions.update old.positionId (closedPosition c order fill)
        (closedPosition_positionId c order fill))
  | reduced (old : LivePosition) : fill.side = .sell → db.openPosition fill.symbol = some old →
      fill.quantity < old.quantity →
      Booking c order fill db (db.livePositions.update old.positionId
        (reducedPosition order old fill) (reducedPosition_positionId order old fill))

theorem insertPosition_ok {p : LivePosition} {db db' : Database} {u : Unit}
    (h : (insertPosition p).run db = (.ok u, db')) :
    (∀ r ∈ db.livePositions.rows, r.signalId ≠ p.signalId) ∧
    db.livePositions.find? p.positionId = none ∧
    db' = { db with livePositions := (db.livePositions.insertOrIgnore p).1 } := by
  simp only [insertPosition, Exec.run_query_bind, Exec.run_require_bind] at h
  split at h
  case isFalse => simp at h
  rename_i hsignal
  have hfree : ∀ r ∈ db.livePositions.rows, r.signalId ≠ p.signalId := by simpa using hsignal
  rcases db.livePositions.insertOrIgnore_cases p with ⟨-, hins⟩ | ⟨hnone, hflag, -⟩
  · simp [onPositions, hins] at h
  · simp only [onPositions, Exec.run_statement_bind, hflag, Exec.run_require, if_true,
      Prod.mk.injEq, true_and] at h
    exact ⟨hfree, hnone, h.symm⟩

/-- Updating an OPEN position rewrites it. -/
theorem updatePosition_run {old : LivePosition} {f : LivePosition → LivePosition}
    {hf : ∀ r, (f r).positionId = r.positionId} {db : Database}
    (hold : old ∈ db.livePositions.rows) (hopen : old.status = .open) :
    (updatePosition old.positionId f hf).run db =
      (.ok (), { db with livePositions := db.livePositions.update old.positionId f hf }) := by
  have hupd := Table.updateWhere_of_find? (db.livePositions.find?_of_mem hold)
    (fun p => decide (p.status = .open)) (decide_eq_true hopen) f hf
  simp only [updatePosition, onPositions, Exec.run_statement_bind, hupd]
  rfl

theorem insertApplication_ok {row : FillApplication} {db db' : Database} {u : Unit}
    (h : (insertApplication row).run db = (.ok u, db')) :
    db.fillApplications.find? row.fillId = none ∧
    db' = { db with fillApplications := (db.fillApplications.insertOrIgnore row).1 } := by
  rcases db.fillApplications.insertOrIgnore_cases row with ⟨-, hins⟩ | ⟨hnone, hflag, -⟩
  · simp [insertApplication, onApplications, hins] at h
  · simp only [insertApplication, onApplications, Exec.run_statement_bind, hflag,
      Exec.run_require, if_true, Prod.mk.injEq, true_and] at h
    exact ⟨hnone, h.symm⟩

theorem bookBuy_ok {c : CheckedMaterialize} {order : BrokerOrder} {fill : BrokerFill}
    {db db' : Database} {u : Unit} (hside : fill.side = .buy)
    (h : (bookBuy c order fill (db.openPosition fill.symbol)).run db = (.ok u, db')) :
    ∃ t, Booking c order fill db t ∧ db' = { db with livePositions := t } := by
  cases hpos : db.openPosition fill.symbol with
  | none =>
    rw [hpos] at h
    simp only [bookBuy] at h
    cases hstop : c.stopLossPrice with
    | none => simp [hstop] at h
    | some stop =>
      cases htake : c.takeProfitPrice with
      | none => simp [hstop, htake] at h
      | some take =>
        simp only [hstop, htake] at h
        split at h
        · rename_i hladder
          obtain ⟨hsignal, hfree, rfl⟩ := insertPosition_ok h
          exact ⟨_, .opened stop take hside hpos hstop htake hladder.1 hladder.2 hsignal hfree, rfl⟩
        · simp at h
  | some old =>
    obtain ⟨hmem, -, hopen⟩ := Database.openPosition_some hpos
    rw [hpos, bookBuy, updatePosition_run hmem hopen] at h
    simp only [Prod.mk.injEq, true_and] at h
    exact ⟨_, .enlarged old hside hpos, h.symm⟩

theorem bookSell_ok {c : CheckedMaterialize} {order : BrokerOrder} {fill : BrokerFill}
    {db db' : Database} {u : Unit} (hside : fill.side = .sell)
    (h : (bookSell c order fill (db.openPosition fill.symbol)).run db = (.ok u, db')) :
    ∃ t, Booking c order fill db t ∧ db' = { db with livePositions := t } := by
  cases hpos : db.openPosition fill.symbol with
  | none => simp [hpos, bookSell] at h
  | some old =>
    obtain ⟨hmem, -, hopen⟩ := Database.openPosition_some hpos
    simp only [hpos, bookSell] at h
    split at h
    · simp at h
    · rename_i hle
      split at h
      · rename_i hzero
        rw [updatePosition_run hmem hopen] at h
        simp only [Prod.mk.injEq, true_and] at h
        exact ⟨_, .closed old hside hpos (by omega), h.symm⟩
      · rename_i hzero
        rw [updatePosition_run hmem hopen] at h
        simp only [Prod.mk.injEq, true_and] at h
        exact ⟨_, .reduced old hside hpos (by omega), h.symm⟩

/-- A loop iteration that does not raise books the fill and records it. -/
theorem applyFillStep_ok {now : DateTime} {c : CheckedMaterialize} {order : BrokerOrder}
    {n n' : Nat} {fill : BrokerFill} {db db' : Database}
    (h : (applyFillStep now c order n fill).run db = (.ok n', db')) :
    n' = n + 1 ∧ db.fillApplications.find? fill.fillId = none ∧
    ∃ t, Booking c order fill db t ∧
      db' = { db with
        livePositions := t
        fillApplications :=
          (db.fillApplications.insertOrIgnore ⟨fill.fillId, order.clientOrderId, now⟩).1 } := by
  have hbook : ∃ db₁, (∃ t, Booking c order fill db t ∧ db₁ = { db with livePositions := t }) ∧
      ((insertApplication ⟨fill.fillId, order.clientOrderId, now⟩ >>= fun _ : Unit =>
        (pure (n + 1) : Tx Nat)).run db₁ = (.ok n', db')) := by
    simp only [applyFillStep, Exec.run_query_bind] at h
    cases hside : fill.side with
    | buy =>
      rw [hside] at h
      obtain ⟨u, db₁, h₁, hrest⟩ := Exec.run_bind_eq_ok h
      exact ⟨db₁, bookBuy_ok hside h₁, hrest⟩
    | sell =>
      rw [hside] at h
      obtain ⟨u, db₁, h₁, hrest⟩ := Exec.run_bind_eq_ok h
      exact ⟨db₁, bookSell_ok hside h₁, hrest⟩
  obtain ⟨db₁, ⟨t, hb, rfl⟩, hrest⟩ := hbook
  obtain ⟨_, db₂, happ, hend⟩ := Exec.run_bind_eq_ok hrest
  obtain ⟨hfree, rfl⟩ := insertApplication_ok happ
  simp only [Exec.run_pure, Prod.mk.injEq, Except.ok.injEq] at hend
  exact ⟨hend.1.symm, hfree, t, hb, hend.2.symm⟩

/-! ### The whole call -/

def materializeOrderFills (now : DateTime) (a : MaterializeArgs) : Tx Nat := do
  let c ← Exec.ofExcept (checkMaterialize a)
  Exec.atomically do
    match ← Exec.query fun db => db.brokerOrders.find? a.clientOrderId with
    | none => Exec.raise (.valueError ("unknown client_order_id: " ++ a.clientOrderId))
    | some order => do
      let fills ← Exec.query fun db => db.unappliedFills a.clientOrderId
      fills.foldlM (applyFillStep now c order) 0

/-- A call raises and leaves the database as it was, or its loop went through. -/
theorem materializeOrderFills_cases (now : DateTime) (a : MaterializeArgs) (db : Database) :
    (∃ e, (materializeOrderFills now a).run db = (.error e, db)) ∨
    (∃ c order n db', checkMaterialize a = .ok c ∧
      db.brokerOrders.find? a.clientOrderId = some order ∧
      ((db.unappliedFills a.clientOrderId).foldlM (applyFillStep now c order) 0).run db =
        (.ok n, db') ∧
      (materializeOrderFills now a).run db = (.ok n, db')) := by
  unfold materializeOrderFills
  cases hc : checkMaterialize a with
  | error e => exact Or.inl ⟨e, rfl⟩
  | ok c =>
    simp only [Exec.run_ofExcept_ok_bind, Exec.run_atomically, Exec.run_query_bind]
    cases horder : db.brokerOrders.find? a.clientOrderId with
    | none => exact Or.inl ⟨_, rfl⟩
    | some order =>
      simp only [Exec.run_query_bind]
      rcases hrun : ((db.unappliedFills a.clientOrderId).foldlM (applyFillStep now c order) 0).run db
        with ⟨r, db'⟩
      cases r with
      | error e => exact Or.inl ⟨e, rfl⟩
      | ok n => exact Or.inr ⟨c, order, n, db', rfl, rfl, hrun, rfl⟩

end AutoTrader
