/-
  AutoTrader/Ledger/Positions.lean
  ================================
  **Positions are the applied fills.**

  For every symbol there is at most one OPEN position, its quantity is the
  applied BUY quantity minus the applied SELL quantity, and without an OPEN
  position that difference is zero.  The statement quantifies over all orders of
  the symbol at once, so it is kept by a step that looks at one fill only: the
  booked quantity and the newly applied quantity are the same number.

  `Booked` is the list of bookings one `materialize_order_fills` call performs.
  The invariant and the new rows of `live_position_fill_applications` are read
  off it by induction.
-/
import AutoTrader.Ledger.Frame
import Mathlib.Algebra.Order.Ring.Int

namespace AutoTrader

open Relational Transactional

/-! ### Applied quantities -/

namespace Database

/-- The fill is recorded in `live_position_fill_applications`. -/
def applied (db : Database) (f : BrokerFill) : Bool := (db.fillApplications.find? f.fillId).isSome

/-- The applied quantity of a symbol on one side, over all orders. -/
def appliedQuantity (db : Database) (symbol : String) (side : Side) : Nat :=
  db.brokerFills.total fun f =>
    if db.applied f ∧ f.symbol = symbol ∧ f.side = side then f.quantity else 0

/-- Applied BUY quantity minus applied SELL quantity. -/
def netQuantity (db : Database) (symbol : String) : Int :=
  (db.appliedQuantity symbol .buy : Int) - db.appliedQuantity symbol .sell

end Database

/-- The signed quantity a fill adds to the position of its symbol. -/
def BrokerFill.delta (f : BrokerFill) : Int :=
  match f.side with
  | .buy => f.quantity
  | .sell => -f.quantity

theorem Database.appliedQuantity_congr {db db' : Database} (hf : db'.brokerFills = db.brokerFills)
    (ha : db'.fillApplications = db.fillApplications) (symbol : String) (side : Side) :
    db'.appliedQuantity symbol side = db.appliedQuantity symbol side := by
  have happlied : ∀ f : BrokerFill, db'.applied f = db.applied f := by
    intro f; simp only [Database.applied, ha]
  simp only [Database.appliedQuantity, hf, happlied]

theorem Database.netQuantity_congr {db db' : Database} (hf : db'.brokerFills = db.brokerFills)
    (ha : db'.fillApplications = db.fillApplications) (symbol : String) :
    db'.netQuantity symbol = db.netQuantity symbol := by
  simp only [Database.netQuantity, Database.appliedQuantity_congr hf ha]

/-- Recording a fill adds its quantity to its own symbol and side. -/
theorem Database.appliedQuantity_record {db db' : Database} {f : BrokerFill} {row : FillApplication}
    (hfills : db'.brokerFills = db.brokerFills)
    (happs : db'.fillApplications = (db.fillApplications.insertOrIgnore row).1)
    (hf : db.brokerFills.find? f.fillId = some f) (hrow : row.fillId = f.fillId)
    (hfree : db.fillApplications.find? f.fillId = none) (symbol : String) (side : Side) :
    db'.appliedQuantity symbol side =
      db.appliedQuantity symbol side + if f.symbol = symbol ∧ f.side = side then f.quantity else 0 := by
  obtain ⟨-, hrows⟩ := Table.insertOrIgnore_of_free (hrow ▸ hfree)
  have happlied : ∀ g : BrokerFill, db'.applied g = (db.applied g || decide (f.fillId = g.fillId)) := by
    intro g
    simp only [Database.applied, happs, Table.find?_append hrows, hrow, Option.isSome_or]
    by_cases h : f.fillId = g.fillId <;> simp [h]
  unfold Database.appliedQuantity
  rw [hfills]
  apply db.brokerFills.total_eq_add hf
  · intro g _ hne
    rw [happlied, decide_eq_false (Ne.symm hne), Bool.or_false]
  · have hnot : db.applied f = false := by simp [Database.applied, hfree]
    simp [happlied, hnot]

theorem Database.netQuantity_record (db db' : Database) {f : BrokerFill} {row : FillApplication}
    (hfills : db'.brokerFills = db.brokerFills)
    (happs : db'.fillApplications = (db.fillApplications.insertOrIgnore row).1)
    (hf : db.brokerFills.find? f.fillId = some f) (hrow : row.fillId = f.fillId)
    (hfree : db.fillApplications.find? f.fillId = none) (symbol : String) :
    db'.netQuantity symbol = db.netQuantity symbol + if f.symbol = symbol then f.delta else 0 := by
  unfold Database.netQuantity BrokerFill.delta
  rw [Database.appliedQuantity_record hfills happs hf hrow hfree,
    Database.appliedQuantity_record hfills happs hf hrow hfree]
  by_cases hsym : f.symbol = symbol
  · cases hside : f.side <;> simp [hsym] <;> omega
  · simp [hsym]

/-! ### The ledger invariant -/

structure PositionLedger (db : Database) : Prop where
  unique : ∀ p ∈ db.livePositions.rows, ∀ q ∈ db.livePositions.rows,
    p.status = .open → q.status = .open → p.symbol = q.symbol → p = q
  open_quantity : ∀ p ∈ db.livePositions.rows, p.status = .open →
    0 < p.quantity ∧ (p.quantity : Int) = db.netQuantity p.symbol
  flat : ∀ symbol, (∀ p ∈ db.livePositions.rows, p.status = .open → p.symbol ≠ symbol) →
    db.netQuantity symbol = 0
  closed_quantity : ∀ p ∈ db.livePositions.rows, p.status = .closed → p.quantity = 0
  applied_known : ∀ a ∈ db.fillApplications.rows, ∃ f, db.brokerFills.find? a.fillId = some f

theorem PositionLedger.empty : PositionLedger Database.empty where
  unique := by intro p hp; cases hp
  open_quantity := by intro p hp; cases hp
  flat := by intro symbol _; rfl
  closed_quantity := by intro p hp; cases hp
  applied_known := by intro a ha; cases ha

/-- Nothing that leaves the three tables alone matters. -/
theorem PositionLedger.congr {db db' : Database} (h : PositionLedger db)
    (hp : db'.livePositions = db.livePositions) (hf : db'.brokerFills = db.brokerFills)
    (ha : db'.fillApplications = db.fillApplications) : PositionLedger db' where
  unique := by rw [hp]; exact h.unique
  open_quantity := by
    rw [hp]
    intro p hmem hopen
    rw [Database.netQuantity_congr hf ha]
    exact h.open_quantity p hmem hopen
  flat := by
    intro symbol hnone
    rw [Database.netQuantity_congr hf ha]
    exact h.flat symbol (by rwa [hp] at hnone)
  closed_quantity := by rw [hp]; exact h.closed_quantity
  applied_known := by rw [ha, hf]; exact h.applied_known

/-- A new fill is not applied yet, so it changes no net quantity. -/
theorem PositionLedger.insertFill {db db' : Database} (h : PositionLedger db) {f : BrokerFill}
    (hfree : db.brokerFills.find? f.fillId = none)
    (hp : db'.livePositions = db.livePositions)
    (hf : db'.brokerFills = (db.brokerFills.insertOrIgnore f).1)
    (ha : db'.fillApplications = db.fillApplications) : PositionLedger db' := by
  obtain ⟨-, hrows⟩ := Table.insertOrIgnore_of_free hfree
  have hnew : db.applied f = false := by
    cases hfind : db.fillApplications.find? f.fillId with
    | none => simp [Database.applied, hfind]
    | some a =>
      obtain ⟨g, hg⟩ := h.applied_known a (db.fillApplications.mem_of_find? hfind)
      rw [db.fillApplications.key_of_find? hfind, hfree] at hg
      cases hg
  have hnet : ∀ symbol, db'.netQuantity symbol = db.netQuantity symbol := by
    intro symbol
    have hquantity : ∀ side, db'.appliedQuantity symbol side = db.appliedQuantity symbol side := by
      intro side
      have happlied : ∀ g : BrokerFill, db'.applied g = db.applied g := by
        intro g; simp only [Database.applied, ha]
      simp only [Database.appliedQuantity, hf, Table.total_append hrows, happlied, hnew]
      simp
    simp only [Database.netQuantity, hquantity]
  exact
    { unique := by rw [hp]; exact h.unique
      open_quantity := by
        rw [hp]; intro p hmem hopen; rw [hnet]; exact h.open_quantity p hmem hopen
      flat := by intro symbol hnone; rw [hnet]; exact h.flat symbol (by rwa [hp] at hnone)
      closed_quantity := by rw [hp]; exact h.closed_quantity
      applied_known := by
        rw [ha, hf]
        intro a hmem
        obtain ⟨g, hg⟩ := h.applied_known a hmem
        exact ⟨g, by rw [Table.find?_append hrows, hg]; rfl⟩ }

/-- Rewriting the OPEN position of a symbol by the quantity that was just applied. -/
theorem PositionLedger.rewrite {db db' : Database} (h : PositionLedger db) {old : LivePosition}
    {g : LivePosition → LivePosition} (hg : ∀ r, (g r).positionId = r.positionId) {delta : Int}
    (hold : old ∈ db.livePositions.rows) (hopen : old.status = .open)
    (hp : db'.livePositions = db.livePositions.update old.positionId g hg)
    (hf : db'.brokerFills = db.brokerFills)
    (ha : ∀ a ∈ db'.fillApplications.rows, ∃ f, db.brokerFills.find? a.fillId = some f)
    (hnet : ∀ symbol, db'.netQuantity symbol =
      db.netQuantity symbol + if old.symbol = symbol then delta else 0)
    (hsym : (g old).symbol = old.symbol)
    (hnew : ((g old).status = .open ∧ 0 < (g old).quantity ∧
        ((g old).quantity : Int) = old.quantity + delta) ∨
      ((g old).status = .closed ∧ (g old).quantity = 0 ∧ (old.quantity : Int) + delta = 0)) :
    PositionLedger db' := by
  -- a row of the new table is the rewritten position or an untouched row of another id
  have hrows : ∀ p, p ∈ db'.livePositions.rows →
      p = g old ∨ (p ∈ db.livePositions.rows ∧ p ≠ old) := by
    intro p hmem
    rw [hp] at hmem
    obtain ⟨r, hr, rfl⟩ := (db.livePositions.mem_update old.positionId g hg).mp hmem
    by_cases hk : r.positionId = old.positionId
    · left; rw [if_pos hk, db.livePositions.eq_of_key_eq hr hold hk]
    · right; rw [if_neg hk]; exact ⟨hr, fun he => hk (by rw [he])⟩
  -- another OPEN position has another symbol
  have hother : ∀ p ∈ db.livePositions.rows, p ≠ old → p.status = .open → old.symbol ≠ p.symbol := by
    intro p hmem hne hpo hs
    exact hne (h.unique p hmem old hold hpo hopen hs.symm)
  have hkeep : ∀ r ∈ db.livePositions.rows, r ≠ old → r ∈ db'.livePositions.rows := by
    intro r hr hne
    rw [hp]
    refine (db.livePositions.mem_update old.positionId g hg).mpr ⟨r, hr, ?_⟩
    rw [if_neg fun hk => hne (db.livePositions.eq_of_key_eq hr hold hk)]
  have hmine : g old ∈ db'.livePositions.rows := by
    rw [hp]
    exact (db.livePositions.mem_update old.positionId g hg).mpr ⟨old, hold, by rw [if_pos rfl]⟩
  obtain ⟨hpos, hqty⟩ := h.open_quantity old hold hopen
  refine ⟨?_, ?_, ?_, ?_, ?_⟩
  · intro p hp' q hq' hpo hqo hs
    rcases hrows p hp' with rfl | ⟨hpm, hpne⟩
    · rcases hrows q hq' with rfl | ⟨hqm, hqne⟩
      · rfl
      · exact absurd (hsym ▸ hs) (hother q hqm hqne hqo)
    · rcases hrows q hq' with rfl | ⟨hqm, hqne⟩
      · exact absurd (hsym ▸ hs.symm) (hother p hpm hpne hpo)
      · exact h.unique p hpm q hqm hpo hqo hs
  · intro p hp' hpo
    rcases hrows p hp' with rfl | ⟨hpm, hpne⟩
    · rcases hnew with ⟨-, hq0, hq⟩ | ⟨hclosed, -, -⟩
      · rw [hnet, hsym, if_pos rfl]
        exact ⟨hq0, by omega⟩
      · rw [hclosed] at hpo; cases hpo
    · rw [hnet, if_neg (hother p hpm hpne hpo), add_zero]
      exact h.open_quantity p hpm hpo
  · intro symbol hnone
    rw [hnet]
    by_cases hs : old.symbol = symbol
    · rw [if_pos hs]
      rcases hnew with ⟨hstill, -, -⟩ | ⟨-, -, hzero⟩
      · exact absurd (hsym.trans hs) (hnone _ hmine hstill)
      · rw [← hs, ← hqty]; exact hzero
    · rw [if_neg hs, add_zero]
      apply h.flat symbol
      intro p hpm hpo hps
      by_cases hpne : p = old
      · exact hs (hpne ▸ hps)
      · exact hnone p (hkeep p hpm hpne) hpo hps
  · intro p hp' hpc
    rcases hrows p hp' with rfl | ⟨hpm, -⟩
    · rcases hnew with ⟨hstill, -, -⟩ | ⟨-, hq, -⟩
      · rw [hstill] at hpc; cases hpc
      · exact hq
    · exact h.closed_quantity p hpm hpc
  · rw [hf]; exact ha

/-- Opening the position of a symbol that has none. -/
theorem PositionLedger.openNew {db db' : Database} (h : PositionLedger db) {new : LivePosition}
    (delta : Int) (hrows : db'.livePositions.rows = db.livePositions.rows ++ [new])
    (hf : db'.brokerFills = db.brokerFills)
    (ha : ∀ a ∈ db'.fillApplications.rows, ∃ f, db.brokerFills.find? a.fillId = some f)
    (hnet : ∀ symbol, db'.netQuantity symbol =
      db.netQuantity symbol + if new.symbol = symbol then delta else 0)
    (hopen : new.status = .open) (hpos : 0 < new.quantity) (hqty : (new.quantity : Int) = delta)
    (hnone : ∀ p ∈ db.livePositions.rows, p.status = .open → p.symbol ≠ new.symbol) :
    PositionLedger db' := by
  have hmem : ∀ p, p ∈ db'.livePositions.rows ↔ p ∈ db.livePositions.rows ∨ p = new := by
    intro p; rw [hrows]; simp
  refine ⟨?_, ?_, ?_, ?_, ?_⟩
  · intro p hp q hq hpo hqo hs
    rcases (hmem p).mp hp with hp | rfl
    · rcases (hmem q).mp hq with hq | rfl
      · exact h.unique p hp q hq hpo hqo hs
      · exact absurd hs (hnone p hp hpo)
    · rcases (hmem q).mp hq with hq | rfl
      · exact absurd hs.symm (hnone q hq hqo)
      · rfl
  · intro p hp hpo
    rcases (hmem p).mp hp with hp | rfl
    · rw [hnet, if_neg (Ne.symm (hnone p hp hpo)), add_zero]
      exact h.open_quantity p hp hpo
    · rw [hnet, if_pos rfl, h.flat _ hnone, zero_add]
      exact ⟨hpos, hqty⟩
  · intro symbol hno
    have hs : new.symbol ≠ symbol := hno new ((hmem new).mpr (Or.inr rfl)) hopen
    rw [hnet, if_neg hs, add_zero]
    exact h.flat symbol fun p hp => hno p ((hmem p).mpr (Or.inl hp))
  · intro p hp hpc
    rcases (hmem p).mp hp with hp | rfl
    · exact h.closed_quantity p hp hpc
    · rw [hopen] at hpc; cases hpc
  · rw [hf]; exact ha

/-! ### Booking keeps the invariant -/

/-- One booking keeps the invariant: the position moves by the quantity that is
    recorded as applied. -/
theorem PositionLedger.book {now : DateTime} {c : CheckedMaterialize} {order : BrokerOrder}
    {fill : BrokerFill} {db : Database} {t : Table LivePosition LivePosition.positionId}
    (h : PositionLedger db) (hfill : db.brokerFills.find? fill.fillId = some fill)
    (hfree : db.fillApplications.find? fill.fillId = none) (hbook : Booking c order fill db t) :
    PositionLedger (bookedOnce now order fill t db) := by
  have hnet := Database.netQuantity_record db (bookedOnce now order fill t db) rfl rfl hfill rfl hfree
  have happs : ∀ a ∈ (bookedOnce now order fill t db).fillApplications.rows,
      ∃ f, db.brokerFills.find? a.fillId = some f := by
    obtain ⟨-, hrows⟩ := Table.insertOrIgnore_of_free
      (r := (⟨fill.fillId, order.clientOrderId, now⟩ : FillApplication)) hfree
    intro a ha
    simp only [bookedOnce, hrows] at ha
    rcases List.mem_append.mp ha with ha | ha
    · exact h.applied_known a ha
    · rw [List.mem_singleton.mp ha]; exact ⟨fill, hfill⟩
  have hquantity := fill.quantity_pos
  cases hbook with
  | opened stop take hside hnone hstop htake hlo hhi hsignal hid =>
    obtain ⟨-, hrows⟩ := Table.insertOrIgnore_of_free hid
    refine h.openNew fill.delta hrows rfl happs hnet rfl hquantity ?_ ?_
    · simp [BrokerFill.delta, hside, openedPosition]
    · intro p hp hpo
      exact Database.openPosition_none hnone hp hpo
  | enlarged old hside hold =>
    obtain ⟨hmem, hsym, hopen⟩ := Database.openPosition_some hold
    refine h.rewrite (enlargedPosition_positionId old fill) hmem hopen rfl rfl happs
      (by rw [hsym]; exact hnet) rfl (Or.inl ⟨hopen, ?_, ?_⟩)
    · simp only [enlargedPosition]; omega
    · simp [enlargedPosition, BrokerFill.delta, hside]
  | closed old hside hold hall =>
    obtain ⟨hmem, hsym, hopen⟩ := Database.openPosition_some hold
    refine h.rewrite (closedPosition_positionId c order fill) hmem hopen rfl rfl happs
      (by rw [hsym]; exact hnet) rfl (Or.inr ⟨rfl, rfl, ?_⟩)
    simp only [BrokerFill.delta, hside]
    omega
  | reduced old hside hold hpart =>
    obtain ⟨hmem, hsym, hopen⟩ := Database.openPosition_some hold
    refine h.rewrite (reducedPosition_positionId order old fill) hmem hopen rfl rfl happs
      (by rw [hsym]; exact hnet) rfl (Or.inl ⟨hopen, ?_, ?_⟩)
    · simp only [reducedPosition]; omega
    · simp only [reducedPosition, BrokerFill.delta, hside]; omega

theorem PositionLedger.booked {now : DateTime} {c : CheckedMaterialize} {order : BrokerOrder}
    {fills : List BrokerFill} {db db' : Database} (h : PositionLedger db)
    (hfills : ∀ f ∈ fills, db.brokerFills.find? f.fillId = some f)
    (hbooked : Booked now c order fills db db') : PositionLedger db' := by
  induction hbooked with
  | nil db => exact h
  | @cons fill rest db db' t hfree hbook _ ih =>
    apply ih
    · exact h.book (hfills fill List.mem_cons_self) hfree hbook
    · intro f hf
      exact hfills f (List.mem_cons_of_mem _ hf)

theorem Database.mem_unappliedFills {db : Database} {id : String} {f : BrokerFill} :
    f ∈ db.unappliedFills id ↔
      f ∈ db.brokerFills.rows ∧ f.clientOrderId = id ∧ db.applied f = false := by
  simp only [Database.unappliedFills, mem_orderedBy, Database.fillsOf, List.mem_filter,
    decide_eq_true_eq, Database.unapplied, Database.applied, and_assoc,
    Option.isNone_iff_eq_none, Option.isSome_eq_false_iff]

/-- Every method keeps the position ledger. -/
theorem PositionLedger.exec (op : Op) {db : Database} (h : PositionLedger db) :
    PositionLedger (op.exec db) := by
  rcases op.exec_ledger db with
    ⟨hf, hp, ha⟩ | ⟨now, a, c, order, -, -, hfree, -, hdb⟩ | ⟨now, a, c, order, -, -, hbooked⟩
  · exact h.congr hp hf ha
  · rw [hdb]
    exact h.insertFill (f := fillRow now a c order) hfree rfl rfl rfl
  · apply h.booked _ hbooked
    intro f hf
    exact db.brokerFills.find?_of_mem (Database.mem_unappliedFills.mp hf).1

theorem PositionLedger.runOps (ops : List Op) : PositionLedger (runOps ops Database.empty) :=
  runOps_inv ops (fun op _ _ h => h.exec op) PositionLedger.empty

/-- The rows of a table are distinct, so at most one row per symbol is a list of
    length at most one. -/
theorem PositionLedger.openPositions_length {db : Database} (h : PositionLedger db)
    (symbol : String) : (db.openPositions symbol).length ≤ 1 := by
  have hnodup : (db.openPositions symbol).Nodup :=
    (List.Nodup.of_map _ db.livePositions.nodup).filter _
  match hrows : db.openPositions symbol with
  | [] => simp
  | [p] => simp
  | p :: q :: rest =>
    exfalso
    rw [hrows] at hnodup
    obtain ⟨hp, hps, hpo⟩ := Database.mem_openPositions.mp (hrows ▸ List.mem_cons_self)
    obtain ⟨hq, hqs, hqo⟩ := Database.mem_openPositions.mp
      (hrows ▸ List.mem_cons_of_mem p List.mem_cons_self)
    have heq := h.unique p hp q hq hpo hqo (hps.trans hqs.symm)
    simp [heq] at hnodup

/-! ### Runs of the position ledger -/

/-- The methods through which fills reach positions. -/
inductive PositionCall where
  | claimOrderIntent (now : DateTime) (a : IntentArgs)
  | applyBrokerFill (now : DateTime) (a : FillArgs)
  | materializeOrderFills (now : DateTime) (a : MaterializeArgs)

def PositionCall.op : PositionCall → Op
  | .claimOrderIntent now a => .claimOrderIntent now a
  | .applyBrokerFill now a => .applyBrokerFill now a
  | .materializeOrderFills now a => .materializeOrderFills now a

/-- The database after any sequence of such calls on an empty one. -/
def positionRun (calls : List PositionCall) : Database :=
  runOps (calls.map PositionCall.op) Database.empty

/-- **The position ledger invariant.**  After every sequence of calls from an
    empty database: one OPEN position per symbol at most, holding exactly the
    applied BUY minus SELL quantity; CLOSED positions hold nothing; applications
    are distinct known fills; and of the next call only a materialization that
    returns changes the two tables, by booking and recording the fills of its
    order that were not applied yet, in order. -/
theorem position_ledger_invariant (calls : List PositionCall) :
    (∀ symbol, ((positionRun calls).openPositions symbol).length ≤ 1 ∧
      (∀ p ∈ (positionRun calls).openPositions symbol, 0 < p.quantity ∧
        (p.quantity : Int) = (positionRun calls).appliedQuantity symbol .buy -
          (positionRun calls).appliedQuantity symbol .sell) ∧
      ((positionRun calls).openPositions symbol = [] →
        ((positionRun calls).appliedQuantity symbol .buy : Int) -
          (positionRun calls).appliedQuantity symbol .sell = 0)) ∧
    (∀ p ∈ (positionRun calls).livePositions.rows, p.status = .closed → p.quantity = 0) ∧
    ((positionRun calls).fillApplications.rows.map (·.fillId)).Nodup ∧
    (∀ a ∈ (positionRun calls).fillApplications.rows,
      ∃ f, (positionRun calls).brokerFills.find? a.fillId = some f) ∧
    (∀ call : PositionCall, call.op.raises (positionRun calls) →
      (call.op.exec (positionRun calls)).livePositions = (positionRun calls).livePositions ∧
      (call.op.exec (positionRun calls)).fillApplications = (positionRun calls).fillApplications) ∧
    (∀ now a n db', (Op.materializeOrderFills now a).call (positionRun calls) = (.ok n, db') →
      n = ((positionRun calls).unappliedFills a.clientOrderId).length ∧
      (∃ c order, Booked now c order ((positionRun calls).unappliedFills a.clientOrderId)
        (positionRun calls) db') ∧
      db'.fillApplications.rows = (positionRun calls).fillApplications.rows ++
        ((positionRun calls).unappliedFills a.clientOrderId).map
          fun f => ⟨f.fillId, a.clientOrderId, now⟩) ∧
    (∀ call : PositionCall, (∀ now a, call ≠ .materializeOrderFills now a) →
      (call.op.exec (positionRun calls)).livePositions = (positionRun calls).livePositions ∧
      (call.op.exec (positionRun calls)).fillApplications =
        (positionRun calls).fillApplications) := by
  have h : PositionLedger (positionRun calls) := PositionLedger.runOps _
  refine ⟨?_, h.closed_quantity, (positionRun calls).fillApplications.nodup, h.applied_known,
    ?_, ?_, ?_⟩
  · intro symbol
    refine ⟨h.openPositions_length symbol, ?_, ?_⟩
    · intro p hp
      obtain ⟨hmem, rfl, hopen⟩ := Database.mem_openPositions.mp hp
      exact h.open_quantity p hmem hopen
    · intro hnone
      apply h.flat symbol
      intro p hmem hopen hsym
      have hp := Database.mem_openPositions.mpr ⟨hmem, hsym, hopen⟩
      rw [hnone] at hp
      cases hp
  · intro call hraise
    rw [Op.exec_of_raises hraise]
    exact ⟨rfl, rfl⟩
  · intro now a n db' hcall
    obtain ⟨c, order, -, horder, hbooked, hn⟩ := materializeOrderFills_ok hcall
    have hrows := hbooked.frame.2
    rw [(positionRun calls).brokerOrders.key_of_find? horder] at hrows
    exact ⟨hn, ⟨c, order, hbooked⟩, hrows⟩
  · intro call hother
    cases call with
    | claimOrderIntent now a =>
      rcases claimOrderIntent_cases now a (positionRun calls) with
        ⟨e, hr⟩ | ⟨-, hr⟩ | ⟨row, -, -, hr⟩
      · simp only [PositionCall.op, Op.exec, Op.call, Op.run, hr, and_self]
      · simp only [PositionCall.op, Op.exec, Op.call, Op.run, hr, and_self]
      · simp only [PositionCall.op, Op.exec, Op.call, Op.run, hr, and_self]
    | applyBrokerFill now a =>
      rcases applyBrokerFill_cases now a (positionRun calls) with
        ⟨e, hr⟩ | ⟨-, hr⟩ | ⟨c, order, -, -, -, -, hr⟩
      · simp only [PositionCall.op, Op.exec, Op.call, Op.run, hr, and_self]
      · simp only [PositionCall.op, Op.exec, Op.call, Op.run, hr, and_self]
      · simp only [PositionCall.op, Op.exec, Op.call, Op.run, hr, and_self]
    | materializeOrderFills now a => exact absurd rfl (hother now a)

end AutoTrader
