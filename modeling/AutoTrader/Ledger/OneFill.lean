/-
  AutoTrader/Ledger/OneFill.lean
  ==============================
  **One new fill of an order whose fills are all applied.**

  `apply_broker_fill` inserts a valid fill that fits, `materialize_order_fills` then finds
  that fill and no other to apply.  What the two transactions do to the holding of the symbol
  is `heldAfterFill`; when they go through is `insert_new_fill`, `materialize_new_buy` and
  `materialize_new_sell`.
-/
import AutoTrader.Ledger.Bookable
import AutoTrader.Ledger.Orders

namespace AutoTrader

open Relational Transactional

/-! ### The holding of a symbol -/

/-- The quantity and the entry price of the OPEN position of a symbol. -/
def Database.held (db : Database) (symbol : String) : Option (Nat × ℚ) :=
  (db.openPosition symbol).map fun p => (p.quantity, p.entryPrice)

/-- What a fill makes of a holding: bought shares move the average, sold shares leave it. -/
def heldAfterFill (side : Side) (quantity : Nat) (price : ℚ) (held : Option (Nat × ℚ)) : Option (Nat × ℚ) :=
  match side, held with
  | .buy, none => some (quantity, price)
  | .buy, some (old, entry) =>
    some (old + quantity, (old * entry + quantity * price) / (old + quantity : Nat))
  | .sell, none => none
  | .sell, some (old, entry) => if old = quantity then none else some (old - quantity, entry)

/-- The OPEN position of a symbol is the one that is found. -/
theorem PositionLedger.openPosition_of_mem {db : Database} (h : PositionLedger db) {p : LivePosition}
    (hp : p ∈ db.livePositions.rows) (hopen : p.status = .open) : db.openPosition p.symbol = some p := by
  cases hfound : db.openPosition p.symbol with
  | none => exact absurd rfl (Database.openPosition_none hfound hp hopen)
  | some q =>
    obtain ⟨hq, hsymbol, hqopen⟩ := Database.openPosition_some hfound
    rw [h.unique q hq p hp hqopen hopen hsymbol]

theorem Database.openPosition_eq_none {db : Database} {symbol : String}
    (h : ∀ p ∈ db.livePositions.rows, p.status = .open → p.symbol ≠ symbol) : db.openPosition symbol = none := by
  cases hfound : db.openPosition symbol with
  | none => rfl
  | some q =>
    obtain ⟨hq, hsymbol, hopen⟩ := Database.openPosition_some hfound
    exact absurd hsymbol (h q hq hopen)

/-- What booking one fill does to the holding of its symbol. -/
theorem held_booked {now : DateTime} {c : CheckedMaterialize} {order : BrokerOrder} {fill : BrokerFill}
    {db db' : Database} (hdb : PositionLedger db) (hdb' : PositionLedger db')
    (hbooked : Booked now c order [fill] db db') :
    db'.held fill.symbol = heldAfterFill fill.side fill.quantity fill.price.val (db.held fill.symbol) := by
  cases hbooked with
  | cons hfree hbook hrest =>
    cases hrest with
    | nil =>
      -- a row that the booking leaves OPEN is the one that is found
      have hfound : ∀ p ∈ (bookedOnce now order fill _ db).livePositions.rows, p.symbol = fill.symbol →
          p.status = .open → (bookedOnce now order fill _ db).openPosition fill.symbol = some p :=
        fun p hp hsymbol hopen => hsymbol ▸ hdb'.openPosition_of_mem hp hopen
      unfold Database.held
      cases hbook with
      | opened stop take hside hnone hstop htake hlo hhi hsignal hid =>
        have hrows := (Table.insertOrIgnore_of_free hid).2
        rw [hfound (openedPosition c order fill stop take) (by simp [bookedOnce, hrows]) rfl rfl, hnone, hside]
        rfl
      | enlarged old hside hold =>
        obtain ⟨hmem, hsymbol, hopen⟩ := Database.openPosition_some hold
        have hnew := (db.livePositions.mem_update old.positionId (enlargedPosition old fill)
          (enlargedPosition_positionId old fill)).mpr ⟨old, hmem, (if_pos rfl).symm⟩
        rw [hfound _ hnew hsymbol hopen, hold, hside]
        rfl
      | closed old hside hold hall =>
        obtain ⟨hmem, hsymbol, hopen⟩ := Database.openPosition_some hold
        have hgone : (bookedOnce now order fill (db.livePositions.update old.positionId
            (closedPosition c order fill) (closedPosition_positionId c order fill)) db).openPosition fill.symbol =
            none := by
          apply Database.openPosition_eq_none
          intro p hp hpopen hpsymbol
          obtain ⟨r, hr, rfl⟩ := (db.livePositions.mem_update old.positionId (closedPosition c order fill)
            (closedPosition_positionId c order fill)).mp hp
          split at hpopen
          · cases hpopen
          · rename_i hne
            rw [if_neg hne] at hpsymbol
            exact hne (congrArg LivePosition.positionId
              (hdb.unique r hr old hmem hpopen hopen (hpsymbol.trans hsymbol.symm)))
        rw [hgone, hold, hside]
        simp [heldAfterFill, hall]
      | reduced old hside hold hpart =>
        obtain ⟨hmem, hsymbol, hopen⟩ := Database.openPosition_some hold
        have hnew := (db.livePositions.mem_update old.positionId (reducedPosition order old fill)
          (reducedPosition_positionId order old fill)).mpr ⟨old, hmem, (if_pos rfl).symm⟩
        rw [hfound _ hnew hsymbol hopen, hold, hside]
        simp only [Option.map_some, heldAfterFill, if_neg hpart.ne', reducedPosition]

/-! ### Inserting the fill -/

/-- Every fill of the order is applied. -/
def Database.AllApplied (db : Database) (c : String) : Prop := ∀ f ∈ db.fillsOf c, db.applied f = true

/-- The database after a new fill was inserted and rolled into its order. -/
def filledOnce (now : DateTime) (a : FillArgs) (checked : CheckedFill) (order : BrokerOrder) (db : Database) :
    Database :=
  { db with
    brokerFills := (db.brokerFills.insertOrIgnore (fillRow now a checked order)).1
    brokerOrders := db.brokerOrders.update a.clientOrderId (rollFill (fillRow now a checked order))
      (rollFill_clientOrderId _) }

section Fill

variable {now : DateTime} {a : FillArgs} {checked : CheckedFill} {order : BrokerOrder} {db : Database}

/-- A valid fill of an order that it fits, under an id that is new. -/
structure NewFill (a : FillArgs) (checked : CheckedFill) (order : BrokerOrder) (db : Database) : Prop where
  valid : checkFill a = .ok checked
  found : db.brokerOrders.find? a.clientOrderId = some order
  symbol : a.symbol.all (· = order.symbol) = true
  side : checked.side.all (· = order.side) = true
  broker : (a.brokerOrderId.all fun given => order.brokerOrderId.all (given = ·)) = true
  fits : order.filledQty + checked.quantity.val ≤ order.requestedQty
  free : db.brokerFills.find? a.fillId = none

variable (now) in
theorem insert_new_fill (h : NewFill a checked order db) :
    (Op.applyBrokerFill now a).call db = (.ok true, filledOnce now a checked order db) := by
  have hflag := (Table.insertOrIgnore_of_free (r := fillRow now a checked order) h.free).1
  have hupdate := Table.updateWhere_of_find? h.found
    (fun o => o.filledQty + (fillRow now a checked order).quantity ≤ o.requestedQty)
    (decide_eq_true h.fits) (rollFill (fillRow now a checked order)) (rollFill_clientOrderId _)
  change (applyBrokerFill now a).run db = _
  unfold applyBrokerFill
  simp only [h.valid, Exec.run_ofExcept_ok_bind, Exec.run_atomically, Exec.run_query_bind, h.found,
    Exec.run_require_bind, h.symbol, h.side, h.broker, if_true, onFills, Exec.run_statement_bind, hflag, onOrders,
    hupdate]
  rfl

variable (now) in
theorem NewFill.ledger (h : NewFill a checked order db) (hdb : LedgerState db) :
    LedgerState (filledOnce now a checked order db) := by
  have hexec := hdb.exec (Op.applyBrokerFill now a)
  rwa [Op.exec, insert_new_fill now h] at hexec

theorem NewFill.rows (h : NewFill a checked order db) :
    (filledOnce now a checked order db).brokerFills.rows =
      db.brokerFills.rows ++ [fillRow now a checked order] :=
  (Table.insertOrIgnore_of_free (r := fillRow now a checked order) h.free).2

theorem NewFill.fillsOf (h : NewFill a checked order db) :
    (filledOnce now a checked order db).fillsOf a.clientOrderId =
      db.fillsOf a.clientOrderId ++ [fillRow now a checked order] := by
  have hid : (fillRow now a checked order).clientOrderId = a.clientOrderId := rfl
  rw [fillsOf_append db _ h.rows, if_pos hid]

theorem NewFill.find? (h : NewFill a checked order db) :
    (filledOnce now a checked order db).brokerOrders.find? a.clientOrderId =
      some (rollFill (fillRow now a checked order) order) := by
  simp only [filledOnce, Table.find?_update_self, h.found, Option.map_some]

theorem NewFill.unapplied (h : NewFill a checked order db) (hdb : PositionLedger db) :
    db.fillApplications.find? a.fillId = none := by
  rw [Table.find?_eq_none_iff]
  intro row hrow hid
  obtain ⟨f, hf⟩ := hdb.applied_known row hrow
  rw [hid, h.free] at hf
  cases hf

/-- It is the one fill that is left to apply. -/
theorem NewFill.unappliedFills (h : NewFill a checked order db) (hdb : PositionLedger db)
    (happlied : db.AllApplied a.clientOrderId) :
    (filledOnce now a checked order db).unappliedFills a.clientOrderId = [fillRow now a checked order] := by
  have hold : (db.fillsOf a.clientOrderId).filter (fun f => (filledOnce now a checked order db).unapplied f) =
      [] := by
    rw [List.filter_eq_nil_iff]
    intro f hf hnot
    have hsome := happlied f hf
    unfold Database.applied at hsome
    unfold Database.unapplied at hnot
    rw [Option.isNone_iff_eq_none] at hnot
    exact absurd hsome (by rw [show db.fillApplications.find? f.fillId = none from hnot]; decide)
  have hnew : (filledOnce now a checked order db).unapplied (fillRow now a checked order) = true :=
    Option.isNone_iff_eq_none.mpr (h.unapplied hdb)
  unfold Database.unappliedFills
  rw [h.fillsOf, List.filter_append, hold, List.nil_append, List.filter_singleton, hnew]
  rfl

end Fill

/-! ### Applying it -/

/-- A SELL fill that the holding covers is applied. -/
theorem materialize_new_sell {now : DateTime} {a : MaterializeArgs} {order : BrokerOrder} {db : Database}
    {fill : BrokerFill} {old : LivePosition} {c : CheckedMaterialize} (hvalid : checkMaterialize a = .ok c)
    (horder : db.brokerOrders.find? a.clientOrderId = some order)
    (hone : db.unappliedFills a.clientOrderId = [fill]) (hside : fill.side = .sell)
    (hheld : db.openPosition fill.symbol = some old) (hcovers : fill.quantity ≤ old.quantity) :
    ∃ n db', (materializeOrderFills now a).run db = (.ok n, db') := by
  obtain ⟨hmem, -, hopen⟩ := Database.openPosition_some hheld
  have hfree : db.fillApplications.find? fill.fillId = none := by
    have hfill : fill ∈ db.unappliedFills a.clientOrderId := by rw [hone]; exact List.mem_cons_self
    simpa [Database.applied] using (Database.mem_unappliedFills.mp hfill).2.2
  have hstep : ∃ t, (applyFillStep now c order 0 fill).run db = (.ok 1, bookedOnce now order fill t db) := by
    by_cases hall : old.quantity - fill.quantity = 0
    · refine ⟨db.livePositions.update old.positionId (closedPosition c order fill)
        (closedPosition_positionId c order fill), applyFillStep_sell hside hfree ?_⟩
      rw [hheld, bookSell, if_neg (not_lt.mpr hcovers), if_pos hall]
      exact updatePosition_run hmem hopen
    · refine ⟨db.livePositions.update old.positionId (reducedPosition order old fill)
        (reducedPosition_positionId order old fill), applyFillStep_sell hside hfree ?_⟩
      rw [hheld, bookSell, if_neg (not_lt.mpr hcovers), if_neg hall]
      exact updatePosition_run hmem hopen
  obtain ⟨t, hstep⟩ := hstep
  refine ⟨1, bookedOnce now order fill t db, ?_⟩
  simp only [materializeOrderFills, hvalid, Exec.run_ofExcept_ok_bind, Exec.run_atomically, Exec.run_query_bind,
    horder, hone, List.foldlM_cons, Exec.run_bind_ok hstep, List.foldlM_nil, Exec.run_pure]

end AutoTrader
