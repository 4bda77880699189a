/-
  AutoTrader/Broker/SellOrders.lean
  =================================
  **SELL orders at the broker, beside the ledgers.**

  The broker knows what of a SELL order still works and what was executed of it; the
  ledgers know what was recorded and what was materialized.  `commitments` is what the
  SELL orders of a symbol still claim of the holding: what works, and what was executed
  and not materialized.

  The holding of a symbol is what was materialized of its BUYs minus what was
  materialized of its SELLs.  So the claim on the holding is a bound on everything its
  SELL orders ever committed by what was materialized of its BUYs, and only the sending
  of another SELL can break that bound.
-/
import AutoTrader.Ledger.Orders
import AutoTrader.Ledger.Positions
import AutoTrader.Pipeline.Actions
import Mathlib.Algebra.Order.BigOperators.Group.List

namespace AutoTrader

open Relational Transactional

/-! ### Orders at the broker -/

/-- A SELL order that was sent. -/
structure Sale where
  clientOrderId : String
  symbol : String
  working : Nat
  executed : Nat
deriving DecidableEq

abbrev SaleBook := Table Sale Sale.clientOrderId

namespace Sale

/-- The broker executes up to `k` shares of what works. -/
def execute (k : Nat) (s : Sale) : Sale :=
  { s with working := s.working - k, executed := s.executed + min k s.working }

/-- What the broker may make of an order: it neither enlarges nor revives it. -/
structure Moves (s s' : Sale) : Prop where
  symbol : s'.symbol = s.symbol
  total : s'.working + s'.executed ≤ s.working + s.executed
  executed : s.executed ≤ s'.executed
  ended : s.working = 0 → s'.working = 0

theorem Moves.refl (s : Sale) : s.Moves s := ⟨rfl, le_rfl, le_rfl, fun h => h⟩

theorem moves_execute (k : Nat) (s : Sale) : s.Moves (s.execute k) := by
  refine ⟨rfl, ?_, ?_, ?_⟩
  · simp only [execute]; omega
  · simp only [execute]; omega
  · intro h; simp only [execute]; omega

end Sale

/-- A SELL order reaches the broker; a second one under the same id works beside the
    first. -/
def SaleBook.place (book : SaleBook) (s : Sale) : SaleBook :=
  match book.find? s.clientOrderId with
  | none => (book.insertOrIgnore s).1
  | some _ => book.update s.clientOrderId (fun r => { r with working := r.working + s.working }) fun _ => rfl

/-- The broker executes, cancels or rejects something of one order. -/
def SaleBook.Moves (book book' : SaleBook) : Prop :=
  ∃ id f, ∃ hf : ∀ s : Sale, (f s).clientOrderId = s.clientOrderId,
    (∀ s : Sale, s.Moves (f s)) ∧ book' = book.update id f hf

theorem SaleBook.place_of_free {book : SaleBook} {s : Sale} (h : book.find? s.clientOrderId = none) :
    (book.place s).rows = book.rows ++ [s] := by
  unfold SaleBook.place
  rw [h]
  exact (Table.insertOrIgnore_of_free h).2

/-- Other orders do not notice. -/
theorem SaleBook.place_find?_ne {book : SaleBook} {s : Sale} (h : book.find? s.clientOrderId = none)
    {k : String} (hk : k ≠ s.clientOrderId) : (book.place s).find? k = book.find? k := by
  rw [Table.find?_append (SaleBook.place_of_free h), if_neg (Ne.symm hk), Option.or_none]

namespace SaleBook.Moves

variable {book book' : SaleBook} (h : book.Moves book')

include h

/-- An order before and after. -/
theorem find?_cases (id : String) : (book.find? id = none ∧ book'.find? id = none) ∨
    ∃ s s', book.find? id = some s ∧ book'.find? id = some s' ∧ s.Moves s' := by
  obtain ⟨k, f, hf, hmoves, rfl⟩ := h
  rw [Table.find?_update]
  cases hs : book.find? id with
  | none =>
    left
    refine ⟨rfl, ?_⟩
    split
    · rename_i hk; rw [← hk, hs]; rfl
    · rfl
  | some s =>
    right
    split
    · rename_i hk; exact ⟨s, f s, rfl, by rw [← hk, hs]; rfl, hmoves s⟩
    · exact ⟨s, s, rfl, rfl, .refl s⟩

theorem total_le (symbol : String) :
    (book'.total fun s => if s.symbol = symbol then s.working + s.executed else 0) ≤
      book.total fun s => if s.symbol = symbol then s.working + s.executed else 0 := by
  obtain ⟨k, f, hf, hmoves, rfl⟩ := h
  simp only [Table.total, Table.update, List.map_map]
  refine List.sum_le_sum fun s _ => ?_
  have hmove : s.Moves (if s.clientOrderId = k then f s else s) := by
    split
    · exact hmoves s
    · exact .refl s
  simp only [Function.comp_apply, hmove.symbol]
  split
  · exact hmove.total
  · exact le_rfl

end SaleBook.Moves

/-- The shares a request asks for. -/
def OrderRequest.units (request : OrderRequest) : Nat :=
  match request.quantity with
  | .int n => n.toNat
  | _ => 0

/-! ### The two sides together -/

/-- The database and the SELL orders at the broker. -/
structure SellWorld where
  db : Database
  book : SaleBook

/-- The quantity of the order that was materialized into positions. -/
def Database.materialized (db : Database) (clientOrderId : String) : Nat :=
  fillQuantity ((db.fillsOf clientOrderId).filter db.applied)

namespace SellWorld

/-- A request reaches the broker, who accepts a quantity of it. -/
def send (w : SellWorld) (clientOrderId : String) (request : OrderRequest) (accepted : Nat) : SellWorld :=
  match request.side with
  | .buy => w
  | .sell => { w with book := w.book.place ⟨clientOrderId, request.symbol, accepted, 0⟩ }

/-- The quantity that was executed on the order. -/
def executed (w : SellWorld) (clientOrderId : String) : Nat :=
  ((w.book.find? clientOrderId).map (·.executed)).getD 0

/-- The quantity working on SELL orders of the symbol, and the quantity executed on
    them and not materialized. -/
def commitments (w : SellWorld) (symbol : String) : Nat :=
  w.book.total fun s =>
    if s.symbol = symbol then s.working + (s.executed - w.db.materialized s.clientOrderId) else 0

/-- The quantity that the SELL orders of the symbol work or have executed. -/
def sold (w : SellWorld) (symbol : String) : Nat :=
  w.book.total fun s => if s.symbol = symbol then s.working + s.executed else 0

/-- What was executed on a SELL order of the symbol that no longer works is
    materialized. -/
def Settled (w : SellWorld) (symbol : String) : Prop :=
  ∀ s ∈ w.book.rows, s.symbol = symbol → s.working = 0 → s.executed ≤ w.db.materialized s.clientOrderId

/-- The broker was sent the order and no longer works it. -/
def Over (w : SellWorld) (clientOrderId : String) : Prop :=
  ∃ s, w.book.find? clientOrderId = some s ∧ s.working = 0

/-- With `quantity` more, neither the header nor the fills count more of the order than
    was executed. -/
def Executes (w : SellWorld) (o : BrokerOrder) (quantity : Nat) : Prop :=
  o.filledQty + quantity ≤ w.executed o.clientOrderId ∧
  fillQuantity (w.db.fillsOf o.clientOrderId) + quantity ≤ w.executed o.clientOrderId

end SellWorld

/-- What ledgers and broker owe to each other on SELL orders. -/
structure SellLedger (w : SellWorld) : Prop where
  owned : ∀ f ∈ w.db.brokerFills.rows, ∃ o, w.db.brokerOrders.find? f.clientOrderId = some o ∧
    f.symbol = o.symbol ∧ f.side = o.side
  placed : ∀ id s, w.book.find? id = some s → ∃ o, w.db.brokerOrders.find? id = some o ∧
    o.side = .sell ∧ o.symbol = s.symbol ∧ s.working + s.executed ≤ o.requestedQty
  ended : ∀ id o, w.db.brokerOrders.find? id = some o → o.side = .sell → o.status.terminal = true →
    w.Over id
  counted : ∀ id o, w.db.brokerOrders.find? id = some o → o.side = .sell →
    fillQuantity (w.db.fillsOf id) ≤ w.executed id
  covered : ∀ symbol, w.sold symbol ≤ w.db.appliedQuantity symbol .buy

/-! ### Sums -/

theorem fillQuantity_filter (fs : List BrokerFill) (p : BrokerFill → Bool) :
    fillQuantity (fs.filter p) = (fs.map fun f => if p f then f.quantity else 0).sum := by
  induction fs with
  | nil => rfl
  | cons f rest ih =>
    rw [List.filter_cons, List.map_cons, List.sum_cons, ← ih]
    cases p f with
    | true => simp [fillQuantity]
    | false => simp

theorem fillQuantity_filter_le (fs : List BrokerFill) (p : BrokerFill → Bool) :
    fillQuantity (fs.filter p) ≤ fillQuantity fs := by
  induction fs with
  | nil => exact le_rfl
  | cons f rest ih =>
    rw [List.filter_cons]
    split
    · simp only [fillQuantity, List.map_cons, List.sum_cons] at ih ⊢; omega
    · simp only [fillQuantity, List.map_cons, List.sum_cons] at ih ⊢; omega

namespace SellLedger

variable {w : SellWorld} (h : SellLedger w)

include h

theorem materialized_le {id : String} {s : Sale} (hs : w.book.find? id = some s) :
    w.db.materialized id ≤ s.executed := by
  obtain ⟨o, ho, hside, -⟩ := h.placed id s hs
  have hcounted := h.counted id o ho hside
  have happlied := fillQuantity_filter_le (w.db.fillsOf id) w.db.applied
  simp only [SellWorld.executed, hs, Option.map_some, Option.getD_some] at hcounted
  exact happlied.trans hcounted

/-- A SELL fill of the symbol is a fill of a SELL order of the symbol that was sent. -/
theorem sale_iff {f : BrokerFill} (hf : f ∈ w.db.brokerFills.rows) (symbol : String) :
    (f.symbol = symbol ∧ f.side = .sell) ↔
      (w.book.find? f.clientOrderId).any (fun s => s.symbol = symbol) = true := by
  obtain ⟨o, ho, hsymbol, hside⟩ := h.owned f hf
  constructor
  · rintro ⟨rfl, hsell⟩
    have hcounted := h.counted _ o ho (by rw [← hside, hsell])
    have hmem : f ∈ w.db.fillsOf f.clientOrderId :=
      List.mem_filter.mpr ⟨hf, decide_eq_true rfl⟩
    have hpos := fillQuantity_pos (List.ne_nil_of_mem hmem)
    cases hs : w.book.find? f.clientOrderId with
    | none =>
      simp only [SellWorld.executed, hs, Option.map_none, Option.getD_none] at hcounted
      omega
    | some s =>
      obtain ⟨o', ho', -, hsym, -⟩ := h.placed _ s hs
      rw [ho, Option.some.injEq] at ho'
      subst ho'
      simp [hsymbol, hsym]
  · intro hany
    cases hs : w.book.find? f.clientOrderId with
    | none => rw [hs] at hany; cases hany
    | some s =>
      obtain ⟨o', ho', hsell, hsym, -⟩ := h.placed _ s hs
      rw [ho, Option.some.injEq] at ho'
      subst ho'
      rw [hs, Option.any_some, decide_eq_true_eq] at hany
      exact ⟨hsymbol.trans (hsym.trans hany), hside.trans hsell⟩

/-- What was materialized of the SELL orders of a symbol is its applied SELL quantity. -/
theorem total_materialized (symbol : String) :
    w.book.total (fun s => if s.symbol = symbol then w.db.materialized s.clientOrderId else 0) =
      w.db.appliedQuantity symbol .sell := by
  -- the applied fills of one order, as a sum over all fills
  have horder : ∀ id, w.db.materialized id = (w.db.brokerFills.rows.map fun f =>
      if f.clientOrderId = id then (if w.db.applied f = true then f.quantity else 0) else 0).sum := by
    intro id
    rw [Database.materialized, Database.fillsOf, List.filter_filter, fillQuantity_filter]
    congr 1
    apply List.map_congr_left
    intro f _
    by_cases hid : f.clientOrderId = id <;> simp [hid]
  simp only [horder]
  rw [w.book.total_named (fun s => s.symbol = symbol)]
  apply w.db.brokerFills.total_congr
  intro f hf
  have hiff := h.sale_iff hf symbol
  by_cases hsale : f.symbol = symbol ∧ f.side = .sell
  · rw [if_pos (hiff.mp hsale)]
    simp [hsale]
  · rw [if_neg (fun hany => hsale (hiff.mpr hany)), if_neg fun hf => hsale hf.2]

/-- What was sold is what is still claimed and what was materialized. -/
theorem sold_eq (symbol : String) :
    w.sold symbol = w.commitments symbol + w.db.appliedQuantity symbol .sell := by
  rw [← h.total_materialized, SellWorld.sold, SellWorld.commitments, ← w.book.total_add]
  apply w.book.total_congr
  intro s hs
  have hle := h.materialized_le (w.book.find?_of_mem hs)
  split
  · omega
  · rfl

/-- Where no SELL order of a symbol works and all of them are materialized, nothing more
    was sold. -/
theorem sold_le (symbol : String)
    (hidle : ∀ id s, w.book.find? id = some s → s.symbol = symbol → s.working = 0)
    (hsettled : w.Settled symbol) : w.sold symbol ≤ w.db.appliedQuantity symbol .sell := by
  have hnone : w.commitments symbol = 0 := by
    refine (w.book.total_congr fun s hs => ?_).trans w.book.total_zero
    split
    · rename_i hsymbol
      have hworking := hidle _ s (w.book.find?_of_mem hs) hsymbol
      have hexecuted := hsettled s hs hsymbol hworking
      omega
    · rfl
  rw [h.sold_eq, hnone, zero_add]

end SellLedger

/-- The OPEN quantity of a symbol is its applied BUY minus SELL quantity. -/
theorem PositionLedger.openQuantity_eq {db : Database} (h : PositionLedger db) (symbol : String) :
    (db.openQuantity symbol : Int) = db.netQuantity symbol := by
  unfold Database.openQuantity
  match hrows : db.openPositions symbol with
  | [] =>
    have hnone := h.flat symbol fun p hp hopen hsymbol => by
      have hmem := Database.mem_openPositions.mpr ⟨hp, hsymbol, hopen⟩
      rw [hrows] at hmem
      cases hmem
    rw [hnone]
    rfl
  | [p] =>
    obtain ⟨hp, rfl, hopen⟩ := Database.mem_openPositions.mp (hrows ▸ List.mem_cons_self)
    simpa using (h.open_quantity p hp hopen).2
  | p :: q :: rest =>
    have hlength := h.openPositions_length symbol
    rw [hrows, List.length_cons, List.length_cons] at hlength
    omega

/-- **Commitments within the holding.**  Where ledgers and broker agree, what the SELL
    orders of a symbol claim is held. -/
theorem SellLedger.commitments_le {w : SellWorld} (h : SellLedger w) (hledger : PositionLedger w.db)
    (symbol : String) : w.commitments symbol ≤ w.db.openQuantity symbol := by
  have hsold := h.sold_eq symbol
  have hcovered := h.covered symbol
  have hopen := hledger.openQuantity_eq symbol
  unfold Database.netQuantity at hopen
  omega

/-! ### Applied quantities only grow -/

theorem Database.appliedQuantity_mono {db db' : Database} (added : List BrokerFill)
    (hrows : db'.brokerFills.rows = db.brokerFills.rows ++ added)
    (happlied : ∀ f, db.applied f = true → db'.applied f = true) (symbol : String) (side : Side) :
    db.appliedQuantity symbol side ≤ db'.appliedQuantity symbol side := by
  simp only [Database.appliedQuantity, Table.total, hrows, List.map_append, List.sum_append]
  refine le_trans (List.sum_le_sum fun f _ => ?_) (Nat.le_add_right _ _)
  by_cases hf : db.applied f = true ∧ f.symbol = symbol ∧ f.side = side
  · rw [if_pos hf, if_pos ⟨happlied f hf.1, hf.2⟩]
  · rw [if_neg hf]
    exact Nat.zero_le _

theorem Op.exec_appliedQuantity (op : Op) (db : Database) (symbol : String) (side : Side) :
    db.appliedQuantity symbol side ≤ (op.exec db).appliedQuantity symbol side := by
  rcases op.exec_ledger db with
    ⟨hf, -, ha⟩ | ⟨now, a, c, order, -, -, hfree, -, hdb⟩ | ⟨now, a, c, order, -, -, hbooked⟩
  · exact (Database.appliedQuantity_congr hf ha symbol side).ge
  · refine Database.appliedQuantity_mono [fillRow now a c order] ?_ ?_ symbol side
    · rw [hdb]
      exact (Table.insertOrIgnore_of_free (r := fillRow now a c order) hfree).2
    · rw [hdb]
      exact fun _ h => h
  · obtain ⟨hframe, hrows⟩ := hbooked.frame
    refine Database.appliedQuantity_mono [] ?_ ?_ symbol side
    · rw [hframe, List.append_nil]
    · -- a recorded application stays among the rows
      intro f hf
      by_contra hnone
      rw [Database.applied, Option.not_isSome_iff_eq_none, Table.find?_eq_none_iff, hrows] at hnone
      obtain ⟨application, happlication⟩ := Option.isSome_iff_exists.mp hf
      exact hnone application
        (List.mem_append_left _ (db.fillApplications.mem_of_find? happlication))
        (db.fillApplications.key_of_find? happlication)

/-! ### Calls of the ledgers -/

/-- The condition on a call.  A SELL is claimed when what was executed on the earlier
    SELLs of the symbol is materialized, as far as they no longer work; a new fill of a
    SELL counts nothing that was not executed; and a SELL is given a terminal status when
    it no longer works. -/
def Orderly (op : Op) (w : SellWorld) : Prop :=
  match op with
  | .claimOrderIntent _ a => Side.parse? a.side = some .sell → w.Settled a.symbol
  | .applyBrokerFill _ a =>
    match checkFill a, w.db.brokerOrders.find? a.clientOrderId with
    | .ok c, some o =>
      o.side = .sell → w.db.brokerFills.find? a.fillId = none →
        o.filledQty + c.quantity.val ≤ o.requestedQty → w.Executes o c.quantity.val
    | _, _ => True
  | .updateBrokerOrderStatus _ id u =>
    match w.db.brokerOrders.find? id with
    | some o => o.side = .sell → u.status.terminal = true → w.Over id
    | none => True
  | _ => True

namespace SellLedger

variable {w : SellWorld}

/-- Nothing that leaves orders and fills alone matters. -/
theorem congr (h : SellLedger w) {db : Database} (horders : db.brokerOrders = w.db.brokerOrders)
    (hfills : db.brokerFills = w.db.brokerFills)
    (happlied : ∀ symbol, w.db.appliedQuantity symbol .buy ≤ db.appliedQuantity symbol .buy) :
    SellLedger { w with db := db } where
  owned := by rw [hfills, horders]; exact h.owned
  placed := by rw [horders]; exact h.placed
  ended := by rw [horders]; exact h.ended
  counted := by
    intro id o ho hside
    change fillQuantity (Database.fillsOf db id) ≤ _
    rw [Database.fillsOf, hfills]
    exact h.counted id o (by rw [← horders]; exact ho) hside
  covered := fun symbol => (h.covered symbol).trans (happlied symbol)

/-- Rewriting a row, which ends a SELL only when it no longer works. -/
theorem rewrite (h : SellLedger w) {id : String} {f : BrokerOrder → BrokerOrder}
    {hf : ∀ r, (f r).clientOrderId = r.clientOrderId} (hsame : ∀ r, SameIntent r (f r))
    (hover : ∀ o, w.db.brokerOrders.find? id = some o → o.side = .sell →
      (f o).status.terminal = true → w.Over id) :
    SellLedger { w with db := { w.db with brokerOrders := w.db.brokerOrders.update id f hf } } := by
  -- a row of the new table, by the row it was
  have hrow : ∀ {k o'}, (w.db.brokerOrders.update id f hf).find? k = some o' →
      ∃ o, w.db.brokerOrders.find? k = some o ∧ SameIntent o o' ∧ (o' = o ∨ k = id ∧ o' = f o) := by
    intro k o' ho'
    rw [Table.find?_update] at ho'
    split at ho'
    · rename_i hk
      obtain ⟨o, ho, rfl⟩ := Option.map_eq_some_iff.mp ho'
      exact ⟨o, by rw [hk]; exact ho, hsame o, .inr ⟨hk, rfl⟩⟩
    · exact ⟨o', ho', .refl o', .inl rfl⟩
  have hpersists : ∀ {k o}, w.db.brokerOrders.find? k = some o →
      ∃ o', (w.db.brokerOrders.update id f hf).find? k = some o' ∧ SameIntent o o' :=
    fun ho => (OrdersAfter.rewritten id f hf hsame).persists ho
  constructor
  · intro g hg
    obtain ⟨o, ho, hsymbol, hside⟩ := h.owned g hg
    obtain ⟨o', ho', hintent⟩ := hpersists ho
    exact ⟨o', ho', hsymbol.trans hintent.symbol.symm, hside.trans hintent.side.symm⟩
  · intro k s hs
    obtain ⟨o, ho, hside, hsymbol, hle⟩ := h.placed k s hs
    obtain ⟨o', ho', hintent⟩ := hpersists ho
    exact ⟨o', ho', hintent.side.trans hside, hintent.symbol.trans hsymbol,
      by rw [hintent.requestedQty]; exact hle⟩
  · intro k o' ho' hside hterminal
    obtain ⟨o, ho, hintent, rfl | ⟨rfl, rfl⟩⟩ := hrow ho'
    · exact h.ended k o' ho hside hterminal
    · exact hover o ho (hintent.side.symm.trans hside) hterminal
  · intro k o' ho' hside
    obtain ⟨o, ho, hintent, -⟩ := hrow ho'
    exact h.counted k o ho (hintent.side.symm.trans hside)
  · exact h.covered

/-- A claimed order has no fills, and it is not terminal. -/
theorem claim (h : SellLedger w) {row : BrokerOrder} (hstatus : row.status = .intent)
    (hfree : w.db.brokerOrders.find? row.clientOrderId = none) :
    SellLedger { w with db := { w.db with brokerOrders := (w.db.brokerOrders.insertOrIgnore row).1 } } := by
  obtain ⟨-, hrows⟩ := Table.insertOrIgnore_of_free hfree
  have hfind : ∀ {k o}, w.db.brokerOrders.find? k = some o →
      (w.db.brokerOrders.insertOrIgnore row).1.find? k = some o := by
    intro k o ho
    rw [Table.find?_append hrows, ho]
    rfl
  have hrow : ∀ {k o}, (w.db.brokerOrders.insertOrIgnore row).1.find? k = some o →
      w.db.brokerOrders.find? k = some o ∨ (o = row ∧ k = row.clientOrderId) := by
    intro k o ho
    rw [Table.find?_append hrows] at ho
    cases hold : w.db.brokerOrders.find? k with
    | some old => rw [hold] at ho; exact .inl ho
    | none =>
      rw [hold, Option.none_or] at ho
      split at ho
      · rename_i hk; cases ho; exact .inr ⟨rfl, hk.symm⟩
      · cases ho
  constructor
  · intro g hg
    obtain ⟨o, ho, hsame⟩ := h.owned g hg
    exact ⟨o, hfind ho, hsame⟩
  · intro k s hs
    obtain ⟨o, ho, hsame⟩ := h.placed k s hs
    exact ⟨o, hfind ho, hsame⟩
  · intro k o ho hside hterminal
    rcases hrow ho with ho | ⟨rfl, rfl⟩
    · exact h.ended k o ho hside hterminal
    · rw [hstatus] at hterminal; cases hterminal
  · intro k o ho hside
    rcases hrow ho with ho | ⟨rfl, rfl⟩
    · exact h.counted k o ho hside
    · -- the id was free, so no fill refers to it
      have hnone : w.db.fillsOf o.clientOrderId = [] := by
        apply List.filter_eq_nil_iff.mpr
        intro f hf hid
        obtain ⟨o', ho', -⟩ := h.owned f hf
        rw [decide_eq_true_eq.mp hid, hfree] at ho'
        cases ho'
      change fillQuantity (w.db.fillsOf o.clientOrderId) ≤ _
      rw [hnone]
      exact Nat.zero_le _
  · exact h.covered

/-- A new fill of a known order, of which no more is counted than was executed. -/
theorem record (h : SellLedger w) {f : BrokerFill} {order : BrokerOrder}
    (horder : w.db.brokerOrders.find? f.clientOrderId = some order)
    (hfree : w.db.brokerFills.find? f.fillId = none)
    (hsame : f.symbol = order.symbol ∧ f.side = order.side)
    (hcounted : order.side = .sell →
      fillQuantity (w.db.fillsOf f.clientOrderId) + f.quantity ≤ w.executed f.clientOrderId) :
    SellLedger { w with db := { w.db with brokerFills := (w.db.brokerFills.insertOrIgnore f).1 } } := by
  obtain ⟨-, hrows⟩ := Table.insertOrIgnore_of_free hfree
  constructor
  · intro g hg
    simp only [hrows] at hg
    rcases List.mem_append.mp hg with hg | hg
    · exact h.owned g hg
    · rw [List.mem_singleton.mp hg]
      exact ⟨order, horder, hsame⟩
  · exact h.placed
  · exact h.ended
  · intro k o ho hside
    rw [fillsOf_append w.db _ hrows]
    split
    · rename_i hk
      subst hk
      rw [show o = order from Option.some.inj (ho.symm.trans horder)] at hside
      rw [fillQuantity_append]
      exact hcounted hside
    · rw [List.append_nil]
      exact h.counted k o ho hside
  · intro symbol
    refine (h.covered symbol).trans (Database.appliedQuantity_mono [f] hrows ?_ symbol .buy)
    exact fun _ happlied => happlied

/-- A call of one of the header methods that leaves the row open. -/
theorem rewriteCall (h : SellLedger w) {id : String} {check : Except Exn Unit}
    {cond : BrokerOrder → Bool} {f : BrokerOrder → BrokerOrder}
    {hf : ∀ r, (f r).clientOrderId = r.clientOrderId} (hsame : ∀ r, SameIntent r (f r))
    (hopen : ∀ o, (f o).status.terminal = false) :
    SellLedger { w with db := ((rewriteOrder id check cond f hf).run w.db).2 } := by
  rcases rewriteOrder_cases id check cond f hf w.db with ⟨e, hr⟩ | ⟨-, hr⟩ | ⟨o, -, -, hr⟩
  · rw [hr]; exact h
  · rw [hr]; exact h
  · rw [hr]
    refine h.rewrite hsame fun o _ _ hterminal => ?_
    rw [hopen] at hterminal
    cases hterminal

/-- Booking a fill: the row ends only with the last share. -/
theorem fill (h : SellLedger w) {now : DateTime} {a : FillArgs} {c : CheckedFill} {order : BrokerOrder}
    (hc : checkFill a = .ok c) (horder : w.db.brokerOrders.find? a.clientOrderId = some order)
    (hfree : w.db.brokerFills.find? a.fillId = none)
    (hfit : order.filledQty + c.quantity.val ≤ order.requestedQty)
    (hok : Orderly (.applyBrokerFill now a) w) :
    SellLedger { w with db := { w.db with
      brokerFills := (w.db.brokerFills.insertOrIgnore (fillRow now a c order)).1
      brokerOrders := w.db.brokerOrders.update a.clientOrderId (rollFill (fillRow now a c order))
        (rollFill_clientOrderId _) } } := by
  have hid := w.db.brokerOrders.key_of_find? horder
  have hexecutes : order.side = .sell → w.Executes order c.quantity.val := by
    intro hside
    simp only [Orderly, hc, horder] at hok
    exact hok hside hfree hfit
  have hrecorded := h.record (f := fillRow now a c order) horder hfree ⟨rfl, rfl⟩ fun hside => by
    have hle := (hexecutes hside).2
    rw [hid] at hle
    exact hle
  refine hrecorded.rewrite (fun r => ⟨rfl, rfl, rfl, rfl, rfl, rfl, rfl⟩) fun o ho hside hterminal => ?_
  obtain rfl : order = o := Option.some.inj (horder.symm.trans ho)
  have hexecuted := (hexecutes hside).1
  have hall : order.filledQty + c.quantity.val = order.requestedQty := by
    by_contra hpart
    have hstatus : (rollFill (fillRow now a c order) order).status = .partiallyFilled := if_neg hpart
    rw [hstatus] at hterminal
    cases hterminal
  have hpos := c.quantity.pos
  rw [hid] at hexecuted
  cases hs : w.book.find? a.clientOrderId with
  | none =>
    simp only [SellWorld.executed, hs, Option.map_none, Option.getD_none] at hexecuted
    omega
  | some s =>
    obtain ⟨o', ho', -, -, hle⟩ := h.placed _ s hs
    rw [horder, Option.some.injEq] at ho'
    subst ho'
    simp only [SellWorld.executed, hs, Option.map_some, Option.getD_some] at hexecuted
    exact ⟨s, hs, by omega⟩

/-- **Every call keeps the two sides together.** -/
theorem exec (op : Op) (h : SellLedger w) (hok : Orderly op w) :
    SellLedger { w with db := op.exec w.db } := by
  have happlied := fun symbol => op.exec_appliedQuantity w.db symbol .buy
  cases op with
  | claimOrderIntent now a =>
    rcases claimOrderIntent_cases now a w.db with ⟨e, hr⟩ | ⟨-, hr⟩ | ⟨row, hrow, hfree, hr⟩
    · simpa only [Op.exec, Op.call, Op.run, hr] using h
    · simpa only [Op.exec, Op.call, Op.run, hr] using h
    · simpa only [Op.exec, Op.call, Op.run, hr] using h.claim (intentRow_ok hrow).2.1 hfree
  | markOrderSubmitting now id at' =>
    exact h.rewriteCall (fun r => ⟨rfl, rfl, rfl, rfl, rfl, rfl, rfl⟩) fun _ => rfl
  | recordOrderSubmission now id broker at' =>
    exact h.rewriteCall (fun r => ⟨rfl, rfl, rfl, rfl, rfl, rfl, rfl⟩) fun _ => rfl
  | markOrderUnknown now id error at' =>
    exact h.rewriteCall (fun r => ⟨rfl, rfl, rfl, rfl, rfl, rfl, rfl⟩) fun _ => rfl
  | updateBrokerOrderStatus now id u =>
    rcases updateBrokerOrderStatus_cases now id u w.db with
      ⟨e, hr⟩ | ⟨c, -, -, hr⟩ | ⟨o, c, -, ho, -, hr⟩
    · simpa only [Op.exec, Op.call, Op.run, hr] using h
    · simpa only [Op.exec, Op.call, Op.run, hr] using h
    · simp only [Op.exec, Op.call, Op.run, hr]
      refine h.rewrite (fun r => ⟨rfl, rfl, rfl, rfl, rfl, rfl, rfl⟩) fun o' ho' hside hterminal => ?_
      simp only [Orderly, ho'] at hok
      exact hok hside hterminal
  | applyBrokerFill now a =>
    rcases applyBrokerFill_cases now a w.db with
      ⟨e, hr⟩ | ⟨-, hr⟩ | ⟨c, order, hc, horder, hfree, hfit, hr⟩
    · simpa only [Op.exec, Op.call, Op.run, hr] using h
    · simpa only [Op.exec, Op.call, Op.run, hr] using h
    · simpa only [Op.exec, Op.call, Op.run, hr] using h.fill hc horder hfree hfit hok
  | materializeOrderFills now a =>
    rcases materializeOrderFills_cases now a w.db with ⟨e, hr⟩ | ⟨c, order, n, db', -, -, hloop, hr⟩
    · simpa only [Op.exec, Op.call, Op.run, hr] using h
    · have hframe := (booked_of_loop _ hloop).1.frame.1
      simp only [Op.exec, Op.call, Op.run, hr] at happlied ⊢
      exact h.congr (by rw [hframe]) (by rw [hframe]) happlied
  | setRuntimeMetadata now key value at' =>
    rcases setRuntimeMetadata_cases now key value at' w.db with ⟨e, hr⟩ | hr
    · simpa only [Op.exec, Op.call, Op.run, hr] using h
    · simp only [Op.exec, Op.call, Op.run, hr]
      exact h.congr rfl rfl fun _ => le_rfl
  | recordBrokerOrderAudit now a =>
    rcases recordBrokerOrderAudit_cases now a w.db with ⟨e, hr⟩ | ⟨-, hr⟩ | ⟨row, -, -, hr⟩
    · simpa only [Op.exec, Op.call, Op.run, hr] using h
    · simpa only [Op.exec, Op.call, Op.run, hr] using h
    · simp only [Op.exec, Op.call, Op.run, hr]
      exact h.congr rfl rfl fun _ => le_rfl

end SellLedger

/-! ### Steps that send nothing -/

/-- A step that sends no SELL. -/
structure NoSale (w w' : SellWorld) : Prop where
  unsent : ∀ id, w'.book.find? id = none ↔ w.book.find? id = none
  ended : ∀ id, w.Over id → w'.Over id
  sold : ∀ symbol, w'.sold symbol ≤ w.sold symbol
  applied : ∀ symbol side, w.db.appliedQuantity symbol side ≤ w'.db.appliedQuantity symbol side
  rows : ∀ id o, w.db.brokerOrders.find? id = some o →
    ∃ o', w'.db.brokerOrders.find? id = some o' ∧ SameIntent o o'

theorem NoSale.exec (op : Op) (w : SellWorld) : NoSale w { w with db := op.exec w.db } where
  unsent := fun _ => Iff.rfl
  ended := fun _ h => h
  sold := fun _ => le_rfl
  applied := op.exec_appliedQuantity w.db
  rows := fun _ _ ho => (op.exec_orders w.db).persists ho

/-- The ledgers stay while the broker moves. -/
structure LedgersStay (w w' : SellWorld) : Prop where
  orders : w'.db.brokerOrders = w.db.brokerOrders
  fills : w'.db.brokerFills = w.db.brokerFills
  positions : w'.db.livePositions = w.db.livePositions
  applications : w'.db.fillApplications = w.db.fillApplications
  book : w.book.Moves w'.book

theorem LedgersStay.noSale {w w' : SellWorld} (h : LedgersStay w w') : NoSale w w' where
  unsent := by
    intro id
    rcases h.book.find?_cases id with ⟨hnone, hnone'⟩ | ⟨s, s', hs, hs', -⟩
    · rw [hnone, hnone']
    · rw [hs, hs']; exact iff_of_false (Option.some_ne_none s') (Option.some_ne_none s)
  ended := by
    rintro id ⟨s, hs, hworking⟩
    rcases h.book.find?_cases id with ⟨hnone, -⟩ | ⟨r, s', hr, hs', hmoves⟩
    · rw [hs] at hnone; cases hnone
    · obtain rfl : r = s := Option.some.inj (hr.symm.trans hs)
      exact ⟨s', hs', hmoves.ended hworking⟩
  sold := h.book.total_le
  applied := fun symbol side => (Database.appliedQuantity_congr h.fills h.applications symbol side).ge
  rows := fun id o ho => ⟨o, by rw [h.orders]; exact ho, .refl o⟩

/-! ### Sending a SELL -/

namespace SellWorld

variable {w : SellWorld} {id : String} {request : OrderRequest} (accepted : Nat)

theorem send_sell (hsell : request.side = .sell) : w.send id request accepted =
    { w with book := w.book.place ⟨id, request.symbol, accepted, 0⟩ } := by
  unfold send
  rw [hsell]

theorem send_buy (hbuy : request.side = .buy) : w.send id request accepted = w := by
  unfold send
  rw [hbuy]

/-- Other symbols do not notice. -/
theorem place_sold_ne {s : Sale} (hunsent : w.book.find? s.clientOrderId = none) {symbol : String}
    (hsymbol : s.symbol ≠ symbol) : sold { w with book := w.book.place s } symbol = w.sold symbol := by
  simp only [sold, Table.total_append (SaleBook.place_of_free hunsent), if_neg hsymbol, add_zero]

end SellWorld

namespace SellLedger

variable {w : SellWorld}

/-- Whatever the broker makes of its orders. -/
theorem stay (h : SellLedger w) {w' : SellWorld} (hstay : LedgersStay w w') : SellLedger w' := by
  have hfills : ∀ id, w'.db.fillsOf id = w.db.fillsOf id := by
    intro id
    rw [Database.fillsOf, hstay.fills]
    rfl
  constructor
  · rw [hstay.fills, hstay.orders]
    exact h.owned
  · intro id s' hs'
    rw [hstay.orders]
    rcases hstay.book.find?_cases id with ⟨-, hnone⟩ | ⟨s, t, hs, ht, hmoves⟩
    · rw [hnone] at hs'; cases hs'
    · obtain rfl : t = s' := Option.some.inj (ht.symm.trans hs')
      obtain ⟨o, ho, hside, hsymbol, hle⟩ := h.placed id s hs
      exact ⟨o, ho, hside, hsymbol.trans hmoves.symbol.symm, hmoves.total.trans hle⟩
  · rw [hstay.orders]
    intro id o ho hside hterminal
    exact hstay.noSale.ended id (h.ended id o ho hside hterminal)
  · rw [hstay.orders]
    intro id o ho hside
    rw [hfills]
    refine (h.counted id o ho hside).trans ?_
    rcases hstay.book.find?_cases id with ⟨hnone, hnone'⟩ | ⟨s, t, hs, ht, hmoves⟩
    · simp only [SellWorld.executed, hnone, hnone', le_refl]
    · simp only [SellWorld.executed, hs, ht, Option.map_some, Option.getD_some]
      exact hmoves.executed
  · intro symbol
    exact ((hstay.noSale.sold symbol).trans (h.covered symbol)).trans (hstay.noSale.applied symbol .buy)

/-- Sending a SELL that what was materialized of the BUYs covers as well. -/
theorem place (h : SellLedger w) {s : Sale} {o : BrokerOrder}
    (ho : w.db.brokerOrders.find? s.clientOrderId = some o) (hside : o.side = .sell)
    (hsymbol : o.symbol = s.symbol) (hnew : s.executed = 0) (hunits : s.working ≤ o.requestedQty)
    (hunsent : w.book.find? s.clientOrderId = none)
    (hcovers : w.sold s.symbol + s.working ≤ w.db.appliedQuantity s.symbol .buy) :
    SellLedger { w with book := w.book.place s } := by
  have hrows := SaleBook.place_of_free hunsent
  have hfind : ∀ {k r}, w.book.find? k = some r → (w.book.place s).find? k = some r := by
    intro k r hr
    rw [Table.find?_append hrows, hr]
    rfl
  constructor
  · exact h.owned
  · intro k r hr
    rw [Table.find?_append hrows] at hr
    cases hold : w.book.find? k with
    | some old =>
      rw [hold, Option.some_or, Option.some.injEq] at hr
      subst hr
      exact h.placed k old hold
    | none =>
      rw [hold, Option.none_or] at hr
      split at hr
      · rename_i hk
        subst hk
        cases hr
        exact ⟨o, ho, hside, hsymbol, by omega⟩
      · cases hr
  · intro k r hr hrside hterminal
    obtain ⟨sale, hsale, hworking⟩ := h.ended k r hr hrside hterminal
    exact ⟨sale, hfind hsale, hworking⟩
  · intro k r hr hrside
    refine (h.counted k r hr hrside).trans ?_
    cases hsale : w.book.find? k with
    | none => simp only [SellWorld.executed, hsale, Option.map_none, Option.getD_none, Nat.zero_le]
    | some sale => simp only [SellWorld.executed, hsale, hfind hsale, le_refl]
  · intro symbol
    by_cases hsame : s.symbol = symbol
    · subst hsame
      simp only [SellWorld.sold, Table.total_append hrows, if_pos, hnew, add_zero] at hcovers ⊢
      exact hcovers
    · rw [SellWorld.place_sold_ne hunsent hsame]
      exact h.covered symbol

end SellLedger

end AutoTrader
