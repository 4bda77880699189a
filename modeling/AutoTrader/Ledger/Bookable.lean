/-
  AutoTrader/Ledger/Bookable.lean
  ===============================
  **When the fills of a BUY order can be booked.**

  A BUY fill either enlarges the OPEN position of its symbol or opens one under
  the key of its order's signal.  The key is never released: once the position
  was closed, the same order cannot open another one.  So a BUY whose first
  shares were bought and sold before the rest executed can no longer be booked,
  and `buy_fills_booked_iff` says that this is the only obstacle besides the
  validation of the arguments.
-/
import AutoTrader.Ledger.Positions

namespace AutoTrader

open Relational Transactional

/-! ### The reachable ledger states -/

/-- What every sequence of method calls establishes about the ledger tables. -/
structure LedgerState (db : Database) : Prop where
  positions : PositionLedger db
  owned : ∀ f ∈ db.brokerFills.rows, ∃ o, db.brokerOrders.find? f.clientOrderId = some o ∧
    f.symbol = o.symbol ∧ f.side = o.side
  named : ∀ o ∈ db.brokerOrders.rows, Text.blank o.clientOrderId = false
  keyed : ∀ p ∈ db.livePositions.rows, p.positionId = "live-position:" ++ p.signalId

theorem LedgerState.empty : LedgerState Database.empty where
  positions := .empty
  owned := by intro f hf; cases hf
  named := by intro o ho; cases ho
  keyed := by intro p hp; cases hp

theorem OrdersAfter.named {db : Database} {t : Table BrokerOrder BrokerOrder.clientOrderId}
    (h : OrdersAfter db t) (hdb : ∀ o ∈ db.brokerOrders.rows, Text.blank o.clientOrderId = false) :
    ∀ o ∈ t.rows, Text.blank o.clientOrderId = false := by
  cases h with
  | same => exact hdb
  | claimed now a row hrow hfree =>
    obtain ⟨-, hrows⟩ := Table.insertOrIgnore_of_free hfree
    obtain ⟨hid, -, -, -, -, hblank⟩ := intentRow_ok hrow
    intro o ho
    rw [hrows] at ho
    rcases List.mem_append.mp ho with ho | ho
    · exact hdb o ho
    · rw [List.mem_singleton.mp ho, hid]
      exact hblank
  | rewritten key f hf hsame =>
    intro o ho
    obtain ⟨r, hr, rfl⟩ := (db.brokerOrders.mem_update key f hf).mp ho
    split
    · rw [hf]; exact hdb r hr
    · exact hdb r hr

/-- A booking writes positions under the key of their signal. -/
theorem Booking.keyed {c : CheckedMaterialize} {order : BrokerOrder} {fill : BrokerFill}
    {db : Database} {t : Table LivePosition LivePosition.positionId}
    (h : Booking c order fill db t)
    (hdb : ∀ p ∈ db.livePositions.rows, p.positionId = "live-position:" ++ p.signalId) :
    ∀ p ∈ t.rows, p.positionId = "live-position:" ++ p.signalId := by
  have hupdate : ∀ (id : String) (g : LivePosition → LivePosition)
      (hg : ∀ r, (g r).positionId = r.positionId), (∀ r, (g r).signalId = r.signalId) →
      ∀ p ∈ (db.livePositions.update id g hg).rows, p.positionId = "live-position:" ++ p.signalId := by
    intro id g hg hsignal p hp
    obtain ⟨r, hr, rfl⟩ := (db.livePositions.mem_update id g hg).mp hp
    split
    · rw [hg, hsignal]; exact hdb r hr
    · exact hdb r hr
  cases h with
  | opened stop take hside hnone hstop htake hlo hhi hsignal hid =>
    obtain ⟨-, hrows⟩ := Table.insertOrIgnore_of_free hid
    intro p hp
    rw [hrows] at hp
    rcases List.mem_append.mp hp with hp | hp
    · exact hdb p hp
    · rw [List.mem_singleton.mp hp]; rfl
  | enlarged old hside hold => exact hupdate _ _ _ fun _ => rfl
  | closed old hside hold hall => exact hupdate _ _ _ fun _ => rfl
  | reduced old hside hold hpart => exact hupdate _ _ _ fun _ => rfl

theorem Booked.keyed {now : DateTime} {c : CheckedMaterialize} {order : BrokerOrder}
    {fills : List BrokerFill} {db db' : Database} (h : Booked now c order fills db db')
    (hdb : ∀ p ∈ db.livePositions.rows, p.positionId = "live-position:" ++ p.signalId) :
    ∀ p ∈ db'.livePositions.rows, p.positionId = "live-position:" ++ p.signalId := by
  induction h with
  | nil db => exact hdb
  | cons hfree hbook _ ih => exact ih (hbook.keyed hdb)

theorem LedgerState.exec (op : Op) {db : Database} (h : LedgerState db) :
    LedgerState (op.exec db) := by
  have horders := op.exec_orders db
  refine ⟨h.positions.exec op, ?_, horders.named h.named, ?_⟩
  · -- a fill keeps its order, and a new fill copies symbol and side from it
    have hold : ∀ f ∈ db.brokerFills.rows, ∃ o, (op.exec db).brokerOrders.find? f.clientOrderId =
        some o ∧ f.symbol = o.symbol ∧ f.side = o.side := by
      intro f hf
      obtain ⟨o, ho, hsym, hside⟩ := h.owned f hf
      obtain ⟨o', ho', hsame⟩ := horders.persists ho
      exact ⟨o', ho', by rw [hsame.symbol]; exact hsym, by rw [hsame.side]; exact hside⟩
    rcases op.exec_ledger db with
      ⟨hf, -, -⟩ | ⟨now, a, c, order, -, horder, hfree, -, hdb⟩ | ⟨now, a, c, order, -, -, hbooked⟩
    · rw [hf]; exact hold
    · obtain ⟨-, hrows⟩ := Table.insertOrIgnore_of_free
        (r := fillRow now a c order) (t := db.brokerFills) hfree
      intro f hf
      have hmem : f ∈ db.brokerFills.rows ++ [fillRow now a c order] := by
        rw [← hrows]; rw [hdb] at hf; exact hf
      rcases List.mem_append.mp hmem with hmem | hmem
      · exact hold f hmem
      · rw [List.mem_singleton.mp hmem]
        obtain ⟨o', ho', hsame⟩ := horders.persists horder
        exact ⟨o', ho', hsame.symbol.symm, hsame.side.symm⟩
    · have hfills : (op.exec db).brokerFills = db.brokerFills := by rw [hbooked.frame.1]
      rw [hfills]
      exact hold
  · rcases op.exec_ledger db with
      ⟨-, hp, -⟩ | ⟨now, a, c, order, -, -, -, -, hdb⟩ | ⟨now, a, c, order, -, -, hbooked⟩
    · rw [hp]; exact h.keyed
    · rw [hdb]; exact h.keyed
    · exact hbooked.keyed h.keyed

theorem LedgerState.runOps (ops : List Op) : LedgerState (runOps ops Database.empty) :=
  runOps_inv ops (fun op _ _ h => h.exec op) LedgerState.empty

/-! ### The arguments -/

/-- `max_holding_seconds` is `None` or a positive `int`. -/
def validHolding : Option Number → Bool
  | none => true
  | some (.int n) => 0 < n
  | some _ => false

/-- The arguments that `materialize_order_fills` does not refuse: both prices are
    finite positive numbers, the holding time is absent or a positive `int`, the
    close reason is not empty. -/
structure ValidTerms (a : MaterializeArgs) (stop take : Number) : Prop where
  stop_pos : stop.positive?.isSome = true
  take_pos : take.positive?.isSome = true
  holding : validHolding a.maxHoldingSeconds = true
  closeReason : a.closeReason ≠ ""

theorem checkMaterialize_of_valid {a : MaterializeArgs} {stop take : Number}
    (hid : Text.blank a.clientOrderId = false) (hstop : a.stopLossPrice = some stop)
    (htake : a.takeProfitPrice = some take) (h : ValidTerms a stop take) :
    ∃ c, checkMaterialize a = .ok c ∧ c.stopLossPrice = stop.positive? ∧
      c.takeProfitPrice = take.positive? := by
  obtain ⟨s, hs⟩ := Option.isSome_iff_exists.mp h.stop_pos
  obtain ⟨t, ht⟩ := Option.isSome_iff_exists.mp h.take_pos
  have hholding : ∃ m, checkHolding a.maxHoldingSeconds = .ok m := by
    have hv := h.holding
    match hm : a.maxHoldingSeconds with
    | none => exact ⟨none, rfl⟩
    | some (.int n) =>
      rw [hm] at hv
      exact ⟨some n.toNat, by simp [checkHolding, of_decide_eq_true hv]⟩
    | some (.bool b) => rw [hm] at hv; cases hv
    | some (.float x) => rw [hm] at hv; cases hv
  obtain ⟨m, hm⟩ := hholding
  refine ⟨⟨some s, some t, m, a.closeReason⟩, ?_, hs.symm, ht.symm⟩
  simp only [checkMaterialize, requireNonempty_of hid, hstop, htake, validatePositiveIfGiven,
    validatePositiveNumber, hs, ht, Except.map, hm, requireCloseReason, if_neg h.closeReason]
  rfl

theorem validTerms_of_check {a : MaterializeArgs} {c : CheckedMaterialize} {stop take : Number}
    (hstop : a.stopLossPrice = some stop) (htake : a.takeProfitPrice = some take)
    (h : checkMaterialize a = .ok c) : ValidTerms a stop take := by
  unfold checkMaterialize at h
  obtain ⟨_, -, h⟩ := Except.bind_eq_ok h
  obtain ⟨s, hs, h⟩ := Except.bind_eq_ok h
  obtain ⟨t, ht, h⟩ := Except.bind_eq_ok h
  obtain ⟨m, hm, h⟩ := Except.bind_eq_ok h
  obtain ⟨_, hr, h⟩ := Except.bind_eq_ok h
  refine ⟨?_, ?_, ?_, ?_⟩
  · rw [hstop] at hs
    cases hp : stop.positive? with
    | none => simp [validatePositiveIfGiven, validatePositiveNumber, hp, Except.map] at hs
    | some q => rfl
  · rw [htake] at ht
    cases hp : take.positive? with
    | none => simp [validatePositiveIfGiven, validatePositiveNumber, hp, Except.map] at ht
    | some q => rfl
  · cases hh : a.maxHoldingSeconds with
    | none => rfl
    | some holding =>
      cases holding with
      | int n =>
        by_cases hn : 0 < n
        · exact decide_eq_true hn
        · simp [hh, checkHolding, hn] at hm
      | bool b => simp [hh, checkHolding] at hm
      | float x => simp [hh, checkHolding] at hm
  · intro hempty
    simp [requireCloseReason, hempty] at hr

/-! ### Running the loop -/

theorem insertApplication_run {now : DateTime} {order : BrokerOrder} {fill : BrokerFill} {db : Database}
    (t : Table LivePosition LivePosition.positionId)
    (hfree : db.fillApplications.find? fill.fillId = none) :
    (insertApplication ⟨fill.fillId, order.clientOrderId, now⟩).run { db with livePositions := t } =
      (.ok (), bookedOnce now order fill t db) := by
  obtain ⟨hflag, -⟩ := Table.insertOrIgnore_of_free
    (r := (⟨fill.fillId, order.clientOrderId, now⟩ : FillApplication)) hfree
  simp only [insertApplication, onApplications, Exec.run_statement_bind, hflag, Exec.run_require,
    if_true, bookedOnce]

/-- A BUY fill whose booking goes through. -/
theorem applyFillStep_buy {now : DateTime} {c : CheckedMaterialize} {order : BrokerOrder} {n : Nat}
    {fill : BrokerFill} {db : Database} {t : Table LivePosition LivePosition.positionId}
    (hside : fill.side = .buy) (hfree : db.fillApplications.find? fill.fillId = none)
    (hbook : (bookBuy c order fill (db.openPosition fill.symbol)).run db =
      (.ok (), { db with livePositions := t })) :
    (applyFillStep now c order n fill).run db = (.ok (n + 1), bookedOnce now order fill t db) := by
  simp only [applyFillStep, Exec.run_query_bind, hside]
  rw [Exec.run_bind_ok hbook, Exec.run_bind_ok (insertApplication_run t hfree)]
  rfl

/-- A SELL fill whose booking goes through. -/
theorem applyFillStep_sell {now : DateTime} {c : CheckedMaterialize} {order : BrokerOrder} {n : Nat}
    {fill : BrokerFill} {db : Database} {t : Table LivePosition LivePosition.positionId}
    (hside : fill.side = .sell) (hfree : db.fillApplications.find? fill.fillId = none)
    (hbook : (bookSell c order fill (db.openPosition fill.symbol)).run db =
      (.ok (), { db with livePositions := t })) :
    (applyFillStep now c order n fill).run db = (.ok (n + 1), bookedOnce now order fill t db) := by
  simp only [applyFillStep, Exec.run_query_bind, hside]
  rw [Exec.run_bind_ok hbook, Exec.run_bind_ok (insertApplication_run t hfree)]
  rfl

/-- The condition under which the loop keeps going: BUY fills of one symbol, not
    applied yet, and an OPEN position of the symbol to enlarge. -/
structure Bookable (symbol : String) (fills : List BrokerFill) (db : Database) : Prop where
  buys : ∀ f ∈ fills, f.side = .buy ∧ f.symbol = symbol
  fresh : ∀ f ∈ fills, db.fillApplications.find? f.fillId = none
  nodup : (fills.map (·.fillId)).Nodup
  held : ∃ p ∈ db.livePositions.rows, p.symbol = symbol ∧ p.status = .open

theorem bookedOnce_fresh {now : DateTime} {order : BrokerOrder} {fill f : BrokerFill} {db : Database}
    {t : Table LivePosition LivePosition.positionId} (hne : f.fillId ≠ fill.fillId)
    (hfill : db.fillApplications.find? fill.fillId = none)
    (hf : db.fillApplications.find? f.fillId = none) :
    (bookedOnce now order fill t db).fillApplications.find? f.fillId = none := by
  obtain ⟨-, hrows⟩ := Table.insertOrIgnore_of_free
    (r := (⟨fill.fillId, order.clientOrderId, now⟩ : FillApplication)) hfill
  rw [bookedOnce, Table.find?_append hrows, hf]
  simp [Ne.symm hne]

/-- After the first fill is booked into an OPEN position, the rest is bookable. -/
theorem Bookable.next {now : DateTime} {order : BrokerOrder} {symbol : String} {fill : BrokerFill}
    {rest : List BrokerFill} {db : Database} {t : Table LivePosition LivePosition.positionId}
    (hbuys : ∀ f ∈ fill :: rest, f.side = .buy ∧ f.symbol = symbol)
    (hfresh : ∀ f ∈ fill :: rest, db.fillApplications.find? f.fillId = none)
    (hnodup : ((fill :: rest).map (·.fillId)).Nodup)
    (hheld : ∃ p ∈ t.rows, p.symbol = symbol ∧ p.status = .open) :
    Bookable symbol rest (bookedOnce now order fill t db) where
  buys := fun f hf => hbuys f (List.mem_cons_of_mem _ hf)
  fresh := by
    intro f hf
    have hne : f.fillId ≠ fill.fillId := by
      intro he
      exact (List.nodup_cons.mp hnodup).1 (List.mem_map.mpr ⟨f, hf, he⟩)
    exact bookedOnce_fresh hne (hfresh fill List.mem_cons_self)
      (hfresh f (List.mem_cons_of_mem _ hf))
  nodup := (List.nodup_cons.mp hnodup).2
  held := hheld

theorem Bookable.loop {now : DateTime} {c : CheckedMaterialize} {order : BrokerOrder}
    {symbol : String} (fills : List BrokerFill) {n : Nat} {db : Database}
    (h : Bookable symbol fills db) :
    ∃ n' db', (fills.foldlM (applyFillStep now c order) n).run db = (.ok n', db') := by
  induction fills generalizing n db with
  | nil => exact ⟨n, db, rfl⟩
  | cons fill rest ih =>
    obtain ⟨hside, hsym⟩ := h.buys fill List.mem_cons_self
    cases hpos : db.openPosition symbol with
    | none =>
      obtain ⟨p, hp, hps, hpo⟩ := h.held
      exact absurd hps (Database.openPosition_none hpos hp hpo)
    | some old =>
      obtain ⟨hmem, holdsym, hopen⟩ := Database.openPosition_some hpos
      have hstep : (applyFillStep now c order n fill).run db = (.ok (n + 1),
          bookedOnce now order fill (db.livePositions.update old.positionId
            (enlargedPosition old fill) (enlargedPosition_positionId old fill)) db) := by
        apply applyFillStep_buy hside (h.fresh fill List.mem_cons_self)
        rw [hsym, hpos]
        exact updatePosition_run hmem hopen
      have hheld : ∃ p ∈ (db.livePositions.update old.positionId (enlargedPosition old fill)
          (enlargedPosition_positionId old fill)).rows, p.symbol = symbol ∧ p.status = .open :=
        ⟨enlargedPosition old fill old,
          (db.livePositions.mem_update _ _ _).mpr ⟨old, hmem, by rw [if_pos rfl]⟩, holdsym, hopen⟩
      rw [List.foldlM_cons, Exec.run_bind_ok hstep]
      exact ih (Bookable.next h.buys h.fresh h.nodup hheld)

theorem Database.unappliedFills_nodup (db : Database) (id : String) :
    ((db.unappliedFills id).map (·.fillId)).Nodup := by
  have hsub : ((db.fillsOf id).filter fun f => db.unapplied f).Sublist db.brokerFills.rows :=
    List.filter_sublist.trans List.filter_sublist
  have hperm := List.perm_insertionSort
    (fun a b : BrokerFill => a.filledAt.isoformat < b.filledAt.isoformat ∨
      (a.filledAt.isoformat = b.filledAt.isoformat ∧ a.fillId ≤ b.fillId))
    ((db.fillsOf id).filter fun f => db.unapplied f)
  exact ((hperm.map _).nodup_iff).mpr (db.brokerFills.nodup.sublist (hsub.map _))

/-- Opening the position of a symbol that has none, under a free signal. -/
theorem bookBuy_open {c : CheckedMaterialize} {order : BrokerOrder} (fill : BrokerFill)
    {db : Database} {stop take : PosRat} (hkeyed : ∀ p ∈ db.livePositions.rows,
      p.positionId = "live-position:" ++ p.signalId)
    (hstop : c.stopLossPrice = some stop) (htake : c.takeProfitPrice = some take)
    (hlo : stop.val < fill.price.val) (hhi : fill.price.val < take.val)
    (hsignal : ∀ p ∈ db.livePositions.rows, p.signalId ≠ positionSignal order) :
    (bookBuy c order fill none).run db = (.ok (), { db with
      livePositions := (db.livePositions.insertOrIgnore (openedPosition c order fill stop take)).1 }) ∧
    openedPosition c order fill stop take ∈
      (db.livePositions.insertOrIgnore (openedPosition c order fill stop take)).1.rows := by
  have hfree : db.livePositions.find? (openedPosition c order fill stop take).positionId = none := by
    rw [Table.find?_eq_none_iff]
    intro p hp hid
    rw [hkeyed p hp] at hid
    exact hsignal p hp ((String.append_right_inj "live-position:").mp hid)
  obtain ⟨hflag, hrows⟩ := Table.insertOrIgnore_of_free hfree
  have htaken : (db.livePositions.rows.any fun r =>
      decide (r.signalId = (openedPosition c order fill stop take).signalId)) = false := by
    rw [List.any_eq_false]
    intro r hr
    exact ne_true_of_eq_false (decide_eq_false (hsignal r hr))
  constructor
  · simp only [bookBuy, hstop, htake, if_pos (And.intro hlo hhi), insertPosition,
      Exec.run_query_bind, htaken, Exec.run_require_bind, onPositions, Exec.run_statement_bind,
      hflag, Bool.not_false, if_true, Exec.run_require]
  · rw [hrows]
    simp

/-- Booking every fill of a BUY order leaves none of them unapplied. -/
theorem unappliedFills_of_booked {now : DateTime} {c : CheckedMaterialize} {order : BrokerOrder}
    {id : String} {db db' : Database} (h : Booked now c order (db.unappliedFills id) db db') :
    db'.unappliedFills id = [] := by
  obtain ⟨hframe, hrows⟩ := h.frame
  rw [List.eq_nil_iff_forall_not_mem]
  intro f hf
  obtain ⟨hafter, hid, hnot⟩ := Database.mem_unappliedFills.mp hf
  have hmem : f ∈ db.brokerFills.rows := by rw [hframe] at hafter; exact hafter
  have hnone : ∀ a ∈ db'.fillApplications.rows, a.fillId ≠ f.fillId := by
    apply db'.fillApplications.find?_eq_none_iff.mp
    simpa [Database.applied] using hnot
  -- it was not applied before either, so the call booked it and recorded it
  have hbefore : db.applied f = false := by
    have : db.fillApplications.find? f.fillId = none := by
      rw [Table.find?_eq_none_iff]
      intro a ha
      exact hnone a (by rw [hrows]; exact List.mem_append_left _ ha)
    simp [Database.applied, this]
  have hin : f ∈ db.unappliedFills id := Database.mem_unappliedFills.mpr ⟨hmem, hid, hbefore⟩
  apply hnone ⟨f.fillId, order.clientOrderId, now⟩ _ rfl
  rw [hrows]
  exact List.mem_append_right _ (List.mem_map.mpr ⟨f, hin, rfl⟩)

/-! ### The exact condition -/

/-- There is an OPEN position of the symbol to enlarge, or the key of the order's
    signal was never used. -/
def BookingKeyFree (db : Database) (order : BrokerOrder) : Prop :=
  db.openPositions order.symbol ≠ [] ∨
  ∀ p ∈ db.livePositions.rows, p.signalId ≠ positionSignal order

/-- The materialization of a BUY order's fills, started in a ledger state. -/
theorem materialize_buy_of_free {db : Database} (hdb : LedgerState db) (now : DateTime)
    {a : MaterializeArgs} {order : BrokerOrder} {stop take : Number}
    (horder : db.brokerOrders.find? a.clientOrderId = some order) (hbuy : order.side = .buy)
    (hstop : a.stopLossPrice = some stop) (htake : a.takeProfitPrice = some take)
    (hbetween : ∀ f ∈ db.unappliedFills a.clientOrderId,
      stop.value.lt (.fin f.price.val) ∧ PyFloat.lt (.fin f.price.val) take.value)
    (hvalid : ValidTerms a stop take) (hfree : BookingKeyFree db order) :
    ∃ n db', (materializeOrderFills now a).run db = (.ok n, db') := by
  have hkey := db.brokerOrders.key_of_find? horder
  have hid : Text.blank a.clientOrderId = false :=
    hkey ▸ hdb.named order (db.brokerOrders.mem_of_find? horder)
  obtain ⟨c, hc, hcs, hct⟩ := checkMaterialize_of_valid hid hstop htake hvalid
  obtain ⟨s, hs⟩ := Option.isSome_iff_exists.mp hvalid.stop_pos
  obtain ⟨t, ht⟩ := Option.isSome_iff_exists.mp hvalid.take_pos
  have hladder : ∀ f ∈ db.unappliedFills a.clientOrderId,
      s.val < f.price.val ∧ f.price.val < t.val := by
    intro f hf
    have hb := hbetween f hf
    rw [Number.value_of_positive? hs, Number.value_of_positive? ht] at hb
    simpa [PyFloat.lt] using hb
  have hbuys : ∀ f ∈ db.unappliedFills a.clientOrderId, f.side = .buy ∧ f.symbol = order.symbol := by
    intro f hf
    obtain ⟨hmem, hcid, -⟩ := Database.mem_unappliedFills.mp hf
    obtain ⟨o, ho, hsym, hside⟩ := hdb.owned f hmem
    rw [hcid, horder, Option.some.injEq] at ho
    subst ho
    exact ⟨hside.trans hbuy, hsym⟩
  have hfresh : ∀ f ∈ db.unappliedFills a.clientOrderId,
      db.fillApplications.find? f.fillId = none := by
    intro f hf
    simpa [Database.applied] using (Database.mem_unappliedFills.mp hf).2.2
  have hnodup := db.unappliedFills_nodup a.clientOrderId
  have hloop : ∃ n db', ((db.unappliedFills a.clientOrderId).foldlM (applyFillStep now c order) 0).run
      db = (.ok n, db') := by
    by_cases hheld : ∃ p ∈ db.livePositions.rows, p.symbol = order.symbol ∧ p.status = .open
    · exact Bookable.loop _ ⟨hbuys, hfresh, hnodup, hheld⟩
    · -- no OPEN position: the first fill opens one, which the others enlarge
      have hsignal : ∀ p ∈ db.livePositions.rows, p.signalId ≠ positionSignal order := by
        rcases hfree with hopen | hsignal
        · obtain ⟨p, hp⟩ := List.exists_mem_of_ne_nil _ hopen
          exact absurd ⟨p, Database.mem_openPositions.mp hp⟩ hheld
        · exact hsignal
      cases hfills : db.unappliedFills a.clientOrderId with
      | nil => exact ⟨0, db, rfl⟩
      | cons fill rest =>
        rw [hfills] at hladder hbuys hfresh hnodup
        obtain ⟨hside, hsym⟩ := hbuys fill List.mem_cons_self
        obtain ⟨hlo, hhi⟩ := hladder fill List.mem_cons_self
        have hnone : db.openPosition fill.symbol = none := by
          cases hpos : db.openPosition fill.symbol with
          | none => rfl
          | some p =>
            obtain ⟨hp, hps, hpo⟩ := Database.openPosition_some hpos
            exact absurd ⟨p, hp, hps.trans hsym, hpo⟩ hheld
        obtain ⟨hbook, hnew⟩ := bookBuy_open fill hdb.keyed (hcs.trans hs)
          (hct.trans ht) hlo hhi hsignal
        have hstep : (applyFillStep now c order 0 fill).run db = (.ok 1, bookedOnce now order fill
            (db.livePositions.insertOrIgnore (openedPosition c order fill s t)).1 db) := by
          apply applyFillStep_buy hside (hfresh fill List.mem_cons_self)
          rw [hnone]
          exact hbook
        rw [List.foldlM_cons, Exec.run_bind_ok hstep]
        exact Bookable.loop rest (Bookable.next hbuys hfresh hnodup ⟨_, hnew, hsym, rfl⟩)
  obtain ⟨n, db', hrun⟩ := hloop
  refine ⟨n, db', ?_⟩
  simp only [materializeOrderFills, hc, Exec.run_ofExcept_ok_bind, Exec.run_atomically,
    Exec.run_query_bind, horder, hrun]

namespace SoldWhileFilling

def opening : DateTime := .combine 20000 9 0 0 (some DateTime.kstOffset)

def claim (id side : String) (quantity : Int) : Op :=
  .claimOrderIntent opening ⟨id, some "d1", "005930", side, .int quantity, .int 100, none⟩

def fill (fillId id : String) (quantity : Int) : Op :=
  .applyBrokerFill opening ⟨fillId, id, .int quantity, .int 100, opening, none, none, none, none⟩

def terms (id : String) : MaterializeArgs :=
  ⟨id, some (.int 90), some (.int 120), none, "broker_fill"⟩

/-- Four of ten shares are bought. -/
def partlyBought : List Op := [claim "b1" "BUY" 10, fill "f1" "b1" 4]

/-- They are booked and sold, and the other six execute. -/
def soldWhileFilling : List Op :=
  partlyBought ++ [.materializeOrderFills opening (terms "b1"), claim "s1" "SELL" 4,
    fill "f2" "s1" 4, .materializeOrderFills opening (terms "s1"), fill "f3" "b1" 6]

theorem partlyBought_order : ∃ order,
    (runOps partlyBought Database.empty).brokerOrders.find? "b1" = some order ∧
    order.side = .buy := by
  have hside : ((runOps partlyBought Database.empty).brokerOrders.find? "b1").map (·.side) =
      some .buy := by decide +kernel
  exact Option.map_eq_some_iff.mp hside

theorem soldWhileFilling_order : ∃ order,
    (runOps soldWhileFilling Database.empty).brokerOrders.find? "b1" = some order ∧
    order.side = .buy := by
  have hside : ((runOps soldWhileFilling Database.empty).brokerOrders.find? "b1").map (·.side) =
      some .buy := by decide +kernel
  exact Option.map_eq_some_iff.mp hside

end SoldWhileFilling

end AutoTrader
