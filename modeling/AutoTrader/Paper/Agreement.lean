/-
  AutoTrader/Paper/Agreement.lean
  ===============================
  **The paper ledger and the paper report agree.**

  The ledger keeps the average price of a position, the report a running cost that a sale
  lowers at the average.  Replaying the fills of a ledger in their order gives, after each
  of them, the positions and the profit of the ledger at that moment (`Reported.fill`): a
  purchase and a sale do the same to a stock by either account.
-/
import AutoTrader.Paper.Ledger
import AutoTrader.Paper.Report

namespace AutoTrader

open Relational AverageCost

/-- The text of a side. -/
def PaperSide.value : PaperSide → String
  | .buy => "BUY"
  | .sell => "SELL"

namespace PaperLedger

/-- A row that stands for a fill of the ledger, with the symbol and the side of its order. -/
structure RowOf (ledger : PaperLedger) (fill : BookedFill) (row : PaperFillRow) : Prop where
  fillId : row.fillId = fill.fillId
  orderId : row.orderId = fill.orderId
  order : ∃ side, ledger.orderOf fill = some (side, row.symbol) ∧ row.side = side.value
  quantity : row.quantity = fill.quantity
  price : row.price = .fin fill.price.val

/-- The average price of a symbol, zero where nothing is held. -/
def average (ledger : PaperLedger) (symbol : String) : ℚ := (ledger.positions.find? symbol).elim 0 (·.avgPrice)

/-- The replay stands where the ledger does. -/
structure Reported (ledger : PaperLedger) (acc : Replay) : Prop where
  profit : acc.realizedPnl = .fin ledger.realizedPnl
  position : ∀ symbol, acc.position symbol =
    ⟨symbol, ledger.held symbol, .fin (ledger.held symbol * ledger.average symbol)⟩

theorem reported_empty : Reported .empty .init where
  profit := rfl
  position := by
    intro symbol
    have hnone : (0 : ℚ) = ((0 : Int) : ℚ) * 0 := by norm_num
    exact congrArg (fun cost => (⟨symbol, 0, .fin cost⟩ : Inventory)) hnone

variable {ledger : PaperLedger}

/-- A stored position is the one of its symbol. -/
theorem held_of_find? {symbol : String} {position : PaperPosition}
    (h : ledger.positions.find? symbol = some position) :
    ledger.held symbol = position.quantity ∧ ledger.average symbol = position.avgPrice := by
  rw [held, average, h]
  exact ⟨rfl, rfl⟩

theorem held_nonneg
    (hpositive : ∀ symbol position, ledger.positions.find? symbol = some position → 0 < position.quantity)
    (symbol : String) : 0 ≤ ledger.held symbol := by
  cases hfind : ledger.positions.find? symbol with
  | none =>
    rw [held, hfind]
    exact le_rfl
  | some position =>
    rw [(held_of_find? hfind).1]
    exact (hpositive symbol position hfind).le

/-- What `_apply_fill` leaves of a symbol after a purchase. -/
theorem applyFill_buy {order : PaperOrder} {fill : BookedFill} {applied : PaperLedger} (hside : order.side = .buy)
    (h : ledger.applyFill order fill (ledger.positions.find? order.symbol) = .ok applied) :
    applied.realizedPnl = ledger.realizedPnl ∧
    ∀ symbol, (applied.held symbol, applied.average symbol) =
      if symbol = order.symbol then
        (ledger.held symbol + fill.quantity,
          (ledger.held symbol * ledger.average symbol + fill.quantity * fill.price.val) /
            (ledger.held symbol + fill.quantity))
      else (ledger.held symbol, ledger.average symbol) := by
  simp only [applyFill, hside, Except.ok.injEq] at h
  subst h
  refine ⟨rfl, ?_⟩
  intro symbol
  simp only [held, average, Table.find?_upsert]
  split
  · rename_i hsymbol
    rw [hsymbol]
    push_cast
    rfl
  · rfl

/-- What it leaves after a sale; a symbol that is sold out is held at no average. -/
theorem applyFill_sell {order : PaperOrder} {fill : BookedFill} {applied : PaperLedger} (hside : order.side = .sell)
    (h : ledger.applyFill order fill (ledger.positions.find? order.symbol) = .ok applied) :
    applied.realizedPnl =
      ledger.realizedPnl + (fill.price.val - ledger.average order.symbol) * fill.quantity ∧
    ∀ symbol, applied.held symbol =
        (if symbol = order.symbol then ledger.held symbol - fill.quantity else ledger.held symbol) ∧
      (applied.held symbol = 0 ∨ applied.average symbol = ledger.average symbol) := by
  cases hfind : ledger.positions.find? order.symbol with
  | none =>
    rw [hfind] at h
    simp only [applyFill, hside] at h
    cases h
  | some position =>
    rw [hfind] at h
    simp only [applyFill, hside, Except.ok.injEq] at h
    subst h
    obtain ⟨hheld, haverage⟩ := held_of_find? hfind
    refine ⟨by rw [haverage], ?_⟩
    intro symbol
    by_cases hsymbol : symbol = order.symbol
    · subst hsymbol
      rw [if_pos rfl, hheld]
      by_cases hremaining : position.quantity - fill.quantity ≠ 0
      · simp only [held, average, if_pos hremaining, Table.find?_upsert, if_true, Option.elim, hfind]
        exact ⟨trivial, .inr trivial⟩
      · have hzero : position.quantity - fill.quantity = 0 := not_not.mp hremaining
        simp only [held, average, if_neg hremaining, Table.find?_delete, if_true, Option.elim]
        exact ⟨hzero.symm, .inl trivial⟩
    · rw [if_neg hsymbol]
      by_cases hremaining : position.quantity - fill.quantity ≠ 0
      · simp only [held, average, if_pos hremaining, Table.find?_upsert, if_neg hsymbol]
        exact ⟨trivial, .inr trivial⟩
      · simp only [held, average, if_neg hremaining, Table.find?_delete, if_neg hsymbol]
        exact ⟨trivial, .inr trivial⟩

/-- A row of a fill that the ledger books brings the replay where the ledger is then. -/
theorem Reported.fill {acc : Replay} (h : ledger.Reported acc) {order : PaperOrder} {fill : BookedFill}
    {applied : PaperLedger} (hquantity : 0 < fill.quantity)
    (hpositive : ∀ symbol position, ledger.positions.find? symbol = some position → 0 < position.quantity)
    (hcovered : order.side = .sell → ∃ position, ledger.positions.find? order.symbol = some position ∧
      fill.quantity ≤ position.quantity)
    (happlied : ledger.applyFill order fill (ledger.positions.find? order.symbol) = .ok applied)
    {row : PaperFillRow} (hsymbol : row.symbol = order.symbol) (hside : row.side = order.side.value)
    (hrow : row.quantity = fill.quantity) (hprice : row.price = .fin fill.price.val) :
    ∃ acc', acc.row row = .ok acc' ∧ applied.Reported acc' := by
  have hown := h.position row.symbol
  have hcost : (acc.position row.symbol).cost = .fin (ledger.held row.symbol * ledger.average row.symbol) := by
    rw [hown]
  have hstock : (Stock.mk (ledger.held row.symbol : ℚ) (ledger.held row.symbol * ledger.average row.symbol)).At
      (ledger.held row.symbol) (ledger.average row.symbol) := ⟨rfl, rfl⟩
  have hnonneg := held_nonneg hpositive row.symbol
  cases hkind : order.side with
  | buy =>
    obtain ⟨hprofit, hleft⟩ := applyFill_buy hkind happlied
    have hupper : row.sideUpper = "BUY" := by
      rw [PaperFillRow.sideUpper, hside, hkind]
      decide
    obtain ⟨acc', hacc, hrealized, -, hposition⟩ := Replay.row_buy hupper hprice hcost
    have hmore : (ledger.held row.symbol : ℚ) + fill.quantity ≠ 0 := by
      exact_mod_cast (add_pos_of_nonneg_of_pos hnonneg hquantity).ne'
    refine ⟨acc', hacc, ⟨by rw [hrealized, h.profit, hprofit], ?_⟩⟩
    intro symbol
    have hsame := hleft symbol
    rw [hposition symbol]
    by_cases hs : symbol = row.symbol
    · subst hs
      rw [if_pos hsymbol] at hsame
      obtain ⟨hheld, haverage⟩ := Prod.mk.inj hsame
      rw [if_pos rfl, hown, hrow, hheld, haverage, Int.cast_add, ← (hstock.buy hmore).cost_eq]
      rfl
    · rw [if_neg (hsymbol ▸ hs)] at hsame
      obtain ⟨hheld, haverage⟩ := Prod.mk.inj hsame
      rw [if_neg hs, h.position symbol, hheld, haverage]
  | sell =>
    obtain ⟨hprofit, hleft⟩ := applyFill_sell hkind happlied
    have hupper : row.sideUpper = "SELL" := by
      rw [PaperFillRow.sideUpper, hside, hkind]
      decide
    obtain ⟨position, hfind, hle⟩ := hcovered hkind
    rw [← hsymbol] at hfind hprofit
    have hheldOwn := (held_of_find? hfind).1
    have hsome : (ledger.held row.symbol : ℚ) ≠ 0 := by
      rw [hheldOwn]
      exact_mod_cast (hpositive _ _ hfind).ne'
    rcases Replay.row_sell hupper hprice hcost with ⟨hfew, -⟩ | ⟨-, acc', hacc, hrealized, -, hposition⟩
    · rw [hown, hrow, hheldOwn] at hfew
      exact absurd hle (not_le.mpr hfew)
    · have haverage : Stock.average ⟨((acc.position row.symbol).quantity : ℚ),
          ledger.held row.symbol * ledger.average row.symbol⟩ = ledger.average row.symbol := by
        rw [hown]
        exact hstock.average_eq hsome
      refine ⟨acc', hacc, ⟨?_, ?_⟩⟩
      · rw [hrealized, haverage, h.profit, hrow, hprofit, PyFloat.plus_fin]
      · intro symbol
        obtain ⟨hheld, hkept⟩ := hleft symbol
        have hworth : (applied.held symbol : ℚ) * applied.average symbol =
            applied.held symbol * ledger.average symbol := by
          rcases hkept with hzero | hsame
          · rw [hzero, Int.cast_zero, zero_mul, zero_mul]
          · rw [hsame]
        rw [hposition symbol, haverage, hworth]
        by_cases hs : symbol = row.symbol
        · subst hs
          rw [if_pos hsymbol] at hheld
          rw [if_pos rfl, hown, hrow, hheld]
          congr 2
          push_cast
          ring
        · rw [if_neg (hsymbol ▸ hs)] at hheld
          rw [if_neg hs, h.position symbol, hheld]

/-! ### Over a whole ledger -/

/-- Rows that stand for one more fill end with the row of it. -/
theorem forall₂_snoc {α β : Type} {R : α → β → Prop} {xs : List α} {x : α} {ys : List β}
    (h : List.Forall₂ R (xs ++ [x]) ys) :
    ∃ ys' y, ys = ys' ++ [y] ∧ List.Forall₂ R xs ys' ∧ R x y := by
  have hfront := List.forall₂_take_append ys xs [x] h.flip
  have hback := List.forall₂_drop_append ys xs [x] h.flip
  cases hdrop : ys.drop xs.length with
  | nil =>
    rw [hdrop] at hback
    cases hback
  | cons y rest =>
    rw [hdrop] at hback
    obtain ⟨hy, hrest⟩ := List.forall₂_cons.mp hback
    cases hrest
    refine ⟨ys.take xs.length, y, ?_, hfront.flip, hy⟩
    rw [← hdrop, List.take_append_drop]

/-- Rows that stand for the fills of the ledger bring a replay where the ledger is. -/
def Replayed (ledger : PaperLedger) : Prop :=
  ∀ rows, List.Forall₂ ledger.RowOf ledger.fills.rows rows → ∃ acc, Replay.rows rows = .ok acc ∧ ledger.Reported acc

theorem replayed_empty : Replayed .empty := by
  intro rows hrows
  cases hrows
  exact ⟨.init, rfl, reported_empty⟩

/-- Rows whose fills have kept their orders stand for them still. -/
theorem RowOf.congr {ledger' : PaperLedger} {fill : BookedFill} {row : PaperFillRow} (h : ledger'.RowOf fill row)
    (hsame : ledger'.orderOf fill = ledger.orderOf fill) : ledger.RowOf fill row :=
  ⟨h.fillId, h.orderId, hsame ▸ h.order, h.quantity, h.price⟩

theorem forall₂_congr {ledger' : PaperLedger} {fills : List BookedFill} {rows : List PaperFillRow}
    (h : List.Forall₂ ledger'.RowOf fills rows)
    (hsame : ∀ fill ∈ fills, ledger'.orderOf fill = ledger.orderOf fill) :
    List.Forall₂ ledger.RowOf fills rows := by
  induction h with
  | nil => exact .nil
  | cons hrow _ ih =>
    refine .cons (hrow.congr (hsame _ List.mem_cons_self)) (ih ?_)
    intro fill hfill
    exact hsame fill (List.mem_cons_of_mem _ hfill)

/-- A call keeps the replay with the ledger. -/
theorem Replayed.call (h : ledger.Replayed) (hbooks : ledger.Books) (paperCall : PaperCall) :
    (ledger.call paperCall).1.Replayed := by
  cases paperCall with
  | submit intent =>
    obtain hsame | ⟨order, hnew, hid, -, -, -, hstored⟩ := submitOrder_cases ledger intent
    · exact hsame.symm ▸ h
    · show (ledger.submitOrder intent).1.Replayed
      rw [hstored]
      intro rows hrows
      have hkept : List.Forall₂ ledger.RowOf ledger.fills.rows rows := by
        refine forall₂_congr hrows ?_
        intro fill hfill
        have hne : fill.orderId ≠ order.orderId := by
          intro heq
          have hknown := hbooks.known fill hfill
          rw [heq, hid, hnew] at hknown
          cases hknown
        simp only [orderOf, Table.find?_upsert, if_neg hne]
      obtain ⟨acc, hacc, hreported⟩ := h rows hkept
      exact ⟨acc, hacc, ⟨hreported.profit, hreported.position⟩⟩
  | fill fill =>
    obtain hsame | ⟨booked, order, applied, hfree, hid, hquantity, horder, -, hcovered, happlied, hbooked⟩ :=
      fillOrder_cases ledger fill
    · exact hsame.symm ▸ h
    · show (ledger.fillOrder fill).1.Replayed
      rw [hbooked]
      intro rows hrows
      obtain ⟨horders, hfills, -⟩ := applyFill_ok hquantity hbooks.positive hcovered happlied
      have hid' : order.orderId = booked.orderId := ledger.orders.key_of_find? horder
      have hkey : (order.filledBy booked.quantity).orderId = booked.orderId := hid'
      -- the new order has the side and the symbol of the old one
      have hsameOrder : ∀ other, orderOf { applied with
          fills := applied.fills.upsert booked
          orders := applied.orders.upsert (order.filledBy booked.quantity) } other = ledger.orderOf other := by
        intro other
        simp only [orderOf, Table.find?_upsert, hkey, horders]
        split
        · rename_i heq
          rw [heq, horder]
          rfl
        · rfl
      have hfillRows : (applied.fills.upsert booked).rows = ledger.fills.rows ++ [booked] := by
        have hnone : ledger.fills.find? booked.fillId = none := by
          rw [hid]
          exact hfree
        rw [hfills, Table.upsert, hnone]
        exact (Table.insertOrIgnore_of_free hnone).2
      have hall := forall₂_congr hrows fun other _ => hsameOrder other
      dsimp only at hall
      rw [hfillRows] at hall
      obtain ⟨front, row, rfl, hfront, hrow⟩ := forall₂_snoc hall
      obtain ⟨acc, hacc, hreported⟩ := h front hfront
      obtain ⟨side, hown, hside⟩ := hrow.order
      rw [orderOf, horder] at hown
      obtain ⟨rfl, hsymbol⟩ := Prod.mk.inj (Option.some.inj hown)
      obtain ⟨acc', hstep, hnext⟩ := hreported.fill hquantity hbooks.positive hcovered happlied hsymbol.symm hside
        hrow.quantity hrow.price
      refine ⟨acc', ?_, ⟨hnext.profit, hnext.position⟩⟩
      rw [Replay.rows, List.foldlM_append, ← Replay.rows, hacc]
      show (Except.ok acc >>= fun acc => [row].foldlM Replay.row acc) = _
      simp only [List.foldlM_cons, List.foldlM_nil, Bind.bind, Except.bind, hstep]
      rfl

theorem replayed_after (calls : List PaperCall) : (after calls).Replayed := by
  have hrun : ∀ (calls : List PaperCall) (ledger : PaperLedger), ledger.Books → ledger.Replayed →
      (calls.foldl (fun ledger paperCall => (ledger.call paperCall).1) ledger).Replayed := by
    intro calls
    induction calls with
    | nil => exact fun _ _ h => h
    | cons paperCall rest ih =>
      intro ledger hbooks h
      exact ih _ (hbooks.call paperCall) (h.call hbooks paperCall)
  exact hrun calls .empty books_empty replayed_empty

/-- The open positions of the ledger, by their symbols, as the report shows them. -/
def openPositions (ledger : PaperLedger) : List PaperPositionReport :=
  (ledger.positions.rows.insertionSort fun a b => a.symbol ≤ b.symbol).map fun position =>
    ⟨position.symbol, position.quantity, .fin position.avgPrice⟩

/-- A replay that stands where the ledger does shows its positions. -/
theorem Reported.openPositions {acc : Replay} (h : ledger.Reported acc)
    (hpositive : ∀ symbol position, ledger.positions.find? symbol = some position → 0 < position.quantity) :
    acc.openPositions = ledger.openPositions := by
  have hshown : ∀ symbol position, ledger.positions.find? symbol = some position →
      (acc.position symbol).quantity = position.quantity ∧
        (acc.position symbol).averageCost = .fin position.avgPrice := by
    intro symbol position hfind
    obtain ⟨hheld, haverage⟩ := held_of_find? hfind
    have hne : (position.quantity : ℚ) ≠ 0 := by exact_mod_cast (hpositive symbol position hfind).ne'
    rw [h.position symbol, hheld, haverage, Replay.averageCost_fin rfl]
    refine ⟨rfl, ?_⟩
    rw [Stock.average, mul_div_cancel_left₀ _ hne]
  refine Replay.openPositions_eq ?_ ?_
  · unfold PaperLedger.openPositions
    rw [List.pairwise_map]
    exact SortedRows.pairwise_sorted ledger.positions.nodup
  · intro report
    unfold PaperLedger.openPositions
    rw [List.mem_map]
    constructor
    · rintro ⟨position, hmem, rfl⟩
      have hfind := ledger.positions.find?_of_mem ((List.mem_insertionSort _).mp hmem)
      obtain ⟨hquantity, haverage⟩ := hshown _ _ hfind
      exact ⟨hpositive _ _ hfind, hquantity.symm, haverage.symm⟩
    · rintro ⟨hopen, hquantity, haverage⟩
      cases hfind : ledger.positions.find? report.symbol with
      | none =>
        have hnone : (acc.position report.symbol).quantity = 0 := by
          rw [h.position report.symbol, held, hfind]
          rfl
        rw [hquantity, hnone] at hopen
        exact absurd hopen (lt_irrefl 0)
      | some position =>
        obtain ⟨hshownQuantity, hshownAverage⟩ := hshown _ _ hfind
        refine ⟨position, (List.mem_insertionSort _).mpr (ledger.positions.mem_of_find? hfind), ?_⟩
        rw [ledger.positions.key_of_find? hfind, ← hshownQuantity, ← hshownAverage, ← hquantity, ← haverage]

/-- **The report agrees with the ledger.**  Over the fills a ledger has booked after any calls, as
    rows whose times strictly increase, the report is built, and it shows the open
    positions and the profit of the ledger. -/
theorem paper_report_agrees (calls : List PaperCall) (orders : List PaperOrderRow) {rows : List PaperFillRow}
    (hrows : List.Forall₂ (after calls).RowOf (after calls).fills.rows rows)
    (htimes : rows.Pairwise fun row later => row.filledAt < later.filledAt) :
    ∃ report, buildPaperReport orders rows = .ok report ∧
      report.openPositions = (after calls).openPositions ∧
      report.realizedPnl = .fin (after calls).realizedPnl := by
  have hsorted : rows.insertionSort PaperFillRow.before = rows :=
    SortedRows.sorted_of_ascending htimes fun _ _ hlt => .inl hlt
  obtain ⟨acc, hacc, hreported⟩ := replayed_after calls rows hrows
  have hpositive := (books_empty.calls calls).positive
  rw [← hsorted] at hacc
  obtain ⟨report, hreport, hopen, hprofit⟩ := buildPaperReport_ok hacc
  exact ⟨report, hreport, hopen.trans (hreported.openPositions hpositive), hprofit.trans hreported.profit⟩

/-! ### Closed and entered again -/

namespace EnteredAgain

/-- Bought in two lots, sold out, and bought again. -/
def calls : List PaperCall :=
  [.submit ⟨"b1", "005930", "BUY", .int 10, .fin 100⟩, .fill ⟨"f1", "b1", .int 4, .fin 100⟩,
    .fill ⟨"f2", "b1", .int 6, .fin 110⟩, .submit ⟨"s1", "005930", "SELL", .int 10, .fin 120⟩,
    .fill ⟨"f3", "s1", .int 10, .fin 120⟩, .submit ⟨"b2", "005930", "BUY", .int 5, .fin 90⟩,
    .fill ⟨"f4", "b2", .int 5, .fin 90⟩]

def rows : List PaperFillRow :=
  [⟨"f1", "b1", "1", "005930", "BUY", 4, .fin 100, "2026-01-02T09:00:00"⟩,
    ⟨"f2", "b1", "1", "005930", "BUY", 6, .fin 110, "2026-01-02T09:01:00"⟩,
    ⟨"f3", "s1", "2", "005930", "SELL", 10, .fin 120, "2026-01-02T09:02:00"⟩,
    ⟨"f4", "b2", "3", "005930", "BUY", 5, .fin 90, "2026-01-02T09:03:00"⟩]

theorem rows_stand : List.Forall₂ (after calls).RowOf (after calls).fills.rows rows := by
  have hfills : (after calls).fills.rows =
      [⟨"f1", "b1", 4, ⟨100, by norm_num⟩⟩, ⟨"f2", "b1", 6, ⟨110, by norm_num⟩⟩,
        ⟨"f3", "s1", 10, ⟨120, by norm_num⟩⟩, ⟨"f4", "b2", 5, ⟨90, by norm_num⟩⟩] := by
    decide +kernel
  rw [hfills]
  refine .cons ?_ (.cons ?_ (.cons ?_ (.cons ?_ .nil)))
  · exact ⟨rfl, rfl, ⟨.buy, by decide +kernel, rfl⟩, rfl, rfl⟩
  · exact ⟨rfl, rfl, ⟨.buy, by decide +kernel, rfl⟩, rfl, rfl⟩
  · exact ⟨rfl, rfl, ⟨.sell, by decide +kernel, rfl⟩, rfl, rfl⟩
  · exact ⟨rfl, rfl, ⟨.buy, by decide +kernel, rfl⟩, rfl, rfl⟩

theorem entered_again_agrees : ∃ report, buildPaperReport [] rows = .ok report ∧
    report.openPositions = (after calls).openPositions ∧ report.realizedPnl = .fin (after calls).realizedPnl :=
  paper_report_agrees calls [] rows_stand (by decide +kernel)

end EnteredAgain

end PaperLedger

end AutoTrader
