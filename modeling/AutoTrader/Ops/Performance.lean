/-
  AutoTrader/Ops/Performance.lean
  ===============================
  **The performance report.**

  `build_performance_report` sorts the broker fills by the text of their time, keeps
  a queue of lots for each symbol, and adds one outcome for every piece of a lot that
  a SELL uses up.  Amounts are exact rationals; the rounding to ten places, which
  happens only when the report is put together, is modelled.

  The loop is an instance of first-in-first-out matching: what it books is the value
  of the matched pieces, so the report adds up.
-/
import AutoTrader.Lib.Fifo
import AutoTrader.Storage.Schema
import Mathlib.Algebra.Order.BigOperators.Group.List
import Mathlib.Data.Prod.Lex
import Mathlib.Order.Bounds.Image
import Mathlib.Data.String.Basic
import Mathlib.Tactic.Linarith
import Mathlib.Tactic.Positivity

namespace AutoTrader

/-- The text in a timestamp column. -/
def TimeText.text : TimeText → String
  | .iso t => t.isoformat
  | .unreadable text => text

/-- `round(value, 10)`. -/
def round10 (q : ℚ) : ℚ := roundHalfEven (q * 10 ^ 10) / 10 ^ 10

/-- What `cost_bps_from_env` returns, or the caller's own rates. -/
structure CostBps where
  buy : ℚ
  sell : ℚ
deriving DecidableEq

/-- A row of the query over `broker_fills`, with the strategy of the order's decision. -/
structure FillRow where
  fillId : String
  symbol : String
  side : String
  quantity : Int
  price : ℚ
  filledAt : TimeText
  strategy : String
deriving DecidableEq

/-- `sorted(fills, key=(str(filled_at), str(fill_id)))`, which is also the `ORDER BY` of
    every query over the fills. -/
def fillOrder (rows : List FillRow) : List FillRow :=
  orderedBy (fun row => row.filledAt.text) (·.fillId) rows

namespace Performance

structure Lot where
  quantity : Nat
  price : ℚ
  strategy : String
deriving DecidableEq

structure StrategyAccumulator where
  closedTrades : Nat
  gross : ℚ
  costs : ℚ
  net : ℚ
deriving DecidableEq

/-- What the loop adds up. -/
structure Totals where
  outcomes : List ℚ
  grossTotal : ℚ
  costTotal : ℚ
  byStrategy : List (String × StrategyAccumulator)
deriving DecidableEq

structure Accounts where
  lots : String → List Lot
  totals : Totals

def Accounts.start : Accounts := ⟨fun _ => [], ⟨[], 0, 0, []⟩⟩

/-- `by_strategy[strategy]` of a `defaultdict`, changed in place. -/
def changeAccumulator (strategy : String) (change : StrategyAccumulator → StrategyAccumulator) :
    List (String × StrategyAccumulator) → List (String × StrategyAccumulator)
  | [] => [(strategy, change ⟨0, 0, 0, 0⟩)]
  | entry :: rest =>
    if entry.1 = strategy then (entry.1, change entry.2) :: rest
    else entry :: changeAccumulator strategy change rest

/-- The gross profit of `matched` units. -/
def grossOf (price : ℚ) (lotPrice : ℚ) (matched : Nat) : ℚ := price * matched - lotPrice * matched

def costsOf (bps : CostBps) (price : ℚ) (lotPrice : ℚ) (matched : Nat) : ℚ :=
  lotPrice * matched * bps.buy / 10000 + price * matched * bps.sell / 10000

/-- The body of `while remaining:` on the totals. -/
def Totals.book (bps : CostBps) (price : ℚ) (lot : Lot) (matched : Nat) (totals : Totals) : Totals :=
  let gross := grossOf price lot.price matched
  let costs := costsOf bps price lot.price matched
  let net := gross - costs
  { outcomes := totals.outcomes ++ [net]
    grossTotal := totals.grossTotal + gross
    costTotal := totals.costTotal + costs
    byStrategy := changeAccumulator lot.strategy
      (fun a => ⟨a.closedTrades + 1, a.gross + gross, a.costs + costs, a.net + net⟩) totals.byStrategy }

/-- `while remaining:` over the lots of one symbol.  A lot that is not used up has met all
    that remained, so the loop ends there. -/
def sellLots (bps : CostBps) (symbol : String) (price : ℚ) :
    Nat → List Lot → Totals → Except Exn (List Lot × Totals)
  | 0, lots, totals => .ok (lots, totals)
  | _ + 1, [], _ => .error (.valueError ("sell exceeds FIFO inventory for " ++ symbol))
  | remaining + 1, lot :: rest, totals =>
    let matched := min (remaining + 1) lot.quantity
    if matched = lot.quantity then
      sellLots bps symbol price (remaining + 1 - matched) rest (totals.book bps price lot matched)
    else .ok ({ lot with quantity := lot.quantity - matched } :: rest, totals.book bps price lot matched)

/-- `str(strategy or "UNKNOWN").strip() or "UNKNOWN"`. -/
def strategyName (strategy : String) : String :=
  let stripped := Text.strip strategy
  if stripped = "" then "UNKNOWN" else stripped

/-- One pass of the loop over the fills. -/
def bookFill (bps : CostBps) (accounts : Accounts) (row : FillRow) : Except Exn Accounts :=
  let invalid : Exn := .valueError "invalid broker fill row"
  match Side.parse? row.side with
  | none => .error invalid
  | some side =>
    if row.symbol = "" ∨ row.quantity ≤ 0 ∨ row.price ≤ 0 then .error invalid
    else
      let lots := accounts.lots row.symbol
      match side with
      | .buy =>
        let lot : Lot := ⟨row.quantity.toNat, row.price, strategyName row.strategy⟩
        .ok { accounts with lots := Function.update accounts.lots row.symbol (lots ++ [lot]) }
      | .sell => do
        let (left, totals) ← sellLots bps row.symbol row.price row.quantity.toNat lots accounts.totals
        .ok ⟨Function.update accounts.lots row.symbol left, totals⟩

/-- The loop over the fills, in the order they come in. -/
def bookFills (bps : CostBps) (accounts : Accounts) (rows : List FillRow) : Except Exn Accounts :=
  rows.foldlM (bookFill bps) accounts

structure Equity where
  equity : ℚ
  peak : ℚ
  drawdown : ℚ

def Equity.step (s : Equity) (outcome : ℚ) : Equity :=
  let equity := s.equity + outcome
  let peak := max s.peak equity
  ⟨equity, peak, max s.drawdown (peak - equity)⟩

def maxDrawdown (outcomes : List ℚ) : ℚ := (outcomes.foldl Equity.step ⟨0, 0, 0⟩).drawdown

end Performance

structure StrategyPerformance where
  strategy : String
  closedTrades : Nat
  grossRealizedPnl : ℚ
  estimatedCosts : ℚ
  netRealizedPnl : ℚ
deriving DecidableEq

structure PerformanceReport where
  closedTrades : Nat
  grossRealizedPnl : ℚ
  estimatedCosts : ℚ
  netRealizedPnl : ℚ
  wins : Nat
  losses : Nat
  winRate : ℚ
  averageWin : ℚ
  averageLoss : ℚ
  profitFactor : PyFloat
  maxDrawdown : ℚ
  buyCostBps : ℚ
  sellCostBps : ℚ
  outcomes : List ℚ
  byStrategy : List StrategyPerformance
deriving DecidableEq

namespace Performance

def StrategyAccumulator.report (a : StrategyAccumulator) (strategy : String) : StrategyPerformance :=
  ⟨strategy, a.closedTrades, round10 a.gross, round10 a.costs, round10 a.net⟩

/-- What `build_performance_report` makes of the totals. -/
def Totals.report (totals : Totals) (bps : CostBps) : PerformanceReport :=
  let wins := totals.outcomes.filter (0 < ·)
  let losses := totals.outcomes.filter (· < 0)
  let winBase := wins.length + losses.length
  { closedTrades := totals.outcomes.length
    grossRealizedPnl := round10 totals.grossTotal
    estimatedCosts := round10 totals.costTotal
    netRealizedPnl := round10 (totals.grossTotal - totals.costTotal)
    wins := wins.length
    losses := losses.length
    winRate := if winBase = 0 then 0 else wins.length / winBase
    averageWin := if wins = [] then 0 else round10 (wins.sum / wins.length)
    averageLoss := if losses = [] then 0 else round10 (losses.sum / losses.length)
    profitFactor := if losses = [] then (if wins = [] then .fin 0 else .posInf)
      else .fin (round10 (wins.sum / |losses.sum|))
    maxDrawdown := round10 (maxDrawdown totals.outcomes)
    buyCostBps := bps.buy
    sellCostBps := bps.sell
    outcomes := totals.outcomes.map round10
    byStrategy := totals.byStrategy.map fun entry => entry.2.report entry.1 }

end Performance

open Performance in
/-- The report on the fills in the order they come in. -/
def reportInOrder (bps : CostBps) (rows : List FillRow) : Except Exn PerformanceReport :=
  if bps.buy < 0 ∨ bps.sell < 0 then .error (.valueError "cost bps must be non-negative")
  else do
    let accounts ← bookFills bps .start rows
    .ok (accounts.totals.report bps)

def buildPerformanceReport (bps : CostBps) (fills : List FillRow) : Except Exn PerformanceReport :=
  reportInOrder bps (fillOrder fills)

namespace Performance

/-! ### The order of the fills -/

theorem mem_fillOrder {rows : List FillRow} {row : FillRow} : row ∈ fillOrder rows ↔ row ∈ rows :=
  List.mem_insertionSort _

/-- Rows that are in order stay in order. -/
theorem fillOrder_fillOrder (rows : List FillRow) : fillOrder (fillOrder rows) = fillOrder rows := by
  -- the order is that of the pairs of texts, read as a dictionary reads them
  have hpairs : ∀ a b : FillRow, (a.filledAt.text < b.filledAt.text ∨
      (a.filledAt.text = b.filledAt.text ∧ a.fillId ≤ b.fillId)) ↔
        toLex (a.filledAt.text, a.fillId) ≤ toLex (b.filledAt.text, b.fillId) :=
    fun a b => by rw [Prod.Lex.toLex_le_toLex]
  have htotal : Std.Total fun a b : FillRow => a.filledAt.text < b.filledAt.text ∨
      (a.filledAt.text = b.filledAt.text ∧ a.fillId ≤ b.fillId) := by
    refine ⟨fun a b => ?_⟩
    rw [hpairs, hpairs]
    exact le_total _ _
  have htrans : IsTrans FillRow fun a b => a.filledAt.text < b.filledAt.text ∨
      (a.filledAt.text = b.filledAt.text ∧ a.fillId ≤ b.fillId) := by
    refine ⟨fun a b c hab hbc => ?_⟩
    rw [hpairs] at hab hbc ⊢
    exact hab.trans hbc
  exact (List.pairwise_insertionSort _ rows).insertionSort_eq

/-! ### Rounding -/

theorem roundHalfEven_mono {a b : ℚ} (h : a ≤ b) : roundHalfEven a ≤ roundHalfEven b := by
  have hbounds : ∀ q : ℚ, q.floor ≤ roundHalfEven q ∧ roundHalfEven q ≤ q.floor + 1 := by
    intro q
    unfold roundHalfEven
    dsimp only
    split_ifs <;> omega
  rcases (Rat.floor_monotone h).lt_or_eq with hlt | heq
  · have ha := (hbounds a).2
    have hb := (hbounds b).1
    omega
  · unfold roundHalfEven
    simp only [heq]
    have hfraction : a - b.floor ≤ b - b.floor := sub_le_sub_right h _
    split_ifs <;> first | omega | (exfalso; linarith)

theorem round10_mono {a b : ℚ} (h : a ≤ b) : round10 a ≤ round10 b := by
  have hscaled : roundHalfEven (a * 10 ^ 10) ≤ roundHalfEven (b * 10 ^ 10) :=
    roundHalfEven_mono (mul_le_mul_of_nonneg_right h (by positivity))
  exact div_le_div_of_nonneg_right (by exact_mod_cast hscaled) (by positivity)

theorem round10_zero : round10 0 = 0 := by decide +kernel

/-! ### The loop is first-in-first-out matching -/

/-- What a lot was bought on: its price and its strategy. -/
abbrev Terms := ℚ × String

abbrev Piece := Fifo.Piece String Terms ℚ

def Lot.entry (lot : Lot) : Nat × Terms := (lot.quantity, lot.price, lot.strategy)

def Lot.ofEntry (entry : Nat × Terms) : Lot := ⟨entry.1, entry.2.1, entry.2.2⟩

/-- The queues behind the lots of the loop. -/
def stockOf (lots : String → List Lot) (symbol : String) : Fifo.Lots Terms := (lots symbol).map Lot.entry

def lotsOf (stock : String → Fifo.Lots Terms) (symbol : String) : List Lot := (stock symbol).map Lot.ofEntry

def Totals.bookPieces (bps : CostBps) (totals : Totals) (pieces : List Piece) : Totals :=
  pieces.foldl (fun t p => t.book bps p.sold (.ofEntry (p.quantity, p.bought)) p.quantity) totals

def pieceGross (p : Piece) : ℚ := grossOf p.sold p.bought.1 p.quantity

def pieceCosts (bps : CostBps) (p : Piece) : ℚ := costsOf bps p.sold p.bought.1 p.quantity

/-- The outcome of a matched piece. -/
def pieceNet (bps : CostBps) (p : Piece) : ℚ := pieceGross p - pieceCosts bps p

@[simp] theorem Lot.ofEntry_entry (lot : Lot) : Lot.ofEntry lot.entry = lot := rfl

@[simp] theorem Lot.entry_ofEntry (entry : Nat × Terms) : (Lot.ofEntry entry).entry = entry := rfl

@[simp] theorem map_entry_ofEntry (lots : List Lot) : (lots.map Lot.entry).map Lot.ofEntry = lots := by
  rw [List.map_map]
  exact List.map_id lots

@[simp] theorem lotsOf_stockOf (lots : String → List Lot) : lotsOf (stockOf lots) = lots :=
  funext fun symbol => map_entry_ofEntry (lots symbol)

@[simp] theorem stockOf_lotsOf (stock : String → Fifo.Lots Terms) : stockOf (lotsOf stock) = stock := by
  funext symbol
  simp [lotsOf, stockOf, Function.comp_def]

theorem stockOf_update (lots : String → List Lot) (symbol : String) (mine : List Lot) :
    stockOf (Function.update lots symbol mine) =
      Function.update (stockOf lots) symbol (mine.map Lot.entry) := by
  funext other
  rcases eq_or_ne other symbol with rfl | hne
  · simp [stockOf]
  · simp [stockOf, Function.update_of_ne hne]

theorem lotsOf_update (stock : String → Fifo.Lots Terms) (symbol : String) (mine : Fifo.Lots Terms) :
    lotsOf (Function.update stock symbol mine) =
      Function.update (lotsOf stock) symbol (mine.map Lot.ofEntry) := by
  funext other
  rcases eq_or_ne other symbol with rfl | hne
  · simp [lotsOf]
  · simp [lotsOf, Function.update_of_ne hne]

@[simp] theorem bookPieces_nil (bps : CostBps) (totals : Totals) : totals.bookPieces bps [] = totals := rfl

theorem bookPieces_cons (bps : CostBps) (totals : Totals) (p : Piece) (pieces : List Piece) :
    totals.bookPieces bps (p :: pieces) =
      (totals.book bps p.sold (.ofEntry (p.quantity, p.bought)) p.quantity).bookPieces bps pieces := rfl

theorem bookPieces_append (bps : CostBps) (totals : Totals) (xs ys : List Piece) :
    totals.bookPieces bps (xs ++ ys) = (totals.bookPieces bps xs).bookPieces bps ys :=
  List.foldl_append

/-- The inner loop takes from the queue and books what it took. -/
theorem sellLots_eq (bps : CostBps) (symbol : String) (price : ℚ) (n : Nat) (lots : List Lot)
    (totals : Totals) :
    sellLots bps symbol price n lots totals =
      match Fifo.take n (lots.map Lot.entry) with
      | none => .error (.valueError ("sell exceeds FIFO inventory for " ++ symbol))
      | some (taken, left) =>
        .ok (left.map Lot.ofEntry, totals.bookPieces bps (Fifo.pieces symbol price taken)) := by
  induction lots generalizing n totals with
  | nil =>
    cases n with
    | zero => rfl
    | succ n => rfl
  | cons lot rest ih =>
    cases n with
    | zero =>
      simp [sellLots, Fifo.pieces, Function.comp_def]
    | succ n =>
      rw [List.map_cons, Lot.entry]
      rcases Nat.lt_or_ge (n + 1) lot.quantity with hlt | hle
      · rw [sellLots, Fifo.take_of_lt _ _ n.succ_pos hlt]
        simp only [Nat.min_eq_left hlt.le, if_neg hlt.ne]
        rw [List.map_cons, map_entry_ofEntry]
        rfl
      · rw [sellLots, Fifo.take_of_le _ _ n.succ_pos hle]
        simp only [Nat.min_eq_right hle, if_true]
        rw [ih]
        rcases Fifo.take (n + 1 - lot.quantity) (rest.map Lot.entry) with _ | ⟨taken, left⟩
        · rfl
        · rfl

/-- The rows that pass the checks of the loop. -/
def Valid (row : FillRow) : Prop :=
  row.symbol ≠ "" ∧ (Side.parse? row.side).isSome ∧ 0 < row.quantity ∧ 0 < row.price

/-- A row as a trade. -/
def trade (row : FillRow) : Fifo.Trade String Terms ℚ :=
  match Side.parse? row.side with
  | some .sell => .sell row.symbol row.quantity.toNat row.price
  | _ => .buy row.symbol row.quantity.toNat (row.price, strategyName row.strategy)

theorem bookFill_invalid {bps : CostBps} {accounts : Accounts} {row : FillRow} (h : ¬ Valid row) :
    bookFill bps accounts row = .error (.valueError "invalid broker fill row") := by
  unfold bookFill
  rcases hside : Side.parse? row.side with _ | side
  · rfl
  · refine if_pos ?_
    by_contra hchecks
    simp only [not_or, not_le] at hchecks
    exact h ⟨hchecks.1, by rw [hside]; rfl, hchecks.2.1, hchecks.2.2⟩

/-- One row is one trade, and what it matches is booked. -/
theorem bookFill_eq (bps : CostBps) (accounts : Accounts) {row : FillRow} (h : Valid row) :
    bookFill bps accounts row =
      match (trade row).apply (stockOf accounts.lots) with
      | none => .error (.valueError ("sell exceeds FIFO inventory for " ++ row.symbol))
      | some (stock, matched) => .ok ⟨lotsOf stock, accounts.totals.bookPieces bps matched⟩ := by
  obtain ⟨hsymbol, hside, hquantity, hprice⟩ := h
  obtain ⟨side, hside⟩ := Option.isSome_iff_exists.mp hside
  have hchecks : ¬ (row.symbol = "" ∨ row.quantity ≤ 0 ∨ row.price ≤ 0) := by
    simp only [not_or, not_le]
    exact ⟨hsymbol, hquantity, hprice⟩
  simp only [bookFill, trade, hside, if_neg hchecks]
  cases side with
  | buy =>
    simp only [Fifo.Trade.apply, lotsOf_update, lotsOf_stockOf, List.map_append, stockOf,
      map_entry_ofEntry]
    rfl
  | sell =>
    rw [sellLots_eq]
    simp only [Fifo.Trade.apply]
    have hqueue : stockOf accounts.lots row.symbol = (accounts.lots row.symbol).map Lot.entry := rfl
    rw [hqueue]
    rcases Fifo.take row.quantity.toNat ((accounts.lots row.symbol).map Lot.entry) with _ | ⟨taken, left⟩
    · rfl
    · simp only [Option.map_some, lotsOf_update, lotsOf_stockOf]
      rfl

/-- The whole loop: every row is valid, the trades run through, and the totals are those of
    the matched pieces. -/
theorem bookFills_eq_ok_iff {bps : CostBps} {accounts final : Accounts} {rows : List FillRow} :
    bookFills bps accounts rows = .ok final ↔
      (∀ row ∈ rows, Valid row) ∧ ∃ stock matched,
        Fifo.run (stockOf accounts.lots) (rows.map trade) = some (stock, matched) ∧
        final = ⟨lotsOf stock, accounts.totals.bookPieces bps matched⟩ := by
  induction rows generalizing accounts with
  | nil =>
    simp only [bookFills, List.foldlM_nil, List.map_nil, Fifo.run]
    constructor
    · rintro ⟨⟩
      exact ⟨by simp, _, _, rfl, by simp⟩
    · rintro ⟨-, stock, matched, heq, rfl⟩
      cases heq
      simp
      rfl
  | cons row rest ih =>
    have hfold : bookFills bps accounts (row :: rest) =
        (bookFill bps accounts row).bind fun accounts' => bookFills bps accounts' rest :=
      List.foldlM_cons
    rw [hfold]
    by_cases hvalid : Valid row
    · rw [bookFill_eq bps accounts hvalid, List.map_cons, Fifo.run]
      rcases (trade row).apply (stockOf accounts.lots) with _ | ⟨stock, first⟩
      · simp [Except.bind]
      · simp only [Except.bind, ih, stockOf_lotsOf, List.forall_mem_cons, hvalid, true_and,
          Option.bind_some, Option.map_eq_some_iff, Prod.exists, Prod.mk.injEq]
        refine and_congr_right fun _ => ⟨?_, ?_⟩
        · rintro ⟨final', more, hrun, rfl⟩
          refine ⟨final', first ++ more, ⟨final', more, hrun, rfl, rfl⟩, ?_⟩
          rw [bookPieces_append]
        · rintro ⟨final', _, ⟨_, more, hrun, rfl, rfl⟩, rfl⟩
          refine ⟨_, more, hrun, ?_⟩
          rw [bookPieces_append]
    · rw [bookFill_invalid hvalid]
      simp [Except.bind, hvalid]

theorem start_stock : stockOf Accounts.start.lots = fun _ => [] := rfl

/-- A history is booked exactly when its rows are valid and no prefix oversells. -/
theorem bookFills_start_iff {bps : CostBps} {rows : List FillRow} :
    (∃ final, bookFills bps .start rows = .ok final) ↔
      (∀ row ∈ rows, Valid row) ∧ Fifo.Covered (fun _ => []) (rows.map trade) := by
  rw [← Fifo.run_isSome_iff, Option.isSome_iff_exists]
  simp only [bookFills_eq_ok_iff, start_stock]
  constructor
  · rintro ⟨_, hvalid, stock, matched, hrun, -⟩
    exact ⟨hvalid, _, hrun⟩
  · rintro ⟨hvalid, ⟨stock, matched⟩, hrun⟩
    exact ⟨_, hvalid, stock, matched, hrun, rfl⟩

/-! ### What is booked -/

theorem outcomes_bookPieces (bps : CostBps) (totals : Totals) (pieces : List Piece) :
    (totals.bookPieces bps pieces).outcomes = totals.outcomes ++ pieces.map (pieceNet bps) := by
  induction pieces generalizing totals with
  | nil => simp
  | cons p rest ih =>
    rw [bookPieces_cons, ih, List.map_cons, List.append_cons]
    rfl

theorem grossTotal_bookPieces (bps : CostBps) (totals : Totals) (pieces : List Piece) :
    (totals.bookPieces bps pieces).grossTotal = totals.grossTotal + (pieces.map pieceGross).sum := by
  induction pieces generalizing totals with
  | nil => simp
  | cons p rest ih =>
    rw [bookPieces_cons, ih, List.map_cons, List.sum_cons, ← add_assoc]
    rfl

theorem costTotal_bookPieces (bps : CostBps) (totals : Totals) (pieces : List Piece) :
    (totals.bookPieces bps pieces).costTotal = totals.costTotal + (pieces.map (pieceCosts bps)).sum := by
  induction pieces generalizing totals with
  | nil => simp
  | cons p rest ih =>
    rw [bookPieces_cons, ih, List.map_cons, List.sum_cons, ← add_assoc]
    rfl

theorem sum_map_sub (f g : Piece → ℚ) (pieces : List Piece) :
    (pieces.map fun p => f p - g p).sum = (pieces.map f).sum - (pieces.map g).sum := by
  simpa using Multiset.sum_map_sub (m := (pieces : Multiset Piece)) (f := f) (g := g)

/-- Gross less costs is the sum of the outcomes. -/
theorem sum_pieceNet (bps : CostBps) (pieces : List Piece) :
    (pieces.map (pieceNet bps)).sum = (pieces.map pieceGross).sum - (pieces.map (pieceCosts bps)).sum :=
  sum_map_sub pieceGross (pieceCosts bps) pieces

section Strategies

variable {M : Type} [AddCommMonoid M]

/-- A total over the strategies. -/
def overStrategies (amount : StrategyAccumulator → M) (entries : List (String × StrategyAccumulator)) : M :=
  (entries.map fun entry => amount entry.2).sum

theorem overStrategies_change {amount : StrategyAccumulator → M}
    {change : StrategyAccumulator → StrategyAccumulator} {delta : M} (hzero : amount ⟨0, 0, 0, 0⟩ = 0)
    (hchange : ∀ a, amount (change a) = amount a + delta) (strategy : String)
    (entries : List (String × StrategyAccumulator)) :
    overStrategies amount (changeAccumulator strategy change entries) =
      overStrategies amount entries + delta := by
  induction entries with
  | nil => simp [overStrategies, changeAccumulator, hchange, hzero]
  | cons entry rest ih =>
    rw [changeAccumulator]
    split_ifs with heq
    · simp only [overStrategies, List.map_cons, List.sum_cons, hchange]
      exact add_right_comm _ _ _
    · simp only [overStrategies, List.map_cons, List.sum_cons] at ih ⊢
      rw [ih, add_assoc]

/-- What every piece adds to its strategy adds up over the strategies. -/
theorem overStrategies_bookPieces {amount : StrategyAccumulator → M} (delta : Piece → M)
    (bps : CostBps) (hzero : amount ⟨0, 0, 0, 0⟩ = 0)
    (hadd : ∀ a p, amount ⟨a.closedTrades + 1, a.gross + pieceGross p, a.costs + pieceCosts bps p,
      a.net + pieceNet bps p⟩ = amount a + delta p) (totals : Totals) (pieces : List Piece) :
    overStrategies amount (totals.bookPieces bps pieces).byStrategy =
      overStrategies amount totals.byStrategy + (pieces.map delta).sum := by
  induction pieces generalizing totals with
  | nil => simp
  | cons p rest ih =>
    rw [bookPieces_cons, ih, List.map_cons, List.sum_cons, ← add_assoc]
    congr 1
    exact overStrategies_change hzero (fun a => hadd a p) _ _

end Strategies

theorem keys_changeAccumulator (strategy : String) (change : StrategyAccumulator → StrategyAccumulator)
    (entries : List (String × StrategyAccumulator)) :
    (changeAccumulator strategy change entries).map Prod.fst =
      if strategy ∈ entries.map Prod.fst then entries.map Prod.fst
      else entries.map Prod.fst ++ [strategy] := by
  induction entries with
  | nil => rfl
  | cons entry rest ih =>
    rw [changeAccumulator]
    rcases eq_or_ne entry.1 strategy with heq | hne
    · simp [heq]
    · rw [if_neg hne, List.map_cons, ih]
      simp only [List.map_cons, List.mem_cons, hne.symm, false_or]
      split_ifs <;> rfl

/-- Every strategy has one accumulator. -/
theorem nodup_bookPieces (bps : CostBps) {totals : Totals} (h : (totals.byStrategy.map Prod.fst).Nodup)
    (pieces : List Piece) : ((totals.bookPieces bps pieces).byStrategy.map Prod.fst).Nodup := by
  induction pieces generalizing totals with
  | nil => exact h
  | cons p rest ih =>
    rw [bookPieces_cons]
    refine ih ?_
    simp only [Totals.book, keys_changeAccumulator]
    split_ifs with hmem
    · exact h
    · exact List.nodup_append.mpr ⟨h, List.nodup_singleton _, fun a ha b hb hab =>
        hmem (List.mem_singleton.mp hb ▸ hab ▸ ha)⟩

/-! ### The drawdown -/

/-- The equity after so many outcomes; it starts at 0. -/
def equityAt (outcomes : List ℚ) (i : Nat) : ℚ := (outcomes.take i).sum

/-- The falls from an equity to a later one. -/
def drawdowns (outcomes : List ℚ) : Set ℚ :=
  {d | ∃ i j, i ≤ j ∧ j ≤ outcomes.length ∧ d = equityAt outcomes i - equityAt outcomes j}

def equities (outcomes : List ℚ) : Set ℚ := {e | ∃ i, i ≤ outcomes.length ∧ e = equityAt outcomes i}

theorem equityAt_append {outcomes : List ℚ} {i : Nat} (h : i ≤ outcomes.length) (outcome : ℚ) :
    equityAt (outcomes ++ [outcome]) i = equityAt outcomes i := by
  rw [equityAt, List.take_append_of_le_length h, equityAt]

theorem equityAt_last (outcomes : List ℚ) (outcome : ℚ) :
    equityAt (outcomes ++ [outcome]) (outcomes.length + 1) = outcomes.sum + outcome := by
  rw [equityAt, List.take_of_length_le (by simp), List.sum_append, List.sum_singleton]

theorem equities_append (outcomes : List ℚ) (outcome : ℚ) :
    equities (outcomes ++ [outcome]) = insert (outcomes.sum + outcome) (equities outcomes) := by
  ext e
  simp only [equities, List.length_append, List.length_singleton, Set.mem_ofPred_eq, Set.mem_insert_iff]
  constructor
  · rintro ⟨i, hi, rfl⟩
    rcases Nat.lt_or_ge outcomes.length i with hlast | hle
    · obtain rfl : i = outcomes.length + 1 := by omega
      exact .inl (equityAt_last outcomes outcome)
    · exact .inr ⟨i, hle, equityAt_append hle outcome⟩
  · rintro (rfl | ⟨i, hi, rfl⟩)
    · exact ⟨_, le_rfl, (equityAt_last outcomes outcome).symm⟩
    · exact ⟨i, by omega, (equityAt_append hi outcome).symm⟩

/-- A new outcome adds the falls to the equity it leads to. -/
theorem drawdowns_append (outcomes : List ℚ) (outcome : ℚ) :
    drawdowns (outcomes ++ [outcome]) = drawdowns outcomes ∪
      (fun e => e - (outcomes.sum + outcome)) '' equities (outcomes ++ [outcome]) := by
  ext d
  simp only [drawdowns, equities, List.length_append, List.length_singleton, Set.mem_ofPred_eq,
    Set.mem_union, Set.mem_image]
  constructor
  · rintro ⟨i, j, hij, hj, rfl⟩
    rcases Nat.lt_or_ge outcomes.length j with hlast | hle
    · obtain rfl : j = outcomes.length + 1 := by omega
      exact .inr ⟨_, ⟨i, by omega, rfl⟩, by rw [equityAt_last]⟩
    · refine .inl ⟨i, j, hij, hle, ?_⟩
      rw [equityAt_append hle, equityAt_append (hij.trans hle)]
  · rintro (⟨i, j, hij, hj, rfl⟩ | ⟨_, ⟨i, hi, rfl⟩, rfl⟩)
    · refine ⟨i, j, hij, by omega, ?_⟩
      rw [equityAt_append hj, equityAt_append (hij.trans hj)]
    · exact ⟨i, _, hi, le_rfl, by rw [equityAt_last]⟩

/-- The running peak and drawdown are the greatest ones so far. -/
theorem equity_run (outcomes : List ℚ) :
    (outcomes.foldl Equity.step ⟨0, 0, 0⟩).equity = outcomes.sum ∧
      IsGreatest (equities outcomes) (outcomes.foldl Equity.step ⟨0, 0, 0⟩).peak ∧
      IsGreatest (drawdowns outcomes) (outcomes.foldl Equity.step ⟨0, 0, 0⟩).drawdown := by
  induction outcomes using List.reverseRecOn with
  | nil =>
    refine ⟨rfl, ⟨⟨0, le_rfl, rfl⟩, ?_⟩, ⟨⟨0, 0, le_rfl, le_rfl, by simp [equityAt]⟩, ?_⟩⟩
    · rintro _ ⟨i, -, rfl⟩
      simp [equityAt]
    · rintro _ ⟨i, j, -, -, rfl⟩
      simp [equityAt]
  | append_singleton outcomes outcome ih =>
    obtain ⟨hsum, hpeak, hdrawdown⟩ := ih
    rw [List.foldl_append, List.foldl_cons, List.foldl_nil]
    simp only [Equity.step, hsum]
    have hpeak' : IsGreatest (equities (outcomes ++ [outcome]))
        (max (outcomes.foldl Equity.step ⟨0, 0, 0⟩).peak (outcomes.sum + outcome)) := by
      rw [equities_append, max_comm]
      exact hpeak.insert _
    refine ⟨by simp, hpeak', ?_⟩
    rw [drawdowns_append]
    have hmono : Monotone fun e : ℚ => e - (outcomes.sum + outcome) := fun a b h => sub_le_sub_right h _
    exact hdrawdown.union (hmono.map_isGreatest hpeak')

theorem maxDrawdown_isGreatest (outcomes : List ℚ) :
    IsGreatest (drawdowns outcomes) (maxDrawdown outcomes) := (equity_run outcomes).2.2

/-! ### Accounting -/

/-- The prices of the shares of a symbol, one by one in the order they were bought. -/
def boughtPrices (rows : List FillRow) (symbol : String) : List ℚ :=
  rows.flatMap fun row =>
    if Side.parse? row.side = some .buy ∧ row.symbol = symbol then
      List.replicate row.quantity.toNat row.price
    else []

def soldQuantity (rows : List FillRow) (symbol : String) : Nat :=
  (rows.map fun row =>
    if Side.parse? row.side = some .sell ∧ row.symbol = symbol then row.quantity.toNat else 0).sum

/-- What the shares sold of a symbol had cost: the first ones bought are sold first. -/
def fifoCost (rows : List FillRow) (symbol : String) : ℚ :=
  ((boughtPrices rows symbol).take (soldQuantity rows symbol)).sum

def sellNotional (rows : List FillRow) : ℚ :=
  (rows.map fun row => if Side.parse? row.side = some .sell then row.price * (row.quantity : ℚ) else 0).sum

def boughtQuantity (rows : List FillRow) (symbol : String) : Nat := (boughtPrices rows symbol).length

/-- In no prefix of the history is more of a symbol sold than was bought. -/
def NeverOversells (rows : List FillRow) : Prop :=
  ∀ front, front <+: rows → ∀ symbol, soldQuantity front symbol ≤ boughtQuantity front symbol

theorem trade_cases {row : FillRow} (h : Valid row) :
    (Side.parse? row.side = some .buy ∧
      trade row = .buy row.symbol row.quantity.toNat (row.price, strategyName row.strategy)) ∨
    (Side.parse? row.side = some .sell ∧ trade row = .sell row.symbol row.quantity.toNat row.price) := by
  obtain ⟨-, hside, -⟩ := h
  rcases hside' : Side.parse? row.side with _ | side
  · rw [hside'] at hside
    cases hside
  cases side with
  | buy => exact .inl ⟨rfl, by simp [trade, hside']⟩
  | sell => exact .inr ⟨rfl, by simp [trade, hside']⟩

theorem boughtPrices_eq {rows : List FillRow} (hvalid : ∀ row ∈ rows, Valid row) (symbol : String) :
    (Fifo.units (Fifo.bought symbol (rows.map trade))).map Prod.fst = boughtPrices rows symbol := by
  induction rows with
  | nil => rfl
  | cons row rest ih =>
    obtain ⟨hrow, hrest⟩ := List.forall_mem_cons.mp hvalid
    rw [List.map_cons, Fifo.bought_cons, Fifo.units_append, List.map_append, ih hrest, boughtPrices,
      boughtPrices, List.flatMap_cons]
    congr 1
    rcases trade_cases hrow with ⟨hside, htrade⟩ | ⟨hside, htrade⟩
    · rw [htrade]
      simp only [Fifo.Trade.bought, hside, true_and]
      split_ifs <;> simp
    · rw [htrade]
      simp [Fifo.Trade.bought, hside]

theorem soldQuantity_eq {rows : List FillRow} (hvalid : ∀ row ∈ rows, Valid row) (symbol : String) :
    Fifo.sold symbol (rows.map trade) = soldQuantity rows symbol := by
  induction rows with
  | nil => rfl
  | cons row rest ih =>
    obtain ⟨hrow, hrest⟩ := List.forall_mem_cons.mp hvalid
    rw [List.map_cons, Fifo.sold_cons, ih hrest, soldQuantity, soldQuantity, List.map_cons, List.sum_cons]
    congr 1
    rcases trade_cases hrow with ⟨hside, htrade⟩ | ⟨hside, htrade⟩
    · rw [htrade]
      simp [Fifo.Trade.sold, hside]
    · rw [htrade]
      simp [Fifo.Trade.sold, hside]

theorem covered_iff {rows : List FillRow} (hvalid : ∀ row ∈ rows, Valid row) :
    Fifo.Covered (fun _ => []) (rows.map trade) ↔ NeverOversells rows := by
  have hbalance : ∀ front, front <+: rows → ∀ symbol,
      (Fifo.sold symbol (front.map trade) ≤
          Fifo.total ([] : Fifo.Lots Terms) + Fifo.total (Fifo.bought symbol (front.map trade)) ↔
        soldQuantity front symbol ≤ boughtQuantity front symbol) := by
    intro front hfront symbol
    have hvalid' : ∀ row ∈ front, Valid row := fun row hrow => hvalid row (hfront.subset hrow)
    rw [soldQuantity_eq hvalid', boughtQuantity, ← boughtPrices_eq hvalid', List.length_map,
      Fifo.length_units, Fifo.total_nil, zero_add]
  constructor
  · intro hcovered front hfront symbol
    exact (hbalance front hfront symbol).mp (hcovered _ (List.IsPrefix.map trade hfront) symbol)
  · intro hnever trades htrades symbol
    obtain ⟨front, hfront, rfl⟩ := List.prefix_map_iff.mp htrades
    exact (hbalance front hfront symbol).mpr (hnever front hfront symbol)

/-- A history of valid rows is booked exactly when it never oversells. -/
theorem bookFills_ok_iff (bps : CostBps) {rows : List FillRow} (hvalid : ∀ row ∈ rows, Valid row) :
    (∃ final, bookFills bps .start rows = .ok final) ↔ NeverOversells rows := by
  rw [bookFills_start_iff, covered_iff hvalid, and_iff_right hvalid]

theorem sellNotional_eq {rows : List FillRow} (hvalid : ∀ row ∈ rows, Valid row) :
    ((rows.map trade).map (Fifo.Trade.saleValue id)).sum = sellNotional rows := by
  induction rows with
  | nil => rfl
  | cons row rest ih =>
    obtain ⟨hrow, hrest⟩ := List.forall_mem_cons.mp hvalid
    rw [List.map_cons, List.map_cons, List.sum_cons, ih hrest, sellNotional, sellNotional, List.map_cons,
      List.sum_cons]
    congr 1
    rcases trade_cases hrow with ⟨hside, htrade⟩ | ⟨hside, htrade⟩
    · rw [htrade]
      simp [Fifo.Trade.saleValue, hside]
    · have hquantity : ((row.quantity.toNat : ℤ) : ℚ) = row.quantity := by
        rw [Int.toNat_of_nonneg hrow.2.2.1.le]
      rw [htrade, Fifo.Trade.saleValue, hside, if_pos rfl, id, nsmul_eq_mul, mul_comm, ← hquantity,
        Int.cast_natCast]

/-- Every piece is of a symbol that was traded. -/
theorem key_mem_of_run {stock final : String → Fifo.Lots Terms} {rows : List FillRow}
    {matched : List Piece} (hvalid : ∀ row ∈ rows, Valid row)
    (h : Fifo.run stock (rows.map trade) = some (final, matched)) :
    ∀ p ∈ matched, p.key ∈ (rows.map (·.symbol)).toFinset := by
  induction rows generalizing stock matched with
  | nil =>
    cases h
    simp
  | cons row rest ih =>
    obtain ⟨hrow, hrest⟩ := List.forall_mem_cons.mp hvalid
    obtain ⟨stock', first, more, happly, hrun, rfl⟩ := Fifo.run_cons_eq_some h
    intro p hp
    rw [List.map_cons, List.toFinset_cons, Finset.mem_insert]
    rcases List.mem_append.mp hp with hfirst | hmore
    · left
      rcases trade_cases hrow with ⟨hside, htrade⟩ | ⟨hside, htrade⟩
      · rw [htrade] at happly
        cases happly
        cases hfirst
      · rw [htrade, Fifo.Trade.apply, Option.map_eq_some_iff] at happly
        obtain ⟨⟨taken, left⟩, -, heq⟩ := happly
        cases heq
        obtain ⟨lot, -, rfl⟩ := List.mem_map.mp hfirst
        rfl
    · exact .inr (ih hrest hrun p hmore)

/-- Gross profit is what the sales brought in, less what the shares sold had cost. -/
theorem sum_pieceGross {final : String → Fifo.Lots Terms} {rows : List FillRow} {matched : List Piece}
    (hvalid : ∀ row ∈ rows, Valid row)
    (h : Fifo.run (fun _ => []) (rows.map trade) = some (final, matched)) :
    (matched.map pieceGross).sum =
      sellNotional rows - ∑ symbol ∈ (rows.map (·.symbol)).toFinset, fifoCost rows symbol := by
  have hsplit : (matched.map pieceGross).sum =
      (matched.map fun p => p.quantity • id p.sold).sum -
        (matched.map fun p => p.quantity • p.bought.1).sum := by
    rw [← sum_map_sub]
    congr 1
    refine List.map_congr_left fun p _ => ?_
    simp only [pieceGross, grossOf, nsmul_eq_mul, id]
    rw [mul_comm, mul_comm p.bought.1]
  rw [hsplit, Fifo.run_sum_sold id h, sellNotional_eq hvalid,
    Fifo.sum_bought Prod.fst (key_mem_of_run hvalid h)]
  congr 1
  refine Finset.sum_congr rfl fun symbol _ => ?_
  rw [Fifo.run_units h symbol, Fifo.units_nil, List.nil_append, soldQuantity_eq hvalid, List.map_take,
    boughtPrices_eq hvalid, fifoCost]

/-- What it means that the totals of a history add up. -/
structure AddsUp (rows : List FillRow) (totals : Totals) : Prop where
  gross : totals.grossTotal =
    sellNotional rows - ∑ symbol ∈ (rows.map (·.symbol)).toFinset, fifoCost rows symbol
  net : totals.grossTotal - totals.costTotal = totals.outcomes.sum
  strategies : (totals.byStrategy.map Prod.fst).Nodup
  tradesByStrategy : overStrategies (·.closedTrades) totals.byStrategy = totals.outcomes.length
  grossByStrategy : overStrategies (·.gross) totals.byStrategy = totals.grossTotal
  costsByStrategy : overStrategies (·.costs) totals.byStrategy = totals.costTotal
  netByStrategy : overStrategies (·.net) totals.byStrategy = totals.outcomes.sum
  drawdown : IsGreatest (drawdowns totals.outcomes) (maxDrawdown totals.outcomes)

theorem addsUp_of_run (bps : CostBps) {final : String → Fifo.Lots Terms} {rows : List FillRow}
    {matched : List Piece} (hvalid : ∀ row ∈ rows, Valid row)
    (h : Fifo.run (fun _ => []) (rows.map trade) = some (final, matched)) :
    AddsUp rows (Accounts.start.totals.bookPieces bps matched) := by
  have houtcomes : (Accounts.start.totals.bookPieces bps matched).outcomes = matched.map (pieceNet bps) :=
    outcomes_bookPieces bps _ matched
  have hgross : (Accounts.start.totals.bookPieces bps matched).grossTotal = (matched.map pieceGross).sum :=
    (grossTotal_bookPieces bps _ matched).trans (zero_add _)
  have hcosts : (Accounts.start.totals.bookPieces bps matched).costTotal =
      (matched.map (pieceCosts bps)).sum :=
    (costTotal_bookPieces bps _ matched).trans (zero_add _)
  have hnone : (Accounts.start.totals.byStrategy.map Prod.fst).Nodup := List.nodup_nil
  exact
    { gross := hgross.trans (sum_pieceGross hvalid h)
      net := by rw [hgross, hcosts, houtcomes, sum_pieceNet]
      strategies := nodup_bookPieces bps hnone matched
      tradesByStrategy := by
        rw [overStrategies_bookPieces (fun _ => 1) bps rfl fun _ _ => rfl, houtcomes]
        simp [Accounts.start, overStrategies]
      grossByStrategy := by
        rw [overStrategies_bookPieces pieceGross bps rfl fun _ _ => rfl, hgross]
        exact zero_add _
      costsByStrategy := by
        rw [overStrategies_bookPieces (pieceCosts bps) bps rfl fun _ _ => rfl, hcosts]
        exact zero_add _
      netByStrategy := by
        rw [overStrategies_bookPieces (pieceNet bps) bps rfl fun _ _ => rfl, houtcomes]
        exact zero_add _
      drawdown := maxDrawdown_isGreatest _ }

/-- Every outcome is a win, a loss or nothing. -/
theorem length_signs (outcomes : List ℚ) :
    (outcomes.filter (0 < ·)).length + (outcomes.filter (· < 0)).length +
      (outcomes.filter (· = 0)).length = outcomes.length := by
  induction outcomes with
  | nil => rfl
  | cons outcome rest ih =>
    rcases lt_trichotomy outcome 0 with hneg | rfl | hpos
    · simp [hneg, hneg.not_gt, hneg.ne]
      omega
    · simp
      omega
    · simp [hpos, hpos.not_gt, hpos.ne']
      omega

end Performance

theorem buildPerformanceReport_eq_ok {bps : CostBps} {fills : List FillRow} {report : PerformanceReport}
    (h : buildPerformanceReport bps fills = .ok report) :
    ∃ accounts, Performance.bookFills bps .start (fillOrder fills) = .ok accounts ∧
      report = accounts.totals.report bps := by
  rw [buildPerformanceReport, reportInOrder] at h
  split_ifs at h
  obtain ⟨accounts, haccounts, hreport⟩ := Except.bind_eq_ok h
  cases hreport
  exact ⟨accounts, haccounts, rfl⟩

open Performance in
/-- **The performance report adds up**: its figures are the totals of the loop, rounded, and
    these are the FIFO profit of the shares sold, over all and by strategy; its drawdown is
    the largest fall of the equity. -/
theorem performance_report_adds_up {bps : CostBps} {fills : List FillRow} {report : PerformanceReport}
    (h : buildPerformanceReport bps fills = .ok report) :
    ∃ accounts, bookFills bps .start (fillOrder fills) = .ok accounts ∧
      report = accounts.totals.report bps ∧ AddsUp (fillOrder fills) accounts.totals ∧
      report.wins + report.losses + (accounts.totals.outcomes.filter (· = 0)).length =
        report.closedTrades := by
  obtain ⟨accounts, haccounts, rfl⟩ := buildPerformanceReport_eq_ok h
  refine ⟨accounts, haccounts, rfl, ?_, length_signs _⟩
  obtain ⟨hvalid, stock, matched, hrun, rfl⟩ := bookFills_eq_ok_iff.mp haccounts
  exact addsUp_of_run bps hvalid hrun

/-! Two symbols, one sold at a profit and one at a loss, all at one time. -/
namespace TwoRoundTrips

def filledAt : TimeText := .iso (.combine 20690 9 30 0 (some 0))

def fills : List FillRow :=
  [⟨"fill-buy-win", "005930", "BUY", 10, 100, filledAt, "PULLBACK_WATCH"⟩,
   ⟨"fill-sell-win", "005930", "SELL", 10, 110, filledAt, "UNKNOWN"⟩,
   ⟨"fill-buy-loss", "000660", "BUY", 5, 200, filledAt, "UNKNOWN"⟩,
   ⟨"fill-sell-loss", "000660", "SELL", 5, 190, filledAt, "UNKNOWN"⟩]

def report : PerformanceReport where
  closedTrades := 2
  grossRealizedPnl := 50
  estimatedCosts := 243 / 40
  netRealizedPnl := 1757 / 40
  wins := 1
  losses := 1
  winRate := 1 / 2
  averageWin := 1937 / 20
  averageLoss := -2117 / 40
  profitFactor := .fin (18299480397 / 10000000000)
  maxDrawdown := 2117 / 40
  buyCostBps := 15
  sellCostBps := 15
  outcomes := [-2117 / 40, 1937 / 20]
  byStrategy := [⟨"UNKNOWN", 1, -50, 117 / 40, -2117 / 40⟩, ⟨"PULLBACK_WATCH", 1, 100, 63 / 20, 1937 / 20⟩]

theorem report_of_fills : buildPerformanceReport ⟨15, 15⟩ fills = .ok report :=
  Except.eq_ok_of_toOption (by decide +kernel)

open Performance in
theorem report_of_fills_adds_up :
    ∃ accounts, bookFills ⟨15, 15⟩ .start (fillOrder fills) = .ok accounts ∧
      report = accounts.totals.report ⟨15, 15⟩ ∧ AddsUp (fillOrder fills) accounts.totals ∧
      1 + 1 + (accounts.totals.outcomes.filter (· = 0)).length = 2 :=
  performance_report_adds_up report_of_fills

end TwoRoundTrips

end AutoTrader
