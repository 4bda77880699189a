/-
  AutoTrader/Paper/Report.lean
  ============================
  **The report over the paper journal.**

  `build_paper_report` sorts the stored fills by time and id and replays them: it keeps the
  quantity and the running cost of every symbol, and a sale takes its part of the cost at
  the average of the moment.  A sale of more than the symbol holds raises.  The replay of
  a list of fills is a run of the stock at average cost, symbol by symbol
  (`Replay.Shows`).
-/
import AutoTrader.Lib.AverageCost
import AutoTrader.Lib.SortedRows
import AutoTrader.Lib.Table
import AutoTrader.Python.FloatArithmetic
import Mathlib.Data.List.Dedup
import Mathlib.Data.List.Sort
import Mathlib.Data.String.Basic

namespace AutoTrader

open Relational AverageCost

/-! ### Rows -/

/-- A row of `paper_orders`. -/
structure PaperOrderRow where
  orderId : String
  signalId : String
  symbol : String
  side : String
  quantity : Int
  price : PyFloat
  status : String
  createdAt : String
deriving DecidableEq

/-- A row of `paper_fills`. -/
structure PaperFillRow where
  fillId : String
  orderId : String
  signalId : String
  symbol : String
  side : String
  quantity : Int
  price : PyFloat
  filledAt : String
deriving DecidableEq

namespace PaperFillRow

/-- `str(row["side"]).upper()`. -/
def sideUpper (row : PaperFillRow) : String := String.ofList (row.side.toList.map Text.upperChar)

/-- The key of the sort: `(str(row["filled_at"]), str(row["fill_id"]))`. -/
def before (row other : PaperFillRow) : Prop :=
  row.filledAt < other.filledAt ∨ (row.filledAt = other.filledAt ∧ row.fillId ≤ other.fillId)

instance : DecidableRel before := fun row other => by
  unfold before
  infer_instance

end PaperFillRow

/-! ### The report -/

/-- An `_Inventory`, under its key. -/
structure Inventory where
  symbol : String
  quantity : Int
  cost : PyFloat
deriving DecidableEq

/-- `average_cost`. -/
def Inventory.averageCost (position : Inventory) : PyFloat :=
  if position.quantity = 0 then .fin 0 else position.cost.dividedBy position.quantity

structure PaperPositionReport where
  symbol : String
  quantity : Int
  averageCost : PyFloat
deriving DecidableEq

structure PaperReport where
  totalPaperOrders : Nat
  totalPaperFills : Nat
  openPositions : List PaperPositionReport
  grossBuyValue : PyFloat
  realizedPnl : PyFloat
  symbols : List String
  firstFillTimestamp : Option String
  lastFillTimestamp : Option String
deriving DecidableEq

/-- The variables of the replay. -/
structure Replay where
  inventory : Table Inventory (·.symbol)
  realizedPnl : PyFloat
  grossBuyValue : PyFloat

namespace Replay

def init : Replay := ⟨.empty, .fin 0, .fin 0⟩

/-- `inventory.setdefault(symbol, _Inventory())`. -/
def position (acc : Replay) (symbol : String) : Inventory := (acc.inventory.find? symbol).getD ⟨symbol, 0, .fin 0⟩

/-- One row of the replay. -/
def row (acc : Replay) (fill : PaperFillRow) : Except Exn Replay :=
  let position := acc.position fill.symbol
  if fill.sideUpper = "BUY" then
    .ok { acc with
      inventory := acc.inventory.upsert
        ⟨fill.symbol, position.quantity + fill.quantity, position.cost.plus (fill.price.times fill.quantity)⟩
      grossBuyValue := acc.grossBuyValue.plus (fill.price.times fill.quantity) }
  else if fill.sideUpper = "SELL" then
    if position.quantity < fill.quantity then
      .error (.valueError ("paper sell exceeds long position for " ++ fill.symbol))
    else
      .ok { acc with
        inventory := acc.inventory.upsert
          ⟨fill.symbol, position.quantity - fill.quantity,
            position.cost.minus (position.averageCost.times fill.quantity)⟩
        realizedPnl := acc.realizedPnl.plus ((fill.price.minus position.averageCost).times fill.quantity) }
  else .ok { acc with inventory := acc.inventory.upsert ⟨fill.symbol, position.quantity, position.cost⟩ }

/-- The loop over the sorted rows. -/
def rows (fills : List PaperFillRow) : Except Exn Replay := fills.foldlM row init

/-- The open positions, by their symbols. -/
def openPositions (acc : Replay) : List PaperPositionReport :=
  ((acc.inventory.rows.insertionSort fun a b => a.symbol ≤ b.symbol).filter fun position =>
    0 < position.quantity).map fun position => ⟨position.symbol, position.quantity, position.averageCost⟩

end Replay

/-- `build_paper_report`. -/
def buildPaperReport (orders : List PaperOrderRow) (fills : List PaperFillRow) : Except Exn PaperReport := do
  let fillRows := fills.insertionSort PaperFillRow.before
  let acc ← Replay.rows fillRows
  let timestamps := fillRows.map (·.filledAt)
  pure {
    totalPaperOrders := orders.length
    totalPaperFills := fillRows.length
    openPositions := acc.openPositions
    grossBuyValue := acc.grossBuyValue
    realizedPnl := acc.realizedPnl
    symbols := (fillRows.map (·.symbol)).dedup.insertionSort (· ≤ ·)
    firstFillTimestamp := timestamps.min?
    lastFillTimestamp := timestamps.max? }

/-- The report is built when the replay of the sorted fills raises nothing, and shows what it left. -/
theorem buildPaperReport_ok {orders : List PaperOrderRow} {fills : List PaperFillRow} {acc : Replay}
    (h : Replay.rows (fills.insertionSort PaperFillRow.before) = .ok acc) :
    ∃ report, buildPaperReport orders fills = .ok report ∧ report.openPositions = acc.openPositions ∧
      report.realizedPnl = acc.realizedPnl := by
  rw [buildPaperReport, h]
  exact ⟨_, rfl, rfl, rfl⟩

/-! ### What a row of the replay does -/

namespace Replay

variable {acc : Replay} {fill : PaperFillRow}

theorem position_upsert (acc : Replay) (position : Inventory) (realized gross : PyFloat) (symbol : String) :
    Replay.position ⟨acc.inventory.upsert position, realized, gross⟩ symbol =
      if symbol = position.symbol then position else acc.position symbol := by
  unfold Replay.position
  rw [Table.find?_upsert]
  split <;> rfl

theorem isSome_upsert (acc : Replay) (position : Inventory) (symbol : String) :
    ((acc.inventory.upsert position).find? symbol).isSome ↔
      symbol = position.symbol ∨ (acc.inventory.find? symbol).isSome := by
  rw [Table.find?_upsert]
  by_cases hsymbol : symbol = position.symbol <;> simp [hsymbol]

/-- The cost of a symbol is finite, and so is the price of a fill of it. -/
theorem averageCost_fin {position : Inventory} {cost : ℚ} (h : position.cost = .fin cost) :
    position.averageCost = .fin (Stock.average ⟨(position.quantity : ℚ), cost⟩) := by
  unfold Inventory.averageCost Stock.average
  split
  · rename_i hzero
    rw [hzero, Int.cast_zero, div_zero]
  · rw [h]
    rfl

/-- A purchase adds its shares and what is paid for them. -/
theorem row_buy (hside : fill.sideUpper = "BUY") {price cost : ℚ} (hprice : fill.price = .fin price)
    (hcost : (acc.position fill.symbol).cost = .fin cost) :
    ∃ acc', acc.row fill = .ok acc' ∧ acc'.realizedPnl = acc.realizedPnl ∧
      (∀ symbol, (acc'.inventory.find? symbol).isSome ↔
        symbol = fill.symbol ∨ (acc.inventory.find? symbol).isSome) ∧
      ∀ symbol, acc'.position symbol = if symbol = fill.symbol then
          ⟨fill.symbol, (acc.position fill.symbol).quantity + fill.quantity, .fin (cost + fill.quantity * price)⟩
        else acc.position symbol := by
  have hpaid : (acc.position fill.symbol).cost.plus (fill.price.times fill.quantity) =
      .fin (cost + fill.quantity * price) := by
    rw [hcost, hprice, PyFloat.times_fin, PyFloat.plus_fin, mul_comm price]
  unfold Replay.row
  rw [if_pos hside]
  refine ⟨_, rfl, rfl, ?_, ?_⟩
  · exact fun symbol => isSome_upsert acc _ symbol
  · intro symbol
    rw [position_upsert, hpaid]

/-- A sale takes its shares at the average cost, or raises when there are too few. -/
theorem row_sell (hside : fill.sideUpper = "SELL") {price cost : ℚ} (hprice : fill.price = .fin price)
    (hcost : (acc.position fill.symbol).cost = .fin cost) :
    ((acc.position fill.symbol).quantity < fill.quantity ∧ ∃ e, acc.row fill = .error e) ∨
    (fill.quantity ≤ (acc.position fill.symbol).quantity ∧
      ∃ acc', acc.row fill = .ok acc' ∧
        acc'.realizedPnl = acc.realizedPnl.plus (.fin ((price -
          Stock.average ⟨((acc.position fill.symbol).quantity : ℚ), cost⟩) * fill.quantity)) ∧
        (∀ symbol, (acc'.inventory.find? symbol).isSome ↔
          symbol = fill.symbol ∨ (acc.inventory.find? symbol).isSome) ∧
        ∀ symbol, acc'.position symbol = if symbol = fill.symbol then
            ⟨fill.symbol, (acc.position fill.symbol).quantity - fill.quantity,
              .fin (cost - Stock.average ⟨((acc.position fill.symbol).quantity : ℚ), cost⟩ * fill.quantity)⟩
          else acc.position symbol) := by
  have haverage := averageCost_fin hcost
  have hother : fill.sideUpper ≠ "BUY" := by
    rw [hside]
    decide
  unfold Replay.row
  rw [if_neg hother, if_pos hside]
  by_cases hfew : (acc.position fill.symbol).quantity < fill.quantity
  · rw [if_pos hfew]
    exact .inl ⟨hfew, _, rfl⟩
  · rw [if_neg hfew]
    refine .inr ⟨not_lt.mp hfew, _, rfl, ?_, ?_, ?_⟩
    · dsimp only
      rw [haverage, hprice, PyFloat.minus_fin, PyFloat.times_fin]
    · exact fun symbol => isSome_upsert acc _ symbol
    · intro symbol
      rw [position_upsert, haverage, hcost, PyFloat.times_fin, PyFloat.minus_fin]

/-! ### The open positions -/

theorem mem_openPositions {acc : Replay} {report : PaperPositionReport} :
    report ∈ acc.openPositions ↔ 0 < report.quantity ∧
      report.quantity = (acc.position report.symbol).quantity ∧
      report.averageCost = (acc.position report.symbol).averageCost := by
  unfold openPositions
  rw [List.mem_map]
  constructor
  · rintro ⟨position, hmem, rfl⟩
    obtain ⟨hrow, hopen⟩ := List.mem_filter.mp hmem
    have hfind := acc.inventory.find?_of_mem ((List.mem_insertionSort _).mp hrow)
    have hposition : acc.position position.symbol = position := by
      unfold Replay.position
      rw [hfind]
      rfl
    refine ⟨by simpa using hopen, ?_, ?_⟩
    · dsimp only
      rw [hposition]
    · dsimp only
      rw [hposition]
  · rintro ⟨hopen, hquantity, haverage⟩
    cases hfind : acc.inventory.find? report.symbol with
    | none =>
      unfold Replay.position at hquantity
      rw [hfind] at hquantity
      rw [hquantity] at hopen
      exact absurd hopen (lt_irrefl 0)
    | some position =>
      have hposition : acc.position report.symbol = position := by
        unfold Replay.position
        rw [hfind]
        rfl
      rw [hposition] at hquantity haverage
      refine ⟨position, List.mem_filter.mpr ⟨?_, ?_⟩, ?_⟩
      · exact (List.mem_insertionSort _).mpr (acc.inventory.mem_of_find? hfind)
      · simpa [hquantity] using hopen
      · rw [acc.inventory.key_of_find? hfind, ← hquantity, ← haverage]

theorem pairwise_openPositions (acc : Replay) :
    acc.openPositions.Pairwise fun a b => a.symbol < b.symbol := by
  unfold openPositions
  rw [List.pairwise_map]
  exact (SortedRows.pairwise_sorted acc.inventory.nodup).filter _

/-- The open positions are known from the positions of the replay. -/
theorem openPositions_eq {acc : Replay} {reports : List PaperPositionReport}
    (hsorted : reports.Pairwise fun a b => a.symbol < b.symbol)
    (hmem : ∀ report, report ∈ reports ↔ 0 < report.quantity ∧
      report.quantity = (acc.position report.symbol).quantity ∧
      report.averageCost = (acc.position report.symbol).averageCost) : acc.openPositions = reports :=
  SortedRows.eq_of_mem_iff acc.pairwise_openPositions hsorted fun report =>
    mem_openPositions.trans (hmem report).symm

end Replay

end AutoTrader
