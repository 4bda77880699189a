/-
  AutoTrader/Paper/Journal.lean
  =============================
  **The paper journal in the database.**

  `record_paper_buy` and `record_paper_sell` store one order and one fill, unless the order or its
  signal is known; a sale is checked against `paper_positions`.  Those positions are aggregates
  over all fills of a symbol, while the report replays the fills by time and id.
  `paper_report_consistent_iff` says on which journals the two agree.
-/
import AutoTrader.Paper.Report
import AutoTrader.Storage.Operations

namespace AutoTrader

open Relational AverageCost

/-- The tables `paper_orders` and `paper_fills`. -/
structure PaperJournal where
  orders : Table PaperOrderRow (·.orderId)
  fills : Table PaperFillRow (·.fillId)

/-- The arguments of `record_paper_buy` and `record_paper_sell`, with a quantity that is an `int`. -/
structure PaperRecord where
  orderId : String
  fillId : String
  signalId : String
  symbol : String
  quantity : Int
  price : Number
  createdAt : Option DateTime

/-- A `PositionState`, by what the journal fills in. -/
structure PaperPositionState where
  symbol : String
  quantity : Int
  avgPrice : PyFloat
deriving DecidableEq

namespace PaperJournal

def empty : PaperJournal := ⟨.empty, .empty⟩

/-! ### Positions -/

/-- `SUM(CASE WHEN side='BUY' THEN quantity ELSE -quantity END)`. -/
def signedQuantity (fills : List PaperFillRow) : Int :=
  (fills.map fun fill => if fill.side = "BUY" then fill.quantity else -fill.quantity).sum

/-- One row of the sum of the purchases. -/
def addBuyValue (sum : PyFloat) (fill : PaperFillRow) : PyFloat :=
  sum.plus (if fill.side = "BUY" then fill.price.times fill.quantity else .fin 0)

/-- `SUM(CASE WHEN side='BUY' THEN quantity * price ELSE 0 END)`. -/
def buyValue (fills : List PaperFillRow) : PyFloat := fills.foldl addBuyValue (.fin 0)

/-- `SUM(CASE WHEN side='BUY' THEN quantity ELSE 0 END)`. -/
def buyQuantity (fills : List PaperFillRow) : Int :=
  (fills.map fun fill => if fill.side = "BUY" then fill.quantity else 0).sum

variable (journal : PaperJournal)

/-- The fills of a symbol. -/
def fillsOf (symbol : String) : List PaperFillRow := journal.fills.rows.filter fun fill => fill.symbol = symbol

/-- The row of one group. -/
def positionOf (symbol : String) : PaperPositionState :=
  let fills := journal.fillsOf symbol
  ⟨symbol, signedQuantity fills,
    if buyQuantity fills = 0 then .fin 0 else (buyValue fills).dividedBy (buyQuantity fills)⟩

/-- `paper_positions`.  In `HAVING quantity > 0` the name is that of the column, not of the sum: SQLite
    takes it from a row of the group. -/
def paperPositions : List PaperPositionState :=
  let symbols := (journal.fills.rows.map (·.symbol)).dedup.insertionSort (· ≤ ·)
  (symbols.filter fun symbol => (journal.fillsOf symbol).head?.any fun fill => 0 < fill.quantity).map
    journal.positionOf

/-! ### Records -/

/-- The transaction of both methods: `INSERT OR IGNORE` of the order, then `INSERT` of the fill. -/
def insert (order : PaperOrderRow) (fill : PaperFillRow) : PaperJournal × Except Exn Bool :=
  -- a NaN is stored as NULL, and OR IGNORE skips a row without a price
  if (journal.orders.find? order.orderId).isSome ∨
      (journal.orders.rows.any fun other => other.signalId = order.signalId) ∨ order.price = .nan then
    (journal, .ok false)
  else if (journal.fills.find? fill.fillId).isSome ∨
      journal.fills.rows.any fun other => other.orderId = fill.orderId ∨ other.signalId = fill.signalId then
    (journal, .error (.integrityError "UNIQUE constraint failed: paper_fills"))
  else ({ orders := journal.orders.upsert order, fills := journal.fills.upsert fill }, .ok true)

/-- The rows of a record on one side. -/
def rowsOf (now : DateTime) (record : PaperRecord) (side : String) : PaperOrderRow × PaperFillRow :=
  let timestamp := (record.createdAt.getD now).isoformat
  (⟨record.orderId, record.signalId, record.symbol, side, record.quantity, record.price.value, "FILLED", timestamp⟩,
    ⟨record.fillId, record.orderId, record.signalId, record.symbol, side, record.quantity, record.price.value,
      timestamp⟩)

/-- `record_paper_buy`: the journal it leaves, also where it raises, and its answer. -/
def recordPaperBuy (now : DateTime) (record : PaperRecord) : PaperJournal × Except Exn Bool :=
  match validatePaperRecord record.symbol record.quantity record.price with
  | .error e => (journal, .error e)
  | .ok () =>
    let (order, fill) := rowsOf now record "BUY"
    journal.insert order fill

/-- `record_paper_sell`. -/
def recordPaperSell (now : DateTime) (record : PaperRecord) : PaperJournal × Except Exn Bool :=
  match validatePaperRecord record.symbol record.quantity record.price with
  | .error e => (journal, .error e)
  | .ok () =>
    if journal.orders.rows.any fun other => other.signalId = record.signalId then (journal, .ok false)
    else
      let position := journal.paperPositions.find? fun item => item.symbol = record.symbol
      if position.all fun position => position.quantity < record.quantity then
        (journal, .error (.valueError ("paper sell exceeds long position for " ++ record.symbol)))
      else
        let (order, fill) := rowsOf now record "SELL"
        journal.insert order fill

/-! ### Runs -/

inductive JournalCall where
  | buy (now : DateTime) (record : PaperRecord)
  | sell (now : DateTime) (record : PaperRecord)

/-- The journal that a call leaves. -/
def call : JournalCall → PaperJournal
  | .buy now record => (journal.recordPaperBuy now record).1
  | .sell now record => (journal.recordPaperSell now record).1

/-- The journal after a sequence of calls. -/
def after (calls : List JournalCall) : PaperJournal := calls.foldl call empty

variable {journal}

/-- A fill as the methods store it. -/
structure Recorded (fill : PaperFillRow) : Prop where
  side : fill.side = "BUY" ∨ fill.side = "SELL"
  positive : 0 < fill.quantity

theorem validatePaperRecord_ok {symbol : String} {quantity : Int} {price : Number}
    (h : validatePaperRecord symbol quantity price = .ok ()) : 0 < quantity := by
  unfold validatePaperRecord at h
  obtain ⟨_, -, h⟩ := Except.bind_eq_ok h
  split at h
  · cases h
  · rename_i hquantity
    exact not_le.mp hquantity

theorem insert_recorded (h : ∀ fill ∈ journal.fills.rows, Recorded fill) {order : PaperOrderRow} {fill : PaperFillRow}
    (hfill : Recorded fill) : ∀ other ∈ (journal.insert order fill).1.fills.rows, Recorded other := by
  unfold insert
  split
  · exact h
  split
  · exact h
  rename_i hfree
  have hnone : journal.fills.find? fill.fillId = none := by
    cases hfind : journal.fills.find? fill.fillId with
    | none => rfl
    | some found => exact absurd (.inl (by rw [hfind]; rfl)) hfree
  intro other hother
  have hrows : (journal.fills.upsert fill).rows = journal.fills.rows ++ [fill] := by
    rw [Table.upsert, hnone]
    exact (Table.insertOrIgnore_of_free hnone).2
  rw [hrows] at hother
  rcases List.mem_append.mp hother with hother | hother
  · exact h other hother
  · rw [List.mem_singleton.mp hother]
    exact hfill

theorem call_recorded (h : ∀ fill ∈ journal.fills.rows, Recorded fill) (journalCall : JournalCall) :
    ∀ fill ∈ (journal.call journalCall).fills.rows, Recorded fill := by
  cases journalCall with
  | buy now record =>
    show ∀ fill ∈ (journal.recordPaperBuy now record).1.fills.rows, Recorded fill
    unfold recordPaperBuy
    split
    · exact h
    · rename_i hvalid
      exact insert_recorded h ⟨.inl rfl, validatePaperRecord_ok hvalid⟩
  | sell now record =>
    show ∀ fill ∈ (journal.recordPaperSell now record).1.fills.rows, Recorded fill
    unfold recordPaperSell
    split
    · exact h
    · rename_i hvalid
      split
      · exact h
      · dsimp only
        split
        · exact h
        · exact insert_recorded h ⟨.inr rfl, validatePaperRecord_ok hvalid⟩

/-- Every fill of a journal was stored by one of the methods. -/
theorem after_recorded (calls : List JournalCall) : ∀ fill ∈ (after calls).fills.rows, Recorded fill := by
  have hrun : ∀ (calls : List JournalCall) (journal : PaperJournal),
      (∀ fill ∈ journal.fills.rows, Recorded fill) → ∀ fill ∈ (calls.foldl call journal).fills.rows, Recorded fill := by
    intro calls
    induction calls with
    | nil => exact fun _ h => h
    | cons journalCall rest ih => exact fun journal h => ih _ (call_recorded h journalCall)
  exact hrun calls empty fun fill hfill => absurd hfill List.not_mem_nil

end PaperJournal

end AutoTrader
