/-
  AutoTrader/Storage/Schema.lean
  ==============================
  **The tables of the trading database.**

  One structure per table of `SCHEMA` that the order and position ledgers use.
  The CHECK constraints that survive validation are fields of the rows (a
  requested quantity is positive, a fill has a positive quantity and price), and
  PRIMARY KEY is a field of `Relational.Table`, so a row or a table that SQLite
  would refuse cannot be built.  Quantities are natural numbers and prices exact
  rationals: the 64-bit range of INTEGER and the rounding of REAL are not
  modelled.
-/
import AutoTrader.Lib.Table
import AutoTrader.Python.Values
import AutoTrader.Python.Time
import Mathlib.Data.List.Sort

namespace AutoTrader

open Relational

inductive Side where
  | buy
  | sell
deriving DecidableEq

/-- The text the column `side` holds. -/
def Side.name : Side → String
  | .buy => "BUY"
  | .sell => "SELL"

/-- `side.upper()`, when it is one of the two texts the CHECK admits. -/
def Side.parse? (side : String) : Option Side :=
  let normalized := String.ofList (side.toList.map Text.upperChar)
  if normalized = "BUY" then some .buy else if normalized = "SELL" then some .sell else none

/-- `BROKER_ORDER_STATUSES`. -/
inductive OrderStatus where
  | intent
  | submitting
  | acknowledged
  | partiallyFilled
  | filled
  | cancelPending
  | cancelled
  | rejected
  | unknown
deriving DecidableEq

namespace OrderStatus

def name : OrderStatus → String
  | .intent => "INTENT"
  | .submitting => "SUBMITTING"
  | .acknowledged => "ACKNOWLEDGED"
  | .partiallyFilled => "PARTIALLY_FILLED"
  | .filled => "FILLED"
  | .cancelPending => "CANCEL_PENDING"
  | .cancelled => "CANCELLED"
  | .rejected => "REJECTED"
  | .unknown => "UNKNOWN"

/-- `TERMINAL_BROKER_ORDER_STATUSES`; every other status is an active one. -/
def terminal : OrderStatus → Bool
  | .filled => true
  | .cancelled => true
  | .rejected => true
  | _ => false

end OrderStatus

structure BrokerOrder where
  clientOrderId : String
  signalId : Option String
  symbol : String
  side : Side
  requestedQty : Nat
  requestedPrice : PosRat
  status : OrderStatus
  brokerOrderId : Option String
  filledQty : Nat
  avgFillPrice : Option ℚ
  createdAt : DateTime
  updatedAt : DateTime
  submittedAt : Option DateTime
  completedAt : Option DateTime
  error : Option String
  requestedQty_pos : 0 < requestedQty
deriving DecidableEq

structure BrokerFill where
  fillId : String
  clientOrderId : String
  brokerOrderId : Option String
  symbol : String
  side : Side
  quantity : Nat
  price : PosRat
  filledAt : DateTime
  createdAt : DateTime
  quantity_pos : 0 < quantity
deriving DecidableEq

inductive PositionStatus where
  | open
  | closed
deriving DecidableEq

structure LivePosition where
  positionId : String
  signalId : String
  symbol : String
  quantity : Nat
  entryPrice : ℚ
  stopLossPrice : PosRat
  takeProfitPrice : PosRat
  openedAt : DateTime
  status : PositionStatus
  entryBrokerOrderId : Option String
  exitBrokerOrderId : Option String
  closedAt : Option DateTime
  closeReason : Option String
  maxHoldingSeconds : Option Nat
deriving DecidableEq

/-- A row of `live_position_fill_applications`. -/
structure FillApplication where
  fillId : String
  clientOrderId : String
  appliedAt : DateTime
deriving DecidableEq

/-- The columns of `ai_decision_audits` that the trading code reads back. -/
structure AiDecisionAudit where
  decisionId : String
  symbol : String
  action : String
  confidence : PyFloat
  entryPrice : Option PyFloat
  takeProfitPrice : Option PyFloat
  stopLossPrice : Option PyFloat
  maxHoldingSeconds : Option Int
deriving DecidableEq

/-- What a `runtime_metadata` value holds: a plain text, or the text of a JSON
    object with these string members (a member may be null). -/
inductive MetadataValue where
  | text (value : String)
  | object (members : List (String × Option String))
deriving DecidableEq

structure MetadataRow where
  key : String
  value : MetadataValue
  updatedAt : DateTime
deriving DecidableEq

structure BrokerOrderAudit where
  auditId : String
  signalId : Option String
  symbol : String
  side : String
  quantity : Int
  price : Number
  status : String
  reason : String
  brokerOrderId : Option String
  createdAt : DateTime
deriving DecidableEq

structure ServiceLease where
  leaseName : String
  ownerId : String
  acquiredAt : DateTime
  renewedAt : DateTime
  expiresAt : TimeText
deriving DecidableEq

/-- The texts the column `status` of `approval_requests` holds. -/
inductive ApprovalStatus where
  | pending
  | approved
  | rejected
  | expired
  | consuming
  | executed
  | failed
deriving DecidableEq

def ApprovalStatus.name : ApprovalStatus → String
  | .pending => "PENDING"
  | .approved => "APPROVED"
  | .rejected => "REJECTED"
  | .expired => "EXPIRED"
  | .consuming => "CONSUMING"
  | .executed => "EXECUTED"
  | .failed => "FAILED"

structure ApprovalRequest where
  requestId : String
  symbol : String
  decisionId : Option String
  reason : String
  status : ApprovalStatus
  createdAt : DateTime
  resolvedAt : Option DateTime
  expiresAt : Option DateTime
  resolvedBy : Option String
  consumedAt : Option DateTime
  signalId : Option String
  quantity : Option Nat
  entryPrice : Option PosRat
  takeProfitPrice : Option PosRat
  stopLossPrice : Option PosRat
  maxHoldingSeconds : Option Int
deriving DecidableEq

structure WatchlistSymbol where
  symbol : String
  enabled : Bool
  addedAt : DateTime
deriving DecidableEq

/-- The single row of `runtime_control`. -/
structure RuntimeControl where
  paused : Bool
  environment : String
  updatedAt : DateTime
  reason : String
  source : String
deriving DecidableEq

/-- The tables the order and position ledgers work on. -/
structure Database where
  brokerOrders : Table BrokerOrder BrokerOrder.clientOrderId
  brokerFills : Table BrokerFill BrokerFill.fillId
  livePositions : Table LivePosition LivePosition.positionId
  fillApplications : Table FillApplication FillApplication.fillId
  aiDecisionAudits : Table AiDecisionAudit AiDecisionAudit.decisionId
  runtimeMetadata : Table MetadataRow MetadataRow.key
  brokerOrderAudits : Table BrokerOrderAudit BrokerOrderAudit.auditId
  serviceLeases : Table ServiceLease ServiceLease.leaseName
  approvalRequests : Table ApprovalRequest ApprovalRequest.requestId
  runtimeControl : Option RuntimeControl
  watchlist : Table WatchlistSymbol WatchlistSymbol.symbol

/-- A database right after `init_schema`. -/
def Database.empty : Database where
  brokerOrders := .empty
  brokerFills := .empty
  livePositions := .empty
  fillApplications := .empty
  aiDecisionAudits := .empty
  runtimeMetadata := .empty
  brokerOrderAudits := .empty
  serviceLeases := .empty
  approvalRequests := .empty
  runtimeControl := some
    { paused := true, environment := "demo", updatedAt := ⟨0, some 0⟩
      reason := "default_paused", source := "database_init" }
  watchlist := .empty

namespace Database

/-- The fills of one order. -/
def fillsOf (db : Database) (clientOrderId : String) : List BrokerFill :=
  db.brokerFills.rows.filter fun f => f.clientOrderId = clientOrderId

/-- `LEFT JOIN live_position_fill_applications ... WHERE a.fill_id IS NULL`. -/
def unapplied (db : Database) (f : BrokerFill) : Bool :=
  (db.fillApplications.find? f.fillId).isNone

/-- The rows of `live_positions` that are OPEN for a symbol. -/
def openPositions (db : Database) (symbol : String) : List LivePosition :=
  db.livePositions.rows.filter fun p => p.symbol = symbol ∧ p.status = .open

end Database

/-- `ORDER BY` on two columns of text. -/
def orderedBy {R : Type} (first second : R → String) (rows : List R) : List R :=
  rows.insertionSort fun a b =>
    first a < first b ∨ (first a = first b ∧ second a ≤ second b)

end AutoTrader
