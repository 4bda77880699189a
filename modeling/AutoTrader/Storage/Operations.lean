/-
  AutoTrader/Storage/Operations.lean
  ==================================
  **The database methods as one alphabet of operations.**

  The pipelines talk to the database through the methods modelled here and in the
  two modules before it.  `Op` names each call with its arguments, `Op.run` is
  the call itself.  Every method is one transaction, so an interleaving of
  processes at the granularity of transactions is an interleaving of `Op`s, and a
  ledger state is reachable when some sequence of `Op`s leads to it.
-/
import AutoTrader.Storage.Positions

namespace AutoTrader

open Relational Transactional

/-! ### Metadata and audits -/

/-- `get_runtime_metadata`. -/
def Database.getRuntimeMetadata (db : Database) (key : String) : Option MetadataValue :=
  (db.runtimeMetadata.find? key).map (·.value)

def setRuntimeMetadata (now : DateTime) (key : String) (value : MetadataValue)
    (updatedAt : Option DateTime) : Tx Unit := do
  Exec.ofExcept (requireNonempty key "key")
  Exec.statement fun db =>
    ((), { db with runtimeMetadata := db.runtimeMetadata.upsert ⟨key, value, updatedAt.getD now⟩ })

structure AuditArgs where
  auditId : String
  signalId : Option String
  symbol : String
  side : String
  quantity : Int
  price : Number
  status : String
  reason : String
  brokerOrderId : Option String
  createdAt : Option DateTime

/-- `_validate_paper_record`, on a quantity that is an `int`. -/
def validatePaperRecord (symbol : String) (quantity : Int) (price : Number) : Except Exn Unit := do
  validateSymbol symbol
  if quantity ≤ 0 then .error (.valueError "quantity must be positive")
  else if price.nonpos then .error (.valueError "price must be positive")
  else .ok ()

/-- The order audit row, once the validation passed. -/
def auditRow (now : DateTime) (a : AuditArgs) : Except Exn BrokerOrderAudit := do
  validatePaperRecord a.symbol a.quantity a.price
  if a.auditId = "" ∨ a.side = "" ∨ a.status = "" ∨ a.reason = "" then
    .error (.valueError "audit_id, side, status, and reason are required")
  else
    .ok { auditId := a.auditId, signalId := a.signalId, symbol := a.symbol, side := a.side
          quantity := a.quantity, price := a.price, status := a.status, reason := a.reason
          brokerOrderId := a.brokerOrderId, createdAt := a.createdAt.getD now }

def recordBrokerOrderAudit (now : DateTime) (a : AuditArgs) : Tx Bool := do
  let row ← Exec.ofExcept (auditRow now a)
  -- SQLite stores a NaN as NULL, and OR IGNORE skips a row without a price
  if row.price.value = .nan then pure false
  else Exec.atomically (Exec.statement fun db =>
    ((db.brokerOrderAudits.insertOrIgnore row).2,
      { db with brokerOrderAudits := (db.brokerOrderAudits.insertOrIgnore row).1 }))

/-! ### The alphabet -/

/-- A call of a database method; `now` is the clock it reads for an omitted time. -/
inductive Op where
  | claimOrderIntent (now : DateTime) (a : IntentArgs)
  | markOrderSubmitting (now : DateTime) (clientOrderId : String) (updatedAt : Option DateTime)
  | recordOrderSubmission (now : DateTime) (clientOrderId brokerOrderId : String)
      (submittedAt : Option DateTime)
  | markOrderUnknown (now : DateTime) (clientOrderId : String) (error : Option String)
      (updatedAt : Option DateTime)
  | updateBrokerOrderStatus (now : DateTime) (clientOrderId : String) (u : StatusUpdate)
  | applyBrokerFill (now : DateTime) (a : FillArgs)
  | materializeOrderFills (now : DateTime) (a : MaterializeArgs)
  | setRuntimeMetadata (now : DateTime) (key : String) (value : MetadataValue)
      (updatedAt : Option DateTime)
  | recordBrokerOrderAudit (now : DateTime) (a : AuditArgs)

namespace Op

abbrev Reply : Op → Type
  | .claimOrderIntent .. => Bool
  | .markOrderSubmitting .. => Bool
  | .recordOrderSubmission .. => Bool
  | .markOrderUnknown .. => Bool
  | .updateBrokerOrderStatus .. => Bool
  | .applyBrokerFill .. => Bool
  | .materializeOrderFills .. => Nat
  | .setRuntimeMetadata .. => Unit
  | .recordBrokerOrderAudit .. => Bool

def run : (op : Op) → Tx op.Reply
  | .claimOrderIntent now a => AutoTrader.claimOrderIntent now a
  | .markOrderSubmitting now id at' => AutoTrader.markOrderSubmitting now id at'
  | .recordOrderSubmission now id broker at' => AutoTrader.recordOrderSubmission now id broker at'
  | .markOrderUnknown now id error at' => AutoTrader.markOrderUnknown now id error at'
  | .updateBrokerOrderStatus now id u => AutoTrader.updateBrokerOrderStatus now id u
  | .applyBrokerFill now a => AutoTrader.applyBrokerFill now a
  | .materializeOrderFills now a => AutoTrader.materializeOrderFills now a
  | .setRuntimeMetadata now key value at' => AutoTrader.setRuntimeMetadata now key value at'
  | .recordBrokerOrderAudit now a => AutoTrader.recordBrokerOrderAudit now a

/-- The outcome of a call and the database it leaves behind. -/
def call (op : Op) (db : Database) : Except Exn op.Reply × Database := op.run.run db

/-- The database a call leaves behind, whether it returned or raised. -/
def exec (op : Op) (db : Database) : Database := (op.call db).2

/-- A call raised. -/
def raises (op : Op) (db : Database) : Prop := ∃ e, (op.call db).1 = .error e

end Op

/-- The database after a sequence of calls. -/
def runOps (ops : List Op) (db : Database) : Database := ops.foldl (fun db op => op.exec db) db

theorem runOps_append (ops ops' : List Op) (db : Database) :
    runOps (ops ++ ops') db = runOps ops' (runOps ops db) :=
  List.foldl_append

/-- A property of the database that every call keeps holds after every sequence. -/
theorem runOps_inv {P : Database → Prop} (ops : List Op)
    (hstep : ∀ op ∈ ops, ∀ db, P db → P (op.exec db)) {db : Database} (h : P db) :
    P (runOps ops db) := by
  induction ops generalizing db with
  | nil => exact h
  | cons op rest ih =>
    exact ih (fun o ho => hstep o (List.mem_cons_of_mem _ ho)) (hstep op List.mem_cons_self db h)

end AutoTrader
