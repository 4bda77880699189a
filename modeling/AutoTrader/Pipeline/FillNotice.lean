/-
  AutoTrader/Pipeline/FillNotice.lean
  ===================================
  **The websocket channel: `apply_fill_notice`.**

  A notice can only update one already known local order.  The order row is read
  first, then the fills; the fill and its materialization are two transactions of
  their own.  A notice is identified by the SHA-256 of its fields, so that a
  redelivery finds its fill recorded.
-/
import AutoTrader.Lib.Sha256
import AutoTrader.Pipeline.Actions

namespace AutoTrader

open Relational Interleave

inductive NoticeKind where
  | filled
  | accepted
  | rejected
deriving DecidableEq

def NoticeKind.text : NoticeKind → String
  | .filled => "filled"
  | .accepted => "accepted"
  | .rejected => "rejected"

/-- A `FillNotice`, without the customer and account numbers, which nothing here
    reads. -/
structure FillNotice where
  kind : NoticeKind
  orderNo : String
  originalOrderNo : String
  orderQty : Int
  side : String
  symbol : String
  fillQty : Int
  fillPrice : Int
  fillTime : String
  receiptType : String
  orderKind : String
  rejectFlag : String
  acceptedFlag : String
  orderPrice : Int
  exchangeId : String
deriving DecidableEq

inductive NoticeOutcome where
  | applied
  | duplicate
  | blocked
  | ignored
  | acknowledged
  | rejected
deriving DecidableEq

structure FillNoticeApplyResult where
  outcome : NoticeOutcome
  blocked : Bool
  clientOrderId : Option String
  fillId : Option String
  materialized : Nat
  reason : Option String
deriving DecidableEq

/-! ### Pure parts -/

/-- `_received_at`; `now` is `datetime.now(timezone.utc)`. -/
def receivedAt (now : DateTime) : Option DateTime → DateTime
  | none => now
  | some value => if value.offset = none then { value with offset := some DateTime.kstOffset } else value

/-- `int(text)` on a text of digits. -/
def intOfDigits (text : String) : Except Exn Nat :=
  match Text.toNat? text with
  | some n => .ok n
  | none => .error (.valueError ("invalid literal for int() with base 10: '" ++ text ++ "'"))

/-- `_filled_at`.  The outer exception is the one `int()` raises on digits that
    are not decimal; the inner error is the blocking reason. -/
def filledAt (fillTime : String) (tradingDate : Option Int) (received : DateTime) :
    Except Exn (Except String DateTime) :=
  let today := received.toKst.date
  let date := tradingDate.getD today
  if today < date then .ok (.error "future_trading_date")
  else if fillTime.length ≠ 6 ∨ Text.isdigit fillTime = false then .ok (.error "invalid_fill_time")
  else do
    let hour ← intOfDigits (String.ofList (fillTime.toList.take 2))
    let minute ← intOfDigits (String.ofList ((fillTime.toList.drop 2).take 2))
    let second ← intOfDigits (String.ofList (fillTime.toList.drop 4))
    if hour < 24 ∧ minute < 60 ∧ second < 60 then
      let value := DateTime.combine date hour minute second (some DateTime.kstOffset)
      if received.toKst.instant < value.instant then .ok (.error "future_fill_time")
      else .ok (.ok value)
    else .ok (.error "invalid_fill_time")

/-- `{"02": "BUY", "01": "SELL"}.get(str(notice.side))`. -/
def noticeSide (side : String) : Option Side :=
  if side = "02" then some .buy else if side = "01" then some .sell else none

/-- `_public_identifier`. -/
def publicIdentifier (value : String) : Option String :=
  if value = "" ∨ 64 < value.length then none
  else if value.toList.any fun c => c.toNat < 32 || c.toNat == 127 then none
  else some value

/-- `_identity_mismatch`. -/
def identityMismatch (local' : BrokerOrder) (notice : FillNotice) (side : Side) : Option String :=
  if local'.symbol ≠ notice.symbol then some "symbol_mismatch"
  else if local'.side ≠ side then some "side_mismatch"
  else if (local'.requestedQty : Int) ≠ notice.orderQty then some "order_quantity_mismatch"
  else if notice.fillQty < 0 ∨ (notice.kind ≠ .filled ∧ notice.fillQty ≠ 0) then
    some "invalid_notice_quantity"
  else none

/-- The fields of a notice that identify it, joined as `_fill_id` hashes them. -/
def noticeText (n : FillNotice) : String :=
  "|".intercalate [n.kind.text, n.orderNo, n.originalOrderNo, toString n.orderQty, n.side, n.symbol,
    toString n.fillQty, toString n.fillPrice, n.fillTime, n.receiptType, n.orderKind, n.rejectFlag,
    n.acceptedFlag, toString n.orderPrice, n.exchangeId]

/-- `_fill_id`. -/
@[irreducible] def noticeFillId (n : FillNotice) : String := "kis:fill:" ++ Sha256.hexdigest (noticeText n)

/-- `_SAFE_CODE.fullmatch(reason)`. -/
def safeCode (reason : String) : Bool :=
  reason ≠ "" && reason.toList.all fun c => c.isLower || c.isDigit || c == '_'

/-- `_safe_reason`. -/
def safeReason (exn : Exn) : String :=
  let reason := "fill_apply_" ++ String.ofList (exn.typeName.toList.map Char.toLower)
  if safeCode reason then reason else "fill_apply_failed"

/-! ### Entry risk -/

/-- The risk terms of an entry, as stored with its decision. -/
structure EntryRisk where
  stopLossPrice : PyFloat
  takeProfitPrice : PyFloat
  maxHoldingSeconds : Int

/-- The row conditions of `_entry_risk`. -/
def entryRiskOf (row : AiDecisionAudit) : Option EntryRisk :=
  match row.stopLossPrice, row.takeProfitPrice, row.maxHoldingSeconds with
  | some stop, some take, some holding =>
    if PyFloat.lt (.fin 0) stop ∧ PyFloat.lt (.fin 0) take ∧ stop.lt take ∧ 0 < holding then
      some ⟨stop, take, holding⟩
    else none
  | _, _, _ => none

/-- `_entry_risk`. -/
def entryRisk (local' : BrokerOrder) : Pipeline (Option EntryRisk) :=
  if truthy local'.signalId then
    select fun db => (db.aiDecisionAudits.find? (local'.signalId.getD "")).bind entryRiskOf
  else pure none

/-- The risk terms a fill needs: none for a SELL. -/
def riskFor (side : Side) (local' : BrokerOrder) : Pipeline (Option EntryRisk) :=
  if side = .buy then entryRisk local' else pure none

/-- `materialize_order_fills(client_order_id, **risk, close_reason="broker_fill")`. -/
def materializeArgs (clientOrderId : String) (risk : Option EntryRisk) : MaterializeArgs where
  clientOrderId := clientOrderId
  stopLossPrice := risk.map fun r => .float r.stopLossPrice
  takeProfitPrice := risk.map fun r => .float r.takeProfitPrice
  maxHoldingSeconds := risk.map fun r => .int r.maxHoldingSeconds
  closeReason := "broker_fill"

/-! ### Outcomes -/

/-- `_blocked`. -/
def blockNotice (now : DateTime) (reason : String) (clientOrderId fillId : Option String) :
    Pipeline FillNoticeApplyResult := do
  let reason := if safeCode reason then reason else "fill_notice_blocked"
  setFlag now "operator_review" "true"
  setFlag now "block_new_entries" "true"
  setFlag now "fill_notice.last_reason" reason
  pure ⟨.blocked, true, clientOrderId, fillId, 0, some reason⟩

/-- The status update of an acceptance or a rejection. -/
def noticeStatus (now : DateTime) (status : OrderStatus) : StatusUpdate where
  status := status
  brokerOrderId := none
  filledQty := none
  avgFillPrice := none
  error := none
  updatedAt := some now
  completedAt := none

/-- `_apply_accepted`. -/
def applyAccepted (now : DateTime) (local' : BrokerOrder) (existingFills : Nat) :
    Pipeline FillNoticeApplyResult := do
  let id := local'.clientOrderId
  if local'.filledQty < existingFills then
    blockNotice now "fill_ledger_inconsistent" (some id) none
  else if local'.status = .cancelPending then pure ⟨.ignored, false, some id, none, 0, none⟩
  else if (local'.status = .partiallyFilled ∨ local'.status = .filled) ∧ 0 < local'.filledQty then
    pure ⟨.ignored, false, some id, none, 0, none⟩
  else if local'.status = .unknown then
    blockNotice now "accepted_after_unknown_order" (some id) none
  else if local'.status.terminal then
    blockNotice now "accepted_after_terminal_order" (some id) none
  else if local'.filledQty ≠ 0 then
    blockNotice now "accepted_fill_regression" (some id) none
  else if local'.status ≠ .acknowledged then
    match ← Raising.attempt (execute (.updateBrokerOrderStatus now id (noticeStatus now .acknowledged)))
      with
    | .ok _ => pure ⟨.acknowledged, false, some id, none, 0, none⟩
    | .error _ => blockNotice now "accepted_status_update_failed" (some id) none
  else pure ⟨.acknowledged, false, some id, none, 0, none⟩

/-- `_apply_rejected`. -/
def applyRejected (now : DateTime) (local' : BrokerOrder) (existingFills : Nat) :
    Pipeline FillNoticeApplyResult := do
  let id := local'.clientOrderId
  if local'.filledQty ≠ 0 ∨ existingFills ≠ 0 then
    blockNotice now "rejected_order_has_fills" (some id) none
  else if local'.status = .rejected then pure ⟨.rejected, false, some id, none, 0, none⟩
  else if local'.status.terminal ∨ local'.status = .unknown then
    blockNotice now "rejected_after_terminal_order" (some id) none
  else
    match ← Raising.attempt (execute (.updateBrokerOrderStatus now id (noticeStatus now .rejected)))
      with
    | .ok _ => pure ⟨.rejected, false, some id, none, 0, none⟩
    | .error _ => blockNotice now "rejected_status_update_failed" (some id) none

/-- `_materialize_if_needed`. -/
def materializeIfNeeded (now : DateTime) (local' : BrokerOrder) (side : Side) (fillId : String) :
    Pipeline (Option Nat) := do
  if ← select fun db => (db.fillApplications.find? fillId).isSome then pure (some 0)
  else
    let risk ← riskFor side local'
    if side = .buy ∧ risk.isNone then pure none
    else
      match ← Raising.attempt (execute (.materializeOrderFills now
          (materializeArgs local'.clientOrderId risk))) with
      | .ok n => pure (some n)
      | .error _ => pure none

/-- The arguments of the fill a notice books. -/
def noticeFillArgs (notice : FillNotice) (side : Side) (clientOrderId orderNo : String)
    (filledAt received : DateTime) : FillArgs where
  fillId := noticeFillId notice
  clientOrderId := clientOrderId
  quantity := .int notice.fillQty
  price := .float (.fin notice.fillPrice)
  filledAt := filledAt
  brokerOrderId := some orderNo
  symbol := some notice.symbol
  side := some side.name
  createdAt := some received

/-- Book the fill and apply it to the position: two transactions. -/
def bookNotice (now : DateTime) (args : FillArgs) (risk : Option EntryRisk) :
    Pipeline FillNoticeApplyResult := do
  let inserted ← execute (.applyBrokerFill now args)
  if !inserted then pure ⟨.duplicate, false, some args.clientOrderId, some args.fillId, 0, none⟩
  else
    let n ← execute (.materializeOrderFills now (materializeArgs args.clientOrderId risk))
    pure ⟨.applied, false, some args.clientOrderId, some args.fillId, n, none⟩

/-- The execution branch, once the order was found and identified. -/
def applyExecution (now received : DateTime) (notice : FillNotice) (side : Side)
    (orderNo : String) (filledAt : DateTime) (local' : BrokerOrder) :
    Pipeline FillNoticeApplyResult := do
  let id := local'.clientOrderId
  let fillId := noticeFillId notice
  if ← select fun db => (db.brokerFills.find? fillId).isSome then
    match ← materializeIfNeeded now local' side fillId with
    | none => blockNotice received "missing_entry_risk_metadata" (some id) (some fillId)
    | some n => pure ⟨.duplicate, false, some id, some fillId, n, none⟩
  else if notice.fillQty ≤ 0 ∨ notice.fillPrice ≤ 0 then
    blockNotice received "invalid_fill_values" (some id) none
  else if (local'.requestedQty : Int) < local'.filledQty + notice.fillQty then
    blockNotice received "fill_quantity_overflow" (some id) none
  else if local'.status = .cancelled ∨ local'.status = .rejected then
    blockNotice received "fill_after_terminal_order" (some id) none
  else
    let risk ← riskFor side local'
    if side = .buy ∧ risk.isNone then
      blockNotice received "missing_entry_risk_metadata" (some id) (some fillId)
    else
      match ← Raising.attempt
          (bookNotice now (noticeFillArgs notice side id orderNo filledAt received) risk) with
      | .ok result => pure result
      | .error e => blockNotice received (safeReason e) (some id) (some fillId)

/-- `apply_fill_notice`; `now` is the clock of every omitted time. -/
def applyFillNotice (now : DateTime) (notice : FillNotice) (tradingDate : Option Int)
    (received' : Option DateTime) : Pipeline FillNoticeApplyResult := do
  let received := receivedAt now received'
  match ← reraise (filledAt notice.fillTime tradingDate received) with
  | .error reason => blockNotice received reason none none
  | .ok filledAt =>
    match noticeSide notice.side with
    | none => blockNotice received "invalid_side_code" none none
    | some side =>
      match publicIdentifier notice.orderNo with
      | none => blockNotice received "invalid_broker_order_id" none none
      | some orderNo => do
        match ← selectOrders fun db =>
            db.brokerOrders.rows.filter fun o => o.brokerOrderId = some orderNo with
        | [] => blockNotice received "broker_order_not_found" none none
        | _ :: _ :: _ => blockNotice received "broker_order_ambiguous" none none
        | [local'] =>
          match identityMismatch local' notice side with
          | some mismatch => blockNotice received mismatch (some local'.clientOrderId) none
          | none => do
            let existingFills ← select fun db =>
              ((db.fillsOf local'.clientOrderId).map (·.quantity)).sum
            match notice.kind with
            | .accepted => applyAccepted received local' existingFills
            | .rejected => applyRejected received local' existingFills
            | .filled => applyExecution now received notice side orderNo filledAt local'

end AutoTrader
