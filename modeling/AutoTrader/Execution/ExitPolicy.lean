/-
  AutoTrader/Execution/ExitPolicy.lean
  ====================================
  **The policy of a protective SELL and the life cycle of its order.**

  `ExitPolicy` prices a SELL limit order within a slippage cap.  `ExitOrderLifecycle`
  is the state of one order and of the chain of orders that replace it: broker reports
  move it, and a replacement intent is created from CANCELLED or REJECTED only.

  A lifecycle is an immutable value whose `__post_init__` runs for each copy that
  `replace` makes, so every transition ends in `postInit`.
-/
import AutoTrader.Pipeline.EntryRules
import Mathlib.Algebra.Order.Ring.Star
import Mathlib.Data.Int.ConditionallyCompleteOrder
import Mathlib.Data.Int.Star
import Mathlib.Data.Rat.Star
import Mathlib.Tactic.NormNum

namespace AutoTrader

namespace Text

/-- `str.upper` of a character whose upper case is ASCII.  The upper case of every other
    one has a character that is not. -/
def upperChars (c : Char) : List Char :=
  match c.toNat with
  | 0xdf => ['S', 'S']
  | 0x131 => ['I']
  | 0x17f => ['S']
  | 0xfb00 => ['F', 'F']
  | 0xfb01 => ['F', 'I']
  | 0xfb02 => ['F', 'L']
  | 0xfb03 => ['F', 'F', 'I']
  | 0xfb04 => ['F', 'F', 'L']
  | 0xfb05 => ['S', 'T']
  | 0xfb06 => ['S', 'T']
  | _ => [c.toUpper]

/-- `text.strip().upper()`, compared with words of ASCII letters. -/
def stripUpper (text : String) : String := String.ofList ((strip text).toList.flatMap upperChars)

end Text

/-- An `ExitPolicyError`, a `ValueError` of its own class. -/
def exitPolicyError (message : String) : Exn := .other "ExitPolicyError" message

/-! ### Validation -/

/-- `_decimal`, on a number. -/
def exitDecimal (value : Number) (name : String) (positive : Bool) : Except Exn ℚ :=
  let qualifier := if positive then "positive" else "non-negative"
  let refused : Except Exn ℚ :=
    .error (exitPolicyError (name ++ " must be a finite " ++ qualifier ++ " number"))
  match value with
  | .bool _ => .error (exitPolicyError (name ++ " must be a finite number"))
  | .int n => if (if positive then n ≤ 0 else n < 0) then refused else .ok n
  | .float (.fin q) => if (if positive then q ≤ 0 else q < 0) then refused else .ok q
  | .float _ => refused

/-- `_symbol`: the stripped text. -/
def exitSymbol (value : String) : Except Exn String :=
  let symbol := Text.strip value
  if symbol.length ≠ 6 ∨ Text.isdigit symbol = false then
    .error (exitPolicyError "symbol must be a six-digit domestic stock code")
  else .ok symbol

/-- A tick rule: what it returns or raises for a price. -/
abbrev TickSizeFn := ℚ → Except Exn Number

/-- `krx_tick_size`, the default rule. -/
def krxTickRule : TickSizeFn := fun price =>
  if price ≤ 0 then .error (.valueError "price must be a finite positive number")
  else .ok (.int (krxTickSize price))

/-- `_tick_floor`: the price, and its tick. -/
def tickFloor (price : ℚ) (tickSizeFn : TickSizeFn) : Except Exn (Int × Int) :=
  match tickSizeFn price with
  | .error _ => .error (exitPolicyError "KRX tick rule failed")
  | .ok (.int tick) =>
    if tick ≤ 0 then .error (exitPolicyError "KRX tick rule returned an invalid tick")
    else
      let normalized := (price / tick).floor * tick
      if normalized ≤ 0 then .error (exitPolicyError "normalized SELL price is invalid")
      else .ok (normalized, tick)
  | .ok _ => .error (exitPolicyError "KRX tick rule returned an invalid tick")

/-- `_validate_order_type`. -/
def validateOrderType (orderType : String) (allowMarketOrder : Bool) : Except Exn String :=
  let normalized := Text.stripUpper orderType
  if normalized = "LIMIT" then .ok normalized
  else if normalized = "MARKET" then
    if allowMarketOrder then .ok normalized
    else .error (exitPolicyError "market orders are disabled by exit policy")
  else .error (exitPolicyError "exit order type must be LIMIT")

/-! ### The policy -/

/-- An `ExitPolicyConfig` that its `__post_init__` lets through. -/
structure ExitPolicyConfig where
  maxSlippageBps : ℚ := 50
  maxRequotes : ℕ := 3
  requoteIntervalSeconds : ℚ := 5
  closeUrgencySeconds : ℚ := 30
  minQuantity : Int := 1
  maxQuantity : Int := 1000000
  allowMarketOrder : Bool := false
  slippage_nonneg : 0 ≤ maxSlippageBps := by norm_num
  slippage_lt : maxSlippageBps < 10000 := by norm_num
  interval_pos : 0 < requoteIntervalSeconds := by norm_num
  urgency_nonneg : 0 ≤ closeUrgencySeconds := by norm_num
  minQuantity_pos : 0 < minQuantity := by norm_num
  min_le_max : minQuantity ≤ maxQuantity := by norm_num

structure ExitQuote where
  bid : Option Number
  ask : Option Number
  currentPrice : Option Number

namespace ExitQuote

variable (quote : ExitQuote)

def bidPrice : Except Exn ℚ :=
  match quote.bid with
  | none => .error (exitPolicyError "latest bid is required for a marketable SELL limit")
  | some bid => exitDecimal bid "bid" true

/-- The current price, or the bid where there is none. -/
def currentOr (bid : ℚ) : Except Exn ℚ :=
  match quote.currentPrice with
  | some current => exitDecimal current "current_price" true
  | none => .ok bid

def askPrice : Except Exn (Option ℚ) :=
  match quote.ask with
  | some ask => (exitDecimal ask "ask" true).map some
  | none => .ok none

end ExitQuote

structure SellLimitPlan where
  price : Int
  tickSize : Int
  slippageBps : ℚ
  source : String
  urgent : Bool
deriving DecidableEq

structure ExitPolicy where
  config : ExitPolicyConfig := {}
  tickSizeFn : TickSizeFn := krxTickRule

/-- A time as a caller gives it: a `datetime`, something `float` reads, or something it
    does not read. -/
inductive IntentTime where
  | datetime (t : DateTime)
  | number (x : PyFloat)
  | other
deriving DecidableEq

/-- `now - last` in seconds when it is finite; `none` where the subtraction raises. -/
def elapsedSeconds (last now : IntentTime) : Option ℚ :=
  match last, now with
  | .datetime last, .datetime now =>
    if last.offset.isNone = now.offset.isNone then
      some ((now.instant - last.instant) / DateTime.microsPerSecond)
    else none
  | .number (.fin last), .number (.fin now) => some (now - last)
  | _, _ => none

/-- A `SellOrderIntent`; its side is SELL and its order type LIMIT. -/
structure SellOrderIntent where
  symbol : String
  quantity : Int
  price : Int
  reason : String
  requoteCount : Int
  replacementOf : Option String
  urgent : Bool
deriving DecidableEq

/-- `SellOrderIntent.__post_init__`. -/
def SellOrderIntent.postInit (intent : SellOrderIntent) : Except Exn SellOrderIntent := do
  if (← exitSymbol intent.symbol) ≠ intent.symbol then
    .error (exitPolicyError "symbol must be a six-digit domestic stock code")
  else if intent.quantity ≤ 0 then .error (exitPolicyError "quantity must be a positive integer")
  else if intent.price ≤ 0 then .error (exitPolicyError "price must be a positive integer")
  else if intent.requoteCount < 0 then
    .error (exitPolicyError "requote_count must be a non-negative integer")
  else .ok intent

namespace ExitPolicy

variable (policy : ExitPolicy)

def isCloseUrgent (secondsToClose : Option Number) : Except Exn Bool :=
  match secondsToClose with
  | none => .ok false
  | some seconds => do
    .ok (decide ((← exitDecimal seconds "seconds_to_close" false) ≤ policy.config.closeUrgencySeconds))

def intervalElapsed (lastIntentAt now : Option IntentTime) : Bool :=
  match lastIntentAt, now with
  | some last, some now =>
    match elapsedSeconds last now with
    | some elapsed => policy.config.requoteIntervalSeconds ≤ elapsed
    | none => false
  | _, _ => false

def planSellLimit (quote : ExitQuote) (secondsToClose : Option Number) : Except Exn SellLimitPlan := do
  let bid ← quote.bidPrice
  let current ← quote.currentOr bid
  let ask ← quote.askPrice
  if ask.any (· < bid) then .error (exitPolicyError "crossed quote: bid must not exceed ask")
  else do
    let (price, tick) ← tickFloor bid policy.tickSizeFn
    let maxLossPrice := current * (1 - policy.config.maxSlippageBps / 10000)
    if (price : ℚ) < maxLossPrice then .error (exitPolicyError "SELL price exceeds max slippage")
    else do
      let actualSlippage := max 0 ((current - price) / current * 10000)
      let urgent ← policy.isCloseUrgent secondsToClose
      .ok ⟨price, tick, actualSlippage, "bid", urgent⟩

def createSellIntent (symbol : String) (quantity : Int) (quote : ExitQuote) (reason : String)
    (requoteCount : Int) (replacementOf : Option String) (secondsToClose : Option Number)
    (orderType : String) : Except Exn SellOrderIntent := do
  let _ ← exitSymbol symbol
  if quantity < policy.config.minQuantity ∨ policy.config.maxQuantity < quantity then
    .error (exitPolicyError "quantity is outside exit policy bounds")
  else if requoteCount < 0 ∨ policy.config.maxRequotes < requoteCount then
    .error (exitPolicyError "requote_count is outside exit policy bounds")
  else do
    let _ ← validateOrderType orderType policy.config.allowMarketOrder
    let plan ← policy.planSellLimit quote secondsToClose
    let stripped := Text.strip reason
    SellOrderIntent.postInit
      { symbol := symbol, quantity := quantity, price := plan.price
        reason := if stripped = "" then "exit" else stripped
        requoteCount := requoteCount, replacementOf := replacementOf, urgent := plan.urgent }

end ExitPolicy

/-! ### The life cycle -/

inductive ExitOrderState where
  | submitted
  | stale
  | cancelPending
  | cancelled
  | rejected
  | filled
  | unknown
  | operatorReview
  | replacementIntentCreated
deriving DecidableEq

structure ExitOrderLifecycle where
  orderId : String
  symbol : String
  requestedQuantity : Int
  state : ExitOrderState
  filledQuantity : Int
  remainingQuantity : Int
  requoteCount : Int
  lastIntentAt : Option IntentTime
deriving DecidableEq

inductive ExitAction where
  | wait
  | operatorReview
  | cancelRequired
  | cancel
  | terminalConfirmed
  | done
  | createReplacementIntent
deriving DecidableEq

structure ExitTransition where
  lifecycle : ExitOrderLifecycle
  action : ExitAction
  reason : String
  intent : Option SellOrderIntent := none
  operatorReview : Bool := false
deriving DecidableEq

/-- A quantity of a report: an `int`, a `bool`, another number, or a value of a type
    that has no difference with an `int`. -/
inductive ReportQuantity where
  | int (n : Int)
  | bool (b : Bool)
  | number
  | other (typeName : String)
deriving DecidableEq

/-- `requested - quantity`. -/
def ReportQuantity.subFrom (requested : Int) : ReportQuantity → Except Exn ReportQuantity
  | .int n => .ok (.int (requested - n))
  | .bool b => .ok (.int (requested - b.toNat))
  | .number => .ok .number
  | .other typeName => .error
      (.typeError ("unsupported operand type(s) for -: 'int' and '" ++ typeName ++ "'"))

/-- How `observe_broker_status` reads a status. -/
inductive BrokerStatus where
  | unclear
  | working
  | terminal (state : ExitOrderState)
  | unrecognized
deriving DecidableEq

def readBrokerStatus (status : String) : BrokerStatus :=
  let normalized := Text.stripUpper status
  if normalized ∈ ["TIMEOUT", "UNKNOWN", "ERROR", "UNAVAILABLE"] then .unclear
  else if normalized ∈ ["UNFILLED", "PARTIALLY_FILLED", "ACKNOWLEDGED", "CANCEL_PENDING"] then .working
  else if normalized = "CANCELLED" then .terminal .cancelled
  else if normalized = "REJECTED" then .terminal .rejected
  else if normalized = "FILLED" then .terminal .filled
  else .unrecognized

/-- The status and the quantities of a broker report. -/
structure BrokerReport where
  status : String
  filledQuantity : Option ReportQuantity
  remainingQuantity : Option ReportQuantity
deriving DecidableEq

/-- The two quantities of a report, one of them from the other where only one is given. -/
def reportQuantities (requested : Int) (filled remaining : Option ReportQuantity) :
    Except Exn (Option (ReportQuantity × ReportQuantity)) :=
  match filled, remaining with
  | none, none => .ok none
  | none, some remaining => do .ok (some (← remaining.subFrom requested, remaining))
  | some filled, none => do .ok (some (filled, ← filled.subFrom requested))
  | some filled, some remaining => .ok (some (filled, remaining))

/-- Two `int` quantities that are not negative and add up to the requested one. -/
def reconcileQuantities (requested : Int) : ReportQuantity × ReportQuantity → Option (Int × Int)
  | (.int filled, .int remaining) =>
    if filled < 0 ∨ remaining < 0 ∨ filled + remaining ≠ requested then none else some (filled, remaining)
  | _ => none

/-- The lower-case name in the reason of a confirmed terminal state. -/
def terminalReason : ExitOrderState → String
  | .cancelled => "cancelled_confirmed"
  | .rejected => "rejected_confirmed"
  | _ => "filled_confirmed"

namespace ExitOrderLifecycle

/-- `__post_init__`, once an omitted remaining quantity has been computed. -/
def postInit (l : ExitOrderLifecycle) : Except Exn ExitOrderLifecycle := do
  if Text.blank l.orderId then .error (exitPolicyError "order_id is required")
  else do
    let _ ← exitSymbol l.symbol
    if l.requestedQuantity ≤ 0 then
      .error (exitPolicyError "requested_quantity must be a positive integer")
    else if l.filledQuantity < 0 then
      .error (exitPolicyError "filled_quantity must be a non-negative integer")
    else if l.remainingQuantity < 0 then
      .error (exitPolicyError "remaining_quantity must be a non-negative integer")
    else if l.filledQuantity + l.remainingQuantity ≠ l.requestedQuantity then
      .error (exitPolicyError "filled and remaining quantities must reconcile")
    else if l.requoteCount < 0 then
      .error (exitPolicyError "requote_count must be a non-negative integer")
    else .ok l

variable (l : ExitOrderLifecycle)

def markStale : Except Exn ExitTransition :=
  match l.state with
  | .unknown | .operatorReview =>
    .ok { lifecycle := l, action := .operatorReview, reason := "unknown_order_no_action"
          operatorReview := true }
  | .cancelPending =>
    .ok { lifecycle := l, action := .wait, reason := "cancel_pending_no_duplicate_cancel" }
  | .cancelled | .rejected | .filled =>
    .ok { lifecycle := l, action := .wait, reason := "terminal_order_no_action" }
  | .stale => .ok { lifecycle := l, action := .wait, reason := "stale_cancel_not_yet_requested" }
  | .submitted | .replacementIntentCreated => do
    let stale ← postInit { l with state := .stale }
    .ok { lifecycle := stale, action := .cancelRequired, reason := "stale_sell" }

def markCancelPending : Except Exn ExitTransition :=
  match l.state with
  | .cancelPending =>
    .ok { lifecycle := l, action := .wait, reason := "cancel_pending_no_duplicate_cancel" }
  | .stale => do
    let pending ← postInit { l with state := .cancelPending }
    .ok { lifecycle := pending, action := .cancel, reason := "cancel_requested" }
  | _ =>
    .ok { lifecycle := l, action := .operatorReview, reason := "cancel_requires_stale_state"
          operatorReview := true }

/-- The transition to UNKNOWN. -/
def toUnknown (reason : String) : Except Exn ExitTransition := do
  let unknown ← postInit { l with state := .unknown }
  .ok { lifecycle := unknown, action := .operatorReview, reason := reason, operatorReview := true }

/-- A report of an order that still works. -/
def observeWorking (quantities : Option (ReportQuantity × ReportQuantity)) : Except Exn ExitTransition :=
  match quantities with
  | none => .ok { lifecycle := l, action := .wait, reason := "terminal_confirmation_required" }
  | some quantities =>
    match reconcileQuantities l.requestedQuantity quantities with
    | none => l.toUnknown "broker_quantity_mismatch"
    | some (filled, remaining) => do
      let updated ← postInit { l with filledQuantity := filled, remainingQuantity := remaining }
      .ok { lifecycle := updated, action := .wait, reason := "terminal_confirmation_required" }

/-- The quantities that a terminal report without any stands for. -/
def impliedQuantities (state : ExitOrderState) : ReportQuantity × ReportQuantity :=
  if state = .filled then (.int l.requestedQuantity, .int 0)
  else (.int l.filledQuantity, .int l.remainingQuantity)

/-- A report of an order that ended. -/
def observeTerminal (state : ExitOrderState) (quantities : ReportQuantity × ReportQuantity) :
    Except Exn ExitTransition :=
  match reconcileQuantities l.requestedQuantity quantities with
  | none => l.toUnknown "broker_quantity_mismatch"
  | some (filled, remaining) =>
    if state = .filled ∧ remaining ≠ 0 then l.toUnknown "broker_quantity_mismatch"
    else do
      let terminal ← postInit { l with state := state, filledQuantity := filled, remainingQuantity := remaining }
      .ok { lifecycle := terminal, action := .terminalConfirmed, reason := terminalReason state }

def observeBrokerStatus (report : BrokerReport) : Except Exn ExitTransition :=
  match readBrokerStatus report.status with
  | .unclear => l.toUnknown "broker_status_unknown"
  | .working => do
    l.observeWorking
      (← reportQuantities l.requestedQuantity report.filledQuantity report.remainingQuantity)
  | .unrecognized => l.toUnknown "unrecognized_broker_status"
  | .terminal state => do
    let quantities ← reportQuantities l.requestedQuantity report.filledQuantity report.remainingQuantity
    l.observeTerminal state (quantities.getD (l.impliedQuantities state))

/-- The intent of a replacement, and the lifecycle of the order it asks for. -/
def createReplacement (policy : ExitPolicy) (quote : ExitQuote) (now : Option IntentTime)
    (secondsToClose : Option Number) (reason : String) : Except Exn ExitTransition := do
  let intent ← policy.createSellIntent l.symbol l.remainingQuantity quote reason (l.requoteCount + 1)
    (some l.orderId) secondsToClose "LIMIT"
  let nextLifecycle ← postInit
    { l with
      state := .replacementIntentCreated
      requestedQuantity := l.remainingQuantity
      filledQuantity := 0
      lastIntentAt := now
      requoteCount := l.requoteCount + 1 }
  .ok { lifecycle := nextLifecycle, action := .createReplacementIntent
        reason := "terminal_cancel_confirmed", intent := some intent }

/-- A replacement of an order that ended without a full fill. -/
def replaceEnded (policy : ExitPolicy) (quote : ExitQuote) (now : Option IntentTime)
    (secondsToClose : Option Number) (reason : String) : Except Exn ExitTransition :=
  if l.remainingQuantity = 0 then
    .ok { lifecycle := l, action := .done, reason := "no_remaining_quantity" }
  else if policy.config.maxRequotes ≤ l.requoteCount then
    .ok { lifecycle := l, action := .operatorReview, reason := "max_requotes_reached"
          operatorReview := true }
  else do
    let urgent ← policy.isCloseUrgent secondsToClose
    if !urgent && !policy.intervalElapsed l.lastIntentAt now then
      .ok { lifecycle := l, action := .wait, reason := "requote_interval_not_elapsed" }
    else l.createReplacement policy quote now secondsToClose reason

def replacement (policy : ExitPolicy) (quote : ExitQuote) (now : Option IntentTime)
    (secondsToClose : Option Number) (reason : String) : Except Exn ExitTransition :=
  match l.state with
  | .unknown | .operatorReview =>
    .ok { lifecycle := l, action := .operatorReview, reason := "unknown_order_no_replacement"
          operatorReview := true }
  | .cancelPending | .stale =>
    .ok { lifecycle := l, action := .wait, reason := "terminal_confirmation_required" }
  | .replacementIntentCreated =>
    .ok { lifecycle := l, action := .wait, reason := "duplicate_replacement_blocked" }
  | .filled => .ok { lifecycle := l, action := .done, reason := "no_remaining_quantity" }
  | .submitted =>
    if l.remainingQuantity = 0 then
      .ok { lifecycle := l, action := .done, reason := "no_remaining_quantity" }
    else
      .ok { lifecycle := l, action := .wait, reason := "replacement_requires_terminal_cancel_or_reject" }
  | .cancelled | .rejected => l.replaceEnded policy quote now secondsToClose reason

end ExitOrderLifecycle

def ExitPolicy.initialLifecycle (policy : ExitPolicy) (orderId symbol : String) (quantity : Int)
    (now : Option IntentTime) : Except Exn ExitOrderLifecycle :=
  if quantity < policy.config.minQuantity ∨ policy.config.maxQuantity < quantity then
    .error (exitPolicyError "quantity is outside exit policy bounds")
  else ExitOrderLifecycle.postInit
    { orderId := orderId, symbol := symbol, requestedQuantity := quantity, state := .submitted
      filledQuantity := 0, remainingQuantity := quantity, requoteCount := 0, lastIntentAt := now }

end AutoTrader
