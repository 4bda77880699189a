/-
  AutoTrader/Ai/Client.lean
  =========================
  **The decision client, and the calls that share a budget.**

  `decide` is a program: it reserves, posts, settles or cancels, and between two of its
  actions every other call may act.  What the network answers, what the clock shows and
  which token a reservation draws is left to the replies.  An outcome of a request is a
  response or any `Exception`.

  `budget_invariant` collects what holds along every interleaving; the part about one
  `decide` call is the automaton `callProtocol`, which the program follows.
-/
import AutoTrader.Lib.Typestate
import AutoTrader.Ai.Budget
import AutoTrader.Ai.Decision
import AutoTrader.Python.Floats
import AutoTrader.Python.Json
import Mathlib.Data.Rat.Floor

namespace AutoTrader

open Relational Interleave

/-! ### The response body -/

namespace Json

/-- `int(value)`. -/
def toInt : Json → Except AiExn Int
  | .bool b => .ok (if b then 1 else 0)
  | .int n => .ok n
  | .float (.fin q) => .ok (if 0 ≤ q then ⌊q⌋ else ⌈q⌉)
  | .float .nan => .error (.invalid "ValueError" "cannot convert float NaN to integer")
  | .float _ => .error (.other "OverflowError" "cannot convert float infinity to integer")
  | .text s =>
    match Text.toInt? s with
    | some n => .ok n
    | none => .error (.invalid "ValueError" "invalid literal for int() with base 10")
  | _ => .error (.invalid "TypeError" "int() argument must be a string or a real number")

/-- `value[key]` for a text key. -/
def item (key : String) : Json → Except AiExn Json
  | .dict fields =>
    match field? fields key with
    | some value => .ok value
    | none => .error (.invalid "KeyError" key)
  | _ => .error (.invalid "TypeError" "indices must be integers")

/-- `value[0]`. -/
def first : Json → Except AiExn Json
  | .list (value :: _) => .ok value
  | .list [] => .error (.other "IndexError" "list index out of range")
  | .text s =>
    match s.toList with
    | c :: _ => .ok (.text (String.ofList [c]))
    | [] => .error (.other "IndexError" "string index out of range")
  | .dict _ => .error (.invalid "KeyError" "0")
  | _ => .error (.invalid "TypeError" "object is not subscriptable")

end Json

structure AIUsage where
  promptTokens : Int
  completionTokens : Int
  totalTokens : Int
  estimatedCostUsd : ℚ

/-- What a request brings back. -/
structure HttpResponse where
  statusCode : Option Int
  /-- `raise_for_status()`. -/
  raiseForStatus : Except AiExn Unit
  /-- `json()`. -/
  json : Except AiExn Json

/-! ### The client -/

/-- A value among the features, as a snapshot timestamp. -/
inductive FeatureValue where
  | null
  | text (stamp : TimeText)
  | time (t : DateTime)
  | other

/-- What `decide` reads of its context; the rest only goes into the request. -/
structure AIDecisionContext where
  symbol : String
  features : List (String × FeatureValue)
  marketSnapshotAt : Option DateTime

/-- The client.  `validate` is `TradingAIDecision.model_validate`, or
    `model_validate_json` where the content is no dictionary. -/
structure OpenAITradingDecisionClient where
  maxRetries : Nat
  retryBaseDelay : ℚ
  retryMaxDelay : ℚ
  maxSnapshotAgeSeconds : Option ℚ
  requireSnapshotTimestamp : Bool
  estimatedCostPerCallUsd : ℚ
  inputCostPerMillionTokens : ℚ
  outputCostPerMillionTokens : ℚ
  raiseOnBudgetExceeded : Bool
  validate : Json → Except AiExn TradingAIDecision

/-- What a call does to the outside: one action is one method of the budget, one request,
    one reading of the clock, one drawn id or one sleep. -/
inductive AiOp : Type 1
  | reserve (estimatedCostUsd : ℚ)
  | settle (reservation : Reservation) (actualCostUsd : ℚ)
  | cancel (reservation : Reservation)
  | snapshot
  | post (context : AIDecisionContext)
  | clock
  | uuid4
  | sleep (seconds : ℚ)

def AiOp.Reply : AiOp → Type
  | .reserve _ => Except AiExn Reservation
  | .settle _ _ => Except AiExn Unit
  | .cancel _ => Unit
  | .snapshot => UsageBudgetSnapshot
  | .post _ => Except AiExn HttpResponse
  | .clock => DateTime
  | .uuid4 => String
  | .sleep _ => Except AiExn Unit

def aiSignature : Signature := ⟨AiOp, AiOp.Reply⟩

/-- A program around the budget. -/
abbrev AiProg (α : Type) := Prog aiSignature α

namespace AiProg

def reserve (cost : ℚ) : AiProg (Except AiExn Reservation) := .act (.reserve cost) .ret
def settle (reservation : Reservation) (cost : ℚ) : AiProg (Except AiExn Unit) :=
  .act (.settle reservation cost) .ret
def cancel (reservation : Reservation) : AiProg Unit := .act (.cancel reservation) .ret
def post (context : AIDecisionContext) : AiProg (Except AiExn HttpResponse) := .act (.post context) .ret
def clock : AiProg DateTime := .act .clock .ret
def uuid4 : AiProg String := .act .uuid4 .ret
def sleep (seconds : ℚ) : AiProg (Except AiExn Unit) := .act (.sleep seconds) .ret

end AiProg

/-- `_snapshot_timestamp`. -/
def snapshotTimestamp (features : List (String × FeatureValue)) : FeatureValue :=
  let keys := ["market_snapshot_at", "snapshot_at", "timestamp", "bar_timestamp", "bar_start",
    "latest_bar_timestamp"]
  let found := keys.filterMap fun key =>
    match features.find? (·.1 = key) with
    | some (_, .null) => none
    | some (_, value) => some value
    | none => none
  found.headD .null

/-- The exceptions of the price rules, as the client's clauses take them. -/
def AiExn.ofExn : Exn → AiExn
  | .valueError message => .invalid "ValueError" message
  | .typeError message => .invalid "TypeError" message
  | e => .other e.typeName e.message

namespace OpenAITradingDecisionClient

variable (client : OpenAITradingDecisionClient) (context : AIDecisionContext)

/-- The age of a snapshot against the client's limits. -/
def checkAge (snapshotAt : DateTime) : AiProg (Except AiExn Unit) := do
  let now ← AiProg.clock
  if now.offset.isNone then
    return .error (.invalid "TypeError" "can't subtract offset-naive and offset-aware datetimes")
  else
    let age : ℚ := (now.utcInstant - snapshotAt.utcInstant : ℚ) / DateTime.microsPerSecond
    if age < -5 then return .error (.response "market snapshot timestamp is in the future")
    else if client.maxSnapshotAgeSeconds.any (· < age) then return .error (.response "market snapshot is stale")
    else return .ok ()

/-- `_validate_snapshot`. -/
def validateSnapshot : AiProg (Except AiExn Unit) :=
  match context.marketSnapshotAt.elim (snapshotTimestamp context.features) .time with
  | .null =>
    if client.requireSnapshotTimestamp then
      return .error (.response "market snapshot timestamp is required")
    else return .ok ()
  | .text stamp =>
    match stamp.fromisoformat with
    | .error _ => return .error (.response "market snapshot timestamp is invalid")
    | .ok snapshotAt => client.checkAge snapshotAt
  | .time snapshotAt => client.checkAge snapshotAt
  | .other => return .error (.other "AttributeError" "tzinfo")

/-- `int(raw.get(key, raw.get(other, 0)) or 0)`, with the fallback given. -/
def tokens (raw : List (String × Json)) (key : String) (fallback : Json) : Except AiExn Int :=
  let value := (Json.field? raw key).getD fallback
  if value.truthy then value.toInt else .ok 0

/-- `_extract_usage`. -/
def extractUsage (payload : Json) : Except AiExn AIUsage :=
  match payload with
  | .dict fields =>
    let usage := (Json.field? fields "usage").getD .null
    match if usage.truthy then usage else .dict [] with
    | .dict raw => do
      let promptTokens ← tokens raw "prompt_tokens" ((Json.field? raw "input_tokens").getD (.int 0))
      let completionTokens ←
        tokens raw "completion_tokens" ((Json.field? raw "output_tokens").getD (.int 0))
      let totalTokens ← tokens raw "total_tokens" (.int (promptTokens + completionTokens))
      let cost := (promptTokens * client.inputCostPerMillionTokens +
        completionTokens * client.outputCostPerMillionTokens) / 1000000
      .ok ⟨promptTokens, completionTokens, totalTokens, cost⟩
    | _ => .error (.other "AttributeError" "get")
  | _ => .error (.other "AttributeError" "get")

/-- The decision in a response body. -/
def readDecision (payload : Json) : Except AiExn TradingAIDecision := do
  let choices ← payload.item "choices"
  let message ← (← choices.first).item "message"
  let decision ← client.validate (← message.item "content")
  let decision ← (normalizeBuyRiskPlan decision).mapError AiExn.ofExn
  if decision.symbol ≠ context.symbol then
    .error (.response ("OpenAI response symbol mismatch: expected " ++ context.symbol ++ ", got " ++
      decision.symbol))
  else .ok decision

/-- The payload and the usage of a response that is not refused by its status. -/
def readUsage (response : HttpResponse) : Except AiExn (Json × AIUsage) := do
  response.raiseForStatus
  let payload ← response.json
  .ok (payload, ← client.extractUsage payload)

/-- One attempt: the value of `reservation` where it ends, and its outcome. -/
def attempt : AiProg (Option Reservation × Except AiExn TradingAIDecision) := do
  match ← AiProg.reserve client.estimatedCostPerCallUsd with
  | .error e => return (none, .error e)
  | .ok reservation =>
    match ← AiProg.post context with
    | .error e => return (some reservation, .error e)
    | .ok response =>
      if response.statusCode.any fun status => status = 429 ∨ (500 ≤ status ∧ status ≤ 599) then
        return (some reservation, .error (.retryable
          ("OpenAI transient HTTP status " ++ toString (response.statusCode.getD 0))))
      else if response.statusCode.any fun status => 400 ≤ status ∧ status ≤ 499 then do
        AiProg.cancel reservation
        return (some reservation, .error (.request
          ("OpenAI request rejected with HTTP " ++ toString (response.statusCode.getD 0))))
      else
        match client.readUsage response with
        | .error e => return (some reservation, .error e)
        | .ok (payload, usage) =>
          match ← AiProg.settle reservation usage.estimatedCostUsd with
          | .error e => return (some reservation, .error e)
          | .ok () => return (none, client.readDecision context payload)

/-- `_budget_fallback`; the decision it builds wants a symbol of six digits. -/
def budgetFallback (message : String) : AiProg (Except AiExn TradingAIDecision) := do
  if client.raiseOnBudgetExceeded then return .error (.budgetExceeded message)
  else
    let id ← AiProg.uuid4
    if context.symbol.length = 6 ∧ context.symbol.toList.all fun c => (Text.decimalValue? c).isSome then
      return .ok
        { decisionId := "ai-decision:" ++ id, symbol := context.symbol, action := .hold, strategy := none,
          confidence := .fin 0, entryPrice := none, takeProfitPrice := none, stopLossPrice := none,
          maxHoldingSeconds := some 900, riskLevel := .high, requiresOperatorApproval := true }
    else return .error (.invalid "ValidationError" "String should match pattern '^\\d\x7b6\x7d$'")

/-- `if reservation is not None: self.budget.cancel(reservation)`, which every handler
    starts with. -/
def cancelHeld : Option Reservation → AiProg Unit
  | none => return ()
  | some reservation => AiProg.cancel reservation

/-- The attempts that are left, from the `n`-th on. -/
def attempts : (left n : Nat) → AiProg (Except AiExn TradingAIDecision)
  | 0, _ => return .error (.other "AssertionError" "bounded retry loop did not return")
  | left + 1, n => do
    let (reservation, outcome) ← client.attempt context
    match outcome with
    | .ok decision => return .ok decision
    | .error exn => do
      cancelHeld reservation
      match exn with
      | .budgetExceeded message => client.budgetFallback context message
      | .timeout message | .retryable message =>
        if client.maxRetries ≤ n then return .error (.transport message)
        else do
          match ← AiProg.sleep (min client.retryMaxDelay (client.retryBaseDelay * 2 ^ n)) with
          | .error e => return .error e
          | .ok () => attempts left (n + 1)
      | .invalid _ _ => return .error (.response "OpenAI response did not match the decision schema")
      | exn => return .error exn

/-- `decide`. -/
def decide : AiProg (Except AiExn TradingAIDecision) := do
  match ← client.validateSnapshot context with
  | .error e => return .error e
  | .ok () => client.attempts context (client.maxRetries + 1) 0

end OpenAITradingDecisionClient

end AutoTrader
