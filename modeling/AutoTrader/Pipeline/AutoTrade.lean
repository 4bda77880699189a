/-
  AutoTrader/Pipeline/AutoTrade.lean
  ==================================
  **The auto-trade cycle: exits first, then entries.**

  For each symbol a cycle closes an OPEN position that has a reason to be closed,
  or else may enter.  Both paths end in `_submit_with_ledger`; they differ in what
  they read before and in the key they submit under.

  The market tables, the approval table, the AI client, the risk engine and the
  budget check decide whether an entry is made and at what terms.  Their answers
  are data of an iteration (`SymbolInputs`): the paths below are taken for every
  answer they can give.
-/
import AutoTrader.Pipeline.Submission

namespace AutoTrader

open Relational Interleave

structure AutoTradeConfig where
  requireConfirmation : Bool
  enforceMarketHours : Bool
  maxTickAgeSeconds : Int
  maxBarAgeSeconds : Int
  maxExitRequotes : Int

structure MarketTick where
  timestamp : DateTime
  price : PyFloat

structure MinuteBar where
  start : DateTime
  close : PyFloat

/-- What `latest_tick` and `latest_bar` answer. -/
structure MarketView where
  latestTick : Option MarketTick
  latestBar : Option MinuteBar

/-- What the stages of an entry came to. -/
inductive EntryOutcome where
  | blocked (reason : String)
  | raised (e : Exn)
  | order (decisionId : String) (quantity : Int) (entryPrice : Number)

/-- The entry path that applies: an APPROVED request of the bar, or the AI. -/
inductive EntryPath where
  | approved (outcome : EntryOutcome)
  | direct (outcome : EntryOutcome)

/-- What one iteration learns from outside the ledgers. -/
structure SymbolInputs where
  now : DateTime
  freshness : MarketView
  quote : MarketView
  exitPrice : Option (Except Exn PyFloat)
  entryClock : DateTime
  lastBarStart : Option DateTime
  entry : EntryPath

structure AutoTradeSymbolResult where
  symbol : String
  action : String
  submitted : Bool
  blocked : Bool
  reason : String
  quantity : Int
  brokerOrderId : Option String

/-- `_blocked`. -/
def AutoTradeSymbolResult.blockedBy (symbol reason : String) : AutoTradeSymbolResult :=
  ⟨symbol, "BLOCKED", false, true, reason, 0, none⟩

/-! ### Pure parts -/

/-- `_freshness_reason`. -/
def freshnessReason (view : MarketView) (now : DateTime) (config : AutoTradeConfig) : Option String :=
  match view.latestTick, view.latestBar with
  | none, _ => some "stale_tick"
  | some _, none => some "stale_bar"
  | some tick, some bar =>
    let tickAge := now.asKst.wall - tick.timestamp.asKst.wall
    let barStart := bar.start.asKst.wall
    let barAge := now.asKst.wall - (barStart + 60 * DateTime.microsPerSecond)
    if tickAge < 0 ∨ config.maxTickAgeSeconds * DateTime.microsPerSecond < tickAge then
      some "stale_tick"
    else if now.asKst.wall < barStart ∨ config.maxBarAgeSeconds * DateTime.microsPerSecond < barAge then
      some "stale_bar"
    else none

/-- `_deadline_reached`. -/
def deadlineReached (now : DateTime) (deadline : Option DateTime) : Bool :=
  match deadline with
  | none => false
  | some deadline => deadline.asKst.wall ≤ now.asKst.wall

/-- `krx_tick_size`. -/
def krxTickSize (price : ℚ) : Int :=
  if price < 2000 then 1
  else if price < 5000 then 5
  else if price < 20000 then 10
  else if price < 50000 then 50
  else if price < 200000 then 100
  else if price < 500000 then 500
  else 1000

/-- `ExitPolicy().plan_sell_limit` on a quote without an ask whose bid is the
    current price; `none` is its `ExitPolicyError`. -/
def planSellLimit (current : PyFloat) : Option Int :=
  match current with
  | .fin bid =>
    if bid ≤ 0 then none
    else
      let tick := krxTickSize bid
      let price := (bid / tick).floor * tick
      if price ≤ 0 then none
      else if (price : ℚ) < bid * (1 - 50 / 10000) then none
      else some price
  | _ => none

inductive ExitReason where
  | sessionClose
  | stalePreviousDayPosition
  | stopLoss
  | takeProfit
  | timeStop
deriving DecidableEq

def ExitReason.name : ExitReason → String
  | .sessionClose => "session_close"
  | .stalePreviousDayPosition => "stale_previous_day_position"
  | .stopLoss => "stop_loss"
  | .takeProfit => "take_profit"
  | .timeStop => "time_stop"

/-- Why a position is to be closed, if it is. -/
def exitReason (calendar : Calendar) (now : DateTime) (price : PyFloat) (position : LivePosition) :
    Option ExitReason :=
  let openedAt := position.openedAt.asKst
  if Schedule.isForcedExitWindow calendar now then some .sessionClose
  else if Schedule.isPreviousTradingDayPosition openedAt now then some .stalePreviousDayPosition
  else if price.le (.fin position.stopLossPrice.val) then some .stopLoss
  else if (PyFloat.fin position.takeProfitPrice.val).le price then some .takeProfit
  else
    match position.maxHoldingSeconds with
    | some holding =>
      if (holding : Int) * DateTime.microsPerSecond ≤ now.wall - openedAt.wall then some .timeStop
      else none
    | none => none

/-- `_entry_signal_id`. -/
def entrySignalId (symbol : String) (barStart : DateTime) : String :=
  "entry:" ++ symbol ++ ":" ++ barStart.asKst.isoformatMinutes

/-- `_exit_signal_id`: one key per position, reason and ten seconds. -/
def exitSignalId (position : LivePosition) (reason : ExitReason) (now : DateTime) : String :=
  let tenSeconds := 10 * DateTime.microsPerSecond
  let marker : DateTime := ⟨now.asKst.wall / tenSeconds * tenSeconds, now.asKst.offset⟩
  "exit:" ++ position.positionId ++ ":" ++ reason.name ++ ":" ++ marker.isoformat

/-- `KisOrderRequest.__post_init__` of a limit order. -/
def krxRequest (symbol : String) (side : Side) (quantity : Int) (price : Number) :
    Except Exn OrderRequest :=
  if Text.isdigit symbol = false ∨ symbol.length ≠ 6 then
    .error (.valueError "symbol must be a six-digit domestic stock code")
  else if quantity ≤ 0 then .error (.valueError "quantity must be a positive integer")
  else if price.nonpos then .error (.valueError "limit orders require a positive price")
  else .ok ⟨symbol, side, .int quantity, price, "KRX"⟩

theorem krxRequest_eq {symbol : String} {side : Side} {quantity : Int} {price : Number}
    {request : OrderRequest} (h : krxRequest symbol side quantity price = .ok request) :
    request = ⟨symbol, side, .int quantity, price, "KRX"⟩ := by
  unfold krxRequest at h
  split at h
  · cases h
  split at h
  · cases h
  split at h
  · cases h
  · cases h; rfl

/-! ### Reads -/

/-- `list_open_live_positions(symbol)`. -/
def Database.listOpenLivePositions (db : Database) (symbol : String) : List LivePosition :=
  orderedBy (·.openedAt.isoformat) (·.positionId) (db.openPositions symbol)

/-- `_has_unresolved_order`. -/
def Database.hasUnresolvedOrder (db : Database) (symbol : String) (side : Side) : Bool :=
  db.brokerOrders.rows.any fun o => o.symbol = symbol && o.side = side && !o.status.terminal

/-- `_exit_attempt_count`. -/
def Database.exitAttemptCount (db : Database) (position : LivePosition) : Nat :=
  (db.brokerOrders.rows.filter fun o => o.side = .sell ∧ o.signalId = some position.signalId ∧
    o.symbol = position.symbol).length

/-- `_emergency_stop`. -/
def Database.emergencyStop (db : Database) : Bool := isTrue (db.getRuntimeMetadata "emergency_stop")

/-! ### Exits -/

/-- The price an exit is planned at, or the reason it is blocked for. -/
def exitQuote (current : PyFloat) (checked : Option (Except Exn PyFloat)) : Except String PyFloat :=
  match checked with
  | none => .ok current
  | some (.error _) => .error "exit_price_check_failed"
  | some (.ok price) =>
    match price with
    | .fin q => if q ≤ 0 then .error "exit_price_invalid" else .ok price
    | _ => .error "exit_price_invalid"

/-- The end of `_maybe_exit_position`: the SELL of the whole position. -/
def submitExit (submitter : Submitter) (symbol : String) (position : LivePosition)
    (reason : ExitReason) (price : Int) (now : DateTime) : Pipeline AutoTradeSymbolResult := do
  let request ← reraise (krxRequest symbol .sell position.quantity (.int price))
  let result ← submitWithLedger submitter request position.signalId
    (some (exitSignalId position reason now)) reason.name now
  pure ⟨symbol, "SELL", result.submitted, !result.submitted, result.reason, position.quantity,
    result.brokerOrderId⟩

/-- `_maybe_exit_position`. -/
def maybeExitPosition (submitter : Submitter) (calendar : Calendar) (config : AutoTradeConfig)
    (symbol : String) (now : DateTime) (quote : MarketView)
    (exitPrice : Option (Except Exn PyFloat)) : Pipeline (Option AutoTradeSymbolResult) := do
  match ← select fun db => db.listOpenLivePositions symbol with
  | [] => pure none
  | position :: _ =>
    let blocked (reason : String) : Pipeline (Option AutoTradeSymbolResult) :=
      pure (some (.blockedBy symbol reason))
    match (quote.latestTick.map (·.price)).or (quote.latestBar.map (·.close)) with
    | none => blocked "missing_price_for_exit"
    | some current =>
      match exitReason calendar now current position with
      | none => blocked "position_hold"
      | some reason => do
        if ← select fun db => db.hasUnresolvedOrder symbol .sell then blocked "exit_order_pending"
        else if config.maxExitRequotes < (← select fun db => db.exitAttemptCount position) then do
          setFlag now "operator_review" "true"
          setFlag now "block_new_entries" "true"
          blocked "max_exit_requotes_reached"
        else
          match exitQuote current exitPrice with
          | .error reason => blocked reason
          | .ok current =>
            match planSellLimit current with
            | none => blocked "exit_price_policy_blocked"
            | some price => do
              let result ← submitExit submitter symbol position reason price now
              pure (some result)

/-! ### Entries -/

/-- The BUY that both entry paths end in. -/
def submitEntry (submitter : Submitter) (symbol : String) (barStart now : DateTime)
    (reason : String) : EntryOutcome → Pipeline AutoTradeSymbolResult
  | .blocked reason => pure (.blockedBy symbol reason)
  | .raised e => throw e
  | .order decisionId quantity entryPrice => do
    let request ← reraise (krxRequest symbol .buy quantity entryPrice)
    let result ← submitWithLedger submitter request decisionId (some (entrySignalId symbol barStart))
      reason now
    pure ⟨symbol, "BUY", result.submitted, !result.submitted, result.reason, quantity,
      result.brokerOrderId⟩

/-- `_maybe_enter_position` and `_execute_approved_entry`.  Only the direct path
    looks for the order of the bar before it decides. -/
def maybeEnterPosition (submitter : Submitter) (symbol : String) (lastBarStart : Option DateTime)
    (now : DateTime) (path : EntryPath) : Pipeline AutoTradeSymbolResult := do
  match lastBarStart with
  | none => pure (.blockedBy symbol "missing_bars")
  | some barStart =>
    match path with
    | .approved outcome => submitEntry submitter symbol barStart now "approved_ai" outcome
    | .direct outcome => do
      let clientOrderId := clientOrderIdOf .buy (entrySignalId symbol barStart)
      if (← select fun db => db.brokerOrders.find? clientOrderId).isSome then
        pure (.blockedBy symbol "order_already_claimed")
      else submitEntry submitter symbol barStart now "ai_approved" outcome

/-! ### The cycle -/

/-- What a cycle is started with. -/
structure CycleArgs where
  submitter : Submitter
  calendar : Calendar
  config : AutoTradeConfig
  paused : Bool
  confirmAutoTrade : Bool
  deadline : Option DateTime

/-- The body of the loop over the symbols, without its `except`. -/
def cycleSymbol (args : CycleArgs) (symbol : String) (inputs : SymbolInputs) :
    Pipeline AutoTradeSymbolResult := do
  let blocked (reason : String) : Pipeline AutoTradeSymbolResult := pure (.blockedBy symbol reason)
  if deadlineReached inputs.now args.deadline then blocked "cycle_deadline_exceeded"
  else if args.config.enforceMarketHours ∧ Schedule.isRegularMarketOpen args.calendar inputs.now = false then
    blocked "market_closed"
  else if ← select fun db => db.emergencyStop then blocked "emergency_stop"
  else
    match freshnessReason inputs.freshness inputs.now args.config with
    | some reason => blocked reason
    | none => do
      match ← maybeExitPosition args.submitter args.calendar args.config symbol inputs.now
          inputs.quote inputs.exitPrice with
      | some result => pure result
      | none =>
        if (← select fun db => db.listOpenLivePositions symbol).isEmpty = false then
          blocked "existing_open_position"
        else if args.paused then blocked "runtime_paused"
        else if args.config.requireConfirmation ∧ args.confirmAutoTrade = false then
          blocked "confirmation_required"
        else if Schedule.isNewEntryWindow args.calendar inputs.now = false then
          blocked "new_entry_window_closed"
        else if deadlineReached inputs.entryClock args.deadline then blocked "cycle_deadline_exceeded"
        else maybeEnterPosition args.submitter symbol inputs.lastBarStart inputs.now inputs.entry

/-- The symbols asked for and those with an OPEN position, each once. -/
def symbolsToProcess (symbols openSymbols : List String) : List String :=
  (symbols ++ openSymbols).eraseDups

/-- The symbols of `list_open_live_positions()`. -/
def Database.listOpenSymbols (db : Database) : List String :=
  (orderedBy (·.openedAt.isoformat) (·.positionId)
    (db.livePositions.rows.filter fun p => p.status = .open)).map (·.symbol)

/-- `run_auto_trade_cycle`: an exception ends only the symbol it was raised for. -/
def runAutoTradeCycle (args : CycleArgs) (symbols : List String) (inputs : String → SymbolInputs) :
    Pipeline (List AutoTradeSymbolResult) := do
  let openSymbols ← select fun db => db.listOpenSymbols
  (symbolsToProcess symbols openSymbols).foldlM (fun results symbol => do
    match ← Raising.attempt (cycleSymbol args symbol (inputs symbol)) with
    | .ok result => pure (results ++ [result])
    | .error e => pure (results ++ [.blockedBy symbol ("symbol_error:" ++ e.typeName)])) []

end AutoTrader
