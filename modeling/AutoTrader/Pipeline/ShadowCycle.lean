/-
  AutoTrader/Pipeline/ShadowCycle.lean
  ====================================
  **The shadow cycle, the offline dry run and the paper session.**

  `run_shadow_cycle` judges the health of the market data, scans the snapshot of the bars, asks the
  risk engine and walks the local life cycle; `run_offline_dry_run` does so on a list of bars without
  a look at the clock.  `run_paper_session` collects market data and records what a shadow cycle
  approves in the paper journal, a bounded number of times.
-/
import AutoTrader.Execution.Lifecycle
import AutoTrader.Execution.PositionManager
import AutoTrader.Lib.Sha256
import AutoTrader.Market.Candidates
import AutoTrader.Market.SessionBars
import AutoTrader.Paper.Journal
import AutoTrader.Pipeline.EntryRules

namespace AutoTrader.Market

open Relational Lifecycle

/-! ### Market health -/

inductive MarketHealthStatus where
  | ok
  | stale
  | disconnected
  | noData
deriving DecidableEq

def MarketHealthStatus.value : MarketHealthStatus → String
  | .ok => "OK"
  | .stale => "STALE"
  | .disconnected => "DISCONNECTED"
  | .noData => "NO_DATA"

structure MarketHealth where
  status : MarketHealthStatus
  tradingBlocked : Bool
  enterSafeMode : Bool
  reason : String
  tickAgeSeconds : Option ℚ
  barAgeSeconds : Option ℚ

/-- `_age_seconds`: a future timestamp is fresh. -/
def ageSeconds (currentTime timestamp : DateTime) : Except Exn ℚ :=
  if currentTime.offset.isSome = timestamp.offset.isSome then
    .ok (max 0 (((currentTime.utcInstant - timestamp.utcInstant : Int) : ℚ) / DateTime.microsPerSecond))
  else .error (.typeError "can't subtract offset-naive and offset-aware datetimes")

/-- The verdict on the ages. -/
def healthOf (maxTickAge maxBarAge : PyFloat) (websocketAcknowledged : Bool) (tickAge barAge : Option ℚ) :
    MarketHealth :=
  if websocketAcknowledged = false then
    ⟨.disconnected, true, true, "websocket subscription is not acknowledged", tickAge, barAge⟩
  else if tickAge = none ∧ barAge = none then ⟨.noData, true, true, "no tick or bar data is available", none, none⟩
  else if (tickAge.any fun age => (PyFloat.fin age).le maxTickAge) ∨
      (barAge.any fun age => (PyFloat.fin age).le maxBarAge) then
    ⟨.ok, false, false, "market data is fresh", tickAge, barAge⟩
  else ⟨.stale, true, true, "latest market data is stale", tickAge, barAge⟩

/-- `evaluate_market_health`. -/
def evaluateMarketHealth (currentTime : DateTime) (maxTickAge maxBarAge : PyFloat) (websocketAcknowledged : Bool)
    (latestTick : Option MarketTick) (latestBar : Option MinuteBar) : Except Exn MarketHealth :=
  if maxTickAge.nonpos || maxBarAge.nonpos then .error (.valueError "maximum data ages must be positive")
  else do
    let tickAge ← latestTick.mapM fun tick => ageSeconds currentTime tick.timestamp
    let barAge ← latestBar.mapM fun bar => ageSeconds currentTime bar.start
    return healthOf maxTickAge maxBarAge websocketAcknowledged tickAge barAge

/-! ### Signal ids -/

/-- `[A-Za-z0-9]`. -/
def isAlnum (c : Char) : Bool := c.isDigit || ('a' ≤ c && c ≤ 'z') || ('A' ≤ c && c ≤ 'Z')

/-- `re.sub(r"[^A-Za-z0-9]+", "_", text)`; `inRun` says whether the character before was replaced. -/
def underscored (inRun : Bool) : List Char → List Char
  | [] => []
  | c :: rest =>
    if isAlnum c then c :: underscored false rest
    else if inRun then underscored true rest
    else '_' :: underscored true rest

/-- `_prefix`. -/
def signalPrefix (value : String) : Except Exn String :=
  let text := underscored false (Text.strip value).toList
  let normalized := ((text.dropWhile (· = '_')).reverse.dropWhile (· = '_')).reverse
  if normalized = [] then .error (.valueError "strategy and symbol must not be empty")
  else .ok (String.ofList (normalized.map Char.toUpper))

/-- `_canonical_timestamp` of a `datetime`: `isoformat(timespec="seconds")`. -/
def canonicalTimestamp (timestamp : DateTime) : String :=
  timestamp.secondText ++ DateTime.offsetText timestamp.offset

/-- `build_signal_id`. -/
def buildSignalId (strategy symbol : String) (timestamp : DateTime) : Except Exn String := do
  let canonical := Text.strip strategy ++ "|" ++ Text.strip symbol ++ "|" ++ canonicalTimestamp timestamp
  let suffix := String.ofList ((Sha256.hexdigest canonical).toList.take 12)
  let first ← signalPrefix strategy
  let second ← signalPrefix symbol
  return first ++ ":" ++ second ++ ":" ++ suffix

/-! ### The shadow cycle -/

structure ShadowCycleConfig where
  risk : RiskConfig
  lookback : Int
  maxTickAgeSeconds : PyFloat
  maxBarAgeSeconds : PyFloat
  websocketAcknowledged : Bool

structure ShadowCycleReport where
  symbol : String
  barsCount : Nat
  healthStatus : MarketHealthStatus
  tradingBlocked : Bool
  safeMode : Bool
  candidatesCount : Nat
  selectedStrategy : Option String
  riskApproved : Bool
  riskReason : String
  riskQuantity : Int
  lifecycleFinalState : OrderState
  signalId : Option String
  entryPrice : Option PyFloat

/-- The key `(candidate.score, candidate.strategy)` of one candidate is above that of another. -/
def CandidateSignal.above (candidate other : CandidateSignal) : Bool :=
  other.score < candidate.score || (other.score = candidate.score && decide (other.strategy < candidate.strategy))

/-- `_select_candidate`: the first of the greatest ones. -/
def selectCandidate (first : CandidateSignal) (rest : List CandidateSignal) : CandidateSignal :=
  rest.foldl (fun best candidate => if candidate.above best then candidate else best) first

/-- The market data of a symbol. -/
structure ShadowData where
  bars : List MinuteBar
  latestTick : Option MarketTick
  latestBar : Option MinuteBar

/-- `latest_tick`: the one with the greatest time, the last one stored among those. -/
def MarketStore.latestTick (store : MarketStore) (symbol : String) : Option MarketTick :=
  (store.ticks.filter fun tick => tick.symbol = symbol).foldl (fun best tick =>
    if best.any fun other => tick.timestamp.wall < other.timestamp.wall then best else some tick) none

/-- The data that `run_shadow_cycle` reads from a database. -/
def MarketStore.shadowData (store : MarketStore) (symbol : String) : ShadowData :=
  ⟨store.loadBars symbol, store.latestTick symbol, (store.loadBars symbol).getLast?⟩

/-- The decision on an entry at the close with a stop one percent below it; a close that is not finite is no
    valid entry. -/
def shadowDecision (risk : RiskConfig) (portfolio : PortfolioState) (symbol signalId : String)
    (selected : CandidateSignal) (close : PyFloat) : RiskDecision :=
  match close with
  | .fin entry => evaluateOrderIntent risk portfolio
      ⟨symbol, selected.strategy, signalId, entry, entry * (99 / 100), some (.fin selected.score)⟩
  | _ => .rejected "invalid_entry_or_stop"

/-- The commands of an approved entry. -/
def entryCommands : List Command := [.watch, .arm, .submitEntry, .markEntryFilled]

/-- The state of the life cycle after the decision. -/
def finalState (approved : Bool) : Except Exn OrderState :=
  if approved then entryCommands.foldlM transition .flat else .ok .flat

/-- What the two replays share: the candidate they select, its signal and the decision. -/
structure Judgement where
  candidatesCount : Nat
  selected : CandidateSignal
  signalId : String
  close : PyFloat
  decision : RiskDecision
  state : OrderState

/-- From the bars to the decision; nothing without a candidate. -/
def judge (symbol : String) (bars : List MinuteBar) (lookback : Int) (risk : RiskConfig) (portfolio : PortfolioState) :
    Except Exn (Option Judgement) := do
  let snapshot ← buildFeatureSnapshot bars lookback
  let candidates := snapshot.elim [] fun snapshot => snapshot.candidates CandidateProfile.normal.thresholds
  match candidates, bars.getLast? with
  | first :: rest, some last => do
    let selected := selectCandidate first rest
    let signalId ← buildSignalId selected.strategy symbol last.start
    let decision := shadowDecision risk portfolio symbol signalId selected last.close
    let state ← finalState decision.approved
    return some ⟨candidates.length, selected, signalId, last.close, decision, state⟩
  | _, _ => return none

/-- The report on data that is not blocked. -/
def shadowReport (symbol : String) (barsCount : Nat) (status : MarketHealthStatus) :
    Option Judgement → ShadowCycleReport
  | none => ⟨symbol, barsCount, status, false, false, 0, none, false, "no_candidate", 0, .flat, none, none⟩
  | some judgement =>
    ⟨symbol, barsCount, status, false, false, judgement.candidatesCount, some judgement.selected.strategy,
      judgement.decision.approved, judgement.decision.reason, judgement.decision.quantity, judgement.state,
      some judgement.signalId, some judgement.close⟩

/-- `run_shadow_cycle`; `now` is what `_clock_for_data` says. -/
def runShadowCycle (symbol : String) (data : ShadowData) (now : DateTime) (config : ShadowCycleConfig)
    (portfolio : PortfolioState) : Except Exn ShadowCycleReport := do
  let health ← evaluateMarketHealth now config.maxTickAgeSeconds config.maxBarAgeSeconds
    config.websocketAcknowledged data.latestTick data.latestBar
  if health.tradingBlocked then
    return ⟨symbol, data.bars.length, health.status, true, health.enterSafeMode, 0, none, false, health.reason, 0,
      .safeMode, none, none⟩
  else
    return shadowReport symbol data.bars.length health.status
      (← judge symbol data.bars config.lookback config.risk portfolio)

/-! ### The dry run -/

structure DryRunReport where
  symbol : String
  barsCount : Nat
  candidatesCount : Nat
  selectedStrategy : Option String
  riskApproved : Bool
  riskReason : String
  riskQuantity : Int
  lifecycleFinalState : OrderState
  positionAction : Option PositionAction
  positionReason : Option String
  signalId : Option String

/-- `_empty_report`. -/
def emptyReport (symbol : String) (barsCount : Nat) (reason : String) : DryRunReport :=
  ⟨symbol, barsCount, 0, none, false, reason, 0, .flat, none, none, none⟩

/-- `price * factor` for a positive factor. -/
def scaledPrice (price : PyFloat) (factor : ℚ) : PyFloat := price.mul (.fin factor)

/-- The position that an approved dry run opens. -/
def openedPosition (symbol : String) (quantity : Int) (entry : PyFloat) (openedAt : DateTime) : ManagedPosition :=
  ⟨symbol, quantity, entry, scaledPrice entry (99 / 100), scaledPrice entry (1005 / 1000), scaledPrice entry (101 / 100),
    openedAt, .fin (1 / 2), false, none, false, none⟩

/-- The evaluation of the position at its entry, with the position that is left dropped. -/
def evaluateOpened (position : ManagedPosition) : Except Exn PositionDecision := do
  let decision ← evaluatePosition position position.entryPrice position.openedAt {}
  let _ ← applyPositionDecision position decision
  return decision

/-- The report on a judgement, with what the position manager said. -/
def judgedReport (symbol : String) (barsCount : Nat) (judgement : Judgement) (action : Option PositionAction)
    (reason : Option String) : DryRunReport :=
  ⟨symbol, barsCount, judgement.candidatesCount, some judgement.selected.strategy, judgement.decision.approved,
    judgement.decision.reason, judgement.decision.quantity, judgement.state, action, reason, some judgement.signalId⟩

/-- The report of a dry run whose last bar starts at `openedAt`. -/
def dryRunReport (symbol : String) (barsCount : Nat) (openedAt : DateTime) :
    Option Judgement → Except Exn DryRunReport
  | none => .ok (emptyReport symbol barsCount "no_candidate")
  | some judgement =>
    if judgement.decision.approved = false then .ok (judgedReport symbol barsCount judgement none none)
    else do
      let decision ← evaluateOpened (openedPosition symbol judgement.decision.quantity judgement.close openedAt)
      return judgedReport symbol barsCount judgement (some decision.action) (some decision.reason)

/-- `run_offline_dry_run`. -/
def runOfflineDryRun (bars : List MinuteBar) (risk : RiskConfig) (lookback : Int) : Except Exn DryRunReport :=
  match bars.head?, bars.getLast? with
  | some first, some last =>
    if bars.any fun bar => bar.symbol ≠ first.symbol then
      .error (.valueError "dry-run requires bars for exactly one symbol")
    else do
      dryRunReport first.symbol bars.length last.start (← judge first.symbol bars lookback risk (.ofPositions []))
  | _, _ => .ok (emptyReport "unknown" 0 "no_bars")

/-! ### The paper session -/

structure PaperShadowResult where
  shadow : ShadowCycleReport
  recorded : Bool
  duplicateSkipped : Bool
  orderId : Option String
  fillId : Option String

/-- The row of an approved report, if it is one. -/
def ShadowCycleReport.record? (report : ShadowCycleReport) (createdAt : Option DateTime) : Option PaperRecord :=
  match report.signalId, report.entryPrice with
  | some signalId, some price =>
    if report.tradingBlocked || !report.riskApproved || report.riskQuantity ≤ 0 || signalId = "" then none
    else some ⟨"paper-order:" ++ signalId, "paper-fill:" ++ signalId, signalId, report.symbol, report.riskQuantity,
      .float price, createdAt⟩
  | _, _ => none

/-- `record_shadow_paper_buy`; `clock` is the time a record without one is given. -/
def recordShadowPaperBuy (journal : PaperJournal) (clock : DateTime) (report : ShadowCycleReport)
    (createdAt : Option DateTime) : PaperJournal × Except Exn PaperShadowResult :=
  match report.record? createdAt with
  | none => (journal, .ok ⟨report, false, false, none, none⟩)
  | some record =>
    let (journal', answer) := journal.recordPaperBuy clock record
    (journal', answer.map fun recorded => ⟨report, recorded, !recorded, some record.orderId, some record.fillId⟩)

/-- What a cycle reads from outside the journal: the market tables, the time of `_clock_for_data`, the clock of
    the journal and `current_time`. -/
structure ShadowReads where
  store : MarketStore
  now : DateTime
  clock : DateTime
  currentTime : Option DateTime

/-- `run_paper_shadow_cycle`. -/
def runPaperShadowCycle (symbol : String) (journal : PaperJournal) (reads : ShadowReads) (config : ShadowCycleConfig) :
    PaperJournal × Except Exn PaperShadowResult :=
  let portfolio := PortfolioState.ofPositions (journal.paperPositions.map (·.symbol))
  match runShadowCycle symbol (reads.store.shadowData symbol) reads.now config portfolio with
  | .error e => (journal, .error e)
  | .ok report => recordShadowPaperBuy journal reads.clock report reads.currentTime

/-- A `CollectorResult`, by what the session reads. -/
structure Collected where
  ticksSaved : Nat
  barsSaved : Nat
  subscribeAck : Bool

structure PaperSessionIteration where
  iteration : Nat
  subscribeAck : Bool
  ticksSaved : Nat
  barsSaved : Nat
  healthStatus : String
  riskApproved : Bool
  riskReason : String
  recorded : Bool
  duplicateSkipped : Bool
  blocked : Bool
  exitCode : Nat

/-- What one iteration finds: whether the runtime is paused, what the collector answers, and what the cycle
    reads afterwards. -/
structure SessionInput where
  paused : Bool
  collected : Except Exn Collected
  reads : ShadowReads

/-- The summary of a paused iteration. -/
def pausedIteration (iteration : Nat) : PaperSessionIteration :=
  ⟨iteration, false, 0, 0, "PAUSED", false, "runtime_paused", false, false, true, 3⟩

/-- The summary of an iteration that ran. -/
def ranIteration (iteration : Nat) (collected : Collected) (result : PaperShadowResult) : PaperSessionIteration :=
  let report := result.shadow
  let eligible := !report.tradingBlocked && report.riskApproved && decide (0 < report.riskQuantity) &&
    report.signalId.any (· ≠ "") && report.entryPrice.isSome
  ⟨iteration, collected.subscribeAck, collected.ticksSaved, collected.barsSaved, report.healthStatus.value,
    report.riskApproved, report.riskReason, result.recorded, result.duplicateSkipped, !eligible,
    if result.recorded || result.duplicateSkipped then 0 else 3⟩

/-- `RiskConfig()`. -/
def defaultRisk : RiskConfig where
  allocatedKrw := 3000000
  riskPerTradePct := 3 / 10
  maxPositionPct := 10
  maxTotalExposurePct := 20
  maxPositions := 2
  maxDailyLossPct := 1
  consecutiveLossLimit := 3
  maxTradesPerDay := none
  maxOrdersPerSymbol := 3
  minimumConfidence := .fin (3 / 4)

/-- `ShadowCycleConfig(websocket_acknowledged=..., max_tick_age_seconds=..., max_bar_age_seconds=...)`. -/
def paperConfig (maxTickAgeSeconds maxBarAgeSeconds : PyFloat) (websocketAcknowledged : Bool) : ShadowCycleConfig :=
  ⟨defaultRisk, 20, maxTickAgeSeconds, maxBarAgeSeconds, websocketAcknowledged⟩

structure SessionConfig where
  symbol : String
  maxTickAgeSeconds : PyFloat
  maxBarAgeSeconds : PyFloat

/-- One iteration: the journal it leaves and its summary. -/
def sessionIteration (config : SessionConfig) (journal : PaperJournal) (iteration : Nat) (input : SessionInput) :
    PaperJournal × Except Exn PaperSessionIteration :=
  if input.paused then (journal, .ok (pausedIteration iteration))
  else
    match input.collected with
    | .error e => (journal, .error e)
    | .ok collected =>
      let (journal', result) := runPaperShadowCycle config.symbol journal input.reads
        (paperConfig config.maxTickAgeSeconds config.maxBarAgeSeconds collected.subscribeAck)
      (journal', result.map (ranIteration iteration collected))

/-- The loop of `run_paper_session`: an exception ends it. -/
def sessionLoop (config : SessionConfig) (journal : PaperJournal) (iteration : Nat) :
    List SessionInput → PaperJournal × Except Exn (List PaperSessionIteration)
  | [] => (journal, .ok [])
  | input :: rest =>
    match sessionIteration config journal iteration input with
    | (journal', .error e) => (journal', .error e)
    | (journal', .ok summary) =>
      let (journal'', summaries) := sessionLoop config journal' (iteration + 1) rest
      (journal'', summaries.map (summary :: ·))

/-- `_validate_bounds`. -/
def validateBounds (iterations collectSeconds sleepSeconds : Int) : Except Exn Unit :=
  if iterations < 1 ∨ 100 < iterations then .error (.valueError "iterations must be between 1 and 100")
  else if collectSeconds < 1 ∨ 3600 < collectSeconds then
    .error (.valueError "collect_seconds must be between 1 and 3600")
  else if sleepSeconds < 0 ∨ 3600 < sleepSeconds then .error (.valueError "sleep_seconds must be between 0 and 3600")
  else .ok ()

/-- `run_paper_session`, of as many iterations as there are inputs. -/
def runPaperSession (config : SessionConfig) (collectSeconds sleepSeconds : Int) (journal : PaperJournal)
    (inputs : List SessionInput) : PaperJournal × Except Exn (List PaperSessionIteration) :=
  match validateBounds inputs.length collectSeconds sleepSeconds with
  | .error e => (journal, .error e)
  | .ok () =>
    if config.maxTickAgeSeconds.nonpos || config.maxBarAgeSeconds.nonpos then
      (journal, .error (.valueError "market data ages must be positive"))
    else sessionLoop config journal 1 inputs

/-- `PaperSessionReport.exit_code`. -/
def sessionExitCode (iterations : List PaperSessionIteration) : Nat :=
  if iterations.any fun item => item.recorded || item.duplicateSkipped then 0 else 3

end AutoTrader.Market
