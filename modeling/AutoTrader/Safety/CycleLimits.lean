/-
  AutoTrader/Safety/CycleLimits.lean
  ==================================
  **The risk limits over a whole cycle.**

  Every entry of a cycle is checked against the one portfolio the cycle was given.  The
  BUYs the cycle has sent since are not in it, so two entries can pass that are beyond a
  limit together.  A cycle keeps its limits where that makes no difference: an entry that
  comes to an order comes to the same order when the portfolio is brought up to date.

  The cycle is `runAutoTradeCycle`, its entries are those of `EntryPaths`; its submitter
  writes down what it was called with and answers whatever it likes.
-/
import AutoTrader.Safety.EntryPaths
import Mathlib.Data.Finset.Card
import Mathlib.Data.Finset.Dedup

namespace AutoTrader

open Relational Transactional Interleave EntryCheck

/-! ### Cycles -/

/-- The database, and the requests the submitter was called with. -/
structure CycleWorld where
  db : Database
  requests : List OrderRequest

/-- What the submitter answers to a call. -/
abbrev SubmitterReplies := CycleWorld → String → OrderRequest → Except Exn (Option String)

def cycleHandler (replies : SubmitterReplies) : (o : Act) → CycleWorld → o.Reply × CycleWorld
  | .read query, w => (query w.db, w)
  | .tryRead query, w => (.ok (query w.db), w)
  | .selectOrders query, w => (query w.db, w)
  | .call op, w => ((op.call w.db).1, { w with db := op.exec w.db })
  | .submitOrder id request, w => (replies w id request, { w with requests := w.requests ++ [request] })
  | .cancelOrder .., w => (.ok (), w)

/-- What `run_auto_trade_cycle` is called with, and the answers it gets. -/
structure RiskCycle where
  args : CycleArgs
  config : EntryConfig
  portfolio : PortfolioState
  facts : String → SymbolFacts
  replies : SubmitterReplies

namespace RiskCycle

variable (c : RiskCycle)

/-- The submitter is called directly. -/
def cycleArgs : CycleArgs := { c.args with submitter := brokerSubmitter }

def inputs (symbol : String) : SymbolInputs := (c.facts symbol).inputsOf symbol c.config c.portfolio

/-- The world after the cycle. -/
def run (symbols : List String) (db : Database) : CycleWorld :=
  (Raising.eval (cycleHandler c.replies) (runAutoTradeCycle c.cycleArgs symbols c.inputs) ⟨db, []⟩).2

/-- The world after the iteration of one symbol. -/
def step (w : CycleWorld) (symbol : String) : CycleWorld :=
  (Raising.eval (cycleHandler c.replies) (cycleSymbol c.cycleArgs symbol (c.inputs symbol)) w).2

/-- The world after the iterations of some symbols. -/
def after (symbols : List String) (w : CycleWorld) : CycleWorld := symbols.foldl c.step w

end RiskCycle

/-! ### Accounts -/

/-- The symbols an account holds, and what they are worth. -/
structure Account where
  held : Finset String
  exposureKrw : ℚ

/-- The portfolio tells the truth about an account. -/
def PortfolioState.Describes (portfolio : PortfolioState) (account : Account) : Prop :=
  portfolio.openPositions.toFinset = account.held ∧ portfolio.currentExposureKrw = account.exposureKrw

def buys (requests : List OrderRequest) : List OrderRequest := requests.filter fun r => r.side = .buy

/-- Quantity times price. -/
def OrderRequest.amountKrw (request : OrderRequest) : ℚ :=
  match request.quantity.value, request.price.value with
  | .fin quantity, .fin price => quantity * price
  | _, _ => 0

/-- The limits of an account once the BUYs among the requests are counted in. -/
structure Account.Within (account : Account) (risk : RiskConfig) (requests : List OrderRequest) :
    Prop where
  positions : ((account.held ∪ ((buys requests).map (·.symbol)).toFinset).card : Int) ≤ risk.maxPositions
  exposure : account.exposureKrw + ((buys requests).map (·.amountKrw)).sum ≤
    risk.allocatedKrw * risk.maxTotalExposurePct / 100

/-- The portfolio brought up to date with the BUYs among the requests. -/
def PortfolioState.afterBuys (portfolio : PortfolioState) (requests : List OrderRequest) :
    PortfolioState :=
  { portfolio with
    openPositions := portfolio.openPositions ++ (buys requests).map (·.symbol)
    currentExposureKrw := portfolio.currentExposureKrw + ((buys requests).map (·.amountKrw)).sum }

/-! ### The condition -/

/-- The iteration gets as far as its entry, and the order of the bar is not claimed. -/
def entryReached (args : CycleArgs) (symbol : String) (inputs : SymbolInputs) (db : Database) : Bool :=
  !deadlineReached inputs.now args.deadline &&
  !(args.config.enforceMarketHours && !Schedule.isRegularMarketOpen args.calendar inputs.now) &&
  !db.emergencyStop &&
  (freshnessReason inputs.freshness inputs.now args.config).isNone &&
  (db.listOpenLivePositions symbol).isEmpty &&
  !args.paused &&
  !(args.config.requireConfirmation && !args.confirmAutoTrade) &&
  Schedule.isNewEntryWindow args.calendar inputs.now &&
  !deadlineReached inputs.entryClock args.deadline &&
  inputs.lastBarStart.any fun start =>
    (db.brokerOrders.find? (clientOrderIdOf .buy (entrySignalId symbol start))).isNone

namespace RiskCycle

variable (c : RiskCycle)

/-- The age of the portfolio makes no difference to the entry of a symbol. -/
def Current (w : CycleWorld) (symbol : String) : Prop :=
  entryReached c.cycleArgs symbol (c.inputs symbol) w.db = true →
    ∀ order ∈ (c.inputs symbol).entry.order?,
      ((c.facts symbol).entryPath symbol c.config (c.portfolio.afterBuys w.requests)).order? = some order

/-- Every iteration is `Current`, each in the world it starts in. -/
def AllCurrent : List String → CycleWorld → Prop
  | [], _ => True
  | symbol :: rest, w => c.Current w symbol ∧ AllCurrent rest (c.step w symbol)

instance Current.decidable (w : CycleWorld) (symbol : String) : Decidable (c.Current w symbol) :=
  inferInstanceAs (Decidable (_ → ∀ order ∈ (c.inputs symbol).entry.order?, _ = some order))

instance AllCurrent.decidable : (symbols : List String) → (w : CycleWorld) →
    Decidable (c.AllCurrent symbols w)
  | [], _ => .isTrue trivial
  | symbol :: rest, w =>
    @instDecidableAnd (c.Current w symbol) (c.AllCurrent rest (c.step w symbol)) inferInstance
      (AllCurrent.decidable rest (c.step w symbol))

end RiskCycle

/-! ### The loop -/

section Loop

variable (c : RiskCycle)

/-- An iteration that raises ends like one that returns. -/
theorem eval_symbols (symbols : List String) (results : List AutoTradeSymbolResult) (w : CycleWorld) :
    (Raising.eval (cycleHandler c.replies) (symbols.foldlM (fun results symbol => do
      match ← Raising.attempt (cycleSymbol c.cycleArgs symbol (c.inputs symbol)) with
      | .ok result => pure (results ++ [result])
      | .error e => pure (results ++ [.blockedBy symbol ("symbol_error:" ++ e.typeName)])) results) w).2 =
      c.after symbols w := by
  induction symbols generalizing results w with
  | nil => rfl
  | cons symbol rest ih =>
    rw [List.foldlM_cons, Raising.eval_bind, Raising.eval_bind, Raising.eval_attempt]
    have hstep : c.after (symbol :: rest) w = c.after rest (c.step w symbol) := rfl
    rw [hstep]
    unfold RiskCycle.step
    rcases hrun : Raising.eval (cycleHandler c.replies)
      (cycleSymbol c.cycleArgs symbol (c.inputs symbol)) w with ⟨e | result, w'⟩
    · simp only [hrun]
      exact ih _ w'
    · simp only [hrun]
      exact ih _ w'

theorem run_eq_after (symbols : List String) (db : Database) :
    c.run symbols db = c.after (symbolsToProcess symbols db.listOpenSymbols) ⟨db, []⟩ :=
  eval_symbols c _ _ _

end Loop

/-! ### What one iteration sends -/

/-- No call of the submitter, or one, with a request within `R`. -/
def Sent (R : OrderRequest → Prop) (w w' : CycleWorld) : Prop :=
  w'.requests = w.requests ∨ ∃ request, R request ∧ w'.requests = w.requests ++ [request]

theorem Sent.mono {R R' : OrderRequest → Prop} {w w' : CycleWorld} (hsent : Sent R w w')
    (h : ∀ request, R request → R' request) : Sent R' w w' := by
  rcases hsent with hsame | ⟨request, hrequest, hsent⟩
  · exact .inl hsame
  · exact .inr ⟨request, h request hrequest, hsent⟩

/-- The action is no call of the submitter. -/
def Act.submitsNothing : Act → Prop
  | .submitOrder .. => False
  | _ => True

section Sends

variable {replies : SubmitterReplies} {w : CycleWorld} {α : Type}

/-- The program calls the submitter at most once, with a request within `R`. -/
abbrev SendsWithin (replies : SubmitterReplies) (R : OrderRequest → Prop) (p : Pipeline α) (w : CycleWorld) :
    Prop :=
  Raising.Ends (cycleHandler replies) p (fun _ => Sent R w) (fun _ => Sent R w) w

theorem nothing_sent {p : Pipeline α} (hp : Raising.Only (S := trading) Act.submitsNothing p)
    {requests : List OrderRequest} (hw : w.requests = requests) :
    Raising.Ends (cycleHandler replies) p (fun _ w' => w'.requests = requests)
      (fun _ w' => w'.requests = requests) w := by
  refine Raising.Ends.of_only (fun o w ho hw => ?_) hp hw
  cases o with
  | read | tryRead | selectOrders | call | cancelOrder => exact hw
  | submitOrder => exact ho.elim

theorem SendsWithin.weaken {R R' : OrderRequest → Prop} {p : Pipeline α} (hp : SendsWithin replies R p w)
    (h : ∀ request, R request → R' request) : SendsWithin replies R' p w :=
  hp.mono (fun _ _ hsent => hsent.mono h) fun _ _ hsent => hsent.mono h

theorem SendsWithin.pure {R : OrderRequest → Prop} (a : α) :
    SendsWithin replies R (Pure.pure a : Pipeline α) w := .inl rfl

theorem SendsWithin.select {R : OrderRequest → Prop} {β : Type} {query : Database → β} {f : β → Pipeline α}
    (h : SendsWithin replies R (f (query w.db)) w) : SendsWithin replies R (select query >>= f) w := h

theorem nothing_reraise (r : Except Exn α) : Raising.Only (S := trading) Act.submitsNothing (reraise r) := by
  cases r with
  | ok a => exact Raising.Only.pure a
  | error e => exact Raising.Only.throw e

theorem nothing_execute (op : Op) : Raising.Only (S := trading) Act.submitsNothing (execute op) :=
  Raising.Only.bind (Raising.Only.ask (S := trading) (o := .call op) trivial) nothing_reraise

theorem nothing_recordUnknown (request : OrderRequest) (signalId reason id error : String) (now : DateTime) :
    Raising.Only (S := trading) Act.submitsNothing (recordUnknown request signalId reason id error now) := by
  apply (nothing_execute _).bind
  intro _
  apply (nothing_execute _).bind
  intro _
  exact Raising.Only.pure _

theorem nothing_recordAcknowledged (request : OrderRequest) (signalId reason id brokerOrderId : String)
    (now : DateTime) :
    Raising.Only (S := trading) Act.submitsNothing
      (recordAcknowledged request signalId reason id brokerOrderId now) := by
  apply (nothing_execute _).bind
  intro _
  apply (nothing_execute _).bind
  intro _
  exact Raising.Only.pure _

/-- A claimed order is sent once, or the transaction before the call raised. -/
theorem submitClaimed_sends (request : OrderRequest) (signalId reason id : String) (now : DateTime) :
    SendsWithin replies (· = request) (submitClaimed brokerSubmitter request signalId reason id now) w := by
  unfold submitClaimed
  refine Raising.Ends.bind ((nothing_sent (nothing_execute _) rfl).mono ?_ fun _ _ h => .inl h)
  intro _ w₁ h₁
  refine Raising.Ends.seq (R := fun _ w' => w'.requests = w.requests ++ [request]) ?_ ?_
  · refine Raising.Ends.attempt ?_
    unfold brokerSubmitter
    refine Raising.Ends.after rfl ?_
    refine (nothing_sent (nothing_reraise _) rfl).mono ?_ ?_
    · intro _ w' h'
      rw [h']
      exact congrArg (· ++ [request]) h₁
    · intro _ w' h'
      rw [h']
      exact congrArg (· ++ [request]) h₁
  · intro answer w' h'
    have hrest : ∀ p : Pipeline SubmissionResult, Raising.Only (S := trading) Act.submitsNothing p →
        Raising.Ends (cycleHandler replies) p (fun _ => Sent (· = request) w)
          (fun _ => Sent (· = request) w) w' := fun p hp =>
      (nothing_sent hp h').mono (fun _ _ h => .inr ⟨request, rfl, h⟩)
        fun _ _ h => .inr ⟨request, rfl, h⟩
    cases answer with
    | error e => exact hrest _ (nothing_recordUnknown _ _ _ _ _ _)
    | ok answer =>
      simp only
      split
      · exact hrest _ (nothing_recordAcknowledged _ _ _ _ _ _)
      · exact hrest _ (nothing_recordUnknown _ _ _ _ _ _)

theorem cycle_execute (op : Op) :
    Raising.eval (cycleHandler replies) (execute op) w = ((op.call w.db).1, { w with db := op.exec w.db }) := by
  unfold execute
  rw [Raising.eval_bind, Raising.eval_ask]
  simp only [cycleHandler]
  cases (op.call w.db).1 <;> rfl

/-- An order whose id is taken is not sent. -/
theorem submitWithLedger_sends (request : OrderRequest) (signalId key reason : String) (now : DateTime) :
    SendsWithin replies
      (fun r => r = request ∧
        w.db.brokerOrders.find? (clientOrderIdOf request.side (submissionKey (some key) signalId)) = none)
      (submitWithLedger brokerSubmitter request signalId (some key) reason now) w := by
  unfold submitWithLedger
  set id := clientOrderIdOf request.side (submissionKey (some key) signalId) with hid
  set op : Op := .claimOrderIntent now (claimArgs request signalId id now) with hop
  have hclaim := claimOrderIntent_cases now (claimArgs request signalId id now) w.db
  have hcall : op.call w.db = (claimOrderIntent now (claimArgs request signalId id now)).run w.db := rfl
  refine Raising.Ends.bind (Raising.Ends.of_eval (cycle_execute op) ?_)
  rcases hclaim with ⟨e, hr⟩ | ⟨-, hr⟩ | ⟨row, hrow, hfree, hr⟩
  · rw [hcall, hr]
    exact .inl rfl
  · rw [hcall, hr]
    exact .inl rfl
  · rw [hcall, hr]
    have hfree' : w.db.brokerOrders.find? id = none := by
      rw [(intentRow_ok hrow).1] at hfree
      exact hfree
    exact (submitClaimed_sends request signalId reason id now).weaken fun r hr => ⟨hr, hfree'⟩

/-- An exit sends SELLs. -/
theorem submitExit_sends (symbol : String) (position : LivePosition) (reason : ExitReason) (price : Int)
    (now : DateTime) :
    SendsWithin replies (·.side = .sell) (submitExit brokerSubmitter symbol position reason price now) w := by
  unfold submitExit
  cases hrequest : krxRequest symbol .sell position.quantity (.int price) with
  | error e => exact .inl rfl
  | ok request =>
    refine Raising.Ends.after rfl (Raising.Ends.bind ?_)
    have hside : request.side = .sell := by rw [krxRequest_eq hrequest]
    exact ((submitWithLedger_sends request _ _ _ _).weaken fun r hr => hr.1 ▸ hside)

theorem SendsWithin.nothing {R : OrderRequest → Prop} {p : Pipeline α}
    (hp : Raising.Only (S := trading) Act.submitsNothing p) : SendsWithin replies R p w :=
  (nothing_sent hp rfl).mono (fun _ _ h => .inl h) fun _ _ h => .inl h

/-- A symbol with an OPEN position is left to its exit. -/
theorem maybeExitPosition_sends {calendar : Calendar} {config : AutoTradeConfig} {symbol : String}
    {now : DateTime} {quote : MarketView} {exitPrice : Option (Except Exn PyFloat)}
    (hopen : w.db.listOpenLivePositions symbol ≠ []) :
    Raising.Ends (cycleHandler replies)
      (maybeExitPosition brokerSubmitter calendar config symbol now quote exitPrice)
      (fun result w' => result.isSome = true ∧ Sent (·.side = .sell) w w')
      (fun _ => Sent (·.side = .sell) w) w := by
  unfold maybeExitPosition
  refine Raising.Ends.after (a := w.db.listOpenLivePositions symbol) rfl ?_
  cases hpositions : w.db.listOpenLivePositions symbol with
  | nil => exact absurd hpositions hopen
  | cons position rest =>
    have hblocked : ∀ reason, Raising.Ends (cycleHandler replies)
        (pure (some (AutoTradeSymbolResult.blockedBy symbol reason)) : Pipeline _)
        (fun result w' => result.isSome = true ∧ Sent (·.side = .sell) w w')
        (fun _ => Sent (·.side = .sell) w) w := fun _ => ⟨rfl, .inl rfl⟩
    simp only
    cases (quote.latestTick.map (·.price)).or (quote.latestBar.map (·.close)) with
    | none => exact hblocked _
    | some current =>
      simp only
      cases exitReason calendar now current position with
      | none => exact hblocked _
      | some reason =>
        refine Raising.Ends.after (a := w.db.hasUnresolvedOrder symbol .sell) rfl ?_
        refine Raising.Ends.ite (fun _ => hblocked _) fun _ => ?_
        refine Raising.Ends.after (a := w.db.exitAttemptCount position) rfl ?_
        refine Raising.Ends.ite (fun _ => ?_) fun _ => ?_
        · refine Raising.Ends.seq ((nothing_sent (nothing_execute _) rfl).mono (fun _ _ h => h)
            fun _ _ h => .inl h) fun _ w₁ h₁ => ?_
          refine Raising.Ends.bind ((nothing_sent (nothing_execute _) h₁).mono ?_ fun _ _ h => .inl h)
          exact fun _ w₂ h₂ => ⟨rfl, .inl h₂⟩
        · cases exitQuote current exitPrice with
          | error reason => exact hblocked _
          | ok current =>
            simp only
            cases planSellLimit current with
            | none => exact hblocked _
            | some price =>
              refine Raising.Ends.bind ((submitExit_sends symbol position reason price now).mono ?_
                fun _ _ h => h)
              exact fun _ w' h' => ⟨rfl, h'⟩

/-- An entry sends the BUY its outcome is, unless the order of the bar is claimed. -/
theorem submitEntry_sends (symbol : String) (start now : DateTime) (reason : String) (outcome : EntryOutcome) :
    SendsWithin replies
      (fun r => (∃ decisionId quantity price, outcome = .order decisionId quantity price ∧
          krxRequest symbol .buy quantity price = .ok r) ∧
        w.db.brokerOrders.find? (clientOrderIdOf .buy (entrySignalId symbol start)) = none)
      (submitEntry brokerSubmitter symbol start now reason outcome) w := by
  cases outcome with
  | blocked reason => exact SendsWithin.pure _
  | raised e => exact Or.inl rfl
  | order decisionId quantity price =>
    simp only [submitEntry]
    cases hrequest : krxRequest symbol .buy quantity price with
    | error e => exact Or.inl rfl
    | ok request =>
      refine Raising.Ends.after rfl (Raising.Ends.bind ?_)
      have hside : request.side = .buy := by rw [krxRequest_eq hrequest]
      have hkey : submissionKey (some (entrySignalId symbol start)) decisionId = entrySignalId symbol start := by
        unfold submissionKey
        have htruthy : truthy (some (entrySignalId symbol start)) = true := by
          unfold truthy entrySignalId
          simp
        rw [if_pos htruthy]
        rfl
      refine (submitWithLedger_sends request _ _ _ _).weaken ?_
      rintro r ⟨rfl, hfree⟩
      rw [hside, hkey] at hfree
      exact ⟨⟨decisionId, quantity, price, rfl, hrequest⟩, hfree⟩

/-- What an iteration may send: the SELL of an exit, or the BUY of an entry it reached. -/
def CycleMaySend (args : CycleArgs) (symbol : String) (inputs : SymbolInputs) (db : Database)
    (request : OrderRequest) : Prop :=
  request.side = .sell ∨
    (entryReached args symbol inputs db = true ∧ ∃ quantity price,
      inputs.entry.order? = some (quantity, price) ∧ krxRequest symbol .buy quantity price = .ok request)

theorem maybeEnterPosition_sends {args : CycleArgs} {symbol : String} {inputs : SymbolInputs}
    (hreached : ∀ start, inputs.lastBarStart = some start →
      w.db.brokerOrders.find? (clientOrderIdOf .buy (entrySignalId symbol start)) = none →
      entryReached args symbol inputs w.db = true) :
    SendsWithin replies (CycleMaySend args symbol inputs w.db)
      (maybeEnterPosition brokerSubmitter symbol inputs.lastBarStart inputs.now inputs.entry) w := by
  unfold maybeEnterPosition
  cases hstart : inputs.lastBarStart with
  | none => exact SendsWithin.pure _
  | some start =>
    simp only
    cases hentry : inputs.entry with
    | approved outcome =>
      refine (submitEntry_sends symbol start inputs.now "approved_ai" outcome).weaken ?_
      rintro r ⟨⟨decisionId, quantity, price, rfl, hrequest⟩, hfree⟩
      exact .inr ⟨hreached start hstart hfree, quantity, price, by rw [hentry]; rfl, hrequest⟩
    | direct outcome =>
      apply SendsWithin.select
      refine Raising.Ends.ite (fun _ => SendsWithin.pure _) fun _ => ?_
      refine (submitEntry_sends symbol start inputs.now "ai_approved" outcome).weaken ?_
      rintro r ⟨⟨decisionId, quantity, price, rfl, hrequest⟩, hfree⟩
      exact .inr ⟨hreached start hstart hfree, quantity, price, by rw [hentry]; rfl, hrequest⟩

/-- An iteration sends at most one order. -/
theorem cycleSymbol_sends {args : CycleArgs} (hsubmitter : args.submitter = brokerSubmitter)
    (symbol : String) (inputs : SymbolInputs) :
    SendsWithin replies (CycleMaySend args symbol inputs w.db) (cycleSymbol args symbol inputs) w := by
  unfold cycleSymbol
  rw [hsubmitter]
  refine Raising.Ends.ite (fun _ => SendsWithin.pure _) fun hrunning => ?_
  refine Raising.Ends.ite (fun _ => SendsWithin.pure _) fun hmarket => ?_
  apply SendsWithin.select
  refine Raising.Ends.ite (fun _ => SendsWithin.pure _) fun hstop => ?_
  cases hfresh : freshnessReason inputs.freshness inputs.now args.config with
  | some reason => exact SendsWithin.pure _
  | none =>
    by_cases hopen : w.db.listOpenLivePositions symbol = []
    · have hflat : Raising.eval (cycleHandler replies) (maybeExitPosition brokerSubmitter args.calendar
          args.config symbol inputs.now inputs.quote inputs.exitPrice) w = (.ok none, w) := by
        unfold maybeExitPosition
        rw [Raising.eval_bind]
        have hselect : Raising.eval (cycleHandler replies)
            (select fun db => db.listOpenLivePositions symbol) w = (.ok [], w) := by
          rw [← hopen]
          rfl
        rw [hselect]
        rfl
      refine Raising.Ends.after hflat ?_
      apply SendsWithin.select
      refine Raising.Ends.ite (fun _ => SendsWithin.pure _) fun _ => ?_
      refine Raising.Ends.ite (fun _ => SendsWithin.pure _) fun hpaused => ?_
      refine Raising.Ends.ite (fun _ => SendsWithin.pure _) fun hconfirm => ?_
      refine Raising.Ends.ite (fun _ => SendsWithin.pure _) fun hwindow => ?_
      refine Raising.Ends.ite (fun _ => SendsWithin.pure _) fun htime => ?_
      refine maybeEnterPosition_sends fun start hstart hfree => ?_
      rw [not_and, Bool.not_eq_false] at hmarket hconfirm
      have hinMarket : (args.config.enforceMarketHours &&
          !Schedule.isRegularMarketOpen args.calendar inputs.now) = false := by
        rw [Bool.and_eq_false_imp]
        exact fun h => by rw [hmarket h]; rfl
      have hconfirmed : (args.config.requireConfirmation && !args.confirmAutoTrade) = false := by
        rw [Bool.and_eq_false_imp]
        exact fun h => by rw [hconfirm h]; rfl
      unfold entryReached
      rw [hinMarket, hconfirmed]
      simp [hrunning, hstop, hfresh, hopen, hpaused, hwindow, htime, hstart, hfree]
    · refine Raising.Ends.bind ((maybeExitPosition_sends hopen).mono ?_ ?_)
      · rintro (_ | result) w' ⟨hsome, hsent⟩
        · cases hsome
        · exact hsent.mono fun _ => .inl
      · exact fun _ _ hsent => hsent.mono fun _ => .inl

end Sends

/-! ### The whole cycle -/

section Limits

variable {account : Account} {portfolio : PortfolioState} {risk : RiskConfig}

theorem buys_append (requests : List OrderRequest) (request : OrderRequest) :
    buys (requests ++ [request]) =
      if request.side = .buy then buys requests ++ [request] else buys requests := by
  unfold buys
  rw [List.filter_append]
  by_cases hside : request.side = .buy
  · simp [hside]
  · simp [hside]

/-- A SELL leaves the limits alone. -/
theorem Account.Within.sell {requests : List OrderRequest} (h : account.Within risk requests)
    {request : OrderRequest} (hside : request.side = .sell) :
    account.Within risk (requests ++ [request]) := by
  have hbuys : buys (requests ++ [request]) = buys requests := by
    rw [buys_append, if_neg (by rw [hside]; decide)]
  constructor
  · rw [hbuys]
    exact h.positions
  · rw [hbuys]
    exact h.exposure

/-- A BUY that fits into the portfolio of the moment keeps the limits. -/
theorem Account.within_buy (hdescribes : portfolio.Describes account) {requests : List OrderRequest}
    {request : OrderRequest} (hside : request.side = .buy)
    (hroom : (portfolio.afterBuys requests).Room risk request.amountKrw) :
    account.Within risk (requests ++ [request]) := by
  have hbuys : buys (requests ++ [request]) = buys requests ++ [request] := by
    rw [buys_append, if_pos hside]
  constructor
  · rw [hbuys, ← hdescribes.1]
    have hcard : (portfolio.openPositions.toFinset ∪
        ((buys requests ++ [request]).map (·.symbol)).toFinset).card ≤
        (portfolio.afterBuys requests).openPositions.length + 1 := by
      rw [← List.toFinset_append]
      refine (List.toFinset_card_le _).trans_eq ?_
      simp [PortfolioState.afterBuys, Nat.add_assoc]
    have hfree := hroom.positions
    omega
  · rw [hbuys, List.map_append, List.sum_append, ← hdescribes.2, ← add_assoc]
    simpa [PortfolioState.afterBuys] using hroom.exposure

variable {c : RiskCycle} {w : CycleWorld}

/-- One iteration. -/
theorem Account.Within.step (hdescribes : c.portfolio.Describes account)
    (h : account.Within c.config.risk w.requests) {symbol : String} (hcurrent : c.Current w symbol) :
    account.Within c.config.risk (c.step w symbol).requests := by
  have hsends : Sent (CycleMaySend c.cycleArgs symbol (c.inputs symbol) w.db) w (c.step w symbol) :=
    Raising.Ends.store (cycleSymbol_sends rfl symbol (c.inputs symbol))
  rcases hsends with hsame | ⟨request, hmay, hsent⟩
  · exact hsame ▸ h
  · have hrequests : (c.step w symbol).requests = w.requests ++ [request] := hsent
    rw [hrequests]
    rcases hmay with hside | ⟨hreached, quantity, price, horder, hrequest⟩
    · exact h.sell hside
    · obtain ⟨entry, hprice, hroom⟩ := room_of_order (hcurrent hreached _ horder)
      have heq := krxRequest_eq hrequest
      refine Account.within_buy hdescribes (by rw [heq]) ?_
      have hamount : request.amountKrw = quantity * entry := by
        rw [heq]
        have hquantity : (Number.int quantity).value = .fin quantity := rfl
        simp only [OrderRequest.amountKrw, hquantity, hprice]
      rw [hamount]
      exact hroom

end Limits

/-! ### Two entries of one cycle -/

namespace SharedPortfolio

def now : DateTime := .combine 20000 10 0 0 none

def barStart : DateTime := .combine 20000 9 59 0 none

def market : MarketView := ⟨some ⟨now, .fin 100000⟩, some ⟨barStart, .fin 100000⟩⟩

/-- One BUY of 100,000 KRW, of the 600,000 that the limits allow. -/
def config (maxPositions : Int) : EntryConfig :=
  ⟨⟨3000000, 3 / 10, 10, 20, maxPositions, 1, 3, none, 3, .fin (3 / 4)⟩, 1, .fin 1⟩

def decision (symbol : String) : TradingAIDecision where
  decisionId := "decision-" ++ symbol
  symbol := symbol
  action := .buy
  strategy := none
  confidence := .fin (9 / 10)
  entryPrice := some (.fin 100000)
  takeProfitPrice := some (.fin 102000)
  stopLossPrice := some (.fin 99000)
  maxHoldingSeconds := some 600
  riskLevel := .normal
  requiresOperatorApproval := false

def facts (symbol : String) : SymbolFacts where
  loop := ⟨now, market, market, none, now, some barStart, .direct (.blocked "")⟩
  entry := ⟨config 1, now, .fin 100000, none, [], none, none⟩
  reads := ⟨⟨false, true, 10, 90, 3⟩, .fin (3 / 4), none, false, [], none, now, market,
    .ok ⟨decision symbol, now⟩, now, market, now⟩
  approval := none
  audit := none
  recorded := .ok ()
  consumed := .ok true

/-- An empty account that may hold `maxPositions` symbols. -/
def cycle (maxPositions : Int) : RiskCycle where
  args := ⟨brokerSubmitter, none, ⟨false, true, 10, 90, 3⟩, false, false, none⟩
  config := config maxPositions
  portfolio := .ofPositions []
  facts := facts
  replies := fun w _ _ => .ok (some ("K" ++ toString w.requests.length))

def empty : Account := ⟨∅, 0⟩

def symbols : List String := ["005930", "000660"]

theorem starts_within {maxPositions : Int} (h : 0 ≤ maxPositions) :
    empty.Within (cycle maxPositions).config.risk [] := by
  refine ⟨h, ?_⟩
  change (0 : ℚ) + 0 ≤ 3000000 * 20 / 100
  decide +kernel

end SharedPortfolio

end AutoTrader
