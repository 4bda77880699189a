/-
  AutoTrader/Safety/EntryPaths.lean
  =================================
  **What an entry comes to under a portfolio.**

  `SymbolFacts.entryPath` computes the outcome of an entry from the checks of its path, as
  a function of the portfolio.  `enterPosition_sends` says that the entry on the ledgers
  passes this order to its submitter and no other, `room_of_order` that an order fits into
  the portfolio it was checked against.
-/
import AutoTrader.Safety.EntryLimits
import Mathlib.Tactic.Linarith

namespace AutoTrader

open Relational Transactional Interleave EntryCheck

/-! ### The entries of a cycle -/

/-- What an iteration learns from outside the portfolio: the inputs of the loop and of an
    entry, the request of the bar with its audit, and how the transactions that store the
    decision and consume the request end. -/
structure SymbolFacts where
  loop : SymbolInputs
  entry : EntryInputs
  reads : DirectReads
  approval : Option ApprovalRequest
  audit : Option AiDecisionAudit
  recorded : Except Exn Unit
  consumed : Except Exn Bool

/-- What checks come to, when an entry ends where they raise or refuse. -/
def EntryOutcome.ofCheck {α : Type} (c : EntryCheck α) (f : α → EntryOutcome) : EntryOutcome :=
  match c.run with
  | .error e => .raised e
  | .ok (.error reason) => .blocked reason
  | .ok (.ok a) => f a

namespace SymbolFacts

variable (facts : SymbolFacts) (inputs : EntryInputs) (symbol signalId : String)

/-- `_execute_approved_entry`, and the statuses it is not called for. -/
def approvedOutcome (approval : ApprovalRequest) : EntryOutcome :=
  if approval.status = .pending then .blocked "operator_approval_required"
  else if approval.status = .approved then
    if deadlineReached facts.reads.preAiNow facts.reads.cycleDeadline then
      .blocked "cycle_deadline_exceeded"
    else
      .ofCheck (checkApprovedEntry inputs symbol signalId approval facts.audit) fun order =>
        match facts.consumed with
        | .error e => .raised e
        | .ok false => .blocked "approval_not_available"
        | .ok true =>
          .order order.decisionId order.quantity (.float (.fin order.entryPrice.val))
  else .blocked ("approval_" ++ approval.status.name.toLower)

/-- The entry the AI decides. -/
def directOutcome : EntryOutcome :=
  .ofCheck (checkBeforeAi facts.reads) fun tick =>
    match facts.reads.answer, facts.recorded with
    | .error e, _ => .raised e
    | .ok _, .error e => .raised e
    | .ok answer, .ok _ =>
      .ofCheck (checkDecision inputs facts.reads symbol signalId tick answer) fun
        | .approval .. => .blocked "operator_approval_required"
        | .order terms quantity => .order answer.decision.decisionId quantity (.int terms.entry)

/-- The entry of a symbol under a portfolio. -/
def entryPath (config : EntryConfig) (portfolio : PortfolioState) : EntryPath :=
  let inputs := { facts.entry with config, portfolio := some portfolio }
  let signalId := (facts.loop.lastBarStart.map (entrySignalId symbol)).getD ""
  match facts.approval with
  | some approval => .approved (facts.approvedOutcome inputs symbol signalId approval)
  | none => .direct (facts.directOutcome inputs symbol signalId)

/-- The inputs of the loop, with the entry under a portfolio. -/
def inputsOf (config : EntryConfig) (portfolio : PortfolioState) : SymbolInputs :=
  { facts.loop with entry := facts.entryPath symbol config portfolio }

end SymbolFacts

/-- The quantity and the price of an entry that comes to an order. -/
def EntryPath.order? : EntryPath → Option (Int × Number)
  | .approved (.order _ quantity price) => some (quantity, price)
  | .direct (.order _ quantity price) => some (quantity, price)
  | _ => none

/-! ### The same entry on the ledgers -/

/-- What an entry reads from a database, and what its transactions answer on it. -/
structure SymbolFacts.ReadOn (facts : SymbolFacts) (symbol : String) (start : DateTime) (db : Database) :
    Prop where
  approval : facts.approval = db.approvalRequests.find? (approvalRequestId symbol start)
  audit : ∀ approval ∈ facts.approval, facts.audit = db.decisionAudit approval
  consumed : ∀ approval ∈ facts.approval, facts.consumed =
    ((consumeApprovalRequest facts.entry.now approval.requestId (some facts.entry.now)).run db).1
  recorded : ∀ answer, facts.reads.answer = .ok answer →
    facts.recorded = ((recordAiDecision answer.decision).run db).1

/-- The BUY that an outcome is. -/
def EntryOutcome.Sends (outcome : EntryOutcome) (symbol : String) (request : OrderRequest) : Prop :=
  ∃ decisionId quantity price, outcome = .order decisionId quantity price ∧
    krxRequest symbol .buy quantity price = .ok request

section OnLedgers

variable {facts : SymbolFacts} {inputs : EntryInputs} {symbol : String} {start : DateTime} {db : Database}

theorem directEntry_sends (broker : BrokerReplies) (hreads : facts.ReadOn symbol start db) :
    PassesOnly ((facts.directOutcome inputs symbol (entrySignalId symbol start)).Sends symbol)
      (fun submitter => directEntry broker submitter inputs facts.reads symbol start) db := by
  unfold directEntry
  refine PassesOnly.after fun claimed db₁ hclaimed => ?_
  cases hclaimed
  split
  · exact PassesOnly.const _
  refine PassesOnly.after fun before db₁ hbefore => ?_
  cases before with
  | error reason => exact PassesOnly.const _
  | ok tick =>
    refine PassesOnly.after fun answer db₂ hanswer => ?_
    refine PassesOnly.after fun _ db₃ hrecord => ?_
    refine PassesOnly.after fun checked db₄ hchecked => ?_
    rcases checked with reason | ⟨terms, quantity⟩ | ⟨terms, quantity⟩
    · exact PassesOnly.const _
    · exact PassesOnly.const _
    · refine PassesOnly.after fun request db₅ hrequest => ?_
      have hrun : (checkBeforeAi facts.reads).run = .ok (.ok tick) := congrArg Prod.fst hbefore
      have hrun' : (checkDecision inputs facts.reads symbol (entrySignalId symbol start) tick answer).run =
          .ok (.ok (.order terms quantity)) := congrArg Prod.fst hchecked
      have hanswered : facts.reads.answer = .ok answer := congrArg Prod.fst hanswer
      have hdb₁ : db = db₁ := congrArg Prod.snd hbefore
      have hdb₂ : db₁ = db₂ := congrArg Prod.snd hanswer
      have hrecorded : facts.recorded = .ok () := by
        rw [hreads.recorded answer hanswered, hdb₁, hdb₂, hrecord]
      have houtcome : facts.directOutcome inputs symbol (entrySignalId symbol start) =
          .order answer.decision.decisionId quantity (.int terms.entry) := by
        simp only [SymbolFacts.directOutcome, EntryOutcome.ofCheck, hrun, hanswered, hrecorded, hrun']
      exact (PassesOnly.submit broker ⟨_, _, _, houtcome, congrArg Prod.fst hrequest⟩ _ _ _ _).then _

theorem executeApprovedEntry_sends (broker : BrokerReplies) (hreads : facts.ReadOn symbol start db)
    {approval : ApprovalRequest} (happroval : facts.approval = some approval)
    (hstatus : approval.status = .approved) (hnow : inputs.now = facts.entry.now)
    (hdeadline : deadlineReached facts.reads.preAiNow facts.reads.cycleDeadline = false) (signalId : String) :
    PassesOnly ((facts.approvedOutcome inputs symbol signalId approval).Sends symbol)
      (fun submitter => executeApprovedEntry broker submitter inputs symbol signalId approval) db := by
  unfold executeApprovedEntry
  refine PassesOnly.after fun audit db₁ haudit => ?_
  cases haudit
  refine PassesOnly.after fun checked db₁ hchecked => ?_
  cases checked with
  | error reason => exact PassesOnly.const _
  | ok order =>
    have hdb₁ : db = db₁ := congrArg Prod.snd hchecked
    refine PassesOnly.after fun consumed db₂ hconsumed => ?_
    cases consumed with
    | false => exact PassesOnly.const _
    | true =>
      refine PassesOnly.after fun request db₃ hrequest => ?_
      have hrun : (checkApprovedEntry inputs symbol signalId approval facts.audit).run = .ok (.ok order) := by
        rw [hreads.audit approval happroval]
        exact congrArg Prod.fst hchecked
      have hconsumed' : facts.consumed = .ok true := by
        rw [hreads.consumed approval happroval, hdb₁, ← hnow, hconsumed]
      have hrunning : approval.status ≠ .pending := by
        rw [hstatus]
        exact nofun
      have houtcome : facts.approvedOutcome inputs symbol signalId approval =
          .order order.decisionId order.quantity (.float (.fin order.entryPrice.val)) := by
        simp only [SymbolFacts.approvedOutcome, if_neg hrunning, if_pos hstatus, hdeadline,
          Bool.false_eq_true, if_false, EntryOutcome.ofCheck, hrun, hconsumed']
      exact (PassesOnly.submit broker ⟨_, _, _, houtcome, congrArg Prod.fst hrequest⟩ _ _ _ _).then _

/-- A request of the bar that is not APPROVED ends the entry without an order. -/
theorem approvalStage_unapproved (broker : BrokerReplies) (inputs : EntryInputs) (deadline : Bool)
    {approval : ApprovalRequest}
    (hfind : db.approvalRequests.find? (approvalRequestId symbol start) = some approval)
    (hstatus : approval.status ≠ .approved) :
    ∃ answer db', answer ≠ .ok none ∧ ∀ submitter,
      (approvalStage broker submitter inputs symbol start deadline).run db = (answer, db') := by
  by_cases hpending : approval.status = .pending
  · rcases hexpired : (expirePendingApprovals inputs.now (some inputs.now)).run db with ⟨e | expired, db₁⟩
    · refine ⟨.error e, db₁, (by intro h; cases h), fun submitter => ?_⟩
      unfold approvalStage
      rw [Exec.run_query_bind, hfind]
      simp only [Option.any_some, hpending, decide_true, if_true]
      exact Exec.run_bind_error hexpired
    · have hafter := find?_exec hfind (.expire inputs.now (some inputs.now))
      have hexec : (ApprovalCall.expire inputs.now (some inputs.now)).exec db = db₁ :=
        congrArg Prod.snd hexpired
      rw [hexec] at hafter
      obtain ⟨row, hrow⟩ : ∃ row, db₁.approvalRequests.find? (approvalRequestId symbol start) = some row :=
        ⟨_, hafter⟩
      have hnot := status_of_expired hfind hpending hexpired hrow
      by_cases hstill : row.status = .pending
      · refine ⟨.ok (some (.blockedBy symbol "operator_approval_required")), db₁, (by intro h; cases h),
          fun submitter => ?_⟩
        unfold approvalStage
        rw [Exec.run_query_bind, hfind]
        simp only [Option.any_some, hpending, decide_true, if_true]
        rw [Exec.run_bind_ok hexpired, Exec.run_query_bind, hrow]
        simp only [if_pos hstill]
        rfl
      · refine ⟨.ok (some (.blockedBy symbol ("approval_" ++ row.status.name.toLower))), db₁, (by intro h; cases h),
          fun submitter => ?_⟩
        unfold approvalStage
        rw [Exec.run_query_bind, hfind]
        simp only [Option.any_some, hpending, decide_true, if_true]
        rw [Exec.run_bind_ok hexpired, Exec.run_query_bind, hrow]
        simp only [if_neg hstill, if_neg hnot]
        rfl
  · refine ⟨.ok (some (.blockedBy symbol ("approval_" ++ approval.status.name.toLower))), db, (by intro h; cases h),
      fun submitter => ?_⟩
    unfold approvalStage
    rw [Exec.run_query_bind, hfind]
    simp only [Option.any_some, hpending, decide_false, Bool.false_eq_true, if_false]
    rw [Exec.run_query_bind, hfind]
    simp only [if_neg hpending, if_neg hstatus]
    rfl

/-- The order of an entry path. -/
def EntryPath.outcome : EntryPath → EntryOutcome
  | .approved outcome => outcome
  | .direct outcome => outcome

/-- `_maybe_enter_position` on a database passes to its submitter the order its path comes
    to, and no other. -/
theorem enterPosition_sends (broker : BrokerReplies) (hreads : facts.ReadOn symbol start db)
    (hstart : facts.loop.lastBarStart = some start) (config : EntryConfig) (portfolio : PortfolioState) :
    PassesOnly ((facts.entryPath symbol config portfolio).outcome.Sends symbol)
      (fun submitter => enterPosition broker submitter
        { facts.entry with config, portfolio := some portfolio } facts.reads symbol (some start)) db := by
  set inputs : EntryInputs := { facts.entry with config, portfolio := some portfolio } with hinputs
  have hsignal : (facts.loop.lastBarStart.map (entrySignalId symbol)).getD "" = entrySignalId symbol start := by
    rw [hstart]
    rfl
  cases happroval : facts.approval with
  | none =>
    have hpath : (facts.entryPath symbol config portfolio).outcome =
        facts.directOutcome inputs symbol (entrySignalId symbol start) := by
      simp only [SymbolFacts.entryPath, happroval, hsignal, EntryPath.outcome, hinputs]
    rw [hpath]
    have hfind : db.approvalRequests.find? (approvalRequestId symbol start) = none :=
      hreads.approval.symm.trans happroval
    have hstage : ∀ submitter deadline, (approvalStage broker submitter inputs symbol start deadline).run db =
        (.ok none, db) := by
      intro submitter deadline
      unfold approvalStage
      rw [Exec.run_query_bind, hfind]
      simp only [Option.any_none, Bool.false_eq_true, if_false]
      rw [Exec.run_query_bind, hfind]
      rfl
    intro s₁ s₂ hsame
    simp only [enterPosition, Exec.run_bind, hstage]
    exact directEntry_sends broker hreads s₁ s₂ hsame
  | some approval =>
    have hpath : (facts.entryPath symbol config portfolio).outcome =
        facts.approvedOutcome inputs symbol (entrySignalId symbol start) approval := by
      simp only [SymbolFacts.entryPath, happroval, hsignal, EntryPath.outcome, hinputs]
    rw [hpath]
    have hfind : db.approvalRequests.find? (approvalRequestId symbol start) = some approval :=
      hreads.approval.symm.trans happroval
    by_cases hstatus : approval.status = .approved
    · have hrunning : approval.status ≠ .pending := by
        rw [hstatus]
        intro hpending
        cases hpending
      intro s₁ s₂ hsame
      unfold enterPosition
      cases hdeadline : deadlineReached facts.reads.preAiNow facts.reads.cycleDeadline with
      | true =>
        have hstage : ∀ submitter, (approvalStage broker submitter inputs symbol start true).run db =
            (.ok (some (.blockedBy symbol "cycle_deadline_exceeded")), db) := by
          intro submitter
          unfold approvalStage
          rw [Exec.run_query_bind, hfind]
          simp only [Option.any_some, hrunning, decide_false, Bool.false_eq_true, if_false]
          rw [Exec.run_query_bind, hfind]
          simp only [if_neg hrunning, if_pos hstatus]
          rfl
        rw [Exec.run_bind, Exec.run_bind, hstage, hstage]
      | false =>
        have hstage : ∀ submitter, (approvalStage broker submitter inputs symbol start false).run db =
            ((executeApprovedEntry broker submitter inputs symbol (entrySignalId symbol start) approval) >>=
              fun result => pure (some result)).run db := by
          intro submitter
          unfold approvalStage
          rw [Exec.run_query_bind, hfind]
          simp only [Option.any_some, hrunning, decide_false, Bool.false_eq_true, if_false]
          rw [Exec.run_query_bind, hfind]
          simp only [if_neg hrunning, if_pos hstatus]
        have hexecute := @executeApprovedEntry_sends facts inputs symbol start db broker hreads approval
          happroval hstatus rfl hdeadline (entrySignalId symbol start) s₁ s₂ hsame
        rw [Exec.run_bind, Exec.run_bind, hstage, hstage, Exec.run_bind, Exec.run_bind, hexecute]
        rcases (executeApprovedEntry broker s₂ inputs symbol (entrySignalId symbol start) approval).run db
          with ⟨e | result, db'⟩
        · rfl
        · rfl
    · obtain ⟨answer, db', hanswer, hstage⟩ := approvalStage_unapproved broker inputs
        (deadlineReached facts.reads.preAiNow facts.reads.cycleDeadline) hfind hstatus
      intro s₁ s₂ _
      unfold enterPosition
      rw [Exec.run_bind, Exec.run_bind, hstage, hstage]
      rcases answer with e | _ | result
      · rfl
      · exact absurd rfl hanswer
      · rfl

end OnLedgers

/-! ### The room a portfolio leaves -/

/-- A BUY of this amount fits into the portfolio. -/
structure PortfolioState.Room (portfolio : PortfolioState) (risk : RiskConfig) (amount : ℚ) : Prop where
  positions : (portfolio.openPositions.length : Int) < risk.maxPositions
  exposure : portfolio.currentExposureKrw + amount ≤ risk.allocatedKrw * risk.maxTotalExposurePct / 100

section Rooms

theorem evaluateOrderIntent_room {config : RiskConfig} {portfolio : PortfolioState} {intent : OrderIntent}
    (happroved : (evaluateOrderIntent config portfolio intent).approved = true) :
    0 < intent.entryPrice ∧
      portfolio.Room config ((evaluateOrderIntent config portfolio intent).quantity * intent.entryPrice) := by
  unfold evaluateOrderIntent at happroved ⊢
  split_ifs at happroved ⊢ with hintent hprices hconfidence
  · exact absurd happroved Bool.false_ne_true
  · exact absurd happroved Bool.false_ne_true
  · exact absurd happroved Bool.false_ne_true
  cases hlimit : portfolioLimit config portfolio intent.symbol with
  | some reason =>
    rw [hlimit] at happroved
    exact absurd happroved Bool.false_ne_true
  | none =>
    rw [hlimit] at happroved
    simp only at happroved ⊢
    have hpositions : (portfolio.openPositions.length : Int) < config.maxPositions := by
      unfold portfolioLimit at hlimit
      split_ifs at hlimit with hsame hpositions
      exact not_le.mp hpositions
    simp only [not_or, not_le] at hprices
    split_ifs at happroved ⊢ with hzero hexposure
    · exact absurd happroved Bool.false_ne_true
    · exact absurd happroved Bool.false_ne_true
    · exact ⟨hprices.1, hpositions, not_lt.mp hexposure⟩

/-- The cut at `max_quantity` leaves the room. -/
theorem room_of_approved {inputs : EntryInputs} {intent : OrderIntent} {quantity : Int}
    (happroved : (evaluateOrderIntent inputs.config.risk inputs.heldPortfolio intent).approved = true)
    (hquantity : quantity = min inputs.config.maxQuantity
      (evaluateOrderIntent inputs.config.risk inputs.heldPortfolio intent).quantity) :
    inputs.heldPortfolio.Room inputs.config.risk (quantity * intent.entryPrice) := by
  obtain ⟨hprice, hroom⟩ := evaluateOrderIntent_room happroved
  refine ⟨hroom.positions, le_trans ?_ hroom.exposure⟩
  have hle : (quantity : ℚ) ≤
      (evaluateOrderIntent inputs.config.risk inputs.heldPortfolio intent).quantity := by
    exact_mod_cast hquantity.trans_le (min_le_right _ _)
  have hamount := mul_le_mul_of_nonneg_right hle hprice.le
  linarith

theorem room_of_riskQuantity {inputs : EntryInputs} {symbol signalId : String} {confidence : PyFloat}
    {entry stop : ℚ} {quantity : Int}
    (h : riskQuantity inputs symbol signalId confidence entry stop = some quantity) :
    inputs.heldPortfolio.Room inputs.config.risk (quantity * entry) := by
  simp only [riskQuantity] at h
  split_ifs at h with happroved hpos
  cases h
  exact room_of_approved (Bool.not_eq_false _ ▸ happroved) rfl

variable {inputs : EntryInputs} {symbol signalId : String}

theorem room_of_checkApprovedEntry {approval : ApprovalRequest} {audit : Option AiDecisionAudit}
    {order : ApprovedOrder}
    (hpasses : Passes (checkApprovedEntry inputs symbol signalId approval audit) order) :
    inputs.heldPortfolio.Room inputs.config.risk (order.quantity * order.entryPrice.val) := by
  simp only [checkApprovedEntry, passes_bind, passes_refuseIf, passes_raising, passes_require,
    passes_guard, passes_validated, passes_pure] at hpasses
  obtain ⟨-, -, -, -, audit, -, terms, -, entry, -, stop, -, take, -, unchanged, -, -, -, -, -, -, -,
    deviation, -, -, -, -, hexpected, -, -, rfl⟩ := hpasses
  rw [decide_eq_false_iff_not, not_not] at hexpected
  exact room_of_riskQuantity hexpected

theorem room_of_checkDecision {reads : DirectReads} {tick : MarketTick} {answer : AiAnswer}
    {terms : BuyTerms} {quantity : Int}
    (hpasses : Passes (checkDecision inputs reads symbol signalId tick answer) (.order terms quantity)) :
    inputs.heldPortfolio.Room inputs.config.risk (quantity * terms.entry) := by
  simp only [checkDecision, passes_bind] at hpasses
  obtain ⟨_, -, terms', -, hsize⟩ := hpasses
  simp only [checkSize] at hsize
  split_ifs at hsize
  · simp only [passes_bind, passes_require, passes_pure] at hsize
    obtain ⟨_, -, hno⟩ := hsize
    cases hno
  · simp only [passes_bind, passes_refuseIf, passes_pure] at hsize
    obtain ⟨-, happroved, -, -, -, -, -, -, heq⟩ := hsize
    cases heq
    rw [Bool.not_eq_false'] at happroved
    exact room_of_approved happroved rfl

theorem EntryOutcome.ofCheck_eq_order {α : Type} {c : EntryCheck α} {f : α → EntryOutcome}
    {decisionId : String} {quantity : Int} {price : Number}
    (h : EntryOutcome.ofCheck c f = .order decisionId quantity price) :
    ∃ a, Passes c a ∧ f a = .order decisionId quantity price := by
  unfold EntryOutcome.ofCheck at h
  rcases hrun : c.run with e | reason | a
  · rw [hrun] at h
    cases h
  · rw [hrun] at h
    cases h
  · rw [hrun] at h
    exact ⟨a, hrun, h⟩

theorem EntryPath.order?_eq_some {path : EntryPath} {quantity : Int} {price : Number}
    (h : path.order? = some (quantity, price)) :
    ∃ decisionId, path = .approved (.order decisionId quantity price) ∨
      path = .direct (.order decisionId quantity price) := by
  unfold EntryPath.order? at h
  split at h
  · cases h
    exact ⟨_, .inl rfl⟩
  · cases h
    exact ⟨_, .inr rfl⟩
  · cases h

variable {facts : SymbolFacts} {decisionId : String} {quantity : Int} {price : Number}

theorem room_of_approvedOutcome {approval : ApprovalRequest}
    (h : facts.approvedOutcome inputs symbol signalId approval = .order decisionId quantity price) :
    ∃ entry : ℚ, price.value = .fin entry ∧
      inputs.heldPortfolio.Room inputs.config.risk (quantity * entry) := by
  unfold SymbolFacts.approvedOutcome at h
  split_ifs at h
  obtain ⟨order, hpasses, horder⟩ := EntryOutcome.ofCheck_eq_order h
  have hroom := room_of_checkApprovedEntry hpasses
  split at horder
  · cases horder
  · cases horder
  · cases horder
    exact ⟨order.entryPrice.val, rfl, by exact_mod_cast hroom⟩

theorem room_of_directOutcome
    (h : facts.directOutcome inputs symbol signalId = .order decisionId quantity price) :
    ∃ entry : ℚ, price.value = .fin entry ∧
      inputs.heldPortfolio.Room inputs.config.risk (quantity * entry) := by
  obtain ⟨tick, -, hanswered⟩ := EntryOutcome.ofCheck_eq_order h
  rcases hanswer : facts.reads.answer with e | answer
  · rw [hanswer] at hanswered
    cases hanswered
  rcases hrecorded : facts.recorded with e | _
  · rw [hanswer, hrecorded] at hanswered
    cases hanswered
  rw [hanswer, hrecorded] at hanswered
  obtain ⟨decided, hpasses, horder⟩ := EntryOutcome.ofCheck_eq_order hanswered
  cases decided with
  | approval terms quantity => cases horder
  | order terms quantity =>
    cases horder
    exact ⟨terms.entry, rfl, room_of_checkDecision hpasses⟩

/-- An entry that comes to an order fits into its portfolio. -/
theorem room_of_order {config : EntryConfig} {portfolio : PortfolioState}
    (h : (facts.entryPath symbol config portfolio).order? = some (quantity, price)) :
    ∃ entry : ℚ, price.value = .fin entry ∧ portfolio.Room config.risk (quantity * entry) := by
  obtain ⟨decisionId, hpath⟩ := EntryPath.order?_eq_some h
  simp only [SymbolFacts.entryPath] at hpath
  cases happroval : facts.approval with
  | some approval =>
    rw [happroval] at hpath
    rcases hpath with hpath | hpath
    · exact room_of_approvedOutcome (EntryPath.approved.inj hpath)
    · cases hpath
  | none =>
    rw [happroval] at hpath
    rcases hpath with hpath | hpath
    · cases hpath
    · exact room_of_directOutcome (EntryPath.direct.inj hpath)

end Rooms

end AutoTrader
