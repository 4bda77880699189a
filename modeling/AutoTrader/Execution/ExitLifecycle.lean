/-
  AutoTrader/Execution/ExitLifecycle.lean
  =======================================
  **Runs of an exit order's life cycle.**

  `transition_cases` says once what an event can do to a lifecycle: it raises, it moves
  the state and the filled quantity of the same order, or it creates the intent of the
  next order.  `exit_chain_safe` is what follows for every sequence of events, and
  `redelivery_harmless` which broker reports may come twice.
-/
import AutoTrader.Execution.ExitPolicy
import Mathlib.Tactic.Linarith

namespace AutoTrader

/-! ### Events -/

inductive ExitEvent where
  | markStale
  | markCancelPending
  | observe (report : BrokerReport)
  | replacement (quote : ExitQuote) (now : Option IntentTime) (secondsToClose : Option Number)
      (reason : String)

def ExitEvent.transition (policy : ExitPolicy) (l : ExitOrderLifecycle) : ExitEvent → Except Exn ExitTransition
  | .markStale => l.markStale
  | .markCancelPending => l.markCancelPending
  | .observe report => l.observeBrokerStatus report
  | .replacement quote now secondsToClose reason => l.replacement policy quote now secondsToClose reason

/-- The time a replacement is asked for at. -/
def ExitEvent.now? : ExitEvent → Option IntentTime
  | .replacement _ now _ _ => now
  | _ => none

/-- The states a replacement is created from. -/
def ExitOrderState.replaceable : ExitOrderState → Bool
  | .cancelled => true
  | .rejected => true
  | _ => false

/-! ### Valid lifecycles -/

/-- What `__post_init__` checks. -/
structure ExitOrderLifecycle.Valid (l : ExitOrderLifecycle) : Prop where
  orderId : Text.blank l.orderId = false
  symbol : ∃ symbol, exitSymbol l.symbol = .ok symbol
  requested_pos : 0 < l.requestedQuantity
  filled_nonneg : 0 ≤ l.filledQuantity
  remaining_nonneg : 0 ≤ l.remainingQuantity
  reconciled : l.filledQuantity + l.remainingQuantity = l.requestedQuantity
  count_nonneg : 0 ≤ l.requoteCount

theorem postInit_of_valid {l : ExitOrderLifecycle} (hl : l.Valid) : l.postInit = .ok l := by
  obtain ⟨symbol, hsymbol⟩ := hl.symbol
  unfold ExitOrderLifecycle.postInit
  simp [hl.orderId, hsymbol, not_le.mpr hl.requested_pos, not_lt.mpr hl.filled_nonneg,
    not_lt.mpr hl.remaining_nonneg, hl.reconciled, not_lt.mpr hl.count_nonneg, Bind.bind, Except.bind]

theorem valid_of_postInit {l l' : ExitOrderLifecycle} (h : l.postInit = .ok l') : l' = l ∧ l.Valid := by
  unfold ExitOrderLifecycle.postInit at h
  split at h
  · cases h
  rename_i horder
  cases hsymbol : exitSymbol l.symbol with
  | error e => rw [hsymbol] at h; cases h
  | ok symbol =>
    rw [hsymbol] at h
    simp only [Bind.bind, Except.bind] at h
    split_ifs at h with hreq hfilled hremaining hsum hcount
    cases h
    exact ⟨rfl, by simpa using horder, ⟨symbol, hsymbol⟩, not_le.mp hreq, not_lt.mp hfilled,
      not_lt.mp hremaining, not_not.mp hsum, not_lt.mp hcount⟩

/-- The same order in another state and with another filled quantity. -/
def ExitOrderLifecycle.moved (l : ExitOrderLifecycle) (state : ExitOrderState) (filled : Int) :
    ExitOrderLifecycle :=
  { l with state := state, filledQuantity := filled, remainingQuantity := l.requestedQuantity - filled }

theorem ExitOrderLifecycle.Valid.moved {l : ExitOrderLifecycle} (hl : l.Valid) (state : ExitOrderState)
    {filled : Int} (hfilled : 0 ≤ filled) (hle : filled ≤ l.requestedQuantity) :
    (l.moved state filled).Valid where
  orderId := hl.orderId
  symbol := hl.symbol
  requested_pos := hl.requested_pos
  filled_nonneg := hfilled
  remaining_nonneg := sub_nonneg.mpr hle
  reconciled := add_sub_cancel _ _
  count_nonneg := hl.count_nonneg

theorem ExitOrderLifecycle.Valid.remaining_eq {l : ExitOrderLifecycle} (hl : l.Valid) :
    l.requestedQuantity - l.filledQuantity = l.remainingQuantity := by
  have := hl.reconciled
  omega

theorem ExitOrderLifecycle.Valid.filled_le {l : ExitOrderLifecycle} (hl : l.Valid) :
    l.filledQuantity ≤ l.requestedQuantity := by
  have := hl.reconciled
  have := hl.remaining_nonneg
  omega

/-- A change of the state alone. -/
theorem ExitOrderLifecycle.Valid.withState {l : ExitOrderLifecycle} (hl : l.Valid) (state : ExitOrderState) :
    { l with state := state } = l.moved state l.filledQuantity := by
  unfold ExitOrderLifecycle.moved
  rw [hl.remaining_eq]

theorem ExitOrderLifecycle.Valid.moved_self {l : ExitOrderLifecycle} (hl : l.Valid) :
    l.moved l.state l.filledQuantity = l := by
  rw [← hl.withState l.state]

/-! ### What an event does -/

/-- The quantities of a terminal report that reconciles; a fill has nothing remaining. -/
def reconcileTerminal (requested : Int) (state : ExitOrderState)
    (quantities : ReportQuantity × ReportQuantity) : Option Int :=
  match reconcileQuantities requested quantities with
  | some (filled, remaining) => if state = .filled ∧ remaining ≠ 0 then none else some filled
  | none => none

/-- The filled quantity that a report states for a lifecycle it reconciles with. -/
def BrokerReport.statedFilled (report : BrokerReport) (l : ExitOrderLifecycle) : Option Int :=
  match readBrokerStatus report.status,
    reportQuantities l.requestedQuantity report.filledQuantity report.remainingQuantity with
  | .working, .ok (some quantities) => (reconcileQuantities l.requestedQuantity quantities).map Prod.fst
  | .terminal state, .ok quantities =>
    reconcileTerminal l.requestedQuantity state (quantities.getD (l.impliedQuantities state))
  | _, _ => none

/-- The state that a report moves a lifecycle to; `none` where it stays. -/
def BrokerReport.target (report : BrokerReport) (l : ExitOrderLifecycle) : Option ExitOrderState :=
  match readBrokerStatus report.status,
    reportQuantities l.requestedQuantity report.filledQuantity report.remainingQuantity with
  | .unclear, _ => some .unknown
  | .unrecognized, _ => some .unknown
  | .working, .ok (some quantities) =>
    match reconcileQuantities l.requestedQuantity quantities with
    | some _ => none
    | none => some .unknown
  | .terminal state, .ok quantities =>
    match reconcileTerminal l.requestedQuantity state (quantities.getD (l.impliedQuantities state)) with
    | some _ => some state
    | none => some .unknown
  | _, _ => none

def ExitEvent.statedFilled (l : ExitOrderLifecycle) : ExitEvent → Option Int
  | .observe report => report.statedFilled l
  | _ => none

def ExitEvent.target (l : ExitOrderLifecycle) : ExitEvent → Option ExitOrderState
  | .markStale =>
    if l.state = .submitted ∨ l.state = .replacementIntentCreated then some .stale else none
  | .markCancelPending => if l.state = .stale then some .cancelPending else none
  | .observe report => report.target l
  | .replacement .. => none

/-- The event moves the lifecycle within its order, and creates nothing. -/
structure StaysWithin (l : ExitOrderLifecycle) (e : ExitEvent) (t : ExitTransition) : Prop where
  intent : t.intent = none
  action : t.action ≠ .createReplacementIntent
  lifecycle : t.lifecycle = l.moved ((e.target l).getD l.state) ((e.statedFilled l).getD l.filledQuantity)
  confirmed : t.action = .terminalConfirmed ∨ (t.lifecycle.state.replaceable = true → t.lifecycle.state = l.state)

theorem reconcileQuantities_bounds {requested filled remaining : Int}
    {quantities : ReportQuantity × ReportQuantity}
    (h : reconcileQuantities requested quantities = some (filled, remaining)) :
    0 ≤ filled ∧ 0 ≤ remaining ∧ filled + remaining = requested := by
  unfold reconcileQuantities at h
  split at h
  · split at h
    · cases h
    · rename_i hcheck
      cases h
      simpa only [not_or, not_lt, not_not] using hcheck
  · cases h

/-- A report that reconciles states a quantity within the requested one. -/
theorem statedFilled_bounds {l : ExitOrderLifecycle} {e : ExitEvent} {filled : Int}
    (h : e.statedFilled l = some filled) : 0 ≤ filled ∧ filled ≤ l.requestedQuantity := by
  have hbounds : ∀ {quantities : ReportQuantity × ReportQuantity} {remaining : Int},
      reconcileQuantities l.requestedQuantity quantities = some (filled, remaining) →
      0 ≤ filled ∧ filled ≤ l.requestedQuantity := by
    intro quantities remaining hrec
    obtain ⟨hfilled, hremaining, hsum⟩ := reconcileQuantities_bounds hrec
    exact ⟨hfilled, by omega⟩
  have hterminal : ∀ {state : ExitOrderState} {quantities : ReportQuantity × ReportQuantity},
      reconcileTerminal l.requestedQuantity state quantities = some filled →
      0 ≤ filled ∧ filled ≤ l.requestedQuantity := by
    intro state quantities h
    unfold reconcileTerminal at h
    cases hrec : reconcileQuantities l.requestedQuantity quantities with
    | none => rw [hrec] at h; cases h
    | some both =>
      rw [hrec] at h
      simp only at h
      split at h
      · cases h
      · cases h
        exact hbounds hrec
  cases e with
  | observe report =>
    change report.statedFilled l = some filled at h
    unfold BrokerReport.statedFilled at h
    cases hstatus : readBrokerStatus report.status with
    | working =>
      rw [hstatus] at h
      cases hquantities : reportQuantities l.requestedQuantity report.filledQuantity
        report.remainingQuantity with
      | error e => rw [hquantities] at h; cases h
      | ok quantities =>
        rw [hquantities] at h
        cases quantities with
        | none => cases h
        | some quantities =>
          obtain ⟨⟨_, remaining⟩, hrec, rfl⟩ := Option.map_eq_some_iff.mp h
          exact hbounds hrec
    | terminal state =>
      rw [hstatus] at h
      cases hquantities : reportQuantities l.requestedQuantity report.filledQuantity
        report.remainingQuantity with
      | error e => rw [hquantities] at h; cases h
      | ok quantities => rw [hquantities] at h; exact hterminal h
    | unclear => rw [hstatus] at h; cases h
    | unrecognized => rw [hstatus] at h; cases h
  | _ => cases h

section Reports

variable {l : ExitOrderLifecycle} (hl : l.Valid)

include hl

theorem reconcileQuantities_some {quantities : ReportQuantity × ReportQuantity} {filled remaining : Int}
    (h : reconcileQuantities l.requestedQuantity quantities = some (filled, remaining)) :
    { l with filledQuantity := filled, remainingQuantity := remaining } = l.moved l.state filled ∧
      (l.moved l.state filled).Valid := by
  obtain ⟨hfilled, hremaining, hsum⟩ := reconcileQuantities_bounds h
  refine ⟨?_, hl.moved _ hfilled (by omega)⟩
  unfold ExitOrderLifecycle.moved
  rw [← hsum, add_sub_cancel_left]

theorem toUnknown_eq (reason : String) :
    l.toUnknown reason = .ok { lifecycle := l.moved .unknown l.filledQuantity, action := .operatorReview
                               reason := reason, operatorReview := true } := by
  unfold ExitOrderLifecycle.toUnknown
  rw [hl.withState, postInit_of_valid (hl.moved _ hl.filled_nonneg hl.filled_le)]
  rfl

/-- A report that moves the lifecycle to UNKNOWN. -/
theorem staysWithin_unknown {report : BrokerReport} {t : ExitTransition} {reason : String}
    (htarget : report.target l = some .unknown) (hstated : report.statedFilled l = none)
    (h : l.toUnknown reason = .ok t) : StaysWithin l (.observe report) t := by
  rw [toUnknown_eq hl] at h
  cases h
  refine ⟨rfl, nofun, ?_, .inr nofun⟩
  simp only [ExitEvent.target, ExitEvent.statedFilled, htarget, hstated, Option.getD_some, Option.getD_none]

theorem observeWorking_cases {report : BrokerReport} (hstatus : readBrokerStatus report.status = .working)
    {quantities : Option (ReportQuantity × ReportQuantity)}
    (hquantities : reportQuantities l.requestedQuantity report.filledQuantity report.remainingQuantity =
      .ok quantities) :
    ∃ t, l.observeWorking quantities = .ok t ∧ StaysWithin l (.observe report) t := by
  have htarget : report.target l = quantities.bind fun quantities =>
      match reconcileQuantities l.requestedQuantity quantities with
      | some _ => none
      | none => some .unknown := by
    unfold BrokerReport.target
    rw [hstatus, hquantities]
    cases quantities <;> rfl
  have hstated : report.statedFilled l = quantities.bind fun quantities =>
      (reconcileQuantities l.requestedQuantity quantities).map Prod.fst := by
    unfold BrokerReport.statedFilled
    rw [hstatus, hquantities]
    cases quantities <;> rfl
  cases quantities with
  | none =>
    refine ⟨_, rfl, rfl, nofun, ?_, .inr fun _ => rfl⟩
    simp only [ExitEvent.target, ExitEvent.statedFilled, htarget, hstated, Option.bind_none,
      Option.getD_none]
    exact hl.moved_self.symm
  | some quantities =>
    unfold ExitOrderLifecycle.observeWorking
    simp only [Option.bind_some] at htarget hstated ⊢
    cases hrec : reconcileQuantities l.requestedQuantity quantities with
    | none =>
      rw [hrec] at htarget hstated
      exact ⟨_, toUnknown_eq hl _, staysWithin_unknown hl htarget hstated (toUnknown_eq hl _)⟩
    | some both =>
      obtain ⟨filled, remaining⟩ := both
      rw [hrec] at htarget hstated
      obtain ⟨heq, hvalid⟩ := reconcileQuantities_some hl hrec
      simp only
      rw [heq, postInit_of_valid hvalid]
      refine ⟨_, rfl, rfl, nofun, ?_, .inr fun _ => rfl⟩
      simp only [ExitEvent.target, ExitEvent.statedFilled, htarget, hstated]
      rfl

theorem observeTerminal_cases {report : BrokerReport} {state : ExitOrderState}
    (hstatus : readBrokerStatus report.status = .terminal state)
    {quantities : Option (ReportQuantity × ReportQuantity)}
    (hquantities : reportQuantities l.requestedQuantity report.filledQuantity report.remainingQuantity =
      .ok quantities) :
    ∃ t, l.observeTerminal state (quantities.getD (l.impliedQuantities state)) = .ok t ∧
      StaysWithin l (.observe report) t := by
  have hstated : report.statedFilled l =
      reconcileTerminal l.requestedQuantity state (quantities.getD (l.impliedQuantities state)) := by
    unfold BrokerReport.statedFilled
    rw [hstatus, hquantities]
  have htarget : report.target l =
      match reconcileTerminal l.requestedQuantity state (quantities.getD (l.impliedQuantities state)) with
      | some _ => some state
      | none => some .unknown := by
    unfold BrokerReport.target
    rw [hstatus, hquantities]
  unfold ExitOrderLifecycle.observeTerminal
  cases hrec : reconcileQuantities l.requestedQuantity (quantities.getD (l.impliedQuantities state)) with
  | none =>
    have hnone : reconcileTerminal l.requestedQuantity state
        (quantities.getD (l.impliedQuantities state)) = none := by
      unfold reconcileTerminal
      rw [hrec]
    rw [hnone] at htarget hstated
    exact ⟨_, toUnknown_eq hl _, staysWithin_unknown hl htarget hstated (toUnknown_eq hl _)⟩
  | some both =>
    obtain ⟨filled, remaining⟩ := both
    by_cases hopen : state = .filled ∧ remaining ≠ 0
    · have hnone : reconcileTerminal l.requestedQuantity state
          (quantities.getD (l.impliedQuantities state)) = none := by
        unfold reconcileTerminal
        rw [hrec]
        exact if_pos hopen
      rw [hnone] at htarget hstated
      simp only
      rw [if_pos hopen]
      exact ⟨_, toUnknown_eq hl _, staysWithin_unknown hl htarget hstated (toUnknown_eq hl _)⟩
    · have hsome : reconcileTerminal l.requestedQuantity state
          (quantities.getD (l.impliedQuantities state)) = some filled := by
        unfold reconcileTerminal
        rw [hrec]
        exact if_neg hopen
      rw [hsome] at htarget hstated
      simp only
      rw [if_neg hopen]
      obtain ⟨heq, hvalid⟩ := reconcileQuantities_some hl hrec
      have hmoved : { l with state := state, filledQuantity := filled, remainingQuantity := remaining } =
          l.moved state filled := congrArg (fun l' : ExitOrderLifecycle => { l' with state := state }) heq
      have hvalid' : (l.moved state filled).Valid :=
        hl.moved state hvalid.filled_nonneg hvalid.filled_le
      rw [hmoved, postInit_of_valid hvalid']
      refine ⟨_, rfl, rfl, nofun, ?_, .inl rfl⟩
      simp only [ExitEvent.target, ExitEvent.statedFilled, htarget, hstated]
      rfl

theorem observeBrokerStatus_cases (report : BrokerReport) :
    (∃ e, l.observeBrokerStatus report = .error e ∧ report.target l = none ∧
      report.statedFilled l = none) ∨
    ∃ t, l.observeBrokerStatus report = .ok t ∧ StaysWithin l (.observe report) t := by
  unfold ExitOrderLifecycle.observeBrokerStatus
  cases hstatus : readBrokerStatus report.status with
  | unclear =>
    refine .inr ⟨_, toUnknown_eq hl _, staysWithin_unknown hl ?_ ?_ (toUnknown_eq hl _)⟩
    · unfold BrokerReport.target
      rw [hstatus]
    · unfold BrokerReport.statedFilled
      rw [hstatus]
  | unrecognized =>
    refine .inr ⟨_, toUnknown_eq hl _, staysWithin_unknown hl ?_ ?_ (toUnknown_eq hl _)⟩
    · unfold BrokerReport.target
      rw [hstatus]
    · unfold BrokerReport.statedFilled
      rw [hstatus]
  | working =>
    cases hquantities : reportQuantities l.requestedQuantity report.filledQuantity report.remainingQuantity with
    | error e =>
      refine .inl ⟨e, rfl, ?_, ?_⟩
      · unfold BrokerReport.target
        rw [hstatus, hquantities]
      · unfold BrokerReport.statedFilled
        rw [hstatus, hquantities]
    | ok quantities => exact .inr (observeWorking_cases hl hstatus hquantities)
  | terminal state =>
    cases hquantities : reportQuantities l.requestedQuantity report.filledQuantity report.remainingQuantity with
    | error e =>
      refine .inl ⟨e, rfl, ?_, ?_⟩
      · unfold BrokerReport.target
        rw [hstatus, hquantities]
      · unfold BrokerReport.statedFilled
        rw [hstatus, hquantities]
    | ok quantities => exact .inr (observeTerminal_cases hl hstatus hquantities)

end Reports

/-! ### Replacements -/

/-- The lifecycle of the order that a replacement at `now` asks for. -/
def ExitOrderLifecycle.rebased (l : ExitOrderLifecycle) (now : Option IntentTime) : ExitOrderLifecycle :=
  { l with
    state := .replacementIntentCreated
    requestedQuantity := l.remainingQuantity
    filledQuantity := 0
    lastIntentAt := now
    requoteCount := l.requoteCount + 1 }

/-- The event creates the intent `i`. -/
structure Creates (policy : ExitPolicy) (l : ExitOrderLifecycle) (e : ExitEvent) (t : ExitTransition)
    (i : SellOrderIntent) : Prop where
  intent : t.intent = some i
  action : t.action = .createReplacementIntent
  lifecycle : t.lifecycle = l.rebased e.now?
  replaceable : l.state.replaceable = true
  quantity : i.quantity = l.remainingQuantity
  remaining_pos : 0 < l.remainingQuantity
  requotes : l.requoteCount < policy.config.maxRequotes
  interval : i.urgent = true ∨ policy.intervalElapsed l.lastIntentAt e.now? = true

theorem ExitOrderLifecycle.Valid.rebased {l : ExitOrderLifecycle} (hl : l.Valid)
    (hpos : 0 < l.remainingQuantity) (now : Option IntentTime) : (l.rebased now).Valid where
  orderId := hl.orderId
  symbol := hl.symbol
  requested_pos := hpos
  filled_nonneg := le_rfl
  remaining_nonneg := hl.remaining_nonneg
  reconciled := zero_add _
  count_nonneg := add_nonneg hl.count_nonneg zero_le_one

theorem planSellLimit_urgent {policy : ExitPolicy} {quote : ExitQuote} {secondsToClose : Option Number}
    {plan : SellLimitPlan} (h : policy.planSellLimit quote secondsToClose = .ok plan) :
    policy.isCloseUrgent secondsToClose = .ok plan.urgent := by
  unfold ExitPolicy.planSellLimit at h
  obtain ⟨bid, -, h⟩ := Except.bind_eq_ok h
  obtain ⟨current, -, h⟩ := Except.bind_eq_ok h
  obtain ⟨ask, -, h⟩ := Except.bind_eq_ok h
  split at h
  · cases h
  obtain ⟨⟨price, tick⟩, -, h⟩ := Except.bind_eq_ok h
  simp only at h
  split at h
  · cases h
  obtain ⟨urgent, hurgent, h⟩ := Except.bind_eq_ok h
  cases h
  exact hurgent

theorem sellIntent_postInit {intent intent' : SellOrderIntent} (h : intent.postInit = .ok intent') :
    intent' = intent := by
  unfold SellOrderIntent.postInit at h
  obtain ⟨_, -, h⟩ := Except.bind_eq_ok h
  split at h
  · cases h
  split at h
  · cases h
  split at h
  · cases h
  split at h
  · cases h
  cases h
  rfl

theorem createSellIntent_ok {policy : ExitPolicy} {symbol reason orderType : String} {quantity requoteCount : Int}
    {quote : ExitQuote} {replacementOf : Option String} {secondsToClose : Option Number}
    {intent : SellOrderIntent}
    (h : policy.createSellIntent symbol quantity quote reason requoteCount replacementOf secondsToClose
      orderType = .ok intent) :
    intent.quantity = quantity ∧ policy.isCloseUrgent secondsToClose = .ok intent.urgent := by
  unfold ExitPolicy.createSellIntent at h
  obtain ⟨_, -, h⟩ := Except.bind_eq_ok h
  split at h
  · cases h
  split at h
  · cases h
  obtain ⟨_, -, h⟩ := Except.bind_eq_ok h
  obtain ⟨plan, hplan, h⟩ := Except.bind_eq_ok h
  simp only at h
  cases sellIntent_postInit h
  exact ⟨rfl, planSellLimit_urgent hplan⟩

/-- A mark that moves the state. -/
theorem staysWithin_mark {l : ExitOrderLifecycle} {e : ExitEvent} {t : ExitTransition} {state : ExitOrderState}
    (htarget : e.target l = some state) (hstated : e.statedFilled l = none)
    (hstate : state.replaceable = false) (hintent : t.intent = none)
    (haction : t.action ≠ .createReplacementIntent)
    (hlifecycle : t.lifecycle = l.moved state l.filledQuantity) : StaysWithin l e t where
  intent := hintent
  action := haction
  lifecycle := by rw [htarget, hstated, hlifecycle]; rfl
  confirmed := .inr fun h => by
    rw [hlifecycle] at h
    exact absurd (hstate.symm.trans h) (by decide)

section Transitions

variable {l : ExitOrderLifecycle} (hl : l.Valid)

include hl

theorem createReplacement_cases {policy : ExitPolicy} {quote : ExitQuote} {now : Option IntentTime}
    {secondsToClose : Option Number} {reason : String} (hstate : l.state.replaceable = true)
    (hremaining : l.remainingQuantity ≠ 0) (hrequotes : l.requoteCount < policy.config.maxRequotes)
    {urgent : Bool} (hurgent : policy.isCloseUrgent secondsToClose = .ok urgent)
    (hinterval : urgent = true ∨ policy.intervalElapsed l.lastIntentAt now = true) :
    (∃ e, l.createReplacement policy quote now secondsToClose reason = .error e) ∨
    ∃ t i, l.createReplacement policy quote now secondsToClose reason = .ok t ∧
      Creates policy l (.replacement quote now secondsToClose reason) t i := by
  have hpos : 0 < l.remainingQuantity := lt_of_le_of_ne hl.remaining_nonneg hremaining.symm
  unfold ExitOrderLifecycle.createReplacement
  cases hintent : policy.createSellIntent l.symbol l.remainingQuantity quote reason (l.requoteCount + 1)
    (some l.orderId) secondsToClose "LIMIT" with
  | error e => exact .inl ⟨e, rfl⟩
  | ok intent =>
    obtain ⟨hquantity, hintentUrgent⟩ := createSellIntent_ok hintent
    have heq := hurgent.symm.trans hintentUrgent
    cases heq
    have hvalid := postInit_of_valid (hl.rebased hpos now)
    unfold ExitOrderLifecycle.rebased at hvalid
    simp only [Bind.bind, Except.bind, hvalid]
    exact .inr ⟨_, intent, rfl, rfl, rfl, rfl, hstate, hquantity, hpos, hrequotes, hinterval⟩

/-- A replacement call that returns the lifecycle as it is. -/
theorem staysWithin_self {e : ExitEvent} {t : ExitTransition} (htarget : e.target l = none)
    (hstated : e.statedFilled l = none) (hintent : t.intent = none)
    (haction : t.action ≠ .createReplacementIntent) (hlifecycle : t.lifecycle = l) : StaysWithin l e t where
  intent := hintent
  action := haction
  lifecycle := by rw [htarget, hstated, hlifecycle]; exact hl.moved_self.symm
  confirmed := .inr fun _ => by rw [hlifecycle]

omit hl in
theorem replacement_of_replaceable {policy : ExitPolicy} {quote : ExitQuote} {now : Option IntentTime}
    {secondsToClose : Option Number} {reason : String} (h : l.state.replaceable = true) :
    l.replacement policy quote now secondsToClose reason =
      l.replaceEnded policy quote now secondsToClose reason := by
  unfold ExitOrderLifecycle.replacement
  cases hstate : l.state <;> rw [hstate] at h <;> first | rfl | cases h

omit hl in
/-- From any other state, a replacement call returns the lifecycle as it is. -/
theorem replacement_returns {policy : ExitPolicy} {quote : ExitQuote} {now : Option IntentTime}
    {secondsToClose : Option Number} {reason : String} (h : l.state.replaceable ≠ true) :
    ∃ t, l.replacement policy quote now secondsToClose reason = .ok t ∧ t.intent = none ∧
      t.action ≠ .createReplacementIntent ∧ t.lifecycle = l := by
  unfold ExitOrderLifecycle.replacement
  cases hstate : l.state with
  | cancelled => rw [hstate] at h; exact absurd rfl h
  | rejected => rw [hstate] at h; exact absurd rfl h
  | submitted =>
    simp only
    split
    · exact ⟨_, rfl, rfl, nofun, rfl⟩
    · exact ⟨_, rfl, rfl, nofun, rfl⟩
  | _ => exact ⟨_, rfl, rfl, nofun, rfl⟩

theorem replacement_cases (policy : ExitPolicy) (quote : ExitQuote) (now : Option IntentTime)
    (secondsToClose : Option Number) (reason : String) :
    (∃ e, l.replacement policy quote now secondsToClose reason = .error e) ∨
    (∃ t, l.replacement policy quote now secondsToClose reason = .ok t ∧
      StaysWithin l (.replacement quote now secondsToClose reason) t) ∨
    ∃ t i, l.replacement policy quote now secondsToClose reason = .ok t ∧
      Creates policy l (.replacement quote now secondsToClose reason) t i := by
  have hstays : ∀ t : ExitTransition, t.intent = none → t.action ≠ .createReplacementIntent →
      t.lifecycle = l → StaysWithin l (.replacement quote now secondsToClose reason) t :=
    fun t => staysWithin_self hl rfl rfl
  have hwait : ∀ {action : ExitAction} {why : String} {review : Bool},
      l.replacement policy quote now secondsToClose reason = .ok ⟨l, action, why, none, review⟩ →
      action ≠ .createReplacementIntent →
      ∃ t, l.replacement policy quote now secondsToClose reason = .ok t ∧
        StaysWithin l (.replacement quote now secondsToClose reason) t :=
    fun h haction => ⟨_, h, hstays _ rfl haction rfl⟩
  by_cases hreplaceable : l.state.replaceable = true
  · -- CANCELLED or REJECTED: the one place where an intent may be created
    have hrun : l.replacement policy quote now secondsToClose reason =
        l.replaceEnded policy quote now secondsToClose reason := replacement_of_replaceable hreplaceable
    unfold ExitOrderLifecycle.replaceEnded at hrun
    by_cases hremaining : l.remainingQuantity = 0
    · rw [if_pos hremaining] at hrun
      exact .inr (.inl (hwait hrun nofun))
    rw [if_neg hremaining] at hrun
    by_cases hrequotes : (policy.config.maxRequotes : Int) ≤ l.requoteCount
    · rw [if_pos hrequotes] at hrun
      exact .inr (.inl (hwait hrun nofun))
    rw [if_neg hrequotes] at hrun
    cases hurgent : policy.isCloseUrgent secondsToClose with
    | error e =>
      rw [hurgent] at hrun
      exact .inl ⟨e, hrun⟩
    | ok urgent =>
      rw [hurgent] at hrun
      simp only [Bind.bind, Except.bind] at hrun
      by_cases hearly : (!urgent && !policy.intervalElapsed l.lastIntentAt now) = true
      · rw [if_pos hearly] at hrun
        exact .inr (.inl (hwait hrun nofun))
      · rw [if_neg hearly] at hrun
        have hinterval : urgent = true ∨ policy.intervalElapsed l.lastIntentAt now = true := by
          simpa [imp_iff_not_or] using hearly
        rw [hrun]
        rcases createReplacement_cases hl hreplaceable hremaining (not_le.mp hrequotes) hurgent hinterval
          with h | h
        · exact .inl h
        · exact .inr (.inr h)
  · obtain ⟨t, hrun, hintent, haction, hlifecycle⟩ := replacement_returns hreplaceable
    exact .inr (.inl ⟨t, hrun, hstays t hintent haction hlifecycle⟩)

theorem markStale_cases : ∃ t, l.markStale = .ok t ∧ StaysWithin l .markStale t := by
  have hvalid : ({ l with state := .stale } : ExitOrderLifecycle).postInit =
      .ok (l.moved .stale l.filledQuantity) := by
    rw [hl.withState]
    exact postInit_of_valid (hl.moved _ hl.filled_nonneg hl.filled_le)
  have hstays : ∀ t : ExitTransition, l.state ≠ .submitted → l.state ≠ .replacementIntentCreated →
      t.intent = none → t.action ≠ .createReplacementIntent → t.lifecycle = l →
      StaysWithin l .markStale t :=
    fun t hsubmitted hcreated => staysWithin_self hl (if_neg (not_or.mpr ⟨hsubmitted, hcreated⟩)) rfl
  unfold ExitOrderLifecycle.markStale
  cases hstate : l.state with
  | submitted =>
    simp only [hvalid, Bind.bind, Except.bind]
    exact ⟨_, rfl, staysWithin_mark (if_pos (.inl hstate)) rfl rfl rfl nofun rfl⟩
  | replacementIntentCreated =>
    simp only [hvalid, Bind.bind, Except.bind]
    exact ⟨_, rfl, staysWithin_mark (if_pos (.inr hstate)) rfl rfl rfl nofun rfl⟩
  | _ => exact ⟨_, rfl, hstays _ (by rw [hstate]; nofun) (by rw [hstate]; nofun) rfl nofun rfl⟩

theorem markCancelPending_cases : ∃ t, l.markCancelPending = .ok t ∧ StaysWithin l .markCancelPending t := by
  have hvalid : ({ l with state := .cancelPending } : ExitOrderLifecycle).postInit =
      .ok (l.moved .cancelPending l.filledQuantity) := by
    rw [hl.withState]
    exact postInit_of_valid (hl.moved _ hl.filled_nonneg hl.filled_le)
  have hstays : ∀ t : ExitTransition, l.state ≠ .stale → t.intent = none →
      t.action ≠ .createReplacementIntent → t.lifecycle = l → StaysWithin l .markCancelPending t :=
    fun t hstale => staysWithin_self hl (if_neg hstale) rfl
  unfold ExitOrderLifecycle.markCancelPending
  cases hstate : l.state with
  | stale =>
    simp only [hvalid, Bind.bind, Except.bind]
    exact ⟨_, rfl, staysWithin_mark (if_pos hstate) rfl rfl rfl nofun rfl⟩
  | _ => exact ⟨_, rfl, hstays _ (by rw [hstate]; nofun) rfl nofun rfl⟩

/-- What an event can do to a valid lifecycle. -/
theorem transition_cases (policy : ExitPolicy) (e : ExitEvent) :
    (∃ exn, e.transition policy l = .error exn ∧ e.target l = none ∧ e.statedFilled l = none) ∨
    (∃ t, e.transition policy l = .ok t ∧ StaysWithin l e t) ∨
    ∃ t i, e.transition policy l = .ok t ∧ Creates policy l e t i := by
  cases e with
  | markStale => exact .inr (.inl (markStale_cases hl))
  | markCancelPending => exact .inr (.inl (markCancelPending_cases hl))
  | observe report =>
    rcases observeBrokerStatus_cases hl report with ⟨exn, h, htarget, hstated⟩ | h
    · exact .inl ⟨exn, h, htarget, hstated⟩
    · exact .inr (.inl h)
  | replacement quote now secondsToClose reason =>
    rcases replacement_cases hl policy quote now secondsToClose reason with ⟨exn, h⟩ | h | h
    · exact .inl ⟨exn, h, rfl, rfl⟩
    · exact .inr (.inl h)
    · exact .inr (.inr h)

end Transitions

/-! ### Chains -/

/-- One event of a run: the lifecycle before it, and what the call returned or raised. -/
structure ExitStep where
  before : ExitOrderLifecycle
  event : ExitEvent
  outcome : Except Exn ExitTransition

namespace ExitStep

variable (s : ExitStep)

/-- The lifecycle the caller goes on with; a call that raises leaves it. -/
def after : ExitOrderLifecycle :=
  match s.outcome with
  | .ok t => t.lifecycle
  | .error _ => s.before

def intent : Option SellOrderIntent :=
  match s.outcome with
  | .ok t => t.intent
  | .error _ => none

/-- The state that a report confirmed as terminal. -/
def confirmed : Option ExitOrderState :=
  match s.outcome with
  | .ok t => if t.action = .terminalConfirmed then some t.lifecycle.state else none
  | .error _ => none

/-- The call raised, or told its caller to wait or to look. -/
def declined : Prop :=
  match s.outcome with
  | .ok t => t.action = .wait ∨ t.action = .operatorReview
  | .error _ => True

end ExitStep

def ExitEvent.step (policy : ExitPolicy) (l : ExitOrderLifecycle) (e : ExitEvent) : ExitStep :=
  ⟨l, e, e.transition policy l⟩

/-- The runs of a chain: what happened, the last first, and the lifecycle reached. -/
inductive ExitChain (policy : ExitPolicy) (start : ExitOrderLifecycle) :
    List ExitStep → ExitOrderLifecycle → Prop
  | start : ExitChain policy start [] start
  | event {past : List ExitStep} {l : ExitOrderLifecycle} (e : ExitEvent) :
      ExitChain policy start past l → ExitChain policy start (e.step policy l :: past) (e.step policy l).after

/-- The intents a run created. -/
def chainIntents (past : List ExitStep) : List SellOrderIntent := past.filterMap ExitStep.intent

/-- The requested quantity: that of the last intent, or of the chain's start. -/
def requestedIn (start : ExitOrderLifecycle) : List ExitStep → Int
  | [] => start.requestedQuantity
  | s :: past => match s.intent with
    | some i => i.quantity
    | none => requestedIn start past

/-- The filled quantity last accepted for the order of the last intent. -/
def acceptedIn : List ExitStep → Int
  | [] => 0
  | s :: past => match s.intent with
    | some _ => 0
    | none => (s.event.statedFilled s.before).getD (acceptedIn past)

/-- When the last intent was created, or the chain started. -/
def intentTimeIn (start : ExitOrderLifecycle) : List ExitStep → Option IntentTime
  | [] => start.lastIntentAt
  | s :: past => match s.intent with
    | some _ => s.event.now?
    | none => intentTimeIn start past

/-- The terminal state last confirmed since the last intent. -/
def confirmedIn : List ExitStep → Option ExitOrderState
  | [] => none
  | s :: past => match s.intent with
    | some _ => none
    | none => s.confirmed.or (confirmedIn past)

/-- The lifecycle agrees with what happened. -/
structure Tracks (policy : ExitPolicy) (start : ExitOrderLifecycle) (past : List ExitStep)
    (l : ExitOrderLifecycle) : Prop where
  valid : l.Valid
  requested : l.requestedQuantity = requestedIn start past
  filled : l.filledQuantity = acceptedIn past
  count : l.requoteCount = (chainIntents past).length
  bounded : (chainIntents past).length ≤ policy.config.maxRequotes
  lastIntentAt : l.lastIntentAt = intentTimeIn start past
  confirmed : l.state.replaceable = true → confirmedIn past = some l.state

section Chains

variable {policy : ExitPolicy} {start l : ExitOrderLifecycle} {past : List ExitStep} {e : ExitEvent}

theorem step_ok {t : ExitTransition} (hrun : e.transition policy l = .ok t) :
    (e.step policy l).after = t.lifecycle ∧ (e.step policy l).intent = t.intent ∧
      (e.step policy l).confirmed =
        if t.action = .terminalConfirmed then some t.lifecycle.state else none := by
  unfold ExitEvent.step ExitStep.after ExitStep.intent ExitStep.confirmed
  rw [hrun]
  exact ⟨rfl, rfl, rfl⟩

theorem step_error {exn : Exn} (hrun : e.transition policy l = .error exn) :
    (e.step policy l).after = l ∧ (e.step policy l).intent = none ∧ (e.step policy l).confirmed = none := by
  unfold ExitEvent.step ExitStep.after ExitStep.intent ExitStep.confirmed
  rw [hrun]
  exact ⟨rfl, rfl, rfl⟩

theorem step_valid (hl : l.Valid) (e : ExitEvent) : (e.step policy l).after.Valid := by
  rcases transition_cases hl policy e with ⟨exn, hrun, -⟩ | ⟨t, hrun, ht⟩ | ⟨t, i, hrun, ht⟩
  · rw [(step_error hrun).1]
    exact hl
  · rw [(step_ok hrun).1, ht.lifecycle]
    cases hstated : e.statedFilled l with
    | none => exact hl.moved _ hl.filled_nonneg hl.filled_le
    | some filled => exact hl.moved _ (statedFilled_bounds hstated).1 (statedFilled_bounds hstated).2
  · rw [(step_ok hrun).1, ht.lifecycle]
    exact hl.rebased ht.remaining_pos _

theorem chainIntents_none {s : ExitStep} (h : s.intent = none) : chainIntents (s :: past) = chainIntents past :=
  List.filterMap_cons_none h

theorem chainIntents_some {s : ExitStep} {i : SellOrderIntent} (h : s.intent = some i) :
    chainIntents (s :: past) = i :: chainIntents past :=
  List.filterMap_cons_some h

theorem Tracks.raises {exn : Exn} (h : Tracks policy start past l) (hrun : e.transition policy l = .error exn)
    (hstated : e.statedFilled l = none) :
    Tracks policy start (e.step policy l :: past) (e.step policy l).after := by
  obtain ⟨hafter, hintent, hconfirmed⟩ := step_error hrun
  rw [hafter]
  constructor
  · exact h.valid
  · rw [requestedIn, hintent]; exact h.requested
  · rw [acceptedIn, hintent, h.filled]
    exact (congrArg (Option.getD · (acceptedIn past)) hstated).symm
  · rw [chainIntents_none hintent]; exact h.count
  · rw [chainIntents_none hintent]; exact h.bounded
  · rw [intentTimeIn, hintent]; exact h.lastIntentAt
  · rw [confirmedIn, hintent, hconfirmed]; exact h.confirmed

theorem Tracks.stays {t : ExitTransition} (h : Tracks policy start past l)
    (hrun : e.transition policy l = .ok t) (ht : StaysWithin l e t) :
    Tracks policy start (e.step policy l :: past) (e.step policy l).after := by
  have hvalid : (e.step policy l).after.Valid := step_valid h.valid e
  obtain ⟨hafter, hintent, hconfirmed⟩ := step_ok hrun
  rw [ht.intent] at hintent
  rw [hafter] at hvalid ⊢
  constructor
  · exact hvalid
  · rw [requestedIn, hintent, ht.lifecycle]; exact h.requested
  · rw [acceptedIn, hintent, ht.lifecycle, ← h.filled]; rfl
  · rw [chainIntents_none hintent, ht.lifecycle]; exact h.count
  · rw [chainIntents_none hintent]; exact h.bounded
  · rw [intentTimeIn, hintent, ht.lifecycle]; exact h.lastIntentAt
  · intro hstate
    rw [confirmedIn, hintent, hconfirmed]
    simp only
    rcases ht.confirmed with hterminal | hsame
    · rw [if_pos hterminal]
      rfl
    · have heq := hsame hstate
      by_cases hterminal : t.action = .terminalConfirmed
      · rw [if_pos hterminal]
        rfl
      · rw [if_neg hterminal, heq, Option.none_or]
        exact h.confirmed (heq ▸ hstate)

theorem Tracks.creates {t : ExitTransition} {i : SellOrderIntent} (h : Tracks policy start past l)
    (hrun : e.transition policy l = .ok t) (ht : Creates policy l e t i) :
    Tracks policy start (e.step policy l :: past) (e.step policy l).after := by
  obtain ⟨hafter, hintent, -⟩ := step_ok hrun
  rw [ht.intent] at hintent
  have hcount := h.count
  have hrequotes := ht.requotes
  rw [hafter, ht.lifecycle]
  constructor
  · exact h.valid.rebased ht.remaining_pos _
  · rw [requestedIn, hintent]; exact ht.quantity.symm
  · rw [acceptedIn, hintent]; rfl
  · rw [chainIntents_some hintent, List.length_cons, ← add_zero ((_ : ℕ) : Int)]
    simp only [ExitOrderLifecycle.rebased, hcount]
    push_cast
    rfl
  · rw [chainIntents_some hintent, List.length_cons]
    omega
  · rw [intentTimeIn, hintent]; rfl
  · nofun

/-- Every event keeps the lifecycle in agreement with what happened. -/
theorem Tracks.step (h : Tracks policy start past l) (e : ExitEvent) :
    Tracks policy start (e.step policy l :: past) (e.step policy l).after := by
  rcases transition_cases h.valid policy e with ⟨exn, hrun, -, hstated⟩ | ⟨t, hrun, ht⟩ | ⟨t, i, hrun, ht⟩
  · exact h.raises hrun hstated
  · exact h.stays hrun ht
  · exact h.creates hrun ht

theorem initialLifecycle_ok {orderId symbol : String} {quantity : Int} {now : Option IntentTime}
    (h : policy.initialLifecycle orderId symbol quantity now = .ok start) :
    start.Valid ∧ start.state = .submitted ∧ start.requestedQuantity = quantity ∧
      start.filledQuantity = 0 ∧ start.requoteCount = 0 ∧ start.lastIntentAt = now := by
  unfold ExitPolicy.initialLifecycle at h
  split at h
  · cases h
  obtain ⟨rfl, hvalid⟩ := valid_of_postInit h
  exact ⟨hvalid, rfl, rfl, rfl, rfl, rfl⟩

theorem tracks_of_chain {orderId symbol : String} {quantity : Int} {now : Option IntentTime}
    (hstart : policy.initialLifecycle orderId symbol quantity now = .ok start)
    (h : ExitChain policy start past l) : Tracks policy start past l := by
  obtain ⟨hvalid, hstate, -, hfilled, hcount, -⟩ := initialLifecycle_ok hstart
  induction h with
  | start =>
    refine ⟨hvalid, rfl, hfilled, hcount, Nat.zero_le _, rfl, fun h => ?_⟩
    rw [hstate] at h
    cases h
  | event e _ ih => exact ih.step e

end Chains

/-! ### Safety of a chain -/

/-- The intent `i` that a step creates after `past` is due. -/
structure IntentDue (policy : ExitPolicy) (start : ExitOrderLifecycle) (past : List ExitStep) (s : ExitStep)
    (i : SellOrderIntent) : Prop where
  state : s.before.state = .cancelled ∨ s.before.state = .rejected
  entered : confirmedIn past = some s.before.state
  quantity : i.quantity = requestedIn start past - acceptedIn past
  interval : i.urgent = false → ∃ last now elapsed, intentTimeIn start past = some last ∧
    s.event.now? = some now ∧ elapsedSeconds last now = some elapsed ∧
    policy.config.requoteIntervalSeconds ≤ elapsed

/-- What holds of a chain wherever it has come to, and of its next event. -/
structure ChainSafe (policy : ExitPolicy) (start : ExitOrderLifecycle) (past : List ExitStep)
    (l : ExitOrderLifecycle) : Prop where
  reconciled : l.filledQuantity + l.remainingQuantity = l.requestedQuantity
  nonneg : 0 ≤ l.filledQuantity ∧ 0 ≤ l.remainingQuantity ∧ 0 ≤ l.requestedQuantity
  bounded : (chainIntents past).length ≤ policy.config.maxRequotes
  due : ∀ (e : ExitEvent) (i : SellOrderIntent), (e.step policy l).intent = some i →
    IntentDue policy start past (e.step policy l) i
  declined : ∀ e : ExitEvent, (e.step policy l).declined → (e.step policy l).intent = none

theorem intervalElapsed_iff {policy : ExitPolicy} {last now : Option IntentTime} :
    policy.intervalElapsed last now = true ↔ ∃ last' now' elapsed, last = some last' ∧ now = some now' ∧
      elapsedSeconds last' now' = some elapsed ∧ policy.config.requoteIntervalSeconds ≤ elapsed := by
  unfold ExitPolicy.intervalElapsed
  cases last with
  | none => simp
  | some last =>
    cases now with
    | none => simp
    | some now =>
      simp only [Option.some.injEq, exists_eq_left', exists_and_left]
      cases elapsedSeconds last now <;> simp

/-- **An exit chain is safe**, whatever the sequence of its events. -/
theorem exit_chain_safe {policy : ExitPolicy} {orderId symbol : String} {quantity : Int}
    {now : Option IntentTime} {start l : ExitOrderLifecycle} {past : List ExitStep}
    (hstart : policy.initialLifecycle orderId symbol quantity now = .ok start)
    (h : ExitChain policy start past l) : ChainSafe policy start past l := by
  have htracks := tracks_of_chain hstart h
  refine ⟨htracks.valid.reconciled,
    ⟨htracks.valid.filled_nonneg, htracks.valid.remaining_nonneg, htracks.valid.requested_pos.le⟩,
    htracks.bounded, fun e i hi => ?_, fun e hdeclined => ?_⟩
  · rcases transition_cases htracks.valid policy e with ⟨exn, hrun, -⟩ | ⟨t, hrun, ht⟩ | ⟨t, i', hrun, ht⟩
    · rw [(step_error hrun).2.1] at hi
      cases hi
    · rw [(step_ok hrun).2.1, ht.intent] at hi
      cases hi
    · rw [(step_ok hrun).2.1, ht.intent] at hi
      cases hi
      refine ⟨?_, htracks.confirmed ht.replaceable, ?_, fun hurgent => ?_⟩
      · have hreplaceable := ht.replaceable
        change l.state = _ ∨ l.state = _
        cases hstate : l.state <;> rw [hstate] at hreplaceable <;>
          first | exact .inl rfl | exact .inr rfl | cases hreplaceable
      · rw [ht.quantity, ← htracks.requested, ← htracks.filled, htracks.valid.remaining_eq]
      · rcases ht.interval with hnow | helapsed
        · exact absurd (hurgent.symm.trans hnow) (by decide)
        · rw [htracks.lastIntentAt] at helapsed
          exact intervalElapsed_iff.mp helapsed
  · rcases transition_cases htracks.valid policy e with ⟨exn, hrun, -⟩ | ⟨t, hrun, ht⟩ | ⟨t, i', hrun, ht⟩
    · exact (step_error hrun).2.1
    · exact (step_ok hrun).2.1.trans ht.intent
    · unfold ExitStep.declined ExitEvent.step at hdeclined
      rw [hrun] at hdeclined
      simp only [ht.action, reduceCtorEq, or_self] at hdeclined

/-! ### Reports that come twice -/

/-- The intents that a sequence of events creates. -/
def runIntents (policy : ExitPolicy) : ExitOrderLifecycle → List ExitEvent → List SellOrderIntent
  | _, [] => []
  | l, e :: es => (e.step policy l).intent.toList ++ runIntents policy (e.step policy l).after es

def totalQuantity (intents : List SellOrderIntent) : Int := (intents.map (·.quantity)).sum

def ExitEvent.reports : ExitEvent → List BrokerReport
  | .observe report => [report]
  | _ => []

/-- The second sequence is the first with reports inserted that were processed before;
    `ok` is asked of each copy and of the lifecycle it finds in the second run. -/
inductive Redelivered (ok : ExitOrderLifecycle → BrokerReport → Prop) (policy : ExitPolicy) :
    List BrokerReport → ExitOrderLifecycle → List ExitEvent → List ExitEvent → Prop
  | nil {seen : List BrokerReport} {l : ExitOrderLifecycle} : Redelivered ok policy seen l [] []
  | keep {seen : List BrokerReport} {l : ExitOrderLifecycle} {es es' : List ExitEvent} (e : ExitEvent) :
      Redelivered ok policy (e.reports ++ seen) (e.step policy l).after es es' →
      Redelivered ok policy seen l (e :: es) (e :: es')
  | again {seen : List BrokerReport} {l : ExitOrderLifecycle} {es es' : List ExitEvent}
      {report : BrokerReport} : report ∈ seen → ok l report →
      Redelivered ok policy seen ((ExitEvent.observe report).step policy l).after es es' →
      Redelivered ok policy seen l es (.observe report :: es')

/-- The report states no other filled quantity than the lifecycle has. -/
def KeepsFilled (l : ExitOrderLifecycle) (report : BrokerReport) : Prop :=
  ∀ filled ∈ report.statedFilled l, filled = l.filledQuantity

/-- Besides, it neither opens the lifecycle for a replacement nor closes it. -/
structure Repeats (l : ExitOrderLifecycle) (report : BrokerReport) : Prop where
  filled : KeepsFilled l report
  replaceable : ∀ state ∈ report.target l, state.replaceable = l.state.replaceable

/-- Each report of a sequence finds a lifecycle it is `ok` for. -/
def EachReport (ok : ExitOrderLifecycle → BrokerReport → Prop) (policy : ExitPolicy) :
    ExitOrderLifecycle → List ExitEvent → Prop
  | _, [] => True
  | l, e :: es => (∀ report ∈ e.reports, ok l report) ∧ EachReport ok policy (e.step policy l).after es

/-- Lifecycles that only differ in states which make no difference for replacements. -/
structure Similar (l m : ExitOrderLifecycle) : Prop where
  fields : m = { l with state := m.state }
  replaceable : m.state.replaceable = l.state.replaceable

section Redelivery

variable {policy : ExitPolicy} {l m : ExitOrderLifecycle}

theorem Similar.refl (l : ExitOrderLifecycle) : Similar l l := ⟨rfl, rfl⟩

theorem Similar.trans {n : ExitOrderLifecycle} (h : Similar l m) (h' : Similar m n) : Similar l n where
  fields := by
    have hn := h'.fields
    rw [h.fields] at hn
    exact hn
  replaceable := h'.replaceable.trans h.replaceable

theorem Similar.valid (h : Similar l m) (hl : l.Valid) : m.Valid := by
  rw [h.fields]
  exact ⟨hl.orderId, hl.symbol, hl.requested_pos, hl.filled_nonneg, hl.remaining_nonneg, hl.reconciled,
    hl.count_nonneg⟩

theorem Similar.of_state (hl : l.Valid) {state : ExitOrderState}
    (h : state.replaceable = l.state.replaceable) : Similar l (l.moved state l.filledQuantity) :=
  ⟨(hl.withState state).symm, h⟩

theorem Similar.moved (h : Similar l m) {state state' : ExitOrderState} (filled : Int)
    (hstate : state'.replaceable = state.replaceable) :
    Similar (l.moved state filled) (m.moved state' filled) where
  fields := by
    rw [h.fields]
    rfl
  replaceable := hstate

/-- A call that stays within its order, or raises, leaves the lifecycle there. -/
theorem step_within (hl : l.Valid) {e : ExitEvent}
    (h : (∃ exn, e.transition policy l = .error exn ∧ e.target l = none ∧ e.statedFilled l = none) ∨
      ∃ t, e.transition policy l = .ok t ∧ StaysWithin l e t) :
    (e.step policy l).intent = none ∧ (e.step policy l).after =
      l.moved ((e.target l).getD l.state) ((e.statedFilled l).getD l.filledQuantity) := by
  rcases h with ⟨exn, hrun, htarget, hstated⟩ | ⟨t, hrun, ht⟩
  · refine ⟨(step_error hrun).2.1, ?_⟩
    rw [(step_error hrun).1, htarget, hstated]
    exact hl.moved_self.symm
  · exact ⟨(step_ok hrun).2.1.trans ht.intent, (step_ok hrun).1.trans ht.lifecycle⟩

theorem observe_within (hl : l.Valid) (report : BrokerReport) :
    ((ExitEvent.observe report).step policy l).intent = none ∧
    ((ExitEvent.observe report).step policy l).after =
      l.moved ((report.target l).getD l.state) ((report.statedFilled l).getD l.filledQuantity) :=
  step_within hl (observeBrokerStatus_cases hl report)

/-- A mark does not change whether a replacement may be created. -/
theorem mark_within (hl : l.Valid) {e : ExitEvent} (he : e = .markStale ∨ e = .markCancelPending) :
    (e.step policy l).intent = none ∧ ∃ state : ExitOrderState,
      (e.step policy l).after = l.moved state l.filledQuantity ∧
      state.replaceable = l.state.replaceable := by
  have hcases : ∃ t, e.transition policy l = .ok t ∧ StaysWithin l e t := by
    rcases he with rfl | rfl
    · exact markStale_cases hl
    · exact markCancelPending_cases hl
  obtain ⟨hintent, hafter⟩ := step_within hl (.inr hcases)
  have hstated : e.statedFilled l = none := by
    rcases he with rfl | rfl <;> rfl
  rw [hstated] at hafter
  refine ⟨hintent, _, hafter, ?_⟩
  rcases he with rfl | rfl
  · unfold ExitEvent.target
    cases hstate : l.state <;> rfl
  · unfold ExitEvent.target
    cases hstate : l.state <;> rfl

/-- The event creates the same intent from both lifecycles, and leaves them similar. -/
def StepsAlike (policy : ExitPolicy) (e : ExitEvent) (l m : ExitOrderLifecycle) : Prop :=
  (e.step policy l).intent = (e.step policy m).intent ∧
    Similar (e.step policy l).after (e.step policy m).after

theorem StepsAlike.of_ok {e : ExitEvent} {t t' : ExitTransition} (hrun : e.transition policy l = .ok t)
    (hrun' : e.transition policy m = .ok t') (hintent : t.intent = t'.intent)
    (hsimilar : Similar t.lifecycle t'.lifecycle) : StepsAlike policy e l m := by
  obtain ⟨hafter, hi, -⟩ := step_ok hrun
  obtain ⟨hafter', hi', -⟩ := step_ok hrun'
  unfold StepsAlike
  rw [hafter, hafter', hi, hi']
  exact ⟨hintent, hsimilar⟩

theorem StepsAlike.of_error {e : ExitEvent} {exn exn' : Exn} (h : Similar l m)
    (hrun : e.transition policy l = .error exn) (hrun' : e.transition policy m = .error exn') :
    StepsAlike policy e l m := by
  obtain ⟨hafter, hi, -⟩ := step_error hrun
  obtain ⟨hafter', hi', -⟩ := step_error hrun'
  unfold StepsAlike
  rw [hafter, hafter', hi, hi']
  exact ⟨rfl, h⟩

theorem replaceEnded_similar (h : Similar l m) {quote : ExitQuote} {now : Option IntentTime}
    {secondsToClose : Option Number} {reason : String}
    (hrun : (ExitEvent.replacement quote now secondsToClose reason).transition policy l =
      l.replaceEnded policy quote now secondsToClose reason)
    (hrun' : (ExitEvent.replacement quote now secondsToClose reason).transition policy m =
      m.replaceEnded policy quote now secondsToClose reason) :
    StepsAlike policy (.replacement quote now secondsToClose reason) l m := by
  obtain ⟨state, rfl⟩ : ∃ state, m = { l with state := state } := ⟨_, h.fields⟩
  have hsame : ({ l with state := state } : ExitOrderLifecycle).createReplacement policy quote now
      secondsToClose reason = l.createReplacement policy quote now secondsToClose reason := rfl
  unfold ExitOrderLifecycle.replaceEnded at hrun hrun'
  rw [hsame] at hrun'
  by_cases hremaining : l.remainingQuantity = 0
  · rw [if_pos hremaining] at hrun hrun'
    exact .of_ok hrun hrun' rfl h
  rw [if_neg hremaining] at hrun hrun'
  by_cases hrequotes : (policy.config.maxRequotes : Int) ≤ l.requoteCount
  · rw [if_pos hrequotes] at hrun hrun'
    exact .of_ok hrun hrun' rfl h
  rw [if_neg hrequotes] at hrun hrun'
  cases hurgent : policy.isCloseUrgent secondsToClose with
  | error e =>
    rw [hurgent] at hrun hrun'
    exact .of_error h hrun hrun'
  | ok urgent =>
    rw [hurgent] at hrun hrun'
    simp only [Bind.bind, Except.bind] at hrun hrun'
    by_cases hearly : (!urgent && !policy.intervalElapsed l.lastIntentAt now) = true
    · rw [if_pos hearly] at hrun hrun'
      exact .of_ok hrun hrun' rfl h
    · rw [if_neg hearly] at hrun hrun'
      cases hcreate : l.createReplacement policy quote now secondsToClose reason with
      | error e => exact .of_error h (hrun.trans hcreate) (hrun'.trans hcreate)
      | ok t => exact .of_ok (hrun.trans hcreate) (hrun'.trans hcreate) rfl (.refl _)

theorem replacement_similar (h : Similar l m) (quote : ExitQuote) (now : Option IntentTime)
    (secondsToClose : Option Number) (reason : String) :
    StepsAlike policy (.replacement quote now secondsToClose reason) l m := by
  by_cases hstate : l.state.replaceable = true
  · exact replaceEnded_similar h (replacement_of_replaceable hstate)
      (replacement_of_replaceable (h.replaceable.trans hstate))
  · obtain ⟨t, hrun, hintent, -, hlifecycle⟩ := replacement_returns hstate
    obtain ⟨t', hrun', hintent', -, hlifecycle'⟩ :=
      replacement_returns fun hs : m.state.replaceable = true => hstate (h.replaceable.symm.trans hs)
    exact .of_ok hrun hrun' (hintent.trans hintent'.symm) (by rw [hlifecycle, hlifecycle']; exact h)

/-- A report is read the same way by similar lifecycles. -/
theorem Similar.reads (h : Similar l m) (report : BrokerReport) :
    report.target m = report.target l ∧ report.statedFilled m = report.statedFilled l := by
  have hrequested : m.requestedQuantity = l.requestedQuantity := by rw [h.fields]
  have hfilled : m.filledQuantity = l.filledQuantity := by rw [h.fields]
  have hremaining : m.remainingQuantity = l.remainingQuantity := by rw [h.fields]
  have himplied : m.impliedQuantities = l.impliedQuantities := by
    funext state
    unfold ExitOrderLifecycle.impliedQuantities
    rw [hrequested, hfilled, hremaining]
  constructor
  · unfold BrokerReport.target
    rw [hrequested, himplied]
  · unfold BrokerReport.statedFilled
    rw [hrequested, himplied]

/-- Similar lifecycles create the same intents, and stay similar. -/
theorem Similar.step (h : Similar l m) (hl : l.Valid) (e : ExitEvent) : StepsAlike policy e l m := by
  have hm := h.valid hl
  have hfilled : m.filledQuantity = l.filledQuantity := by rw [h.fields]
  have hmark : e = .markStale ∨ e = .markCancelPending → StepsAlike policy e l m := by
    intro he
    obtain ⟨hintent, state, hafter, hstate⟩ := mark_within hl he
    obtain ⟨hintent', state', hafter', hstate'⟩ := mark_within hm he
    refine ⟨hintent.trans hintent'.symm, ?_⟩
    rw [hafter, hafter', hfilled]
    exact h.moved _ (hstate'.trans (h.replaceable.trans hstate.symm))
  cases e with
  | markStale => exact hmark (.inl rfl)
  | markCancelPending => exact hmark (.inr rfl)
  | observe report =>
    obtain ⟨hintent, hafter⟩ := observe_within hl report
    obtain ⟨hintent', hafter'⟩ := observe_within hm report
    obtain ⟨htarget, hstated⟩ := h.reads report
    refine ⟨hintent.trans hintent'.symm, ?_⟩
    rw [hafter, hafter', htarget, hstated, hfilled]
    have hflag : ∀ target : Option ExitOrderState,
        (target.getD m.state).replaceable = (target.getD l.state).replaceable := by
      intro target
      cases target with
      | none => exact h.replaceable
      | some state => rfl
    exact h.moved _ (hflag _)
  | replacement quote now secondsToClose reason =>
    exact replacement_similar h quote now secondsToClose reason

/-- A report that repeats what the lifecycle knows makes no difference. -/
theorem Repeats.similar {report : BrokerReport} (h : Repeats l report) (hl : l.Valid) :
    Similar l ((ExitEvent.observe report).step policy l).after := by
  obtain ⟨-, hafter⟩ := observe_within hl report
  have hfilled : (report.statedFilled l).getD l.filledQuantity = l.filledQuantity := by
    cases hstated : report.statedFilled l with
    | none => rfl
    | some filled => exact h.filled filled hstated
  have hflag : ∀ target : Option ExitOrderState, (∀ state ∈ target, state.replaceable = l.state.replaceable) →
      (target.getD l.state).replaceable = l.state.replaceable := by
    intro target htarget
    cases target with
    | none => rfl
    | some state => exact htarget state rfl
  rw [hafter, hfilled]
  exact Similar.of_state hl (hflag _ h.replaceable)

theorem redelivered_intents {seen : List BrokerReport} {es es' : List ExitEvent}
    (h : Redelivered Repeats policy seen m es es') (hlm : Similar l m) (hl : l.Valid) :
    runIntents policy m es' = runIntents policy l es := by
  induction h generalizing l with
  | nil => rfl
  | keep e _ ih =>
    obtain ⟨hintent, hafter⟩ := hlm.step hl e
    rw [runIntents, runIntents, hintent, ih hafter (step_valid hl e)]
  | again _ hrepeats _ ih =>
    have hm := hlm.valid hl
    rw [runIntents, (observe_within hm _).1]
    exact ih (hlm.trans (hrepeats.similar hm)) hl

/-- After a full fill, reports that state no other quantity leave nothing to replace. -/
theorem no_intent_after_fill {es : List ExitEvent} (hl : l.Valid)
    (hfull : l.filledQuantity = l.requestedQuantity) (h : EachReport KeepsFilled policy l es) :
    runIntents policy l es = [] := by
  induction es generalizing l with
  | nil => rfl
  | cons e es ih =>
    obtain ⟨hreports, hrest⟩ := h
    have hkeeps : (e.statedFilled l).getD l.filledQuantity = l.filledQuantity := by
      cases e with
      | observe report =>
        have hreport : KeepsFilled l report := hreports report (List.mem_singleton.mpr rfl)
        cases hstated : (ExitEvent.observe report).statedFilled l with
        | none => rfl
        | some filled => exact hreport filled hstated
      | _ => rfl
    have hnext : (e.step policy l).intent = none ∧
        (e.step policy l).after.filledQuantity = (e.step policy l).after.requestedQuantity := by
      rcases transition_cases hl policy e with h | h | ⟨t, i, -, ht⟩
      · obtain ⟨hintent, hafter⟩ := step_within hl (.inl h)
        rw [hafter]
        exact ⟨hintent, hkeeps.trans hfull⟩
      · obtain ⟨hintent, hafter⟩ := step_within hl (.inr h)
        rw [hafter]
        exact ⟨hintent, hkeeps.trans hfull⟩
      · have hpos := ht.remaining_pos
        have hsum := hl.reconciled
        omega
    rw [runIntents, hnext.1, ih (step_valid hl e) hnext.2 hrest]
    rfl

end Redelivery

/-- **Redelivered reports do not enlarge an exit** where each repeats what the lifecycle
    knows, and after a full fill nothing is replaced while the reports state that fill. -/
theorem redelivery_harmless {policy : ExitPolicy} {orderId symbol : String} {quantity : Int}
    {now : Option IntentTime} {start : ExitOrderLifecycle}
    (hstart : policy.initialLifecycle orderId symbol quantity now = .ok start) :
    (∀ es es', Redelivered Repeats policy [] start es es' →
      totalQuantity (runIntents policy start es') ≤ totalQuantity (runIntents policy start es)) ∧
    ∀ past l es, ExitChain policy start past l → l.filledQuantity = l.requestedQuantity →
      EachReport KeepsFilled policy l es → runIntents policy l es = [] := by
  refine ⟨fun es es' h => ?_, fun past l es hchain hfull hes => ?_⟩
  · rw [redelivered_intents h (.refl start) (initialLifecycle_ok hstart).1]
  · exact no_intent_after_fill (tracks_of_chain hstart hchain).valid hfull hes

/-! ### A SELL of ten shares -/

namespace ExitLife

def policy : ExitPolicy := {}

def start : ExitOrderLifecycle where
  orderId := "sell-1"
  symbol := "005930"
  requestedQuantity := 10
  state := .submitted
  filledQuantity := 0
  remainingQuantity := 10
  requoteCount := 0
  lastIntentAt := some (.number (.fin 0))

theorem start_initial :
    policy.initialLifecycle "sell-1" "005930" 10 (some (.number (.fin 0))) = .ok start :=
  Except.eq_ok_of_toOption (by decide +kernel)

def quote : ExitQuote := ⟨some (.int 70000), none, some (.int 70000)⟩

def replaceAt (second : ℚ) : ExitEvent :=
  .replacement quote (some (.number (.fin second))) none "exit_requote"

def cancelledAfterSix : BrokerReport := ⟨"CANCELLED", some (.int 6), none⟩

def cancelled : BrokerReport := ⟨"cancelled ", none, none⟩

/-- After a partial fill of six shares, four are replaced. -/
theorem four_shares_replaced :
    ((replaceAt 10).step policy ((ExitEvent.observe cancelledAfterSix).step policy start).after).intent.map
      (·.quantity) = some 4 ∧
    ChainSafe policy start [(ExitEvent.observe cancelledAfterSix).step policy start]
      ((ExitEvent.observe cancelledAfterSix).step policy start).after :=
  ⟨by decide +kernel, exit_chain_safe start_initial (.event _ .start)⟩

/-- A second copy of the report, before anything else happens. -/
theorem copy_before_replacement :
    totalQuantity (runIntents policy start [.observe cancelled, .observe cancelled, replaceAt 10]) = 10 ∧
    totalQuantity (runIntents policy start [.observe cancelled, .observe cancelled, replaceAt 10]) ≤
      totalQuantity (runIntents policy start [.observe cancelled, replaceAt 10]) := by
  refine ⟨by decide +kernel, (redelivery_harmless start_initial).1 _ _ ?_⟩
  refine .keep _ (.again (List.mem_cons_self ..) ⟨?_, ?_⟩ (.keep _ .nil))
  · unfold KeepsFilled
    decide +kernel
  · decide +kernel

/-- A copy that comes after the replacement reopens the chain: twenty shares are sold for ten. -/
theorem copy_after_replacement :
    ¬ ∀ (policy : ExitPolicy) (orderId symbol : String) (quantity : Int) (now : Option IntentTime)
      (start : ExitOrderLifecycle), policy.initialLifecycle orderId symbol quantity now = .ok start →
      (∀ es es', Redelivered (fun _ _ => True) policy [] start es es' →
        totalQuantity (runIntents policy start es') ≤ totalQuantity (runIntents policy start es)) ∧
      ∀ past l es, ExitChain policy start past l → l.filledQuantity = l.requestedQuantity →
        EachReport (fun _ _ => True) policy l es → runIntents policy l es = [] := by
  intro h
  obtain ⟨hcopies, -⟩ := h policy _ _ _ _ start start_initial
  have hle := hcopies [.observe cancelled, replaceAt 10, replaceAt 20]
    [.observe cancelled, replaceAt 10, .observe cancelled, replaceAt 20]
    (.keep _ (.keep _ (.again (List.mem_cons_self ..) trivial (.keep _ .nil))))
  have honce : totalQuantity (runIntents policy start [.observe cancelled, replaceAt 10, replaceAt 20]) = 10 := by
    decide +kernel
  have htwice : totalQuantity (runIntents policy start
      [.observe cancelled, replaceAt 10, .observe cancelled, replaceAt 20]) = 20 := by
    decide +kernel
  rw [honce, htwice] at hle
  exact absurd hle (by decide)

end ExitLife

end AutoTrader
