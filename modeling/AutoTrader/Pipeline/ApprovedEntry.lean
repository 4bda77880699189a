/-
  AutoTrader/Pipeline/ApprovedEntry.lean
  ======================================
  **The entry an operator approved.**

  `_maybe_enter_position` first looks for an approval request of the bar.  An
  APPROVED one is executed: its terms are checked against the decision, the market,
  the risk limits and the budget, it is consumed, and the order goes out.  A check
  that fails ends the entry after `finish_approval_request(success=False)`.

  The checks only read, so they are one computation that raises, refuses with a
  reason or ends with the order to send.
-/
import AutoTrader.Pipeline.EntryRules
import AutoTrader.Storage.Approvals

namespace AutoTrader

open Relational Transactional Interleave

/-! ### The checks -/

/-- A check raises, refuses the entry with a reason, or passes. -/
abbrev EntryCheck (α : Type) := ExceptT String (Except Exn) α

namespace EntryCheck

def refuse {α : Type} (reason : String) : EntryCheck α := ExceptT.mk (.ok (.error reason))

def refuseIf (c : Bool) (reason : String) : EntryCheck Unit :=
  if c then refuse reason else pure ()

/-- Re-raise the exception of a call. -/
def raising {α : Type} (r : Except Exn α) : EntryCheck α := ExceptT.lift r

/-- Refuse for the reason a guard gives, if it gives one. -/
def guard (reason : Option String) : EntryCheck Unit :=
  match reason with
  | some reason => refuse reason
  | none => pure ()

/-- `except ValueError`: a validation that raises refuses the entry. -/
def validated (r : Except Exn Unit) (reason : String) : EntryCheck Unit :=
  match r with
  | .error _ => refuse reason
  | .ok _ => pure ()

/-- A value that has to be there. -/
def require {α : Type} (value : Option α) (reason : String) : EntryCheck α :=
  match value with
  | some a => pure a
  | none => refuse reason

end EntryCheck

open EntryCheck

/-- The terms of an approval request: `float(...)` and `int(...)` of its columns. -/
structure ApprovalTerms where
  entryPrice : PosRat
  stopLossPrice : PosRat
  takeProfitPrice : PosRat
  quantity : Nat

def approvalTerms (approval : ApprovalRequest) : Option ApprovalTerms := do
  some ⟨← approval.entryPrice, ← approval.stopLossPrice, ← approval.takeProfitPrice, ← approval.quantity⟩

/-- The audit of the decision, when it is a BUY of the symbol. -/
def buyAudit (symbol : String) (audit : Option AiDecisionAudit) : Option AiDecisionAudit :=
  audit.filter fun audit => audit.symbol = symbol && audit.action = "BUY"

/-- The approved terms are those of the decision, normalised once more. -/
def termsUnchanged (terms : ApprovalTerms) (entryPrice stopLossPrice takeProfitPrice : PyFloat) :
    Except Exn Bool := do
  let entry ← normalizeKrxLimitPrice entryPrice .buy
  let stop ← normalizeKrxLimitPrice stopLossPrice .buy
  let take ← normalizeKrxLimitPrice takeProfitPrice .sell
  .ok (terms.entryPrice.val = entry && terms.stopLossPrice.val = stop &&
    terms.takeProfitPrice.val = take)

/-- `abs(entry_price - snapshot.latest_close) / snapshot.latest_close * 100`. -/
def closeDeviationPct (entryPrice : ℚ) (latestClose : PyFloat) : Except Exn PyFloat :=
  match latestClose with
  | .fin close =>
    if close = 0 then .error (.other "ZeroDivisionError" "float division by zero")
    else .ok (deviationPct entryPrice close)
  | _ => .ok .nan

/-- What passed the checks. -/
structure ApprovedOrder where
  decisionId : String
  quantity : Nat
  entryPrice : PosRat

/-- `_execute_approved_entry` up to `consume_approval_request`, each `refuse` being a
    `finish_approval_request(success=False)` and a blocked result. -/
def checkApprovedEntry (inputs : EntryInputs) (symbol signalId : String) (approval : ApprovalRequest)
    (audit : Option AiDecisionAudit) : EntryCheck ApprovedOrder := do
  refuseIf (approval.symbol ≠ symbol || approval.signalId.getD "" ≠ signalId)
    "approval_signal_mismatch"
  let decisionId := approval.decisionId.getD ""
  raising (requireNonempty decisionId "decision_id")
  let audit ← require (buyAudit symbol audit) "approval_audit_unavailable"
  let terms ← require (approvalTerms approval) "approval_terms_unavailable"
  let entry ← require audit.entryPrice "approval_terms_unavailable"
  let stop ← require audit.stopLossPrice "approval_terms_unavailable"
  let take ← require audit.takeProfitPrice "approval_terms_unavailable"
  let unchanged ← raising (termsUnchanged terms entry stop take)
  refuseIf (!unchanged) "approval_terms_changed"
  guard (postAiLivePriceGuardReason inputs symbol terms.entryPrice)
  validated (validateRiskReward terms.entryPrice terms.takeProfitPrice terms.stopLossPrice)
    "invalid_risk_reward"
  let deviation ← raising (closeDeviationPct terms.entryPrice.val inputs.latestClose)
  refuseIf (inputs.config.maxEntryDeviationPct.lt deviation) "entry_deviation_too_large"
  let expected := riskQuantity inputs symbol signalId audit.confidence terms.entryPrice.val
    terms.stopLossPrice.val
  refuseIf (expected ≠ some (terms.quantity : Int)) "approval_quantity_changed"
  refuseIf (!entryBudgetOk inputs symbol terms.entryPrice.val terms.quantity)
    "entry_budget_unavailable_or_insufficient"
  pure ⟨decisionId, terms.quantity, terms.entryPrice⟩

/-! ### The reasons of a refusal -/

namespace EntryCheck

/-- If the check refuses, it is for one of these reasons. -/
def RefusesFor {α : Type} (reasons : List String) (c : EntryCheck α) : Prop :=
  ∀ reason, c.run = .ok (.error reason) → reason ∈ reasons

section Rules

variable {α β : Type} {reasons : List String}

theorem RefusesFor.pure (a : α) : RefusesFor reasons (Pure.pure a : EntryCheck α) :=
  fun _ h => by cases h

theorem RefusesFor.bind {c : EntryCheck α} {f : α → EntryCheck β} (hc : RefusesFor reasons c)
    (hf : ∀ a, RefusesFor reasons (f a)) : RefusesFor reasons (c >>= f) := by
  intro reason h
  rw [ExceptT.run_bind] at h
  rcases hrun : c.run with e | r | a
  · rw [hrun] at h
    cases h
  · rw [hrun] at h
    cases h
    exact hc reason hrun
  · rw [hrun] at h
    exact hf a reason h

theorem refusesFor_refuse {reason : String} (h : reason ∈ reasons) :
    RefusesFor reasons (refuse reason : EntryCheck α) := by
  rintro _ ⟨⟩
  exact h

theorem refusesFor_refuseIf (c : Bool) {reason : String} (h : reason ∈ reasons) :
    RefusesFor reasons (refuseIf c reason) := by
  cases c with
  | true => exact refusesFor_refuse h
  | false => exact RefusesFor.pure ()

theorem refusesFor_raising (r : Except Exn α) : RefusesFor reasons (raising r) := by
  intro reason h
  cases r <;> cases h

theorem refusesFor_guard {reason? : Option String} (h : ∀ reason ∈ reason?, reason ∈ reasons) :
    RefusesFor reasons (guard reason?) := by
  cases reason? with
  | none => exact RefusesFor.pure ()
  | some reason => exact refusesFor_refuse (h reason rfl)

theorem refusesFor_validated (r : Except Exn Unit) {reason : String} (h : reason ∈ reasons) :
    RefusesFor reasons (validated r reason) := by
  cases r with
  | error e => exact refusesFor_refuse h
  | ok _ => exact RefusesFor.pure ()

theorem refusesFor_require (value : Option α) {reason : String} (h : reason ∈ reasons) :
    RefusesFor reasons (require value reason) := by
  cases value with
  | none => exact refusesFor_refuse h
  | some a => exact RefusesFor.pure a

end Rules

/-! ### What passes -/

/-- The check ends with `a`. -/
def Passes {α : Type} (c : EntryCheck α) (a : α) : Prop := c.run = .ok (.ok a)

section Passes

variable {α β : Type}

theorem passes_pure {a b : α} : Passes (Pure.pure a) b ↔ a = b := by
  constructor
  · rintro ⟨⟩
    rfl
  · rintro rfl
    rfl

theorem passes_bind {c : EntryCheck α} {f : α → EntryCheck β} {b : β} :
    Passes (c >>= f) b ↔ ∃ a, Passes c a ∧ Passes (f a) b := by
  unfold Passes
  rw [ExceptT.run_bind]
  rcases c.run with e | r | a
  · exact ⟨nofun, nofun⟩
  · exact ⟨nofun, nofun⟩
  · constructor
    · exact fun h => ⟨a, rfl, h⟩
    · rintro ⟨_, ⟨⟩, h⟩
      exact h

theorem not_passes_refuse {reason : String} {a : α} : ¬ Passes (refuse reason : EntryCheck α) a := nofun

theorem passes_refuseIf {c : Bool} {reason : String} {u : Unit} :
    Passes (refuseIf c reason) u ↔ c = false := by
  cases c with
  | true => exact ⟨nofun, nofun⟩
  | false => exact ⟨fun _ => rfl, fun _ => rfl⟩

theorem passes_raising {r : Except Exn α} {a : α} : Passes (raising r) a ↔ r = .ok a := by
  cases r with
  | error e => exact ⟨nofun, nofun⟩
  | ok b =>
    constructor
    · rintro ⟨⟩
      rfl
    · rintro ⟨⟩
      rfl

theorem passes_guard {reason? : Option String} {u : Unit} : Passes (guard reason?) u ↔ reason? = none := by
  cases reason? with
  | none => exact ⟨fun _ => rfl, fun _ => rfl⟩
  | some reason => exact ⟨nofun, nofun⟩

theorem passes_validated {r : Except Exn Unit} {reason : String} {u : Unit} :
    Passes (validated r reason) u ↔ r = .ok () := by
  cases r with
  | error e => exact ⟨nofun, nofun⟩
  | ok _ => exact ⟨fun _ => rfl, fun _ => rfl⟩

theorem passes_require {value : Option α} {reason : String} {a : α} :
    Passes (require value reason) a ↔ value = some a := by
  cases value with
  | none => exact ⟨nofun, nofun⟩
  | some b =>
    constructor
    · rintro ⟨⟩
      rfl
    · rintro ⟨⟩
      rfl

end Passes

end EntryCheck

/-- The reasons of `_post_ai_live_price_guard_reason`. -/
def livePriceReasons : List String :=
  ["post_ai_price_check_failed", "post_ai_price_invalid", "market_snapshot_invalid",
   "post_ai_price_deviation_too_large", "entry_deviation_from_live_too_large"]

theorem postAiLivePriceGuardReason_mem (inputs : EntryInputs) (symbol : String)
    (entryPrice : PosRat) :
    ∀ reason ∈ postAiLivePriceGuardReason inputs symbol entryPrice, reason ∈ livePriceReasons := by
  intro reason h
  simp only [postAiLivePriceGuardReason, Option.mem_def] at h
  repeat' split at h
  all_goals first | cases h; decide | cases h

/-- The reasons for which an approved entry is refused before it is consumed. -/
def refusalReasons : List String :=
  livePriceReasons ++
    ["approval_signal_mismatch", "approval_audit_unavailable", "approval_terms_unavailable",
     "approval_terms_changed", "invalid_risk_reward", "entry_deviation_too_large",
     "approval_quantity_changed", "entry_budget_unavailable_or_insufficient"]

theorem refusesFor_checkApprovedEntry (inputs : EntryInputs) (symbol signalId : String)
    (approval : ApprovalRequest) (audit : Option AiDecisionAudit) :
    RefusesFor refusalReasons (checkApprovedEntry inputs symbol signalId approval audit) := by
  apply (refusesFor_refuseIf _ (by decide)).bind
  intro _
  apply (refusesFor_raising _).bind
  intro _
  apply (refusesFor_require _ (by decide)).bind
  intro audit
  apply (refusesFor_require _ (by decide)).bind
  intro terms
  apply (refusesFor_require _ (by decide)).bind
  intro entry
  apply (refusesFor_require _ (by decide)).bind
  intro stop
  apply (refusesFor_require _ (by decide)).bind
  intro take
  apply (refusesFor_raising _).bind
  intro unchanged
  apply (refusesFor_refuseIf _ (by decide)).bind
  intro _
  apply (refusesFor_guard fun reason h => List.mem_append_left _
    (postAiLivePriceGuardReason_mem inputs symbol terms.entryPrice reason h)).bind
  intro _
  apply (refusesFor_validated _ (by decide)).bind
  intro _
  apply (refusesFor_raising _).bind
  intro deviation
  apply (refusesFor_refuseIf _ (by decide)).bind
  intro _
  apply (refusesFor_refuseIf _ (by decide)).bind
  intro _
  apply (refusesFor_refuseIf _ (by decide)).bind
  intro _
  exact RefusesFor.pure _

/-- The audit that `get_ai_decision_audit` finds for a request. -/
def Database.decisionAudit (db : Database) (approval : ApprovalRequest) : Option AiDecisionAudit :=
  db.aiDecisionAudits.find? (approval.decisionId.getD "")

/-! ### The entry -/

/-- A pipeline as one step of a sequential caller. -/
def runPipeline {α : Type} (broker : BrokerReplies) (p : Pipeline α) : Tx α :=
  ⟨Raising.eval (dbHandler broker) p⟩

/-- `_execute_approved_entry` after the request is consumed. -/
def submitApprovedOrder (broker : BrokerReplies) (submitter : Submitter) (now : DateTime)
    (symbol signalId requestId : String) (order : ApprovedOrder) : Tx AutoTradeSymbolResult := do
  let request ← Exec.ofExcept
    (krxRequest symbol .buy order.quantity (.float (.fin order.entryPrice.val)))
  let result ← runPipeline broker (submitWithLedger submitter request order.decisionId
    (some signalId) "approved_ai" now)
  let _ ← finishApprovalRequest now requestId result.submitted (some now)
  pure ⟨symbol, "BUY", result.submitted, !result.submitted, result.reason, order.quantity,
    result.brokerOrderId⟩

/-- `_execute_approved_entry`. -/
def executeApprovedEntry (broker : BrokerReplies) (submitter : Submitter) (inputs : EntryInputs)
    (symbol signalId : String) (approval : ApprovalRequest) : Tx AutoTradeSymbolResult := do
  let requestId := approval.requestId
  let audit ← .query fun db => db.decisionAudit approval
  match ← Exec.ofExcept (checkApprovedEntry inputs symbol signalId approval audit).run with
  | .error reason =>
    let _ ← finishApprovalRequest inputs.now requestId false (some inputs.now)
    pure (.blockedBy symbol reason)
  | .ok order =>
    if ← consumeApprovalRequest inputs.now requestId (some inputs.now) then
      submitApprovedOrder broker submitter inputs.now symbol signalId requestId order
    else pure (.blockedBy symbol "approval_not_available")

/-- `strftime('%Y%m%d%H%M')`; the year is not padded. -/
def minuteStamp (t : DateTime) : String :=
  let (y, m, d) := DateTime.civil t.date
  let s := t.time / DateTime.microsPerSecond
  toString y ++ DateTime.padded 2 m ++ DateTime.padded 2 d ++
    DateTime.padded 2 (s / 3600) ++ DateTime.padded 2 (s / 60 % 60)

/-- `_approval_request_id`. -/
def approvalRequestId (symbol : String) (barStart : DateTime) : String :=
  "approval:" ++ symbol ++ ":" ++ minuteStamp barStart.asKst

/-- `_maybe_enter_position` as far as an approval request of the bar decides it;
    `none` goes on to the AI.  `deadline` says whether the cycle is over by then. -/
def approvalStage (broker : BrokerReplies) (submitter : Submitter) (inputs : EntryInputs)
    (symbol : String) (barStart : DateTime) (deadline : Bool) :
    Tx (Option AutoTradeSymbolResult) := do
  let blocked (reason : String) : Tx (Option AutoTradeSymbolResult) :=
    pure (some (.blockedBy symbol reason))
  let requestId := approvalRequestId symbol barStart
  let found ← .query fun db => db.approvalRequests.find? requestId
  if found.any (·.status = .pending) then
    let _ ← expirePendingApprovals inputs.now (some inputs.now)
  match ← .query fun db => db.approvalRequests.find? requestId with
  | none => pure none
  | some approval =>
    if approval.status = .pending then blocked "operator_approval_required"
    else if approval.status = .approved then
      if deadline then blocked "cycle_deadline_exceeded"
      else do
        let result ← executeApprovedEntry broker submitter inputs symbol
          (entrySignalId symbol barStart) approval
        pure (some result)
    else blocked ("approval_" ++ approval.status.name.toLower)

end AutoTrader
