/-
  AutoTrader/Ai/Budget.lean
  =========================
  **The usage budget of the AI calls.**

  `UsageBudget` reserves the estimated cost of a call before it is made, and settles or
  cancels the reservation afterwards.  Every method holds the lock from its first read to
  its last write, so a method is one step.  Costs are exact.

  `Exact` is what every method keeps: the two reserved costs are the sums over the
  outstanding reservations, those of the budget's day for the daily one, and the call
  counters stay within their limits.
-/
import AutoTrader.Lib.Table
import AutoTrader.Python.Values
import Mathlib.Tactic.Linarith

namespace AutoTrader

open Relational

/-- The exceptions around an AI call, by the `except` clause that takes them. -/
inductive AiExn where
  /-- `AIBudgetExceededError`. -/
  | budgetExceeded (message : String)
  /-- `requests.exceptions.Timeout`. -/
  | timeout (message : String)
  /-- `_RetryableHTTPError`. -/
  | retryable (message : String)
  /-- `KeyError`, `TypeError`, `ValueError` and what derives from them. -/
  | invalid (typeName message : String)
  /-- `AIDecisionTransportError`. -/
  | transport (message : String)
  /-- `AIDecisionRequestError`. -/
  | request (message : String)
  /-- `AIDecisionResponseError`. -/
  | response (message : String)
  /-- Any other `Exception`. -/
  | other (typeName message : String)
deriving DecidableEq

structure Reservation where
  token : String
  day : Int
  estimatedCostUsd : ℚ
deriving DecidableEq

structure UsageBudgetSnapshot where
  processCalls : Nat
  dailyCalls : Nat
  processCostUsd : ℚ
  dailyCostUsd : ℚ
  processReservedCostUsd : ℚ
  dailyReservedCostUsd : ℚ
deriving DecidableEq

/-- A budget: its limits, its day and its counters. -/
structure UsageBudget where
  maxProcessCalls : Nat
  maxDailyCalls : Nat
  maxProcessCostUsd : ℚ
  maxDailyCostUsd : ℚ
  day : Int
  processCalls : Nat := 0
  dailyCalls : Nat := 0
  processCostUsd : ℚ := 0
  dailyCostUsd : ℚ := 0
  processReservedCostUsd : ℚ := 0
  dailyReservedCostUsd : ℚ := 0
  reservations : Table Reservation (·.token) := .empty

namespace UsageBudget

variable (budget : UsageBudget)

/-- The outstanding reservations of a day. -/
def reservedOn (day : Int) : ℚ :=
  budget.reservations.total fun reservation =>
    if reservation.day = day then reservation.estimatedCostUsd else 0

/-- `_roll_day_locked`. -/
def rollDay (today : Int) : UsageBudget :=
  if today = budget.day then budget
  else { budget with
    day := today, dailyCalls := 0, dailyCostUsd := 0, dailyReservedCostUsd := budget.reservedOn today }

/-- The message of `_non_negative_float`. -/
def negativeCost (name : String) : AiExn := .invalid "ValueError" (name ++ " must be non-negative")

/-- The limit that a call of this cost would break. -/
def brokenLimit (cost : ℚ) : Option String :=
  if budget.maxProcessCalls ≤ budget.processCalls then some "process AI call limit exceeded"
  else if budget.maxDailyCalls ≤ budget.dailyCalls then some "daily AI call limit exceeded"
  else if budget.maxProcessCostUsd < budget.processCostUsd + budget.processReservedCostUsd + cost then
    some "process AI cost limit exceeded"
  else if budget.maxDailyCostUsd < budget.dailyCostUsd + budget.dailyReservedCostUsd + cost then
    some "daily AI cost limit exceeded"
  else none

/-- `reserve_call` on a day and with the token it draws: the budget it leaves, also where
    it raises, and its answer. -/
def reserveCall (today : Int) (token : String) (cost : ℚ) : UsageBudget × Except AiExn Reservation :=
  if cost < 0 then (budget, .error (negativeCost "estimated_cost_usd"))
  else
    let rolled := budget.rollDay today
    match rolled.brokenLimit cost with
    | some message => (rolled, .error (.budgetExceeded message))
    | none =>
      let reservation : Reservation := ⟨token, rolled.day, cost⟩
      ({ rolled with
          reservations := rolled.reservations.upsert reservation
          processCalls := rolled.processCalls + 1
          dailyCalls := rolled.dailyCalls + 1
          processReservedCostUsd := rolled.processReservedCostUsd + cost
          dailyReservedCostUsd := rolled.dailyReservedCostUsd + cost }, .ok reservation)

/-- Take an outstanding reservation off the budget. -/
def release (current : Reservation) : UsageBudget :=
  { budget with
    reservations := budget.reservations.delete current.token
    processReservedCostUsd := budget.processReservedCostUsd - current.estimatedCostUsd
    dailyReservedCostUsd :=
      if current.day = budget.day then budget.dailyReservedCostUsd - current.estimatedCostUsd
      else budget.dailyReservedCostUsd }

/-- `settle`: the budget it leaves, also where it raises. -/
def settle (reservation : Reservation) (cost : ℚ) : UsageBudget × Except AiExn Unit :=
  if cost < 0 then (budget, .error (negativeCost "actual_cost_usd"))
  else
    match budget.reservations.find? reservation.token with
    | none => (budget, .ok ())
    | some current =>
      let released := budget.release current
      let spent := { released with
        processCostUsd := released.processCostUsd + cost
        dailyCostUsd :=
          if current.day = budget.day then released.dailyCostUsd + cost else released.dailyCostUsd }
      if spent.maxProcessCostUsd < spent.processCostUsd then
        (spent, .error (.budgetExceeded "process AI cost limit exceeded"))
      else if spent.maxDailyCostUsd < spent.dailyCostUsd then
        (spent, .error (.budgetExceeded "daily AI cost limit exceeded"))
      else (spent, .ok ())

/-- `cancel`. -/
def cancel (reservation : Reservation) : UsageBudget :=
  match budget.reservations.find? reservation.token with
  | none => budget
  | some current => budget.release current

/-- `snapshot`. -/
def snapshot (today : Int) : UsageBudget × UsageBudgetSnapshot :=
  let rolled := budget.rollDay today
  (rolled, ⟨rolled.processCalls, rolled.dailyCalls, rolled.processCostUsd, rolled.dailyCostUsd,
    rolled.processReservedCostUsd, rolled.dailyReservedCostUsd⟩)

/-! ### The law of the budget -/

/-- The reserved costs are those of the outstanding reservations, and no call limit is
    exceeded. -/
structure Exact : Prop where
  processReserved : budget.processReservedCostUsd =
    budget.reservations.total fun reservation => reservation.estimatedCostUsd
  dailyReserved : budget.dailyReservedCostUsd = budget.reservedOn budget.day
  processCalls : budget.processCalls ≤ budget.maxProcessCalls
  dailyCalls : budget.dailyCalls ≤ budget.maxDailyCalls

/-- Spent and reserved costs are within both limits. -/
structure WithinCosts : Prop where
  process : budget.processCostUsd + budget.processReservedCostUsd ≤ budget.maxProcessCostUsd
  daily : budget.dailyCostUsd + budget.dailyReservedCostUsd ≤ budget.maxDailyCostUsd

variable {budget}

@[simp] theorem rollDay_reservations (today : Int) :
    (budget.rollDay today).reservations = budget.reservations := by
  unfold rollDay
  split <;> rfl

theorem Exact.rollDay (h : budget.Exact) (today : Int) : (budget.rollDay today).Exact := by
  unfold UsageBudget.rollDay
  split
  · exact h
  · exact ⟨h.processReserved, rfl, h.processCalls, Nat.zero_le _⟩

theorem brokenLimit_none {cost : ℚ} (h : budget.brokenLimit cost = none) :
    budget.processCalls < budget.maxProcessCalls ∧ budget.dailyCalls < budget.maxDailyCalls ∧
      budget.processCostUsd + budget.processReservedCostUsd + cost ≤ budget.maxProcessCostUsd ∧
      budget.dailyCostUsd + budget.dailyReservedCostUsd + cost ≤ budget.maxDailyCostUsd := by
  unfold brokenLimit at h
  split_ifs at h with hprocess hdaily hprocessCost hdailyCost
  exact ⟨not_le.mp hprocess, not_le.mp hdaily, not_lt.mp hprocessCost, not_lt.mp hdailyCost⟩

/-- `reserve_call` raises and leaves the reservations, or adds one under its token and is
    within the limits. -/
theorem reserveCall_spec (h : budget.Exact) (today : Int) {token : String} (cost : ℚ)
    (hfresh : budget.reservations.find? token = none) :
    (budget.reserveCall today token cost).1.Exact ∧
    ((∃ e, (budget.reserveCall today token cost).2 = .error e ∧
      (budget.reserveCall today token cost).1.reservations = budget.reservations) ∨
    (∃ reservation, (budget.reserveCall today token cost).2 = .ok reservation ∧ reservation.token = token ∧
      (budget.reserveCall today token cost).1.reservations = budget.reservations.upsert reservation ∧
      (budget.reserveCall today token cost).1.WithinCosts)) := by
  unfold reserveCall
  split
  · exact ⟨h, .inl ⟨_, rfl, rfl⟩⟩
  have hrolled := h.rollDay today
  have hreservations : (budget.rollDay today).reservations = budget.reservations := rollDay_reservations today
  generalize budget.rollDay today = rolled at hrolled hreservations ⊢
  dsimp only
  cases hlimit : rolled.brokenLimit cost with
  | some message => exact ⟨hrolled, .inl ⟨_, rfl, hreservations⟩⟩
  | none =>
    obtain ⟨hprocess, hdaily, hprocessCost, hdailyCost⟩ := brokenLimit_none hlimit
    have hfree : rolled.reservations.find? token = none := by rw [hreservations, hfresh]
    refine ⟨⟨?_, ?_, hprocess, hdaily⟩, .inr ⟨_, rfl, rfl, ?_, ?_, ?_⟩⟩
    · dsimp only
      rw [Table.total_upsert, hfree, hrolled.processReserved]
      simp
    · dsimp only [reservedOn]
      rw [Table.total_upsert, hfree, hrolled.dailyReserved, reservedOn]
      simp
    · dsimp only
      rw [hreservations]
    · dsimp only
      linarith
    · dsimp only
      linarith

theorem Exact.release (h : budget.Exact) {current : Reservation} {token : String}
    (hcurrent : budget.reservations.find? token = some current) : (budget.release current).Exact := by
  have htoken : current.token = token := budget.reservations.key_of_find? hcurrent
  refine ⟨?_, ?_, h.processCalls, h.dailyCalls⟩
  · dsimp only [UsageBudget.release]
    rw [Table.total_delete _ (htoken.symm ▸ hcurrent), h.processReserved]
  · dsimp only [UsageBudget.release, reservedOn]
    rw [Table.total_delete _ (htoken.symm ▸ hcurrent), h.dailyReserved, reservedOn]
    split
    · rfl
    · simp

/-- `settle` keeps the law, and leaves the reservations or takes its own token off. -/
theorem settle_spec (h : budget.Exact) (reservation : Reservation) (cost : ℚ) :
    (budget.settle reservation cost).1.Exact ∧
    ((budget.settle reservation cost).1.reservations = budget.reservations ∧
        ((budget.settle reservation cost).2 = .ok () →
          budget.reservations.find? reservation.token = none) ∨
      (budget.reservations.find? reservation.token).isSome = true ∧
        (budget.settle reservation cost).1.reservations = budget.reservations.delete reservation.token) := by
  unfold settle
  split
  · exact ⟨h, .inl ⟨rfl, fun hok => by cases hok⟩⟩
  cases hfind : budget.reservations.find? reservation.token with
  | none => exact ⟨h, .inl ⟨rfl, fun _ => rfl⟩⟩
  | some current =>
    have hreleased := h.release hfind
    have htoken : current.token = reservation.token := budget.reservations.key_of_find? hfind
    dsimp only
    split_ifs
    all_goals
      exact ⟨⟨hreleased.processReserved, hreleased.dailyReserved, hreleased.processCalls,
        hreleased.dailyCalls⟩, .inr ⟨rfl, by rw [← htoken]; rfl⟩⟩

/-- `cancel` keeps the law, and leaves its token not outstanding. -/
theorem cancel_spec (h : budget.Exact) (reservation : Reservation) :
    (budget.cancel reservation).Exact ∧
    ((budget.cancel reservation).reservations = budget.reservations ∧
        budget.reservations.find? reservation.token = none ∨
      (budget.reservations.find? reservation.token).isSome = true ∧
        (budget.cancel reservation).reservations = budget.reservations.delete reservation.token) := by
  unfold cancel
  cases hfind : budget.reservations.find? reservation.token with
  | none => exact ⟨h, .inl ⟨rfl, rfl⟩⟩
  | some current =>
    have htoken : current.token = reservation.token := budget.reservations.key_of_find? hfind
    exact ⟨h.release hfind, .inr ⟨rfl, by rw [← htoken]; rfl⟩⟩

end UsageBudget

end AutoTrader
