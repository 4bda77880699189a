/-
  AutoTrader/Ops/RecoveryNotice.lean
  ==================================
  **The notices of the order supervisor.**

  Every pass of the supervisor changes three counters and hands at most one notice to the
  notifier: an unhealthy pass names what is wrong, and after three healthy passes in a row
  a recovery is announced, if the last notice was one that can be recovered from.
  The exception path names its state with the text of the error, and no such
  state is among those: `recovery_announced_iff`.
-/
import AutoTrader.Python.Values
import Mathlib.Data.List.Basic

namespace AutoTrader

/-- The fields of `SupervisorState` that the notices depend on. -/
structure SupervisorState where
  lastNotificationState : Option String
  lastNotificationAt : ℚ
  healthyIterations : Nat
  dependencyFailureStreak : Nat
  dependencyHealthyStreak : Nat

namespace SupervisorState

/-- `SupervisorState()`. -/
def init : SupervisorState := ⟨none, 0, 0, 0, 0⟩

/-- `DEFAULT_NOTIFY_THROTTLE_SECONDS`. -/
def notifyThrottleSeconds : ℚ := 300

/-- `RECOVERY_HEALTHY_ITERATIONS`. -/
def recoveryHealthyIterations : Nat := 3

/-- What `one_iteration` came to.  A pass is a review or not, and has a reason that names a dependency
    or not; an exception is raised before the dependency was counted, or after it was
    counted as available or not.  Closing the database raises nothing. -/
inductive Outcome where
  | leaseInvalid
  | passed (review dependency : Bool)
  | raised (counted : Option Bool) (error : String)

/-- The states a recovery is announced after. -/
def recoverable : List String := ["reconciled_operator_review", "dependency_unavailable", "error", "lease_invalid"]

variable (state : SupervisorState)

/-- `_notify`: the state it leaves, and what it hands to the notifier; an exception of the notifier is
    ignored. -/
def notify (notifier : Bool) (messageState : String) (current : ℚ) : SupervisorState × Option String :=
  if notifier = false then (state, none)
  else if some messageState = state.lastNotificationState ∧
      ¬ notifyThrottleSeconds ≤ current - state.lastNotificationAt then (state, none)
  else ({ state with lastNotificationState := some messageState, lastNotificationAt := current }, some messageState)

/-- The streaks of the dependency. -/
def countDependency (unavailable : Bool) : SupervisorState :=
  if unavailable then
    { state with dependencyFailureStreak := state.dependencyFailureStreak + 1, dependencyHealthyStreak := 0 }
  else { state with dependencyFailureStreak := 0, dependencyHealthyStreak := state.dependencyHealthyStreak + 1 }

/-- The end of a healthy pass. -/
def announceRecovery (notifier : Bool) (current : ℚ) : SupervisorState × Option String :=
  if recoveryHealthyIterations ≤ state.healthyIterations ∧
      recoveryHealthyIterations ≤ state.dependencyHealthyStreak ∧
      state.lastNotificationState.any recoverable.contains then
    state.notify notifier "recovered" current
  else (state, none)

/-- One iteration, by its outcome: the state and the notice. -/
def iteration (notifier : Bool) (outcome : Outcome) (current : ℚ) : SupervisorState × Option String :=
  match outcome with
  | .leaseInvalid => { state with healthyIterations := 0 }.notify notifier "lease_invalid" current
  | .passed review dependency =>
    let unavailable := review && dependency
    let counted := state.countDependency unavailable
    let status := if unavailable then "dependency_unavailable"
      else if review then "reconciled_operator_review" else "reconciled"
    if status = "reconciled_operator_review" ∨ status = "dependency_unavailable" then
      { counted with healthyIterations := 0 }.notify notifier status current
    else { counted with healthyIterations := counted.healthyIterations + 1 }.announceRecovery notifier current
  | .raised counted error =>
    let counted := counted.elim state state.countDependency
    { counted with healthyIterations := 0 }.notify notifier ("error:" ++ error) current

/-- An iteration of a run, with the clock that its notice reads. -/
abbrev Iteration := Outcome × ℚ

/-- The state after a run. -/
def after (notifier : Bool) (run : List Iteration) : SupervisorState :=
  run.foldl (fun state step => (state.iteration notifier step.1 step.2).1) state

/-- How many recoveries a run announces. -/
def recoveries (notifier : Bool) : SupervisorState → List Iteration → Nat
  | _, [] => 0
  | state, step :: rest =>
    let (next, notice) := state.iteration notifier step.1 step.2
    (if notice = some "recovered" then 1 else 0) + recoveries notifier next rest

/-! ### Outcomes -/

def Outcome.healthy : Outcome → Bool
  | .passed false _ => true
  | _ => false

def Outcome.isException : Outcome → Bool
  | .raised _ _ => true
  | _ => false

theorem Outcome.unhealthy_of_exception {outcome : Outcome} (h : outcome.isException = true) :
    outcome.healthy = false := by
  cases outcome with
  | raised counted error => rfl
  | leaseInvalid => cases h
  | passed review dependency => cases h

/-- The state that an unhealthy outcome is notified under. -/
def Outcome.message : Outcome → String
  | .leaseInvalid => "lease_invalid"
  | .passed _ dependency => if dependency then "dependency_unavailable" else "reconciled_operator_review"
  | .raised _ error => "error:" ++ error

theorem Outcome.message_ne_recovered (outcome : Outcome) : outcome.message ≠ "recovered" := by
  cases outcome with
  | leaseInvalid => decide
  | passed review dependency => cases dependency <;> decide +revert
  | raised counted error =>
    intro h
    have hhead := congrArg (fun text => text.toList.head?) h
    simp [Outcome.message] at hhead

/-- A recovery is announced after all unhealthy states but those of an exception. -/
theorem Outcome.message_recoverable (outcome : Outcome) :
    recoverable.contains outcome.message = true ↔ outcome.isException = false := by
  cases outcome with
  | leaseInvalid => decide
  | passed review dependency => cases dependency <;> decide +revert
  | raised counted error =>
    have hcolon : ':' ∈ ("error:" ++ error).toList := by simp
    have hnone : ∀ text ∈ recoverable, ':' ∉ text.toList := by decide
    constructor
    · intro h
      exact absurd hcolon (hnone _ (List.contains_iff_mem.mp h))
    · intro h
      cases h

variable {state}

theorem countDependency_last (unavailable : Bool) :
    (state.countDependency unavailable).lastNotificationState = state.lastNotificationState := by
  cases unavailable <;> rfl

variable (state) in
theorem notify_counters (notifier : Bool) (messageState : String) (current : ℚ) :
    (state.notify notifier messageState current).1.healthyIterations = state.healthyIterations ∧
      (state.notify notifier messageState current).1.dependencyHealthyStreak = state.dependencyHealthyStreak := by
  unfold notify
  split
  · exact ⟨rfl, rfl⟩
  split
  · exact ⟨rfl, rfl⟩
  · exact ⟨rfl, rfl⟩

/-- After a notice, sent or repeated too early, the last state is its own. -/
theorem notify_last (messageState : String) (current : ℚ) :
    (state.notify true messageState current).1.lastNotificationState = some messageState := by
  unfold notify
  split
  · rename_i hno
    cases hno
  split
  · rename_i hsame
    exact hsame.1.symm
  · rfl

theorem notify_notice {notifier : Bool} {messageState : String} {current : ℚ} {notice : String}
    (h : (state.notify notifier messageState current).2 = some notice) : notice = messageState := by
  unfold notify at h
  split at h
  · cases h
  split at h
  · cases h
  · cases h
    rfl

/-- A notice of another state than the last is handed over. -/
theorem notify_changed {messageState : String} {current : ℚ} (h : state.lastNotificationState ≠ some messageState) :
    (state.notify true messageState current).2 = some messageState := by
  unfold notify
  rw [if_neg (by decide), if_neg fun hsame => h hsame.1.symm]

theorem notify_nobody (messageState : String) (current : ℚ) :
    state.notify false messageState current = (state, none) := if_pos rfl

variable (state) in
/-- An unhealthy iteration is one notice of its state, from counters without a healthy iteration. -/
theorem iteration_unhealthy {outcome : Outcome} (h : outcome.healthy = false) (notifier : Bool) (current : ℚ) :
    ∃ counted : SupervisorState, counted.healthyIterations = 0 ∧
      counted.lastNotificationState = state.lastNotificationState ∧
      state.iteration notifier outcome current = counted.notify notifier outcome.message current := by
  cases outcome with
  | leaseInvalid => exact ⟨{ state with healthyIterations := 0 }, rfl, rfl, rfl⟩
  | passed review dependency =>
    cases review with
    | false => cases h
    | true => exact ⟨{ state.countDependency dependency with healthyIterations := 0 }, rfl,
        countDependency_last dependency, by cases dependency <;> rfl⟩
  | raised counted error =>
    cases counted with
    | none => exact ⟨{ state with healthyIterations := 0 }, rfl, rfl, rfl⟩
    | some unavailable => exact ⟨{ state.countDependency unavailable with healthyIterations := 0 }, rfl,
        countDependency_last unavailable, rfl⟩

variable (state) in
/-- A healthy iteration counts in both streaks, and may announce a recovery. -/
theorem iteration_healthy {outcome : Outcome} (h : outcome.healthy = true) (notifier : Bool) (current : ℚ) :
    ∃ counted : SupervisorState, counted.healthyIterations = state.healthyIterations + 1 ∧
      counted.dependencyHealthyStreak = state.dependencyHealthyStreak + 1 ∧
      counted.lastNotificationState = state.lastNotificationState ∧
      state.iteration notifier outcome current = counted.announceRecovery notifier current := by
  cases outcome with
  | leaseInvalid => cases h
  | passed review dependency =>
    cases review with
    | true => cases h
    | false => exact ⟨{ state.countDependency false with healthyIterations := state.healthyIterations + 1 }, rfl,
        rfl, rfl, rfl⟩
  | raised counted error => cases h

/-! ### One iteration -/

/-- The streak of the dependency is as long as that of the healthy iterations. -/
def Streaks (state : SupervisorState) : Prop := state.healthyIterations ≤ state.dependencyHealthyStreak

variable (state) in
/-- An unhealthy iteration resets the healthy iterations and announces nothing; with a notifier its state
    is the last that was notified. -/
theorem unhealthy_leaves {outcome : Outcome} (h : outcome.healthy = false) (notifier : Bool) (current : ℚ) :
    (state.iteration notifier outcome current).1.healthyIterations = 0 ∧
    (state.iteration notifier outcome current).2 ≠ some "recovered" ∧
    (notifier = true →
      (state.iteration notifier outcome current).1.lastNotificationState = some outcome.message) := by
  obtain ⟨counted, hzero, -, hnotify⟩ := iteration_unhealthy state h notifier current
  rw [hnotify]
  refine ⟨(notify_counters _ _ _ _).1.trans hzero, ?_, ?_⟩
  · intro hsent
    exact outcome.message_ne_recovered (notify_notice hsent).symm
  · rintro rfl
    exact notify_last _ _

/-- The iteration at the end of a healthy stretch announces the recovery, when it is long enough and the
    last notice can be recovered from. -/
theorem healthy_leaves {outcome : Outcome} (h : outcome.healthy = true) (hstreaks : state.Streaks) (notifier : Bool)
    (current : ℚ) :
    (state.iteration notifier outcome current).1.healthyIterations = state.healthyIterations + 1 ∧
    (state.iteration notifier outcome current).1.Streaks ∧
    if notifier = true ∧ recoveryHealthyIterations ≤ state.healthyIterations + 1 ∧
        state.lastNotificationState.any recoverable.contains = true then
      (state.iteration notifier outcome current).2 = some "recovered" ∧
        (state.iteration notifier outcome current).1.lastNotificationState = some "recovered"
    else
      (state.iteration notifier outcome current).2 = none ∧
        (state.iteration notifier outcome current).1.lastNotificationState = state.lastNotificationState := by
  obtain ⟨counted, hhealthy, hstreak, hlast, hstep⟩ := iteration_healthy state h notifier current
  have hboth : recoveryHealthyIterations ≤ state.healthyIterations + 1 →
      recoveryHealthyIterations ≤ counted.dependencyHealthyStreak := by
    intro hlong
    rw [hstreak]
    exact hlong.trans (Nat.add_le_add_right hstreaks 1)
  have hnext : counted.Streaks := by
    rw [Streaks, hhealthy, hstreak]
    exact Nat.add_le_add_right hstreaks 1
  rw [hstep]
  unfold announceRecovery
  rw [hhealthy, hlast]
  by_cases hdue : recoveryHealthyIterations ≤ state.healthyIterations + 1 ∧
      state.lastNotificationState.any recoverable.contains = true
  · rw [if_pos ⟨hdue.1, hboth hdue.1, hdue.2⟩]
    cases notifier with
    | false =>
      rw [notify_nobody, if_neg fun hno => absurd hno.1 (by decide)]
      exact ⟨hhealthy, hnext, rfl, hlast⟩
    | true =>
      obtain ⟨hkept, hkeptStreak⟩ := notify_counters counted true "recovered" current
      have hother : counted.lastNotificationState ≠ some "recovered" := by
        intro hrecovered
        rw [hlast] at hrecovered
        rw [hrecovered] at hdue
        exact absurd hdue.2 (by decide)
      rw [if_pos ⟨rfl, hdue⟩]
      refine ⟨hkept.trans hhealthy, ?_, notify_changed hother, notify_last _ _⟩
      rw [Streaks, hkept, hkeptStreak]
      exact hnext
  · rw [if_neg fun hall => hdue ⟨hall.1, hall.2.2⟩, if_neg fun hall => hdue hall.2]
    exact ⟨hhealthy, hnext, rfl, hlast⟩

theorem iteration_streaks (h : state.Streaks) (notifier : Bool) (outcome : Outcome) (current : ℚ) :
    (state.iteration notifier outcome current).1.Streaks := by
  cases hhealthy : outcome.healthy with
  | true => exact (healthy_leaves hhealthy h notifier current).2.1
  | false =>
    rw [Streaks, (unhealthy_leaves _ hhealthy notifier current).1]
    exact Nat.zero_le _

/-! ### Runs -/

theorem after_append (notifier : Bool) (front back : List Iteration) :
    state.after notifier (front ++ back) = (state.after notifier front).after notifier back := List.foldl_append

theorem after_streaks (h : state.Streaks) (notifier : Bool) (run : List Iteration) :
    (state.after notifier run).Streaks := by
  induction run generalizing state with
  | nil => exact h
  | cons step rest ih => exact ih (iteration_streaks h notifier step.1 step.2)

/-- All iterations of a stretch are healthy. -/
def Healthy (stretch : List Iteration) : Prop := ∀ step ∈ stretch, step.1.healthy = true

/-- A healthy stretch announces one recovery if it gets long enough after a notice that can be recovered
    from, and otherwise none. -/
theorem recoveries_stretch (hstreaks : state.Streaks) (notifier : Bool) {stretch : List Iteration}
    (hhealthy : Healthy stretch) :
    recoveries notifier state stretch =
      if notifier = true ∧ state.lastNotificationState.any recoverable.contains = true ∧ stretch ≠ [] ∧
        recoveryHealthyIterations ≤ state.healthyIterations + stretch.length then 1 else 0 := by
  induction stretch generalizing state with
  | nil =>
    rw [if_neg fun h => h.2.2.1 rfl]
    rfl
  | cons step rest ih =>
    have hrest : Healthy rest := fun other hother => hhealthy other (List.mem_cons_of_mem _ hother)
    obtain ⟨hcount, hnext, hnotice⟩ :=
      healthy_leaves (hhealthy step List.mem_cons_self) hstreaks notifier step.2
    have hunfold : recoveries notifier state (step :: rest) =
        (if (state.iteration notifier step.1 step.2).2 = some "recovered" then 1 else 0) +
          recoveries notifier (state.iteration notifier step.1 step.2).1 rest := rfl
    rw [hunfold, ih hnext hrest, hcount]
    by_cases hdue : notifier = true ∧ recoveryHealthyIterations ≤ state.healthyIterations + 1 ∧
        state.lastNotificationState.any recoverable.contains = true
    · -- announced now: the last state is no longer one to recover from
      rw [if_pos hdue] at hnotice
      have hlong : recoveryHealthyIterations ≤ state.healthyIterations + (step :: rest).length := by
        rw [List.length_cons]
        have := hdue.2.1
        omega
      have hspent : ¬ (some "recovered").any recoverable.contains = true := by decide
      rw [hnotice.1, hnotice.2, if_pos rfl, if_neg fun h => hspent h.2.1,
        if_pos ⟨hdue.1, hdue.2.2, List.cons_ne_nil _ _, hlong⟩]
    · rw [if_neg hdue] at hnotice
      rw [hnotice.1, hnotice.2, if_neg nofun, Nat.zero_add]
      congr 1
      rw [eq_iff_iff, List.length_cons]
      constructor
      · rintro ⟨hsome, hlast, -, hlong⟩
        refine ⟨hsome, hlast, List.cons_ne_nil _ _, ?_⟩
        omega
      · rintro ⟨hsome, hlast, -, hlong⟩
        have hshort : ¬ recoveryHealthyIterations ≤ state.healthyIterations + 1 :=
          fun hle => hdue ⟨hsome, hle, hlast⟩
        refine ⟨hsome, hlast, ?_, ?_⟩
        · rintro rfl
          rw [List.length_nil, Nat.zero_add] at hlong
          exact hshort hlong
        · omega

/-- Without a notifier nothing is noted. -/
theorem after_nobody (run : List Iteration) :
    (state.after false run).lastNotificationState = state.lastNotificationState := by
  have hstep : ∀ (state : SupervisorState) (step : Iteration),
      (state.iteration false step.1 step.2).1.lastNotificationState = state.lastNotificationState := by
    intro state step
    cases hhealthy : step.1.healthy with
    | true =>
      obtain ⟨counted, -, -, hlast, hannounce⟩ := iteration_healthy state hhealthy false step.2
      rw [hannounce, announceRecovery, notify_nobody]
      split <;> exact hlast
    | false =>
      obtain ⟨counted, -, hlast, hnotify⟩ := iteration_unhealthy state hhealthy false step.2
      rw [hnotify, notify_nobody]
      exact hlast
  induction run generalizing state with
  | nil => rfl
  | cons step rest ih => exact ih.trans (hstep state step)

/-- An unhealthy outcome is notified as soon as there is a notifier. -/
theorem notified_iff (notifier : Bool) (front : List Iteration) {step : Iteration}
    (h : step.1.healthy = false) :
    (init.after notifier (front ++ [step])).lastNotificationState = some step.1.message ↔ notifier = true := by
  cases notifier with
  | false =>
    rw [after_nobody]
    exact ⟨(fun hno => nomatch hno), (fun hno => nomatch hno)⟩
  | true =>
    rw [after_append]
    exact ⟨fun _ => rfl, fun hsome => (unhealthy_leaves _ h true step.2).2.2 hsome⟩

/-- In a run, whenever an unhealthy outcome that was notified is followed by healthy iterations, these
    announce one recovery if they are three or more, and none otherwise; no other
    iteration announces one. -/
structure Announced (notifier : Bool) (run : List Iteration) : Prop where
  recovered : ∀ front unhealthy stretch back, run = front ++ unhealthy :: stretch ++ back →
    unhealthy.1.healthy = false → Healthy stretch →
    recoveries notifier (init.after notifier (front ++ [unhealthy])) stretch =
      if (init.after notifier (front ++ [unhealthy])).lastNotificationState = some unhealthy.1.message ∧
        recoveryHealthyIterations ≤ stretch.length then 1 else 0
  first : ∀ stretch back, run = stretch ++ back → Healthy stretch → recoveries notifier init stretch = 0
  unhealthy : ∀ front step back, run = front ++ step :: back → step.1.healthy = false →
    ((init.after notifier front).iteration notifier step.1 step.2).2 ≠ some "recovered"

/-- **When recoveries are announced.**  In a run of the supervisor from a fresh state, recoveries are
    announced as they should be exactly when nobody is to be notified or no exception is
    followed by three healthy iterations. -/
theorem recovery_announced_iff (notifier : Bool) (run : List Iteration) :
    Announced notifier run ↔ (notifier = true → ∀ front exception stretch back,
      run = front ++ exception :: stretch ++ back → exception.1.isException = true → Healthy stretch →
      stretch.length < recoveryHealthyIterations) := by
  have hinit : init.Streaks := le_rfl
  -- what a stretch after an unhealthy iteration announces
  have hstretch : ∀ (front : List Iteration) (step : Iteration) (stretch : List Iteration),
      step.1.healthy = false → Healthy stretch →
      recoveries notifier (init.after notifier (front ++ [step])) stretch =
        if notifier = true ∧ step.1.isException = false ∧ recoveryHealthyIterations ≤ stretch.length
          then 1 else 0 := by
    intro front step stretch hunhealthy hhealthy
    rw [recoveries_stretch (after_streaks hinit notifier _) notifier hhealthy, after_append]
    obtain ⟨hzero, -, hlast⟩ := unhealthy_leaves (init.after notifier front) hunhealthy notifier step.2
    have hafter : (init.after notifier front).after notifier [step] =
        ((init.after notifier front).iteration notifier step.1 step.2).1 := rfl
    rw [hafter, hzero, Nat.zero_add]
    congr 1
    rw [eq_iff_iff]
    constructor
    · rintro ⟨hsome, hrecoverable, -, hlong⟩
      rw [hlast hsome, Option.any_some, Outcome.message_recoverable] at hrecoverable
      exact ⟨hsome, hrecoverable, hlong⟩
    · rintro ⟨hsome, hexception, hlong⟩
      refine ⟨hsome, ?_, ?_, hlong⟩
      · rw [hlast hsome, Option.any_some, Outcome.message_recoverable]
        exact hexception
      · rintro rfl
        exact absurd hlong (by decide)
  constructor
  · rintro h rfl front exception stretch back hrun hexception hhealthy
    have hunhealthy := Outcome.unhealthy_of_exception hexception
    have hcount := h.recovered front exception stretch back hrun hunhealthy hhealthy
    have hnotified := (notified_iff true front hunhealthy).mpr rfl
    rw [hstretch front exception stretch hunhealthy hhealthy, hexception, if_neg fun hno => nomatch hno.2.1] at hcount
    by_contra hlong
    rw [if_pos ⟨hnotified, not_lt.mp hlong⟩] at hcount
    cases hcount
  · intro h
    refine ⟨?_, ?_, ?_⟩
    · intro front step stretch back hrun hunhealthy hhealthy
      rw [hstretch front step stretch hunhealthy hhealthy]
      congr 1
      rw [eq_iff_iff, notified_iff notifier front hunhealthy]
      refine ⟨fun hall => ⟨hall.1, hall.2.2⟩, ?_⟩
      rintro ⟨hsome, hlong⟩
      refine ⟨hsome, ?_, hlong⟩
      cases hexception : step.1.isException with
      | false => rfl
      | true => exact absurd hlong (not_le.mpr (h hsome front step stretch back hrun hexception hhealthy))
    · intro stretch back _ hhealthy
      rw [recoveries_stretch hinit notifier hhealthy, if_neg fun hno => nomatch hno.2.1]
    · intro front step back _ hunhealthy
      exact (unhealthy_leaves _ hunhealthy notifier step.2).2.1

/-! ### After an exception -/

namespace AfterException

def healthy : List Iteration := [(.passed false false, 1), (.passed false false, 2), (.passed false false, 3)]

def run : List Iteration := (.raised none "TimeoutError", 0) :: healthy

/-- The error is notified, three healthy iterations follow, and no recovery is announced. -/
theorem no_recovery_after_exception :
    (init.after true [(.raised none "TimeoutError", 0)]).lastNotificationState = some "error:TimeoutError" ∧
      recoveries true init run = 0 ∧ ¬ Announced true run := by
  refine ⟨by decide +kernel, by decide +kernel, ?_⟩
  intro h
  have hhealthy : Healthy healthy := by
    unfold Healthy
    decide
  have hcount := h.recovered [] (.raised none "TimeoutError", 0) healthy [] rfl rfl hhealthy
  revert hcount
  decide +kernel

end AfterException

end SupervisorState

end AutoTrader
