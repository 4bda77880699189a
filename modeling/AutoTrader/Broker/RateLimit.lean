/-
  AutoTrader/Broker/RateLimit.lean
  ================================
  **The pacing of the REST calls, and the retries of reads.**

  One limiter serves all sessions of the process.  A call of `wait` takes its lock, reads
  the clock, sleeps for what the interval and the cooldown of its environment leave, and
  records the start of the call before it gives the lock back.  Threads call it in any
  order; in every world they reach the log of starts and cooldowns is paced
  (`LimiterWorld.Sound.step`).  What a call sleeps depends on its own environment only,
  but all of them wait for the one lock, so a call of the other environment is held up
  by a sleeping one (`other_environment_held_up`).

  A read is retried at most twice, each time after a cooldown; a write is sent once.
-/
import AutoTrader.Broker.FillNoticeFrames
import AutoTrader.Broker.KisErrors
import AutoTrader.Lib.Pacing
import Mathlib.Algebra.Order.Ring.Rat
import Mathlib.Logic.Relation
import Mathlib.Tactic.Linarith

namespace AutoTrader.RateLimit

open FillNotices (KisEnvironment)
open Pacing

/-- `KIS_REST_INTERVAL_SECONDS`. -/
def restInterval : KisEnvironment → ℚ
  | .demo => 1 / 2
  | .real => 1 / 20

/-- `KIS_RATE_LIMIT_COOLDOWN_SECONDS`. -/
def cooldownSeconds : ℚ := 1

/-- `KIS_READ_MAX_RETRIES`. -/
def readMaxRetries : Nat := 2

/-! ### The limiter -/

/-- The tables `_last_call_at` and `_not_before`. -/
abbrev KisRateLimiter := Gate KisEnvironment ℚ

namespace KisRateLimiter

def init : KisRateLimiter := ⟨fun _ => none, fun _ => none⟩

/-- What `wait` sleeps when it reads `now` on the clock. -/
def remaining (limiter : KisRateLimiter) (environment : KisEnvironment) (now : ℚ) : ℚ :=
  let intervalRemaining := match limiter.lastCallAt environment with
    | none => 0
    | some previous => restInterval environment - (now - previous)
  let cooldownRemaining := (limiter.notBefore environment).getD 0 - now
  max 0 (max intervalRemaining cooldownRemaining)

/-- The end of `wait`: `self._last_call_at[env] = self._clock()`. -/
def started (limiter : KisRateLimiter) (environment : KisEnvironment) (now : ℚ) : KisRateLimiter :=
  { limiter with lastCallAt := Function.update limiter.lastCallAt environment (some now) }

/-- `penalize`, with the clock at `now`. -/
def penalize (limiter : KisRateLimiter) (environment : KisEnvironment) (seconds now : ℚ) : KisRateLimiter :=
  let deadline := max ((limiter.notBefore environment).getD 0) (now + seconds)
  { limiter with notBefore := Function.update limiter.notBefore environment (some deadline) }

end KisRateLimiter

/-! ### Threads -/

/-- A call of the limiter. -/
inductive LimiterCall where
  | wait (environment : KisEnvironment)
  | penalize (environment : KisEnvironment) (seconds : ℚ)

/-- The call that holds the lock: what it read on the clock and what it asked to sleep. -/
structure Holder where
  thread : Nat
  environment : KisEnvironment
  now : ℚ
  remaining : ℚ

/-- The limiter, its lock and the threads that have called it and not yet got the lock. -/
structure LimiterWorld where
  clock : ℚ
  limiter : KisRateLimiter
  holder : Option Holder
  called : Nat → Option LimiterCall
  log : List (Entry KisEnvironment ℚ)

/-- A limiter that nothing has called. -/
def LimiterWorld.init (clock : ℚ) : LimiterWorld := ⟨clock, .init, none, fun _ => none, []⟩

/-- One step: time passes, a thread calls, a thread gets the lock, a sleeper wakes up. -/
inductive LimiterStep : LimiterWorld → LimiterWorld → Prop where
  | pass {w : LimiterWorld} {time : ℚ} : w.clock ≤ time → LimiterStep w { w with clock := time }
  | call {w : LimiterWorld} {thread : Nat} {c : LimiterCall} :
      w.called thread = none → (∀ h, w.holder = some h → h.thread ≠ thread) →
      LimiterStep w { w with called := Function.update w.called thread (some c) }
  | enter {w : LimiterWorld} {thread : Nat} {environment : KisEnvironment} :
      w.holder = none → w.called thread = some (.wait environment) →
      LimiterStep w { w with
        called := Function.update w.called thread none
        holder := some ⟨thread, environment, w.clock, w.limiter.remaining environment w.clock⟩ }
  | start {w : LimiterWorld} {h : Holder} :
      w.holder = some h → (0 < h.remaining → h.now + h.remaining ≤ w.clock) →
      LimiterStep w { w with
        limiter := w.limiter.started h.environment w.clock
        holder := none
        log := w.log ++ [.start h.environment w.clock] }
  | penalize {w : LimiterWorld} {thread : Nat} {environment : KisEnvironment} {seconds : ℚ} :
      w.holder = none → w.called thread = some (.penalize environment seconds) →
      LimiterStep w { w with
        limiter := w.limiter.penalize environment seconds w.clock
        called := Function.update w.called thread none
        log := w.log ++ [.deadline environment (w.clock + seconds)] }

/-- The worlds that the calls of any threads lead to. -/
def LimiterReach : LimiterWorld → LimiterWorld → Prop := Relation.ReflTransGen LimiterStep

/-! ### Starts are paced -/

theorem restInterval_nonneg (environment : KisEnvironment) : 0 ≤ restInterval environment := by
  cases environment <;> simp [restInterval]

/-- A call that slept what it asked for may start. -/
theorem admits_of_remaining {limiter : KisRateLimiter} {environment : KisEnvironment} {now time : ℚ}
    (hnow : now ≤ time)
    (hslept : 0 < limiter.remaining environment now → now + limiter.remaining environment now ≤ time) :
    Admits restInterval limiter environment time := by
  have hwhole : now + limiter.remaining environment now ≤ time := by
    rcases lt_or_ge 0 (limiter.remaining environment now) with hpos | hnone
    · exact hslept hpos
    · have hzero : limiter.remaining environment now = 0 := le_antisymm hnone (le_max_left _ _)
      rw [hzero, add_zero]
      exact hnow
  refine ⟨?_, ?_⟩
  · intro last hlast
    have hinterval : restInterval environment - (now - last) ≤ limiter.remaining environment now := by
      unfold KisRateLimiter.remaining
      rw [hlast]
      exact (le_max_left _ _).trans (le_max_right _ _)
    linarith
  · intro bar hbar
    have hcooldown : bar - now ≤ limiter.remaining environment now := by
      unfold KisRateLimiter.remaining
      rw [hbar, Option.getD_some]
      exact (le_max_right _ _).trans (le_max_right _ _)
    linarith

/-- The tables are those of the log, which is paced; a holder of the lock sleeps what they left when
    it read the clock. -/
structure LimiterWorld.Sound (w : LimiterWorld) : Prop where
  limiter_eq : w.limiter = gateOf w.log
  bounds : Bounds w.limiter w.log
  paced : Paced restInterval w.log
  held : ∀ h, w.holder = some h → h.now ≤ w.clock ∧ h.remaining = w.limiter.remaining h.environment h.now

theorem LimiterWorld.sound_init (clock : ℚ) : (LimiterWorld.init clock).Sound where
  limiter_eq := rfl
  bounds := ⟨fun _ _ hmem => absurd hmem List.not_mem_nil, fun _ _ hmem => absurd hmem List.not_mem_nil⟩
  paced := Paced.nil
  held := by
    intro h hholder
    cases hholder

theorem LimiterWorld.Sound.step {w w' : LimiterWorld} (h : w.Sound) (hstep : LimiterStep w w') : w'.Sound := by
  cases hstep with
  | pass htime =>
    refine ⟨h.limiter_eq, h.bounds, h.paced, ?_⟩
    intro holder hholder
    exact ⟨(h.held holder hholder).1.trans htime, (h.held holder hholder).2⟩
  | call _ _ => exact ⟨h.limiter_eq, h.bounds, h.paced, h.held⟩
  | enter _ _ =>
    refine ⟨h.limiter_eq, h.bounds, h.paced, ?_⟩
    intro holder hholder
    cases hholder
    exact ⟨le_rfl, rfl⟩
  | @start holder hholder hslept =>
    obtain ⟨hnow, hremaining⟩ := h.held holder hholder
    rw [hremaining] at hslept
    have hadmits := admits_of_remaining hnow hslept
    refine ⟨?_, h.bounds.start (restInterval_nonneg _) hadmits, h.paced.start h.bounds hadmits, ?_⟩
    · rw [gateOf_append, ← h.limiter_eq]
      rfl
    · intro holder' hnone
      cases hnone
  | @penalize _ environment seconds hfree _ =>
    refine ⟨?_, h.bounds.deadline _ _, h.paced.deadline _ _, ?_⟩
    · rw [gateOf_append, ← h.limiter_eq]
      rfl
    · intro holder' hholder
      exact absurd (hfree.symm.trans hholder) nofun

theorem LimiterWorld.Sound.reach {w w' : LimiterWorld} (h : w.Sound) (hreach : LimiterReach w w') : w'.Sound := by
  induction hreach with
  | refl => exact h
  | tail _ hstep ih => exact ih.step hstep

/-- What a call sleeps is what the entries of its own environment leave. -/
theorem LimiterWorld.Sound.own_environment {w : LimiterWorld} (h : w.Sound) {holder : Holder}
    (hholder : w.holder = some holder) :
    holder.remaining = KisRateLimiter.remaining
      (gateOf (w.log.filter fun entry => entry.key = holder.environment)) holder.environment holder.now := by
  obtain ⟨hlast, hbar⟩ := gateOf_filter w.log holder.environment
  rw [(h.held holder hholder).2, h.limiter_eq]
  unfold KisRateLimiter.remaining
  rw [hlast, hbar]

/-! ### Sessions -/

/-- What a session does: it calls the limiter, or it sends its request. -/
inductive SessionAction where
  | limiter (c : LimiterCall)
  | send

/-- `requests.ConnectionError` and `requests.Timeout`, with the exceptions that are ones. -/
def connectionFailure (e : Exn) : Bool :=
  ["ConnectionError", "ProxyError", "SSLError", "ConnectTimeout", "Timeout", "ReadTimeout"].contains e.typeName

/-- `KIS_TRANSIENT_READ_CODES`. -/
def transientReadCodes : List String := ["EGW00201", "EGW00300"]

/-- `_is_transient_read_response`. -/
def isTransientReadResponse (json : JsonModule) (response : KisResponse) : Except Exn Bool := do
  let msgCd ← match response.json with
    | .ok (.dict payload) => fieldText json payload "msg_cd" ""
    | .ok _ => .ok ""
    | .error e => if unreadable e then .ok "" else .error e
  pure (500 ≤ response.statusCode || transientReadCodes.contains msgCd)

/-- The loop of `get`, by the attempts that are left: what is done and what comes out, when the
    `n`-th request is answered by `answers n`. -/
def getLoop (json : JsonModule) (environment : KisEnvironment) (answers : Nat → Except Exn KisResponse) :
    Nat → Nat → List SessionAction × Except Exn KisResponse
  | 0, _ => ([], .error (.other "AssertionError" "unreachable"))
  | left + 1, attempt =>
    let sent := [.limiter (.wait environment), .send]
    let retry :=
      let (actions, result) := getLoop json environment answers left (attempt + 1)
      (sent ++ .limiter (.penalize environment cooldownSeconds) :: actions, result)
    match answers attempt with
    | .error e =>
      if connectionFailure e = false ∨ readMaxRetries ≤ attempt then (sent, .error e) else retry
    | .ok response =>
      match isTransientReadResponse json response with
      | .error e => (sent, .error e)
      | .ok transient =>
        if transient = false ∨ readMaxRetries ≤ attempt then (sent, .ok response) else retry

/-- `KisRateLimitedSession.get`. -/
def get (json : JsonModule) (environment : KisEnvironment) (answers : Nat → Except Exn KisResponse) :
    List SessionAction × Except Exn KisResponse :=
  getLoop json environment answers (readMaxRetries + 1) 0

/-- `KisRateLimitedSession.post`. -/
def post (environment : KisEnvironment) (answers : Nat → Except Exn KisResponse) :
    List SessionAction × Except Exn KisResponse :=
  ([.limiter (.wait environment), .send], answers 0)

/-- `KisRateLimitedSession.request`. -/
def request (environment : KisEnvironment) (answers : Nat → Except Exn KisResponse) :
    List SessionAction × Except Exn KisResponse :=
  ([.limiter (.wait environment), .send], answers 0)

/-- The actions of a read that is retried a number of times. -/
def readActions (environment : KisEnvironment) : Nat → List SessionAction
  | 0 => [.limiter (.wait environment), .send]
  | retries + 1 =>
    [.limiter (.wait environment), .send] ++
      .limiter (.penalize environment cooldownSeconds) :: readActions environment retries

/-- What comes out of the last answer: the answer, or what reading its payload raised. -/
def ComesOut (json : JsonModule) (answer result : Except Exn KisResponse) : Prop :=
  result = answer ∨
    ∃ response e, answer = .ok response ∧ isTransientReadResponse json response = .error e ∧ result = .error e

/-- One attempt: it is the last, or it is retried after a cooldown. -/
theorem getLoop_attempt (json : JsonModule) (environment : KisEnvironment)
    (answers : Nat → Except Exn KisResponse) (left attempt : Nat) :
    (∃ result, getLoop json environment answers (left + 1) attempt = (readActions environment 0, result) ∧
      ComesOut json (answers attempt) result) ∨
    (attempt < readMaxRetries ∧ getLoop json environment answers (left + 1) attempt =
      ([.limiter (.wait environment), .send] ++ .limiter (.penalize environment cooldownSeconds) ::
        (getLoop json environment answers left (attempt + 1)).1,
       (getLoop json environment answers left (attempt + 1)).2)) := by
  rw [getLoop]
  cases hanswer : answers attempt with
  | error e =>
    simp only
    split
    · exact .inl ⟨_, rfl, .inl rfl⟩
    · rename_i hretry
      exact .inr ⟨not_le.mp fun hle => hretry (.inr hle), rfl⟩
  | ok response =>
    cases htransient : isTransientReadResponse json response with
    | error e =>
      simp only [htransient]
      exact .inl ⟨_, rfl, .inr ⟨response, e, rfl, htransient, rfl⟩⟩
    | ok transient =>
      simp only [htransient]
      split
      · exact .inl ⟨_, rfl, .inl rfl⟩
      · rename_i hretry
        exact .inr ⟨not_le.mp fun hle => hretry (.inr hle), rfl⟩

theorem getLoop_reads (json : JsonModule) (environment : KisEnvironment)
    (answers : Nat → Except Exn KisResponse) (left attempt : Nat) (hall : attempt + left = readMaxRetries) :
    ∃ retries ≤ left,
      (getLoop json environment answers (left + 1) attempt).1 = readActions environment retries ∧
      ComesOut json (answers (attempt + retries)) (getLoop json environment answers (left + 1) attempt).2 := by
  induction left generalizing attempt with
  | zero =>
    rcases getLoop_attempt json environment answers 0 attempt with ⟨result, hlast, hout⟩ | ⟨hlt, -⟩
    · rw [hlast]
      exact ⟨0, le_rfl, rfl, hout⟩
    · omega
  | succ left ih =>
    rcases getLoop_attempt json environment answers (left + 1) attempt with ⟨result, hlast, hout⟩ | ⟨-, hretry⟩
    · rw [hlast]
      exact ⟨0, Nat.zero_le _, rfl, hout⟩
    · obtain ⟨retries, hle, hactions, hout⟩ := ih (attempt + 1) (by omega)
      rw [hretry]
      refine ⟨retries + 1, by omega, ?_, ?_⟩
      · rw [readActions, hactions]
      · rw [← Nat.add_assoc, Nat.add_right_comm]
        exact hout

/-- **Pacing and retries.**  In every world that the calls of any threads lead to, each start is the
    interval of its environment after every earlier start and not before an earlier deadline
    of it, and what a call sleeps is what its own environment's entries leave.  A read sends
    one request after each wait, at most three, and its last answer comes out; a
    write sends one. -/
theorem rest_calls_paced (clock : ℚ) :
    (∀ w, LimiterReach (.init clock) w → Paced restInterval w.log ∧
      ∀ holder, w.holder = some holder → holder.remaining = KisRateLimiter.remaining
        (gateOf (w.log.filter fun entry => entry.key = holder.environment)) holder.environment holder.now) ∧
    (∀ json environment answers, ∃ retries ≤ readMaxRetries,
      (get json environment answers).1 = readActions environment retries ∧
      ComesOut json (answers retries) (get json environment answers).2) ∧
    (∀ environment answers,
      post environment answers = ([.limiter (.wait environment), .send], answers 0) ∧
      request environment answers = ([.limiter (.wait environment), .send], answers 0)) := by
  refine ⟨?_, ?_, fun _ _ => ⟨rfl, rfl⟩⟩
  · intro w hreach
    have hsound := (LimiterWorld.sound_init clock).reach hreach
    exact ⟨hsound.paced, fun holder hholder => hsound.own_environment hholder⟩
  · intro json environment answers
    obtain ⟨retries, hle, hactions, hout⟩ := getLoop_reads json environment answers readMaxRetries 0 (Nat.zero_add _)
    rw [Nat.zero_add] at hout
    exact ⟨retries, hle, hactions, hout⟩

/-! ### A call of the other environment -/

namespace HeldUp

/-- The first demo call has started; the second sleeps with the lock when a real call arrives. -/
def world : LimiterWorld where
  clock := 0
  limiter := KisRateLimiter.init.started .demo 0
  holder := some ⟨0, .demo, 0, 1 / 2⟩
  called := Function.update (fun _ => none) 1 (some (.wait .real))
  log := [.start .demo 0]

/-- An idle thread calls `wait` and gets the free lock. -/
theorem waits {w : LimiterWorld} (hfree : w.holder = none) {thread : Nat} (hidle : w.called thread = none)
    {environment : KisEnvironment} {remaining : ℚ}
    (hremaining : w.limiter.remaining environment w.clock = remaining) :
    LimiterReach w { w with holder := some (Holder.mk thread environment w.clock remaining) } := by
  subst hremaining
  have hcall : LimiterReach w { w with called := Function.update w.called thread (some (.wait environment)) } :=
    .single (.call hidle fun h hholder => absurd (hfree.symm.trans hholder) nofun)
  have hcalled : Function.update (Function.update w.called thread (some (.wait environment))) thread none =
      w.called := by
    rw [Function.update_idem, ← hidle, Function.update_eq_self]
  have hentered := hcall.tail (@LimiterStep.enter _ thread environment hfree (Function.update_self _ _ _))
  dsimp only at hentered
  rw [hcalled] at hentered
  exact hentered

theorem world_reached : LimiterReach (.init 0) world := by
  have hnone : KisRateLimiter.init.remaining .demo 0 = 0 := by decide +kernel
  have hhalf : (KisRateLimiter.init.started .demo 0).remaining .demo 0 = 1 / 2 := by decide +kernel
  have hfirst := @waits (.init 0) rfl 0 rfl .demo 0 hnone
  have hstarted := hfirst.tail (.start rfl fun hpos => absurd hpos (lt_irrefl 0))
  have hsecond := hstarted.trans (@waits _ rfl 0 rfl .demo (1 / 2) hhalf)
  exact hsecond.tail (@LimiterStep.call _ 1 (.wait .real) rfl fun h hholder => by
    cases hholder
    decide)

/-- The sleeping call waits for its own interval, in a log that is paced. -/
theorem world_paced : Paced restInterval world.log ∧
    (1 / 2 : ℚ) = KisRateLimiter.remaining (gateOf (world.log.filter fun entry => entry.key = .demo)) .demo 0 := by
  obtain ⟨hpaced, hown⟩ := (rest_calls_paced 0).1 world world_reached
  exact ⟨hpaced, hown ⟨0, .demo, 0, 1 / 2⟩ rfl⟩

/-- What starts while the demo call sleeps, and after it. -/
def Held (w : LimiterWorld) : Prop :=
  (w.holder = world.holder ∧ w.log = world.log) ∨
    (1 / 2 ≤ w.clock ∧ ∀ time, Entry.start .real time ∈ w.log → 1 / 2 ≤ time)

theorem Held.step {w w' : LimiterWorld} (h : Held w) (hstep : LimiterStep w w') : Held w' := by
  rcases h with ⟨hholder, hlog⟩ | ⟨hclock, hlater⟩
  · cases hstep with
    | pass _ => exact .inl ⟨hholder, hlog⟩
    | call _ _ => exact .inl ⟨hholder, hlog⟩
    | enter hfree _ => exact absurd (hfree.symm.trans hholder) nofun
    | penalize hfree _ => exact absurd (hfree.symm.trans hholder) nofun
    | start hstart hslept =>
      cases hholder.symm.trans hstart
      have hclock : 0 + 1 / 2 ≤ w.clock := hslept (by decide +kernel)
      rw [zero_add] at hclock
      refine .inr ⟨hclock, ?_⟩
      intro time hmem
      rw [hlog] at hmem
      simp [world] at hmem
  · cases hstep with
    | pass htime => exact .inr ⟨hclock.trans htime, hlater⟩
    | call _ _ => exact .inr ⟨hclock, hlater⟩
    | enter _ _ => exact .inr ⟨hclock, hlater⟩
    | start _ _ =>
      refine .inr ⟨hclock, ?_⟩
      intro time hmem
      rcases List.mem_append.mp hmem with hmem | hmem
      · exact hlater time hmem
      · obtain ⟨-, rfl⟩ := Entry.start.inj (List.mem_singleton.mp hmem)
        exact hclock
    | penalize _ _ =>
      refine .inr ⟨hclock, ?_⟩
      intro time hmem
      rcases List.mem_append.mp hmem with hmem | hmem
      · exact hlater time hmem
      · cases List.mem_singleton.mp hmem

theorem Held.reach {w : LimiterWorld} (hreach : LimiterReach world w) : Held w := by
  induction hreach with
  | refl => exact .inl ⟨rfl, rfl⟩
  | tail _ hstep ih => exact ih.step hstep

/-- A real call, the first of its environment, arrives at 0 and would sleep for nothing, yet in no world
    that follows it has started before 1/2. -/
theorem other_environment_held_up :
    LimiterReach (.init 0) world ∧ world.clock = 0 ∧ world.called 1 = some (.wait .real) ∧
      world.limiter.remaining .real 0 = 0 ∧
      ∀ w, LimiterReach world w → ∀ time, Entry.start .real time ∈ w.log → 1 / 2 ≤ time := by
  refine ⟨world_reached, rfl, rfl, by decide +kernel, ?_⟩
  intro w hreach time hmem
  rcases Held.reach hreach with ⟨-, hlog⟩ | ⟨-, hlater⟩
  · rw [hlog] at hmem
    simp [world] at hmem
  · exact hlater time hmem

end HeldUp

end AutoTrader.RateLimit
