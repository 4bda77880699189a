/-
  AutoTrader/Ai/SharedBudget.lean
  ===============================
  **Any number of calls on one budget.**

  The callers are `decide` calls of any clients and programs that use the budget
  directly, and between two actions the clock may move to any day.  Beside the budget the
  world keeps who called, posted, drew a token and took it off, so that a statement about
  one call can be made whatever the others do.

  A method does one of three things to the reservations (`BudgetMove`): nothing, add one
  under a new token, or take one off.  The invariant is kept by each.
-/
import AutoTrader.Ai.Client

namespace AutoTrader

open Relational Interleave

inductive BudgetEvent where
  | called (caller : Nat)
  | posted (caller : Nat)
  | reserved (caller : Nat) (token : String)
  | released (caller : Nat) (token : String)
deriving DecidableEq

def BudgetEvent.caller : BudgetEvent → Nat
  | .called caller => caller
  | .posted caller => caller
  | .reserved caller _ => caller
  | .released caller _ => caller

/-- The token an event takes off the budget. -/
def BudgetEvent.releases (token : String) : BudgetEvent → Bool
  | .released _ gone => gone = token
  | _ => false

structure BudgetWorld where
  budget : UsageBudget
  today : Int
  events : List BudgetEvent

namespace BudgetWorld

variable (world : BudgetWorld)

/-- The token was drawn before. -/
def Issued (token : String) : Prop := ∃ caller, .reserved caller token ∈ world.events

/-- The reservation under the token is outstanding. -/
def Outstanding (token : String) : Prop := (world.budget.reservations.find? token).isSome = true

instance (token : String) : Decidable (world.Outstanding token) := by
  unfold Outstanding
  infer_instance

/-- A caller leaves the budget so, and this is noted. -/
def moved (budget : UsageBudget) (events : List BudgetEvent) : BudgetWorld :=
  { world with budget, events := world.events ++ events }

/-- A token that was on the budget and no longer is. -/
def releasedBy (caller : Nat) (token : String) (budget : UsageBudget) : List BudgetEvent :=
  if (world.budget.reservations.find? token).isSome ∧ (budget.reservations.find? token).isNone then
    [.released caller token]
  else []

end BudgetWorld

/-- The token a caller has drawn. -/
def reservedEvents (caller : Nat) : Except AiExn Reservation → List BudgetEvent
  | .ok reservation => [.reserved caller reservation.token]
  | .error _ => []

/-- What an action of a caller does.  A token is drawn that no reservation had before. -/
def budgetSem (caller : Nat) : (o : AiOp) → BudgetWorld → o.Reply → BudgetWorld → Prop
  | .reserve cost, world, reply, world' =>
    ∃ token, ¬ world.Issued token ∧ reply = (world.budget.reserveCall world.today token cost).2 ∧
      world' = world.moved (world.budget.reserveCall world.today token cost).1
        (.called caller :: reservedEvents caller reply)
  | .settle reservation cost, world, reply, world' =>
    reply = (world.budget.settle reservation cost).2 ∧
      world' = world.moved (world.budget.settle reservation cost).1
        (world.releasedBy caller reservation.token (world.budget.settle reservation cost).1)
  | .cancel reservation, world, _, world' =>
    world' = world.moved (world.budget.cancel reservation)
      (world.releasedBy caller reservation.token (world.budget.cancel reservation))
  | .snapshot, world, reply, world' =>
    reply = (world.budget.snapshot world.today).2 ∧
      world' = world.moved (world.budget.snapshot world.today).1 []
  | .post _, world, _, world' => world' = world.moved world.budget [.posted caller]
  | .clock, world, _, world' => world' = world
  | .uuid4, world, _, world' => world' = world
  | .sleep _, world, _, world' => world' = world

/-- Who uses the budget: a `decide` call, or a program of its own. -/
inductive AiCaller : Type 1
  | decide (client : OpenAITradingDecisionClient) (context : AIDecisionContext)
  | direct (program : AiProg Unit)

def AiCaller.program : AiCaller → AiProg Unit
  | .decide client context => client.decide context >>= fun _ => .ret ()
  | .direct program => program

/-- The callers on one budget.  Each runs its program at most once, and the clock may move
    to any day in between. -/
def budgetSystem (callers : Nat → AiCaller) : System aiSignature BudgetWorld where
  sem := budgetSem
  env world world' := ∃ today, world' = { world with today }
  spawn i pool program := program = (callers i).program ∧ ∀ event ∈ pool.store.events, event.caller ≠ i

/-- A new budget with any limits, on any day. -/
def BudgetWorld.Fresh (world : BudgetWorld) : Prop :=
  world.events = [] ∧ ∃ maxProcessCalls maxDailyCalls maxProcessCostUsd maxDailyCostUsd day,
    world.budget = { maxProcessCalls, maxDailyCalls, maxProcessCostUsd, maxDailyCostUsd, day }

/-! ### What an action does to the reservations -/

/-- The three things that can happen to the reservations. -/
inductive BudgetMove (caller : Nat) (world world' : BudgetWorld) : Prop
  | quiet (exact : world'.budget.Exact)
      (reservations : world'.budget.reservations = world.budget.reservations) (events : List BudgetEvent)
      (noted : world'.events = world.events ++ events)
      (own : ∀ event ∈ events, event = .called caller ∨ event = .posted caller)
  | reserved (exact : world'.budget.Exact) (reservation : Reservation)
      (fresh : ¬ world.Issued reservation.token)
      (reservations : world'.budget.reservations = world.budget.reservations.upsert reservation)
      (noted : world'.events = world.events ++ [.called caller, .reserved caller reservation.token])
  | released (exact : world'.budget.Exact) (token : String) (outstanding : world.Outstanding token)
      (reservations : world'.budget.reservations = world.budget.reservations.delete token)
      (noted : world'.events = world.events ++ [.released caller token])

/-- What every move keeps: the budget is exact, and a token is on the budget or taken off
    it at most once, and only after it was drawn. -/
structure BudgetInv (world : BudgetWorld) : Prop where
  exact : world.budget.Exact
  unissued : ∀ token, ¬ world.Issued token →
    ¬ world.Outstanding token ∧ world.events.countP (BudgetEvent.releases token) = 0
  once : ∀ token, world.events.countP (BudgetEvent.releases token) +
    (if world.Outstanding token then 1 else 0) ≤ 1

section Moves

variable {caller : Nat} {world world' : BudgetWorld}

theorem BudgetInv.unissued_find? (h : BudgetInv world) {token : String} (hfresh : ¬ world.Issued token) :
    world.budget.reservations.find? token = none := by
  have := (h.unissued token hfresh).1
  simpa [BudgetWorld.Outstanding] using this

theorem releasedBy_same {budget : UsageBudget} {token : String}
    (hsame : budget.reservations = world.budget.reservations) : world.releasedBy caller token budget = [] := by
  unfold BudgetWorld.releasedBy
  rw [hsame, if_neg]
  rintro ⟨hsome, hnone⟩
  rw [Option.isNone_iff_eq_none] at hnone
  rw [hnone] at hsome
  cases hsome

theorem releasedBy_delete {budget : UsageBudget} {token : String}
    (hdelete : budget.reservations = world.budget.reservations.delete token)
    (houtstanding : world.Outstanding token) :
    world.releasedBy caller token budget = [.released caller token] := by
  unfold BudgetWorld.releasedBy
  rw [hdelete, if_pos]
  exact ⟨houtstanding, by rw [Table.find?_delete_self]; rfl⟩

/-- Taking a reservation off, or finding it gone, is a move. -/
theorem move_of_release {budget : UsageBudget} {token : String} (hexact : budget.Exact)
    (hcases : budget.reservations = world.budget.reservations ∨
      world.Outstanding token ∧ budget.reservations = world.budget.reservations.delete token) :
    BudgetMove caller world (world.moved budget (world.releasedBy caller token budget)) := by
  obtain hsame | ⟨houtstanding, hdelete⟩ := hcases
  · rw [releasedBy_same hsame]
    exact .quiet hexact hsame [] rfl nofun
  · rw [releasedBy_delete hdelete houtstanding]
    exact .released hexact token houtstanding hdelete rfl

/-- Every action of a caller is a move, and only one of the budget's methods touches the
    budget. -/
theorem budgetSem_move (h : BudgetInv world) {o : AiOp} {reply : o.Reply}
    (hsem : budgetSem caller o world reply world') : BudgetMove caller world world' := by
  have hidle : BudgetMove caller world world := .quiet h.exact rfl [] (List.append_nil _).symm nofun
  cases o with
  | reserve cost =>
    obtain ⟨token, hfresh, rfl, rfl⟩ := hsem
    obtain ⟨hexact, ⟨e, he, hsame⟩ | ⟨reservation, hok, rfl, hadded, -⟩⟩ :=
      UsageBudget.reserveCall_spec h.exact world.today cost (h.unissued_find? hfresh)
    · refine .quiet hexact hsame [.called caller] ?_ (by simp)
      rw [he]
      rfl
    · refine .reserved hexact reservation hfresh hadded ?_
      rw [hok]
      rfl
  | settle reservation cost =>
    obtain ⟨-, rfl⟩ := hsem
    obtain ⟨hexact, hcases⟩ := UsageBudget.settle_spec h.exact reservation cost
    exact move_of_release hexact (hcases.imp And.left id)
  | cancel reservation =>
    cases hsem
    obtain ⟨hexact, hcases⟩ := UsageBudget.cancel_spec h.exact reservation
    exact move_of_release hexact (hcases.imp And.left id)
  | snapshot =>
    obtain ⟨-, rfl⟩ := hsem
    exact .quiet (h.exact.rollDay world.today) (UsageBudget.rollDay_reservations world.today) [] rfl nofun
  | post context =>
    cases hsem
    exact .quiet h.exact rfl [.posted caller] rfl (by simp)
  | clock => exact hsem ▸ hidle
  | uuid4 => exact hsem ▸ hidle
  | sleep seconds => exact hsem ▸ hidle

/-- What was drawn before a move was drawn after it. -/
theorem BudgetMove.issued (hmove : BudgetMove caller world world') {token : String}
    (h : world.Issued token) : world'.Issued token := by
  obtain ⟨who, hmem⟩ := h
  cases hmove with
  | quiet _ _ events hnoted _ => exact ⟨who, hnoted ▸ List.mem_append_left _ hmem⟩
  | reserved _ _ _ _ hnoted => exact ⟨who, hnoted ▸ List.mem_append_left _ hmem⟩
  | released _ _ _ _ hnoted => exact ⟨who, hnoted ▸ List.mem_append_left _ hmem⟩

/-- A move keeps the invariant. -/
theorem BudgetInv.move (h : BudgetInv world) (hmove : BudgetMove caller world world') : BudgetInv world' := by
  have hunissued : ∀ token, ¬ world'.Issued token → ¬ world.Issued token :=
    fun token hno hyes => hno (hmove.issued hyes)
  cases hmove with
  | quiet hexact hsame events hnoted hown =>
    have hcount : ∀ token, world'.events.countP (BudgetEvent.releases token) =
        world.events.countP (BudgetEvent.releases token) := by
      intro token
      have hzero : events.countP (BudgetEvent.releases token) = 0 := by
        rw [List.countP_eq_zero]
        intro event hmem
        obtain rfl | rfl := hown event hmem <;> simp [BudgetEvent.releases]
      rw [hnoted, List.countP_append, hzero, add_zero]
    have houtstanding : ∀ token, world'.Outstanding token ↔ world.Outstanding token := by
      intro token
      rw [BudgetWorld.Outstanding, hsame, BudgetWorld.Outstanding]
    refine ⟨hexact, fun token hno => ?_, fun token => ?_⟩
    · rw [houtstanding, hcount]
      exact h.unissued token (hunissued token hno)
    · simp only [houtstanding, hcount]
      exact h.once token
  | reserved hexact reservation hfresh hadded hnoted =>
    have hcount : ∀ token, world'.events.countP (BudgetEvent.releases token) =
        world.events.countP (BudgetEvent.releases token) := by
      intro token
      rw [hnoted, List.countP_append]
      simp [BudgetEvent.releases]
    have hissued : world'.Issued reservation.token := ⟨caller, by rw [hnoted]; simp⟩
    have hother : ∀ token, token ≠ reservation.token →
        (world'.Outstanding token ↔ world.Outstanding token) := by
      intro token hne
      rw [BudgetWorld.Outstanding, hadded, Table.find?_upsert_ne _ hne, BudgetWorld.Outstanding]
    refine ⟨hexact, fun token hno => ?_, fun token => ?_⟩
    · have hne : token ≠ reservation.token := fun heq => hno (heq ▸ hissued)
      rw [hother token hne, hcount]
      exact h.unissued token (hunissued token hno)
    · rw [hcount]
      by_cases hne : token = reservation.token
      · rw [hne, (h.unissued _ hfresh).2]
        split <;> omega
      · simp only [hother token hne]
        exact h.once token
  | released hexact gone hgone hdelete hnoted =>
    have hcount : ∀ token, world'.events.countP (BudgetEvent.releases token) =
        world.events.countP (BudgetEvent.releases token) + if gone = token then 1 else 0 := by
      intro token
      rw [hnoted, List.countP_append]
      by_cases heq : gone = token <;> simp [BudgetEvent.releases, heq]
    have hother : ∀ token, gone ≠ token → (world'.Outstanding token ↔ world.Outstanding token) := by
      intro token hne
      rw [BudgetWorld.Outstanding, hdelete, Table.find?_delete_ne _ (Ne.symm hne), BudgetWorld.Outstanding]
    have hself : ¬ world'.Outstanding gone := by
      rw [BudgetWorld.Outstanding, hdelete, Table.find?_delete_self]
      exact Bool.false_ne_true
    refine ⟨hexact, fun token hno => ?_, fun token => ?_⟩
    · have hne : gone ≠ token := by
        rintro rfl
        exact (h.unissued gone (hunissued gone hno)).1 hgone
      rw [hother token hne, hcount, if_neg hne]
      exact h.unissued token (hunissued token hno)
    · rw [hcount]
      by_cases heq : gone = token
      · subst heq
        have honce := h.once gone
        rw [if_pos hgone] at honce
        rw [if_neg hself, if_pos rfl]
        omega
      · simp only [hother token heq, if_neg heq]
        exact h.once token

end Moves

/-! ### One `decide` call -/

/-- Where a call stands: the reservation it holds, its calls of `reserve_call`, its posts. -/
structure CallState where
  held : Option Reservation
  called : Nat
  posted : Nat

/-- The order of actions a call keeps to, with so many attempts. -/
def callProtocol (limit : Nat) : Automaton aiSignature CallState where
  allowed state o := match o with
    | .reserve _ => state.held = none ∧ state.called < limit
    | .settle reservation _ => state.held = some reservation
    | .post _ => state.posted < state.called
    | .snapshot => False
    | _ => True
  next state := fun
    | .reserve _ => fun
      | .ok reservation => ⟨some reservation, state.called + 1, state.posted⟩
      | .error _ => ⟨none, state.called + 1, state.posted⟩
    | .settle _ _ => fun
      | .ok () => { state with held := none }
      | .error _ => state
    | .cancel reservation => fun _ =>
      if state.held = some reservation then { state with held := none } else state
    | .post _ => fun _ => { state with posted := state.posted + 1 }
    | .snapshot => fun _ => state
    | .clock => fun _ => state
    | .uuid4 => fun _ => state
    | .sleep _ => fun _ => state

section Follows

variable {limit : Nat} (client : OpenAITradingDecisionClient) (context : AIDecisionContext)

/-- The call holds nothing and has posted no more often than it has reserved. -/
def CallState.Idle (called : Nat) (state : CallState) : Prop :=
  state.held = none ∧ state.called = called ∧ state.posted ≤ called

theorem follows_checkAge (snapshotAt : DateTime) {state : CallState} :
    (client.checkAge snapshotAt).Follows (callProtocol limit) (fun state' _ => state' = state) state := by
  refine .bind (.single trivial) ?_
  rintro _ now rfl
  refine .ite (fun _ => rfl) fun _ => ?_
  exact .ite (fun _ => rfl) fun _ => .ite (fun _ => rfl) fun _ => rfl

theorem follows_validateSnapshot {state : CallState} :
    (client.validateSnapshot context).Follows (callProtocol limit) (fun state' _ => state' = state) state := by
  unfold OpenAITradingDecisionClient.validateSnapshot
  split
  · exact .ite (fun _ => rfl) fun _ => rfl
  · split
    · rfl
    · exact follows_checkAge client _
  · exact follows_checkAge client _
  · rfl

/-- What is held at the end of an attempt is the reservation it hands on, and nothing
    where it decides. -/
def AttemptEnds (called : Nat) (state : CallState)
    (answer : Option Reservation × Except AiExn TradingAIDecision) : Prop :=
  (state.held = none ∨ state.held = answer.1) ∧ state.called = called + 1 ∧ state.posted ≤ called + 1 ∧
    (answer.2.isOk = true → state.held = none)

/-- An attempt reserves once and posts at most once. -/
theorem follows_attempt {called : Nat} (hcalled : called < limit) {state : CallState} (hidle : state.Idle called) :
    (client.attempt context).Follows (callProtocol limit) (AttemptEnds called) state := by
  obtain ⟨hheld, hsame, hposted⟩ := hidle
  refine .bind (.single ⟨hheld, hsame ▸ hcalled⟩) ?_
  rintro _ reply rfl
  cases reply with
  | error e => exact ⟨.inl rfl, by rw [← hsame]; rfl, hposted.trans (Nat.le_succ _), nofun⟩
  | ok reservation =>
    refine .bind (.single (show state.posted < state.called + 1 by omega)) ?_
    rintro _ reply rfl
    have hcount : state.called + 1 = called + 1 ∧ state.posted + 1 ≤ called + 1 := by omega
    cases reply with
    | error e => exact ⟨.inr rfl, hcount.1, hcount.2, nofun⟩
    | ok response =>
      refine .ite (fun _ => ⟨.inr rfl, hcount.1, hcount.2, nofun⟩) fun _ => .ite (fun _ => ?_) fun _ => ?_
      · refine .bind (.single trivial) ?_
        rintro state' ⟨⟩ hstate
        obtain rfl : state' = ⟨none, state.called + 1, state.posted + 1⟩ := hstate.trans (if_pos rfl)
        exact ⟨.inl rfl, hcount.1, hcount.2, nofun⟩
      · split
        · exact ⟨.inr rfl, hcount.1, hcount.2, nofun⟩
        · refine .bind (.single rfl) ?_
          rintro _ reply rfl
          cases reply with
          | error e => exact ⟨.inr rfl, hcount.1, hcount.2, nofun⟩
          | ok _ => exact ⟨.inl rfl, hcount.1, hcount.2, fun _ => rfl⟩

/-- Every handler lets go of what the attempt held. -/
theorem follows_cancelHeld {held : Option Reservation} {state : CallState}
    (hheld : state.held = none ∨ state.held = held) :
    (OpenAITradingDecisionClient.cancelHeld held).Follows (callProtocol limit)
      (fun state' _ => state' = { state with held := none }) state := by
  obtain ⟨own, called, posted⟩ := state
  cases held with
  | none => exact congrArg (CallState.mk · called posted) (hheld.elim id id)
  | some reservation =>
    refine .mono (.single trivial) ?_
    rintro state' ⟨⟩ rfl
    obtain rfl | rfl : own = none ∨ own = some reservation := hheld
    · rfl
    · exact if_pos rfl

theorem follows_budgetFallback (message : String) {state : CallState} :
    (client.budgetFallback context message).Follows (callProtocol limit)
      (fun state' _ => state' = state) state := by
  refine .ite (fun _ => rfl) fun _ => .bind (.single trivial) ?_
  rintro _ id rfl
  exact .ite (fun _ => rfl) fun _ => rfl

/-- A retry waits and goes on as `hnext` has it, or ends the call. -/
theorem follows_retry {left : Nat} (n : Nat) {state : CallState} (hheld : state.held = none)
    (hnext : (client.attempts context left (n + 1)).Follows (callProtocol limit)
      (fun state' _ => state'.held = none) state) (message : String) :
    Prog.Follows (callProtocol limit) (fun state' _ => state'.held = none)
      (if client.maxRetries ≤ n then return .error (.transport message)
        else do
          match ← AiProg.sleep (min client.retryMaxDelay (client.retryBaseDelay * 2 ^ n)) with
          | .error e => return .error e
          | .ok () => client.attempts context left (n + 1))
      state := by
  refine .ite (fun _ => hheld) fun _ => .bind (.single trivial) ?_
  rintro _ reply rfl
  cases reply with
  | error e => exact hheld
  | ok _ => exact hnext

/-- The attempts that are left keep to the protocol, and hold nothing at the end. -/
theorem follows_attempts (left : Nat) {n called : Nat} (hleft : called + left ≤ limit) {state : CallState}
    (hidle : state.Idle called) :
    (client.attempts context left n).Follows (callProtocol limit) (fun state' _ => state'.held = none) state := by
  induction left generalizing n called state with
  | zero => exact hidle.1
  | succ left ih =>
    refine .bind (follows_attempt client context (by omega) hidle) ?_
    rintro state ⟨reservation, outcome⟩ ⟨hheld, hcalled, hposted, hdone⟩
    cases outcome with
    | ok decision => exact hdone rfl
    | error exn =>
      refine .bind (follows_cancelHeld hheld) ?_
      rintro _ ⟨⟩ rfl
      -- a retry waits and goes on with one attempt less, every other clause ends the call
      have hidle' : ({ state with held := none } : CallState).Idle (called + 1) := ⟨rfl, hcalled, hposted⟩
      have hretry := follows_retry client context n hidle'.1 (ih (by omega) hidle')
      cases exn with
      | budgetExceeded message =>
        exact (follows_budgetFallback client context message).mono fun _ _ heq => heq ▸ rfl
      | timeout message => exact hretry message
      | retryable message => exact hretry message
      | invalid typeName message => rfl
      | transport message => rfl
      | request message => rfl
      | response message => rfl
      | other typeName message => rfl

/-- `decide` keeps to the protocol with one attempt more than its retries. -/
theorem follows_decide :
    (client.decide context).Follows (callProtocol (client.maxRetries + 1)) (fun state _ => state.held = none)
      ⟨none, 0, 0⟩ := by
  refine .bind (follows_validateSnapshot client context) ?_
  rintro _ outcome rfl
  cases outcome with
  | error e => rfl
  | ok _ =>
    have hall : 0 + (client.maxRetries + 1) ≤ client.maxRetries + 1 := (Nat.zero_add _).le
    exact follows_attempts client context _ hall ⟨rfl, rfl, le_refl _⟩

end Follows

/-! ### The call among the others -/

section Record

variable {caller : Nat} {world world' : BudgetWorld}

/-- A move notes only actions of its caller. -/
theorem BudgetMove.noted (hmove : BudgetMove caller world world') :
    ∃ events, world'.events = world.events ++ events ∧ ∀ event ∈ events, event.caller = caller := by
  cases hmove with
  | quiet _ _ events hnoted hown =>
    refine ⟨events, hnoted, fun event hmem => ?_⟩
    obtain rfl | rfl := hown event hmem <;> rfl
  | reserved _ reservation _ _ hnoted => exact ⟨_, hnoted, by simp [BudgetEvent.caller]⟩
  | released _ token _ _ hnoted => exact ⟨_, hnoted, by simp [BudgetEvent.caller]⟩

/-- No reservation comes back. -/
theorem BudgetMove.outstanding (hmove : BudgetMove caller world world') {token : String}
    (hissued : world.Issued token) (h : world'.Outstanding token) : world.Outstanding token := by
  unfold BudgetWorld.Outstanding at h ⊢
  cases hmove with
  | quiet _ hsame _ _ _ => rwa [hsame] at h
  | reserved _ reservation hfresh hadded _ =>
    have hne : token ≠ reservation.token := fun heq => hfresh (heq ▸ hissued)
    rwa [hadded, Table.find?_upsert_ne _ hne] at h
  | released _ gone _ hdelete _ =>
    rw [hdelete, Table.find?_delete] at h
    split at h
    · cases h
    · exact h

/-- What the events and the budget say of a call in a state of its protocol. -/
structure CallRecord (caller limit : Nat) (state : CallState) (world : BudgetWorld) : Prop where
  inv : BudgetInv world
  called : world.events.count (.called caller) = state.called
  posted : world.events.count (.posted caller) = state.posted
  calledLe : state.called ≤ limit
  postedLe : state.posted ≤ state.called
  own : ∀ token, .reserved caller token ∈ world.events → world.Outstanding token →
    state.held.map (·.token) = some token

variable {limit : Nat} {state : CallState}

/-- The others leave the record of a call alone. -/
theorem CallRecord.others (h : CallRecord caller limit state world) {other : Nat} (hne : other ≠ caller)
    (hmove : BudgetMove other world world') : CallRecord caller limit state world' := by
  obtain ⟨events, hnoted, hcaller⟩ := hmove.noted
  have hcount : ∀ event : BudgetEvent, event.caller = caller →
      world'.events.count event = world.events.count event := by
    intro event hevent
    have hzero : events.count event = 0 :=
      List.count_eq_zero.mpr fun hmem => hne ((hcaller event hmem).symm.trans hevent)
    rw [hnoted, List.count_append, hzero, add_zero]
  refine ⟨h.inv.move hmove, (hcount _ rfl).trans h.called, (hcount _ rfl).trans h.posted, h.calledLe,
    h.postedLe, fun token hmem houtstanding => ?_⟩
  rw [hnoted, List.mem_append] at hmem
  obtain hmem | hmem := hmem
  · exact h.own token hmem (hmove.outstanding ⟨caller, hmem⟩ houtstanding)
  · exact absurd (hcaller _ hmem) hne.symm

/-- Taking a reservation off changes no count of the call. -/
theorem count_releasedBy {event : BudgetEvent} (hevent : ∀ token, event ≠ .released caller token)
    (token : String) (budget : UsageBudget) :
    (world.releasedBy caller token budget).count event = 0 := by
  unfold BudgetWorld.releasedBy
  split
  · exact List.count_eq_zero.mpr fun hmem => hevent token (List.mem_singleton.mp hmem)
  · rfl

/-- A call that lets a reservation go has it no longer, and any other is as before. -/
theorem CallRecord.letsGo (h : CallRecord caller limit state world) {budget : UsageBudget} {token : String}
    (hmove : BudgetMove caller world (world.moved budget (world.releasedBy caller token budget)))
    {state' : CallState} (hcalled : state'.called = state.called) (hposted : state'.posted = state.posted)
    (hheld : ∀ other, state.held.map (·.token) = some other →
      (budget.reservations.find? other).isSome = true → state'.held.map (·.token) = some other) :
    CallRecord caller limit state' (world.moved budget (world.releasedBy caller token budget)) := by
  refine ⟨h.inv.move hmove, ?_, ?_, hcalled ▸ h.calledLe, by rw [hposted, hcalled]; exact h.postedLe, ?_⟩
  · dsimp only [BudgetWorld.moved]
    rw [List.count_append, count_releasedBy (fun _ heq => by cases heq), hcalled, h.called, add_zero]
  · dsimp only [BudgetWorld.moved]
    rw [List.count_append, count_releasedBy (fun _ heq => by cases heq), hposted, h.posted, add_zero]
  · intro other hmem houtstanding
    dsimp only [BudgetWorld.moved] at hmem
    rw [List.mem_append] at hmem
    obtain hmem | hmem := hmem
    · exact hheld other (h.own other hmem (hmove.outstanding ⟨caller, hmem⟩ houtstanding)) houtstanding
    · unfold BudgetWorld.releasedBy at hmem
      split at hmem
      · cases List.mem_singleton.mp hmem
      · cases hmem

/-- The call's own actions keep its record as the protocol moves on. -/
theorem CallRecord.acts (h : CallRecord caller limit state world) {o : AiOp} {reply : o.Reply}
    (hallowed : (callProtocol limit).allowed state o) (hsem : budgetSem caller o world reply world') :
    CallRecord caller limit ((callProtocol limit).next state o reply) world' := by
  have hmove := budgetSem_move h.inv hsem
  cases o with
  | reserve cost =>
    obtain ⟨hnone, hlimit⟩ := hallowed
    obtain ⟨token, hfresh, rfl, rfl⟩ := hsem
    have hold : ∀ other, .reserved caller other ∈ world.events →
        ((world.budget.reserveCall world.today token cost).1.reservations.find? other).isSome = true → False := by
      intro other hmem houtstanding
      have := h.own other hmem (hmove.outstanding ⟨caller, hmem⟩ houtstanding)
      rw [hnone] at this
      cases this
    obtain ⟨-, ⟨e, he, -⟩ | ⟨reservation, hok, -, -, -⟩⟩ :=
      UsageBudget.reserveCall_spec h.inv.exact world.today cost (h.inv.unissued_find? hfresh)
    · rw [he] at hmove ⊢
      refine ⟨h.inv.move hmove, ?_, ?_, hlimit, h.postedLe.trans (Nat.le_succ _), ?_⟩
      · simp [BudgetWorld.moved, reservedEvents, callProtocol, h.called]
      · simp [BudgetWorld.moved, reservedEvents, callProtocol, h.posted]
      · intro other hmem houtstanding
        exact (hold other (by simpa [BudgetWorld.moved, reservedEvents] using hmem) houtstanding).elim
    · rw [hok] at hmove ⊢
      refine ⟨h.inv.move hmove, ?_, ?_, hlimit, h.postedLe.trans (Nat.le_succ _), ?_⟩
      · simp [BudgetWorld.moved, reservedEvents, callProtocol, h.called]
      · simp [BudgetWorld.moved, reservedEvents, callProtocol, h.posted]
      · intro other hmem houtstanding
        have hcases : .reserved caller other ∈ world.events ∨ other = reservation.token := by
          simpa [BudgetWorld.moved, reservedEvents] using hmem
        obtain hmem | rfl := hcases
        · exact (hold other hmem houtstanding).elim
        · rfl
  | settle reservation cost =>
    obtain ⟨rfl, rfl⟩ := hsem
    have hheld : state.held = some reservation := hallowed
    obtain ⟨-, hcases⟩ := UsageBudget.settle_spec h.inv.exact reservation cost
    cases hreply : (world.budget.settle reservation cost).2 with
    | error e => exact h.letsGo hmove rfl rfl fun _ hother _ => hother
    | ok _ =>
      refine h.letsGo hmove rfl rfl fun other hother hsome => ?_
      rw [hheld] at hother
      cases hother
      obtain ⟨hsame, hgone⟩ | ⟨-, hdelete⟩ := hcases
      · rw [hsame, hgone hreply] at hsome
        cases hsome
      · rw [hdelete, Table.find?_delete_self] at hsome
        cases hsome
  | cancel reservation =>
    cases hsem
    obtain ⟨-, hcases⟩ := UsageBudget.cancel_spec h.inv.exact reservation
    by_cases hheld : state.held = some reservation
    · have hnext : (callProtocol limit).next state (.cancel reservation) reply = { state with held := none } :=
        if_pos hheld
      rw [hnext]
      refine h.letsGo hmove rfl rfl fun other hother hsome => ?_
      rw [hheld] at hother
      cases hother
      obtain ⟨hsame, hgone⟩ | ⟨-, hdelete⟩ := hcases
      · rw [hsame, hgone] at hsome
        cases hsome
      · rw [hdelete, Table.find?_delete_self] at hsome
        cases hsome
    · have hnext : (callProtocol limit).next state (.cancel reservation) reply = state := if_neg hheld
      rw [hnext]
      exact h.letsGo hmove rfl rfl fun _ hother _ => hother
  | snapshot => exact hallowed.elim
  | post context =>
    have hlimit : state.posted < state.called := hallowed
    cases hsem
    refine ⟨h.inv.move hmove, ?_, ?_, h.calledLe, hlimit, ?_⟩
    · simp [BudgetWorld.moved, callProtocol, h.called]
    · simp [BudgetWorld.moved, callProtocol, h.posted]
    · intro other hmem houtstanding
      exact h.own other (by simpa [BudgetWorld.moved] using hmem) houtstanding
  | clock => exact hsem ▸ h
  | uuid4 => exact hsem ▸ h
  | sleep seconds => exact hsem ▸ h

end Record

/-! ### Every interleaving -/

section Runs

variable {callers : Nat → AiCaller} {pool : Pool aiSignature BudgetWorld}

theorem BudgetInv.fresh {world : BudgetWorld} (h : world.Fresh) : BudgetInv world := by
  obtain ⟨hevents, _, _, _, _, _, hbudget⟩ := h
  have hnone : ∀ token, ¬ world.Outstanding token := by
    intro token
    rw [BudgetWorld.Outstanding, hbudget]
    exact Bool.false_ne_true
  refine ⟨?_, fun token _ => ⟨hnone token, by rw [hevents]; rfl⟩, fun token => ?_⟩
  · rw [hbudget]
    exact ⟨rfl, rfl, Nat.zero_le _, Nat.zero_le _⟩
  · rw [hevents, if_neg (hnone token)]
    simp

/-- The invariant holds in every world a run passes through. -/
theorem reachable_budgetInv (h : (budgetSystem callers).Reachable BudgetWorld.Fresh pool) :
    BudgetInv pool.store := by
  induction h with
  | init hfresh => exact .fresh hfresh
  | step _ hstep ih =>
    cases hstep with
    | act _ hsem => exact ih.move (budgetSem_move ih hsem)
    | start => exact ih
    | stop => exact ih
    | env henv =>
      obtain ⟨today, rfl⟩ := henv
      exact ⟨ih.exact, ih.unissued, ih.once⟩

/-- A `decide` call keeps its record among all the others. -/
theorem reachable_callRecord {caller : Nat} {client : OpenAITradingDecisionClient}
    {context : AIDecisionContext} (hcaller : callers caller = .decide client context)
    (h : (budgetSystem callers).Reachable BudgetWorld.Fresh pool) :
    ∃ state, CallRecord caller (client.maxRetries + 1) state pool.store ∧
      ∀ program, pool.procs caller = some program →
        program.Follows (callProtocol (client.maxRetries + 1)) (fun state _ => state.held = none) state := by
  have hstart : ∀ world, BudgetInv world → (∀ event ∈ world.events, event.caller ≠ caller) →
      CallRecord caller (client.maxRetries + 1) ⟨none, 0, 0⟩ world := by
    intro world hinv hnone
    refine ⟨hinv, ?_, ?_, Nat.zero_le _, le_refl _, ?_⟩
    · exact List.count_eq_zero.mpr fun hmem => hnone _ hmem rfl
    · exact List.count_eq_zero.mpr fun hmem => hnone _ hmem rfl
    · exact fun token hmem => absurd rfl (hnone _ hmem)
  refine System.reachable_follows caller (CallRecord caller (client.maxRetries + 1)) ⟨none, 0, 0⟩ ?_ ?_ ?_ ?_ ?_ h
  · exact fun world hfresh => hstart world (.fresh hfresh) (by simp [hfresh.1])
  · rintro pool program state hrecord ⟨rfl, hnone⟩
    refine ⟨?_, hstart pool.store hrecord.inv hnone⟩
    rw [hcaller]
    exact .bind (follows_decide client context) fun _ _ hheld => hheld
  · exact fun state o world reply world' hrecord hallowed hsem => hrecord.acts hallowed hsem
  · exact fun other state o world reply world' hne hrecord hsem =>
      hrecord.others hne (budgetSem_move hrecord.inv hsem)
  · rintro state world _ hrecord ⟨today, rfl⟩
    exact ⟨⟨hrecord.inv.exact, hrecord.inv.unissued, hrecord.inv.once⟩, hrecord.called, hrecord.posted,
      hrecord.calledLe, hrecord.postedLe, hrecord.own⟩

/-- **The budget under any number of concurrent calls.**  In every world a run passes
    through the reserved costs are those of the outstanding reservations and the call
    limits hold; a successful reserve leaves both costs within their limits; a token is
    taken off at most once; and a `decide` call tries at most `max_retries + 1` times and
    holds nothing when it has ended. -/
theorem budget_invariant (callers : Nat → AiCaller) {pool : Pool aiSignature BudgetWorld}
    (h : (budgetSystem callers).Reachable BudgetWorld.Fresh pool) :
    pool.store.budget.Exact ∧
    (∀ caller cost reservation world', budgetSem caller (.reserve cost) pool.store (.ok reservation) world' →
      world'.budget.WithinCosts) ∧
    (∀ token, pool.store.events.countP (BudgetEvent.releases token) ≤ 1) ∧
    ∀ caller client context, callers caller = .decide client context →
      pool.store.events.count (.called caller) ≤ client.maxRetries + 1 ∧
      pool.store.events.count (.posted caller) ≤ client.maxRetries + 1 ∧
      (pool.procs caller = some (.ret ()) →
        ∀ token, .reserved caller token ∈ pool.store.events → ¬ pool.store.Outstanding token) := by
  have hinv := reachable_budgetInv h
  refine ⟨hinv.exact, ?_, fun token => (Nat.le_add_right _ _).trans (hinv.once token), ?_⟩
  · rintro caller cost reservation world' ⟨token, hfresh, hok, rfl⟩
    obtain ⟨-, ⟨e, he, -⟩ | ⟨_, -, -, -, hwithin⟩⟩ :=
      UsageBudget.reserveCall_spec hinv.exact pool.store.today cost (hinv.unissued_find? hfresh)
    · cases hok.trans he
    · exact hwithin
  · intro caller client context hcaller
    obtain ⟨state, hrecord, hfollows⟩ := reachable_callRecord hcaller h
    refine ⟨hrecord.called.trans_le hrecord.calledLe,
      (hrecord.posted.trans_le hrecord.postedLe).trans hrecord.calledLe, ?_⟩
    intro hended token hmem houtstanding
    have hheld : state.held = none := hfollows _ hended
    have hown := hrecord.own token hmem houtstanding
    rw [hheld] at hown
    cases hown

end Runs

/-- A run goes on with the next action of a caller. -/
theorem reachable_act {callers : Nat → AiCaller} {pool : Pool aiSignature BudgetWorld} (caller : Nat)
    (o : AiOp) (reply : o.Reply) {k : o.Reply → AiProg Unit} {world' : BudgetWorld}
    (h : (budgetSystem callers).Reachable BudgetWorld.Fresh pool)
    (hnext : pool.procs caller = some (.act o k)) (hsem : budgetSem caller o pool.store reply world') :
    (budgetSystem callers).Reachable BudgetWorld.Fresh
      ⟨world', Function.update pool.procs caller (some (k reply))⟩ :=
  h.step (.act hnext hsem)

/-- A client with one attempt, whose answers are never read. -/
def oneAttempt : OpenAITradingDecisionClient where
  maxRetries := 0
  retryBaseDelay := 1 / 4
  retryMaxDelay := 2
  maxSnapshotAgeSeconds := some 90
  requireSnapshotTimestamp := false
  estimatedCostPerCallUsd := 1 / 100
  inputCostPerMillionTokens := 3 / 20
  outputCostPerMillionTokens := 3 / 5
  raiseOnBudgetExceeded := false
  validate _ := .error (.invalid "ValidationError" "")

/-- A call that reserves, times out and cancels ends with nothing on the budget. -/
theorem timed_out_call :
    ∃ pool : Pool aiSignature BudgetWorld, pool.procs 0 = some (.ret ()) ∧
      .reserved 0 "r1" ∈ pool.store.events ∧ pool.store.budget.Exact ∧ ¬ pool.store.Outstanding "r1" := by
  let callers : Nat → AiCaller := fun _ => .decide oneAttempt ⟨"005930", [], none⟩
  let budget : UsageBudget := UsageBudget.mk 500 1000 10 25 20680 0 0 0 0 0 0 .empty
  let world : BudgetWorld := ⟨budget, 20680, []⟩
  have hinit : (budgetSystem callers).Reachable BudgetWorld.Fresh ⟨world, fun _ => none⟩ :=
    .init ⟨rfl, 500, 1000, 10, 25, 20680, rfl⟩
  have hstart := hinit.step (.start (i := 0) rfl ⟨rfl, nofun⟩)
  have hreserve := reachable_act 0 (.reserve (1 / 100)) (.ok ⟨"r1", 20680, 1 / 100⟩) hstart rfl
    ⟨"r1", nofun, (Except.eq_ok_of_toOption (by decide +kernel)).symm, rfl⟩
  have hpost := reachable_act 0 (.post ⟨"005930", [], none⟩) (.error (.timeout "read timed out")) hreserve rfl rfl
  have hcancel := reachable_act 0 (.cancel ⟨"r1", 20680, 1 / 100⟩) () hpost rfl rfl
  obtain ⟨hexact, -, -, hcall⟩ := budget_invariant callers hcancel
  exact ⟨_, rfl, by decide +kernel, hexact, (hcall 0 oneAttempt _ rfl).2.2 rfl "r1" (by decide +kernel)⟩

end AutoTrader
