/-
  AutoTrader/Execution/Lifecycle.lean
  ===================================
  **The local life cycle of a trading idea.**

  `transition` applies one command or raises.  Over any sequence of commands, with those that
  raise left out, the fills of entries and exits take turns, every entry fill has a submission of
  its own, and SAFE_MODE is never left (`lifecycle_tally`).
-/
import AutoTrader.Storage.Schema

namespace AutoTrader.Lifecycle

inductive OrderState where
  | flat
  | watching
  | armed
  | entryPending
  | long
  | partialLong
  | exitPending
  | cooldown
  | safeMode
deriving DecidableEq

inductive Command where
  | watch
  | arm
  | submitEntry
  | markEntryFilled
  | markTp1Filled
  | submitExit
  | markExitFilled
  | cooldown
  | safeMode
deriving DecidableEq

def OrderState.value : OrderState → String
  | .flat => "FLAT"
  | .watching => "WATCHING"
  | .armed => "ARMED"
  | .entryPending => "ENTRY_PENDING"
  | .long => "LONG"
  | .partialLong => "PARTIAL_LONG"
  | .exitPending => "EXIT_PENDING"
  | .cooldown => "COOLDOWN"
  | .safeMode => "SAFE_MODE"

def Command.value : Command → String
  | .watch => "WATCH"
  | .arm => "ARM"
  | .submitEntry => "SUBMIT_ENTRY"
  | .markEntryFilled => "MARK_ENTRY_FILLED"
  | .markTp1Filled => "MARK_TP1_FILLED"
  | .submitExit => "SUBMIT_EXIT"
  | .markExitFilled => "MARK_EXIT_FILLED"
  | .cooldown => "COOLDOWN"
  | .safeMode => "SAFE_MODE"

/-- `_TRANSITIONS`. -/
def transitions : OrderState → Command → Option OrderState
  | .flat, .watch => some .watching
  | .watching, .arm => some .armed
  | .armed, .submitEntry => some .entryPending
  | .entryPending, .markEntryFilled => some .long
  | .long, .markTp1Filled => some .partialLong
  | .long, .submitExit => some .exitPending
  | .partialLong, .submitExit => some .exitPending
  | .exitPending, .markExitFilled => some .flat
  | .flat, .cooldown => some .cooldown
  | .watching, .cooldown => some .cooldown
  | .armed, .cooldown => some .cooldown
  | .cooldown, .watch => some .watching
  | _, _ => none

/-- `transition`. -/
def transition (state : OrderState) (command : Command) : Except Exn OrderState :=
  let invalid : Except Exn OrderState :=
    .error (.valueError ("invalid transition: " ++ state.value ++ " + " ++ command.value))
  if command = .safeMode then .ok .safeMode
  else if state = .safeMode then invalid
  else (transitions state command).elim invalid .ok

/-- The states with shares in hand. -/
def OrderState.holding : OrderState → Bool
  | .long => true
  | .partialLong => true
  | .exitPending => true
  | _ => false

/-! ### Runs -/

/-- A state and the commands that were applied on the way to it. -/
structure History where
  state : OrderState
  applied : List Command

/-- A command that raises leaves the state. -/
def History.exec (history : History) (command : Command) : History :=
  match transition history.state command with
  | .ok state => ⟨state, history.applied ++ [command]⟩
  | .error _ => history

def start : History := ⟨.flat, []⟩

def run (commands : List Command) : History := commands.foldl History.exec start

/-- The fills among some commands. -/
def fills (commands : List Command) : List Command :=
  commands.filter fun command => command = .markEntryFilled ∨ command = .markExitFilled

/-- The fills that belong to a state outside SAFE_MODE: entries and exits in turn, the last one an entry when
    shares are in hand. -/
def turns : Nat → Bool → List Command
  | 0, false => []
  | 0, true => [.markEntryFilled]
  | rounds + 1, holding => .markEntryFilled :: .markExitFilled :: turns rounds holding

theorem turns_enter (rounds : Nat) : turns rounds false ++ [.markEntryFilled] = turns rounds true := by
  induction rounds with
  | zero => rfl
  | succ rounds ih => rw [turns, turns, List.cons_append, List.cons_append, ih]

theorem turns_leave (rounds : Nat) : turns rounds true ++ [.markExitFilled] = turns (rounds + 1) false := by
  induction rounds with
  | zero => rfl
  | succ rounds ih => rw [turns, List.cons_append, List.cons_append, ih]; rfl

/-- What the applied commands say about a state outside SAFE_MODE. -/
structure Tally (history : History) : Prop where
  /-- entries and exits take turns -/
  fills : ∃ rounds, Lifecycle.fills history.applied = turns rounds history.state.holding
  /-- every submitted entry is filled, but for the one that is pending -/
  entries : history.applied.count .submitEntry =
    history.applied.count .markEntryFilled + (decide (history.state = .entryPending)).toNat
  /-- every submitted exit is filled, but for the one that is pending -/
  exits : history.applied.count .submitExit =
    history.applied.count .markExitFilled + (decide (history.state = .exitPending)).toNat
  /-- a first profit is taken once for an entry -/
  profits : history.applied.count .markTp1Filled + (decide (history.state = .long)).toNat ≤
    history.applied.count .markEntryFilled

theorem exec_cases (history : History) (command : Command) :
    history.exec command = history ∨
      ∃ state, transition history.state command = .ok state ∧
        history.exec command = ⟨state, history.applied ++ [command]⟩ := by
  unfold History.exec
  cases htransition : transition history.state command with
  | error e => exact .inl rfl
  | ok state => exact .inr ⟨state, rfl, rfl⟩

theorem transition_ok {state next : OrderState} {command : Command} (h : transition state command = .ok next) :
    command = .safeMode ∧ next = .safeMode ∨
      command ≠ .safeMode ∧ state ≠ .safeMode ∧ transitions state command = some next := by
  unfold transition at h
  split at h
  · rename_i hsafe
    cases h
    exact .inl ⟨hsafe, rfl⟩
  rename_i hcommand
  split at h
  · cases h
  rename_i hstate
  cases hnext : transitions state command with
  | none => rw [hnext] at h; cases h
  | some other =>
    rw [hnext] at h
    cases h
    exact .inr ⟨hcommand, hstate, rfl⟩

theorem count_snoc (commands : List Command) (command other : Command) :
    (commands ++ [command]).count other = commands.count other + (decide (command = other)).toNat := by
  rw [List.count_append, List.count_singleton]
  by_cases h : command = other
  · simp [h]
  · simp [h]

theorem fills_snoc (commands : List Command) (command : Command) :
    fills (commands ++ [command]) = fills commands ++ fills [command] := List.filter_append _ _

/-- One applied command keeps the tally. -/
theorem Tally.step {history : History} (h : Tally history) {command : Command} {state : OrderState}
    (hnext : transitions history.state command = some state) :
    Tally ⟨state, history.applied ++ [command]⟩ := by
  obtain ⟨⟨rounds, hfills⟩, hentries, hexits, hprofits⟩ := h
  obtain ⟨current, applied⟩ := history
  simp only at hnext hfills hentries hexits hprofits
  constructor
  · rw [fills_snoc, hfills]
    cases current <;> cases command <;> cases hnext
    all_goals first
      | exact ⟨rounds, List.append_nil _⟩
      | exact ⟨rounds, turns_enter rounds⟩
      | exact ⟨rounds + 1, turns_leave rounds⟩
  · rw [count_snoc, count_snoc, hentries]
    cases current <;> cases command <;> cases hnext <;> simp
  · rw [count_snoc, count_snoc, hexits]
    cases current <;> cases command <;> cases hnext <;> simp
  · rw [count_snoc, count_snoc]
    cases current <;> cases command <;> cases hnext <;> simp at hprofits ⊢ <;> omega

theorem run_append (front back : List Command) : run (front ++ back) = back.foldl History.exec (run front) := by
  rw [run, List.foldl_append, run]

theorem Tally.foldl {history : History} (h : Tally history) {commands : List Command} (hsafe : .safeMode ∉ commands) :
    Tally (commands.foldl History.exec history) := by
  induction commands generalizing history with
  | nil => exact h
  | cons command rest ih =>
    have hrest : Command.safeMode ∉ rest := fun hmem => hsafe (List.mem_cons_of_mem _ hmem)
    apply ih _ hrest
    rcases exec_cases history command with heq | ⟨state, hok, heq⟩
    · rwa [heq]
    · rw [heq]
      rcases transition_ok hok with ⟨rfl, -⟩ | ⟨-, -, hnext⟩
      · exact absurd List.mem_cons_self hsafe
      · exact h.step hnext

/-- From SAFE_MODE on nothing but SAFE_MODE is applied. -/
theorem foldl_safeMode (history : History) (h : history.state = .safeMode) (commands : List Command) :
    (commands.foldl History.exec history).state = .safeMode ∧
      fills (commands.foldl History.exec history).applied = fills history.applied := by
  induction commands generalizing history with
  | nil => exact ⟨h, rfl⟩
  | cons command rest ih =>
    rcases exec_cases history command with heq | ⟨state, hok, heq⟩
    · rw [List.foldl_cons, heq]
      exact ih history h
    · rcases transition_ok hok with ⟨rfl, rfl⟩ | ⟨-, hne, -⟩
      · rw [List.foldl_cons, heq]
        obtain ⟨hstate, hfills⟩ := ih ⟨.safeMode, history.applied ++ [.safeMode]⟩ rfl
        refine ⟨hstate, hfills.trans ?_⟩
        rw [fills_snoc]
        exact List.append_nil _
      · exact absurd h hne

/-- **Without SAFE_MODE a run keeps its tally; from SAFE_MODE on it stays there and fills nothing.** -/
theorem lifecycle_tally (commands : List Command) :
    (.safeMode ∉ commands → Tally (run commands)) ∧
      ∀ front back, commands = front ++ .safeMode :: back →
        (run commands).state = .safeMode ∧ fills (run commands).applied = fills (run front).applied := by
  constructor
  · intro hsafe
    apply Tally.foldl _ hsafe
    constructor
    · exact ⟨0, rfl⟩
    · rfl
    · rfl
    · exact Nat.le_refl 0
  · rintro front back rfl
    have hsafe : (run front).exec .safeMode = ⟨.safeMode, (run front).applied ++ [.safeMode]⟩ := rfl
    rw [run_append, List.foldl_cons, hsafe]
    obtain ⟨hstate, hfills⟩ := foldl_safeMode ⟨.safeMode, (run front).applied ++ [.safeMode]⟩ rfl back
    refine ⟨hstate, hfills.trans ?_⟩
    rw [fills_snoc]
    exact List.append_nil _

end AutoTrader.Lifecycle
