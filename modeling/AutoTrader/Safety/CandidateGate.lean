/-
  AutoTrader/Safety/CandidateGate.lean
  ====================================
  **An entry stands on a deterministic candidate.**

  `_maybe_enter_position` reads the bars, builds their snapshot and scans it before it asks the AI.
  An order that a network AI decides has a candidate behind it, found in the latest unbroken run of
  bars (`order_has_candidate`).  A looser profile takes only two refusals away from an entry
  (`looser_profile_admits`).
-/
import AutoTrader.Market.Candidates
import AutoTrader.Market.SessionBars
import AutoTrader.Safety.EntryPaths

namespace AutoTrader

open Relational Transactional Interleave EntryCheck Market

/-- The strategies of the candidates of a snapshot. -/
def scannedStrategies (snapshot : BarFeatureSnapshot) (profile : CandidateProfile) : List String :=
  (snapshot.candidates profile.thresholds).map (·.strategy)

/-- What an entry reads of the market tables: the inputs with the close of the snapshot, and the reads with
    the candidates of the scan. -/
def snapshotInputs (inputs : EntryInputs) (snapshot : BarFeatureSnapshot) : EntryInputs :=
  { inputs with latestClose := snapshot.latestClose }

def snapshotReads (reads : DirectReads) (snapshot : BarFeatureSnapshot) (profile : CandidateProfile) : DirectReads :=
  { reads with candidates := scannedStrategies snapshot profile }

/-- `_maybe_enter_position` on the bars of a store. -/
def enterFromBars (broker : BrokerReplies) (submitter : Submitter) (inputs : EntryInputs) (reads : DirectReads)
    (store : MarketStore) (profile : CandidateProfile) (symbol : String) : Tx AutoTradeSymbolResult := do
  match ← Exec.ofExcept (buildFeatureSnapshot (store.entryBars symbol) 20) with
  | none => pure (.blockedBy symbol "missing_bars")
  | some snapshot =>
    enterPosition broker submitter (snapshotInputs inputs snapshot) (snapshotReads reads snapshot profile) symbol
      ((store.entryBars symbol).getLast?.map (·.start))

/-! ### The candidate behind an order -/

/-- The answer of the AI names a candidate of the snapshot, whose close is above the volume-weighted price. -/
structure HasCandidate (reads : DirectReads) (snapshot : BarFeatureSnapshot) (profile : CandidateProfile) : Prop where
  named : ∃ answer candidate, reads.answer = .ok answer ∧ candidate ∈ snapshot.candidates profile.thresholds ∧
    answer.decision.strategy = some candidate.strategy
  above : ∃ vwap, snapshot.vwap = some vwap ∧ vwap.lt snapshot.latestClose = true

theorem strip_strategy {snapshot : BarFeatureSnapshot} {profile : CandidateProfile} {strategy : String}
    (h : strategy ∈ candidateStrategies (scannedStrategies snapshot profile)) :
    ∃ candidate ∈ snapshot.candidates profile.thresholds, candidate.strategy = strategy := by
  obtain ⟨hmem, -⟩ := List.mem_filter.mp h
  obtain ⟨name, hname, rfl⟩ := List.mem_map.mp hmem
  obtain ⟨candidate, hcandidate, rfl⟩ := List.mem_map.mp hname
  refine ⟨candidate, hcandidate, ?_⟩
  rcases BarFeatureSnapshot.strategy_mem hcandidate with ⟨heq, -⟩ | ⟨heq, -⟩ | ⟨heq, -⟩
  · rw [heq]; decide
  · rw [heq]; decide
  · rw [heq]; decide

theorem hasCandidate_of_passes {inputs : EntryInputs} {reads : DirectReads} {snapshot : BarFeatureSnapshot}
    {profile : CandidateProfile} {symbol : String} {tick : MarketTick} {answer : AiAnswer} {u : Unit}
    (hnetwork : reads.networkClient = true) (hanswer : reads.answer = .ok answer)
    (h : Passes (checkAnswer inputs (snapshotReads reads snapshot profile) symbol tick answer) u) :
    HasCandidate reads snapshot profile := by
  simp only [checkAnswer, passes_bind, passes_refuseIf, passes_guard] at h
  obtain ⟨-, -, -, -, -, -, -, -, -, hnamed, hknown⟩ := h
  have hnetwork' : (snapshotReads reads snapshot profile).networkClient = true := hnetwork
  cases hstrategy : answer.decision.strategy with
  | none => simp [hstrategy, hnetwork'] at hnamed
  | some strategy =>
    rw [hstrategy, Option.any_some, Bool.not_eq_false', List.contains_iff_mem] at hknown
    obtain ⟨candidate, hcandidate, heq⟩ := strip_strategy hknown
    constructor
    · exact ⟨answer, candidate, hanswer, hcandidate, by rw [hstrategy, heq]⟩
    · have habove := BarFeatureSnapshot.aboveVwap_of_mem hcandidate
      rw [BarFeatureSnapshot.aboveVwap, Option.any_eq_true] at habove
      exact habove

theorem directEntry_candidate (broker : BrokerReplies) (inputs : EntryInputs) {reads : DirectReads}
    (hnetwork : reads.networkClient = true) (snapshot : BarFeatureSnapshot) (profile : CandidateProfile)
    (symbol : String) (barStart : DateTime) (db : Database) :
    PassesOnly (fun _ => HasCandidate reads snapshot profile)
      (fun submitter => directEntry broker submitter inputs (snapshotReads reads snapshot profile) symbol barStart)
      db := by
  unfold directEntry
  refine PassesOnly.after fun claimed db₁ _ => ?_
  cases claimed with
  | true => exact PassesOnly.const _
  | false =>
    refine PassesOnly.after fun before db₂ _ => ?_
    cases before with
    | error reason => exact PassesOnly.const _
    | ok tick =>
      refine PassesOnly.after fun answer db₃ hanswer => ?_
      refine PassesOnly.after fun _ db₄ _ => ?_
      refine PassesOnly.after fun checked db₅ hchecked => ?_
      rcases checked with reason | ⟨terms, quantity⟩ | ⟨terms, quantity⟩
      · exact PassesOnly.const _
      · exact PassesOnly.const _
      · refine PassesOnly.after fun request db₆ _ => ?_
        have hpasses : Passes (checkDecision inputs (snapshotReads reads snapshot profile) symbol
            (entrySignalId symbol barStart) tick answer) (.order terms quantity) := congrArg Prod.fst hchecked
        rw [checkDecision, passes_bind] at hpasses
        obtain ⟨_, hanswered, -⟩ := hpasses
        have hcandidate := hasCandidate_of_passes hnetwork (congrArg Prod.fst hanswer) hanswered
        exact (PassesOnly.submit broker hcandidate _ _ _ _).then _

/-- What stands behind an order of an entry: an approval of the bar that an operator gave, or a candidate in
    the snapshot of the latest unbroken run of bars. -/
def Grounded (reads : DirectReads) (store : MarketStore) (profile : CandidateProfile) (symbol : String)
    (db : Database) : Prop :=
  ∃ snapshot last, buildFeatureSnapshot (store.entryBars symbol) 20 = .ok (some snapshot) ∧
    (store.entryBars symbol).getLast? = some last ∧
    ((∃ approval, db.approvalRequests.find? (approvalRequestId symbol last.start) = some approval ∧
        approval.status = .approved) ∨
      HasCandidate reads snapshot profile)

/-- **With a network AI every order of an entry is grounded.** -/
theorem order_has_candidate (broker : BrokerReplies) (inputs : EntryInputs) {reads : DirectReads}
    (hnetwork : reads.networkClient = true) (store : MarketStore) (profile : CandidateProfile) (symbol : String)
    (db : Database) :
    PassesOnly (fun _ => Grounded reads store profile symbol db)
      (fun submitter => enterFromBars broker submitter inputs reads store profile symbol) db := by
  unfold enterFromBars
  refine PassesOnly.after fun built db₁ hbuilt => ?_
  rw [Exec.run_ofExcept, Prod.mk.injEq] at hbuilt
  obtain ⟨hsnapshot, rfl⟩ := hbuilt
  cases built with
  | none => exact PassesOnly.const _
  | some snapshot =>
    cases hlast : (store.entryBars symbol).getLast? with
    | none => exact PassesOnly.const _
    | some last =>
      show PassesOnly _ (fun submitter => enterPosition broker submitter (snapshotInputs inputs snapshot)
        (snapshotReads reads snapshot profile) symbol (some last.start)) db
      intro s₁ s₂ hsame
      by_cases happroved : ∃ approval, db.approvalRequests.find? (approvalRequestId symbol last.start) = some approval ∧
          approval.status = .approved
      · -- any request is grounded, so the two submitters are the same
        have hground : Grounded reads store profile symbol db := ⟨snapshot, last, hsnapshot, hlast, .inl happroved⟩
        have heq : s₁ = s₂ := funext fun id => funext fun request => hsame id request hground
        rw [heq]
      · have hstage : ∃ answer db', (∀ submitter, (approvalStage broker submitter (snapshotInputs inputs snapshot) symbol
            last.start (deadlineReached reads.preAiNow reads.cycleDeadline)).run db = (answer, db')) := by
          cases hfind : db.approvalRequests.find? (approvalRequestId symbol last.start) with
          | none =>
            refine ⟨.ok none, db, fun submitter => ?_⟩
            unfold approvalStage
            rw [Exec.run_query_bind, hfind]
            simp only [Option.any_none, Bool.false_eq_true, if_false]
            rw [Exec.run_query_bind, hfind]
            rfl
          | some approval =>
            obtain ⟨answer, db', -, hrun⟩ := approvalStage_unapproved broker (snapshotInputs inputs snapshot)
              (deadlineReached reads.preAiNow reads.cycleDeadline) hfind fun hstatus => happroved ⟨approval, hfind, hstatus⟩
            exact ⟨answer, db', hrun⟩
        obtain ⟨answer, db', hrun⟩ := hstage
        have hrest := directEntry_candidate broker (snapshotInputs inputs snapshot) hnetwork snapshot profile symbol
          last.start db' s₁ s₂ fun id request hcandidate =>
            hsame id request ⟨snapshot, last, hsnapshot, hlast, .inr hcandidate⟩
        have hreads : deadlineReached (snapshotReads reads snapshot profile).preAiNow
            (snapshotReads reads snapshot profile).cycleDeadline =
              deadlineReached reads.preAiNow reads.cycleDeadline := rfl
        simp only [enterPosition, Exec.run_bind, hreads, hrun]
        rcases answer with e | _ | result
        · rfl
        · exact hrest
        · rfl

namespace NetworkEntry

/-- Two rising bars, a minute apart. -/
def store : MarketStore := (ClimbingBars.empty.run ClimbingBars.saved).store

def inputs : EntryInputs where
  config := ⟨⟨3000000, 3 / 10, 10, 20, 2, 1, 3, none, 3, .fin (3 / 4)⟩, 1, .fin 1⟩
  now := ClimbingBars.afternoon
  latestClose := .nan
  portfolio := none
  paperPositions := []
  entryBudgetChecker := none
  postAiPriceChecker := none

/-- A network AI that does not answer. -/
def reads : DirectReads where
  cycle := ⟨true, true, 10, 90, 3⟩
  minConfidence := .fin (3 / 4)
  maxAiResponseAgeSeconds := none
  networkClient := true
  candidates := []
  cycleDeadline := none
  preAiNow := ClimbingBars.afternoon
  preAiView := ⟨none, none⟩
  answer := .error (.other "TimeoutError" "")
  responseNow := ClimbingBars.afternoon
  postAiView := ⟨none, none⟩
  submitNow := ClimbingBars.afternoon

def broker : BrokerReplies := ⟨fun _ _ => .ok none, fun _ _ _ _ => .ok ()⟩

theorem grounded : PassesOnly (fun _ => Grounded reads store .normal "005930" .empty)
    (fun submitter => enterFromBars broker submitter inputs reads store .normal "005930") .empty :=
  order_has_candidate broker inputs rfl store .normal "005930" .empty

end NetworkEntry

/-! ### Looser profiles -/

/-- Two checks come to the same, unless the first one refuses for a reason. -/
def AgreesUnless (reason : String) {α : Type} (c d : EntryCheck α) : Prop :=
  c.run = d.run ∨ c.run = .ok (.error reason)

section Agreement

variable {reason : String} {α β : Type}

theorem AgreesUnless.refl (c : EntryCheck α) : AgreesUnless reason c c := .inl rfl

theorem AgreesUnless.bind {c d : EntryCheck α} {f g : α → EntryCheck β} (h : AgreesUnless reason c d)
    (hrest : ∀ a, AgreesUnless reason (f a) (g a)) : AgreesUnless reason (c >>= f) (d >>= g) := by
  unfold AgreesUnless
  rw [ExceptT.run_bind, ExceptT.run_bind]
  rcases h with heq | hrefused
  · rw [← heq]
    rcases c.run with e | refused | a
    · exact .inl rfl
    · exact .inl rfl
    · exact hrest a
  · rw [hrefused]
    exact .inr rfl

theorem agreesUnless_refuseIf {c d : Bool} (h : d = true → c = true) :
    AgreesUnless reason (refuseIf c reason) (refuseIf d reason) := by
  cases c with
  | true => exact .inr rfl
  | false =>
    cases d with
    | true => exact absurd (h rfl) (by decide)
    | false => exact .refl _

end Agreement

section Profiles

variable {strict loose : CandidateProfile} (h : strict.thresholds.Looser loose.thresholds)
  (reads : DirectReads) (snapshot : BarFeatureSnapshot)

include h

theorem scanned_sublist : (scannedStrategies snapshot strict).Sublist (scannedStrategies snapshot loose) :=
  (BarFeatureSnapshot.candidates_mono h).map _

theorem checkBeforeAi_looser : AgreesUnless "no_deterministic_candidate"
    (checkBeforeAi (snapshotReads reads snapshot strict)) (checkBeforeAi (snapshotReads reads snapshot loose)) := by
  apply (agreesUnless_refuseIf _).bind fun _ => .refl _
  intro hempty
  rw [Bool.and_eq_true, List.isEmpty_iff] at hempty ⊢
  exact ⟨List.sublist_nil.mp (hempty.1 ▸ scanned_sublist h snapshot), hempty.2⟩

theorem checkAnswer_looser (inputs : EntryInputs) (symbol : String) (tick : MarketTick) (answer : AiAnswer) :
    AgreesUnless "ai_strategy_not_in_candidates"
      (checkAnswer inputs (snapshotReads reads snapshot strict) symbol tick answer)
      (checkAnswer inputs (snapshotReads reads snapshot loose) symbol tick answer) := by
  apply (AgreesUnless.refl _).bind
  intro _
  apply (AgreesUnless.refl _).bind
  intro _
  apply (AgreesUnless.refl _).bind
  intro _
  apply (AgreesUnless.refl _).bind
  intro _
  apply (AgreesUnless.refl _).bind
  intro _
  apply agreesUnless_refuseIf
  intro hunknown
  obtain ⟨strategy, hstrategy, hmissing⟩ := (Option.any_eq_true _ _).mp hunknown
  rw [Option.any_eq_true]
  refine ⟨strategy, hstrategy, ?_⟩
  rw [Bool.not_eq_true', ← Bool.not_eq_true, List.contains_iff_mem] at hmissing ⊢
  intro hmem
  exact hmissing ((((scanned_sublist h snapshot).map _).filter _).subset hmem)

/-- The refusals that a looser profile may take away. -/
def candidateReasons : List String := ["no_deterministic_candidate", "ai_strategy_not_in_candidates"]

theorem directEntry_looser (broker : BrokerReplies) (submitter : Submitter) (inputs : EntryInputs) (symbol : String)
    (barStart : DateTime) (db : Database) :
    (directEntry broker submitter inputs (snapshotReads reads snapshot strict) symbol barStart).run db =
        (directEntry broker submitter inputs (snapshotReads reads snapshot loose) symbol barStart).run db ∨
      ∃ reason ∈ candidateReasons,
        ((directEntry broker submitter inputs (snapshotReads reads snapshot strict) symbol barStart).run db).1 =
          .ok (.blockedBy symbol reason) := by
  unfold directEntry
  rw [Exec.run_query_bind, Exec.run_query_bind]
  split
  · exact .inl rfl
  rcases checkBeforeAi_looser h reads snapshot with heq | hrefused
  · rw [heq]
    rcases hbefore : (checkBeforeAi (snapshotReads reads snapshot loose)).run with e | reason | tick
    · exact .inl rfl
    · exact .inl rfl
    rw [Exec.run_ofExcept_ok_bind, Exec.run_ofExcept_ok_bind]
    dsimp only
    have hanswer : (snapshotReads reads snapshot strict).answer = (snapshotReads reads snapshot loose).answer := rfl
    rw [hanswer]
    rcases (snapshotReads reads snapshot loose).answer with e | answer
    · exact .inl rfl
    rw [Exec.run_ofExcept_ok_bind, Exec.run_ofExcept_ok_bind]
    rcases hrecord : (recordAiDecision answer.decision).run db with ⟨e | recorded, db'⟩
    · rw [Exec.run_bind_error hrecord, Exec.run_bind_error hrecord]
      exact .inl rfl
    rw [Exec.run_bind_ok hrecord, Exec.run_bind_ok hrecord]
    have hdecision := (checkAnswer_looser h reads snapshot inputs symbol tick answer).bind fun _ =>
      AgreesUnless.refl (checkTerms inputs (snapshotReads reads snapshot loose) symbol answer.decision >>= fun terms =>
        checkSize inputs (snapshotReads reads snapshot loose) symbol (entrySignalId symbol barStart) answer.decision terms)
    have hchecked : AgreesUnless "ai_strategy_not_in_candidates"
        (checkDecision inputs (snapshotReads reads snapshot strict) symbol (entrySignalId symbol barStart) tick answer)
        (checkDecision inputs (snapshotReads reads snapshot loose) symbol (entrySignalId symbol barStart) tick answer) :=
      hdecision
    rcases hchecked with heq' | hrefused
    · rw [heq']
      exact .inl rfl
    · rw [hrefused]
      exact .inr ⟨"ai_strategy_not_in_candidates", by decide, rfl⟩
  · rw [hrefused]
    exact .inr ⟨"no_deterministic_candidate", by decide, rfl⟩

/-- Under a looser profile an entry, with the same answer of the AI, does the same and leaves the same ledgers,
    unless the stricter profile refuses it for its candidates. -/
theorem looser_profile_admits (broker : BrokerReplies) (submitter : Submitter) (inputs : EntryInputs)
    (store : MarketStore) (symbol : String) (db : Database) :
    (enterFromBars broker submitter inputs reads store strict symbol).run db =
        (enterFromBars broker submitter inputs reads store loose symbol).run db ∨
      ∃ reason ∈ candidateReasons, ((enterFromBars broker submitter inputs reads store strict symbol).run db).1 =
        .ok (.blockedBy symbol reason) := by
  unfold enterFromBars
  rcases buildFeatureSnapshot (store.entryBars symbol) 20 with e | _ | snapshot
  · exact .inl rfl
  · exact .inl rfl
  rw [Exec.run_ofExcept_ok_bind, Exec.run_ofExcept_ok_bind]
  dsimp only
  cases (store.entryBars symbol).getLast? with
  | none => exact .inl rfl
  | some last =>
    rw [Option.map_some]
    unfold enterPosition
    dsimp only
    have hdeadline : deadlineReached (snapshotReads reads snapshot strict).preAiNow
        (snapshotReads reads snapshot strict).cycleDeadline =
          deadlineReached (snapshotReads reads snapshot loose).preAiNow
            (snapshotReads reads snapshot loose).cycleDeadline := rfl
    rw [hdeadline]
    rcases hstage : (approvalStage broker submitter (snapshotInputs inputs snapshot) symbol last.start
        (deadlineReached (snapshotReads reads snapshot loose).preAiNow
          (snapshotReads reads snapshot loose).cycleDeadline)).run db with ⟨e | _ | result, db'⟩
    · rw [Exec.run_bind_error hstage, Exec.run_bind_error hstage]
      exact .inl rfl
    · rw [Exec.run_bind_ok hstage, Exec.run_bind_ok hstage]
      exact directEntry_looser h reads snapshot broker submitter (snapshotInputs inputs snapshot) symbol last.start db'
    · rw [Exec.run_bind_ok hstage, Exec.run_bind_ok hstage]
      exact .inl rfl

end Profiles

theorem NetworkEntry.normal_admits :
    (enterFromBars broker brokerSubmitter inputs reads store .conservative "005930").run .empty =
        (enterFromBars broker brokerSubmitter inputs reads store .normal "005930").run .empty ∨
      ∃ reason ∈ candidateReasons,
        ((enterFromBars broker brokerSubmitter inputs reads store .conservative "005930").run .empty).1 =
          .ok (.blockedBy "005930" reason) :=
  looser_profile_admits conservative_looser reads broker brokerSubmitter inputs store "005930" .empty

end AutoTrader
