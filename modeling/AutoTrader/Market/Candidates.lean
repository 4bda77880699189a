/-
  AutoTrader/Market/Candidates.lean
  =================================
  **The deterministic candidates of a snapshot.**

  `scan_candidates` compares a snapshot with the thresholds of a profile.  A looser profile keeps
  every candidate of a stricter one (`candidates_mono`), and a candidate of any profile closes
  above the volume-weighted price.
-/
import AutoTrader.Market.Features

namespace AutoTrader.Market

structure CandidateSignal where
  symbol : String
  strategy : String
  score : ℚ
  reason : String
  features : BarFeatureSnapshot

structure CandidateThresholds where
  pullbackDistanceMin : ℚ
  pullbackDistanceMax : ℚ
  pullbackVolumeRatio : ℚ
  momentumDistanceMin : ℚ
  momentumVolumeRatio : ℚ
  breakoutVolumeRatio : ℚ

/-- The keys of `CANDIDATE_PROFILES`. -/
inductive CandidateProfile where
  | conservative
  | normal
  | aggressive
deriving DecidableEq

namespace CandidateProfile

def name : CandidateProfile → String
  | .conservative => "conservative"
  | .normal => "normal"
  | .aggressive => "aggressive"

/-- The profile of a name. -/
def ofName? (name : String) : Option CandidateProfile :=
  [conservative, normal, aggressive].find? fun profile => profile.name = name

/-- `CANDIDATE_PROFILES`. -/
def thresholds : CandidateProfile → CandidateThresholds
  | .conservative => ⟨-1, -2 / 5, 13 / 10, -1 / 5, 9 / 10, 3 / 2⟩
  | .normal => ⟨-3 / 2, -3 / 10, 1, -3 / 10, 3 / 5, 6 / 5⟩
  | .aggressive => ⟨-3, -1 / 10, 1 / 2, -9 / 10, 7 / 20, 7 / 10⟩

end CandidateProfile

namespace BarFeatureSnapshot

variable (snapshot : BarFeatureSnapshot)

/-- A rising EMA20. -/
def rising : Bool :=
  snapshot.ema20.isSome && snapshot.ema20SlopePct.any fun slope => PyFloat.lt (.fin 0) slope

def longTrendConfirmed : Bool :=
  snapshot.rising && snapshot.ema5.any fun ema5 =>
    ema5.lt snapshot.latestClose && snapshot.ema20.any fun ema20 => ema20.lt ema5

/-- Without an EMA20: the close is at least 99.9 % of the EMA5. -/
def shortTrendConfirmed : Bool :=
  snapshot.ema20.isNone && snapshot.ema5.any fun ema5 =>
    (ema5.mul (.fin (999 / 1000))).le snapshot.latestClose

def aboveVwap : Bool := snapshot.vwap.any fun vwap => vwap.lt snapshot.latestClose

def volumeAtLeast (bound : ℚ) : Bool := snapshot.volumeRatio.any fun ratio => bound ≤ ratio

/-! ### The three strategies -/

def pullback (thresholds : CandidateThresholds) : Bool :=
  snapshot.rising && snapshot.aboveVwap &&
    (snapshot.distanceFromHighPct.any fun distance =>
      PyFloat.le (.fin thresholds.pullbackDistanceMin) distance &&
        distance.le (.fin thresholds.pullbackDistanceMax)) &&
    snapshot.volumeAtLeast thresholds.pullbackVolumeRatio

def momentum (thresholds : CandidateThresholds) : Bool :=
  (snapshot.highN.any fun high => snapshot.latestClose.lt high) &&
    (snapshot.distanceFromHighPct.any fun distance =>
      PyFloat.lt (.fin thresholds.momentumDistanceMin) distance && distance.le (.fin 0)) &&
    (snapshot.longTrendConfirmed || snapshot.shortTrendConfirmed) && snapshot.aboveVwap &&
    snapshot.volumeAtLeast thresholds.momentumVolumeRatio

def breakout (thresholds : CandidateThresholds) : Bool :=
  (snapshot.highN.any fun high => high.le snapshot.latestClose) && snapshot.aboveVwap &&
    snapshot.volumeAtLeast thresholds.breakoutVolumeRatio

/-- A candidate, if its conditions are met. -/
def signal (met : Bool) (strategy : String) (score : ℚ) (reason : String) : List CandidateSignal :=
  if met then [⟨snapshot.symbol, strategy, score, reason, snapshot⟩] else []

/-- The body of `scan_candidates`. -/
def candidates (thresholds : CandidateThresholds) : List CandidateSignal :=
  snapshot.signal (snapshot.pullback thresholds) "PULLBACK_WATCH" (19 / 25)
      "close above VWAP, rising EMA20, controlled pullback from recent high" ++
    snapshot.signal (snapshot.momentum thresholds) "MOMENTUM_CONTINUATION" (19 / 25)
      "close is pressing the recent high with rising EMA stack and above-normal volume" ++
    snapshot.signal (snapshot.breakout thresholds) "BREAKOUT_WATCH" (4 / 5)
      "close at recent high, above VWAP, with elevated volume"

end BarFeatureSnapshot

/-- `scan_candidates`. -/
def scanCandidates (snapshot : BarFeatureSnapshot) (profile : String) : Except Exn (List CandidateSignal) :=
  match CandidateProfile.ofName? profile with
  | none => .error (.valueError ("unknown candidate profile: " ++ profile))
  | some profile => .ok (snapshot.candidates profile.thresholds)

/-! ### Looser profiles -/

/-- Thresholds that let more through. -/
structure CandidateThresholds.Looser (strict loose : CandidateThresholds) : Prop where
  pullbackDistanceMin : loose.pullbackDistanceMin ≤ strict.pullbackDistanceMin
  pullbackDistanceMax : strict.pullbackDistanceMax ≤ loose.pullbackDistanceMax
  pullbackVolumeRatio : loose.pullbackVolumeRatio ≤ strict.pullbackVolumeRatio
  momentumDistanceMin : loose.momentumDistanceMin ≤ strict.momentumDistanceMin
  momentumVolumeRatio : loose.momentumVolumeRatio ≤ strict.momentumVolumeRatio
  breakoutVolumeRatio : loose.breakoutVolumeRatio ≤ strict.breakoutVolumeRatio

theorem le_fin_of_le {a b : ℚ} {x : PyFloat} (hab : b ≤ a) (h : PyFloat.le (.fin a) x = true) :
    PyFloat.le (.fin b) x = true := by
  cases x with
  | fin q =>
    simp only [PyFloat.le, PyFloat.lt, Bool.not_eq_true', decide_eq_false_iff_not, not_lt] at h ⊢
    exact hab.trans h
  | nan => cases h
  | posInf => rfl
  | negInf => cases h

theorem fin_le_of_le {a b : ℚ} {x : PyFloat} (hab : a ≤ b) (h : x.le (.fin a) = true) : x.le (.fin b) = true := by
  cases x with
  | fin q =>
    simp only [PyFloat.le, PyFloat.lt, Bool.not_eq_true', decide_eq_false_iff_not, not_lt] at h ⊢
    exact h.trans hab
  | nan => cases h
  | posInf => cases h
  | negInf => rfl

theorem fin_lt_of_lt {a b : ℚ} {x : PyFloat} (hab : b ≤ a) (h : PyFloat.lt (.fin a) x = true) :
    PyFloat.lt (.fin b) x = true := by
  cases x with
  | fin q =>
    simp only [PyFloat.lt, decide_eq_true_eq] at h ⊢
    exact hab.trans_lt h
  | nan => cases h
  | posInf => rfl
  | negInf => cases h

theorem any_mono {α : Type} {p q : α → Bool} {x : Option α} (h : ∀ a, p a = true → q a = true)
    (hx : x.any p = true) : x.any q = true := by
  cases x with
  | none => cases hx
  | some a => exact h a hx

theorem PyFloat.le_eq_false_of_lt {a b : PyFloat} (h : a.lt b = true) : b.le a = false := by
  cases a <;> cases b <;> simp_all [PyFloat.le, PyFloat.lt]

namespace CandidateThresholds.Looser

variable {strict loose : CandidateThresholds} (h : strict.Looser loose) {snapshot : BarFeatureSnapshot}

theorem volumeAtLeast_mono {a b : ℚ} (hab : b ≤ a) (hvolume : snapshot.volumeAtLeast a = true) :
    snapshot.volumeAtLeast b = true := by
  apply any_mono _ hvolume
  intro ratio hratio
  simp only [decide_eq_true_eq] at hratio ⊢
  exact hab.trans hratio

include h

theorem pullback (hmet : snapshot.pullback strict = true) : snapshot.pullback loose = true := by
  simp only [BarFeatureSnapshot.pullback, Bool.and_eq_true] at hmet ⊢
  obtain ⟨⟨htrend, hdistance⟩, hvolume⟩ := hmet
  refine ⟨⟨htrend, any_mono ?_ hdistance⟩, volumeAtLeast_mono h.pullbackVolumeRatio hvolume⟩
  intro distance hbounds
  rw [Bool.and_eq_true] at hbounds ⊢
  exact ⟨le_fin_of_le h.pullbackDistanceMin hbounds.1, fin_le_of_le h.pullbackDistanceMax hbounds.2⟩

theorem momentum (hmet : snapshot.momentum strict = true) : snapshot.momentum loose = true := by
  simp only [BarFeatureSnapshot.momentum, Bool.and_eq_true] at hmet ⊢
  obtain ⟨⟨⟨⟨hhigh, hdistance⟩, htrend⟩, hvwap⟩, hvolume⟩ := hmet
  refine ⟨⟨⟨⟨hhigh, any_mono ?_ hdistance⟩, htrend⟩, hvwap⟩, volumeAtLeast_mono h.momentumVolumeRatio hvolume⟩
  intro distance hbounds
  rw [Bool.and_eq_true] at hbounds ⊢
  exact ⟨fin_lt_of_lt h.momentumDistanceMin hbounds.1, hbounds.2⟩

theorem breakout (hmet : snapshot.breakout strict = true) : snapshot.breakout loose = true := by
  simp only [BarFeatureSnapshot.breakout, Bool.and_eq_true] at hmet ⊢
  exact ⟨hmet.1, volumeAtLeast_mono h.breakoutVolumeRatio hmet.2⟩

end CandidateThresholds.Looser

namespace BarFeatureSnapshot

variable {snapshot : BarFeatureSnapshot}

theorem signal_sublist {strict loose : Bool} (h : strict = true → loose = true) (strategy : String) (score : ℚ)
    (reason : String) : (snapshot.signal strict strategy score reason).Sublist
      (snapshot.signal loose strategy score reason) := by
  cases strict with
  | false => exact List.nil_sublist _
  | true => rw [h rfl]

/-- Every candidate of stricter thresholds is one of looser thresholds, in the same order. -/
theorem candidates_mono {strict loose : CandidateThresholds} (h : strict.Looser loose) :
    (snapshot.candidates strict).Sublist (snapshot.candidates loose) :=
  ((signal_sublist h.pullback _ _ _).append (signal_sublist h.momentum _ _ _)).append
    (signal_sublist h.breakout _ _ _)

theorem length_signal (met : Bool) (strategy : String) (score : ℚ) (reason : String) :
    (snapshot.signal met strategy score reason).length = met.toNat := by
  cases met with
  | false => rfl
  | true => rfl

theorem mem_signal {met : Bool} {strategy reason : String} {score : ℚ} {candidate : CandidateSignal} :
    candidate ∈ snapshot.signal met strategy score reason ↔
      met = true ∧ candidate = ⟨snapshot.symbol, strategy, score, reason, snapshot⟩ := by
  cases met with
  | false => simp [signal]
  | true => simp [signal]

/-- Which strategies a scan finds. -/
theorem strategy_mem {thresholds : CandidateThresholds} {candidate : CandidateSignal}
    (h : candidate ∈ snapshot.candidates thresholds) :
    candidate.strategy = "PULLBACK_WATCH" ∧ snapshot.pullback thresholds = true ∨
      candidate.strategy = "MOMENTUM_CONTINUATION" ∧ snapshot.momentum thresholds = true ∨
      candidate.strategy = "BREAKOUT_WATCH" ∧ snapshot.breakout thresholds = true := by
  simp only [candidates, List.mem_append, mem_signal] at h
  rcases h with (⟨hmet, rfl⟩ | ⟨hmet, rfl⟩) | ⟨hmet, rfl⟩
  · exact .inl ⟨rfl, hmet⟩
  · exact .inr (.inl ⟨rfl, hmet⟩)
  · exact .inr (.inr ⟨rfl, hmet⟩)

/-- A candidate is about a close above the volume-weighted price. -/
theorem aboveVwap_of_mem {thresholds : CandidateThresholds} {candidate : CandidateSignal}
    (h : candidate ∈ snapshot.candidates thresholds) : snapshot.aboveVwap = true := by
  rcases strategy_mem h with ⟨-, hmet⟩ | ⟨-, hmet⟩ | ⟨-, hmet⟩
  · simp only [pullback, Bool.and_eq_true] at hmet
    exact hmet.1.1.2
  · simp only [momentum, Bool.and_eq_true] at hmet
    exact hmet.1.2
  · simp only [breakout, Bool.and_eq_true] at hmet
    exact hmet.1.2

/-- The close cannot press the high and be at it. -/
theorem momentum_not_breakout {thresholds other : CandidateThresholds} (h : snapshot.momentum thresholds = true) :
    snapshot.breakout other = false := by
  simp only [momentum, Bool.and_eq_true] at h
  have hhigh := h.1.1.1.1
  rw [breakout]
  cases hn : snapshot.highN with
  | none => simp
  | some high =>
    rw [hn] at hhigh
    rw [Option.any_some, PyFloat.le_eq_false_of_lt hhigh]
    simp

end BarFeatureSnapshot

theorem conservative_looser : CandidateProfile.conservative.thresholds.Looser CandidateProfile.normal.thresholds := by
  constructor <;> norm_num [CandidateProfile.thresholds]

theorem normal_looser : CandidateProfile.normal.thresholds.Looser CandidateProfile.aggressive.thresholds := by
  constructor <;> norm_num [CandidateProfile.thresholds]

/-- The profiles are nested, and under each of them a scan finds at most two candidates, all for a close above
    the volume-weighted price and never a breakout beside a continuation. -/
theorem profiles_nested (snapshot : BarFeatureSnapshot) :
    (snapshot.candidates CandidateProfile.conservative.thresholds).Sublist
        (snapshot.candidates CandidateProfile.normal.thresholds) ∧
      (snapshot.candidates CandidateProfile.normal.thresholds).Sublist
        (snapshot.candidates CandidateProfile.aggressive.thresholds) ∧
      ∀ profile : CandidateProfile,
        (snapshot.candidates profile.thresholds).length ≤ 2 ∧
        (snapshot.candidates profile.thresholds ≠ [] → snapshot.aboveVwap = true) ∧
        ∀ strict : CandidateProfile, "MOMENTUM_CONTINUATION" ∈ (snapshot.candidates strict.thresholds).map (·.strategy) →
          "BREAKOUT_WATCH" ∉ (snapshot.candidates profile.thresholds).map (·.strategy) := by
  refine ⟨BarFeatureSnapshot.candidates_mono conservative_looser, BarFeatureSnapshot.candidates_mono normal_looser, ?_⟩
  intro profile
  refine ⟨?_, ?_, ?_⟩
  · rw [BarFeatureSnapshot.candidates, List.length_append, List.length_append, BarFeatureSnapshot.length_signal,
      BarFeatureSnapshot.length_signal, BarFeatureSnapshot.length_signal]
    have hpullback := Bool.toNat_le (snapshot.pullback profile.thresholds)
    have hbreakout := Bool.toNat_le (snapshot.breakout profile.thresholds)
    cases hmomentum : snapshot.momentum profile.thresholds with
    | false => simp only [Bool.toNat_false]; omega
    | true =>
      have hnone : snapshot.breakout profile.thresholds = false :=
        BarFeatureSnapshot.momentum_not_breakout hmomentum
      simp only [hnone, Bool.toNat_false, Bool.toNat_true]
      omega
  · intro hne
    obtain ⟨candidate, hcandidate⟩ := List.exists_mem_of_ne_nil _ hne
    exact BarFeatureSnapshot.aboveVwap_of_mem hcandidate
  · intro strict hmomentum hbreakout
    obtain ⟨first, hfirst, hname⟩ := List.mem_map.mp hmomentum
    obtain ⟨second, hsecond, hname'⟩ := List.mem_map.mp hbreakout
    have hm : snapshot.momentum strict.thresholds = true := by
      rcases BarFeatureSnapshot.strategy_mem hfirst with ⟨h, -⟩ | ⟨-, h⟩ | ⟨h, -⟩
      · rw [hname] at h; exact absurd h (by decide)
      · exact h
      · rw [hname] at h; exact absurd h (by decide)
    have hb : snapshot.breakout profile.thresholds = true := by
      rcases BarFeatureSnapshot.strategy_mem hsecond with ⟨h, -⟩ | ⟨h, -⟩ | ⟨-, h⟩
      · rw [hname'] at h; exact absurd h (by decide)
      · rw [hname'] at h; exact absurd h (by decide)
      · exact h
    rw [BarFeatureSnapshot.momentum_not_breakout hm] at hb
    cases hb

end AutoTrader.Market
