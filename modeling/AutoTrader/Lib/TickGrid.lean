import Mathlib.Algebra.Order.Floor.Ring
import Mathlib.Data.Rat.Floor
import Mathlib.Order.Bounds.Basic

/-!
# Rounding to a grid whose step depends on the value

A tick table cuts the line into bands, each with its own step.  A value is on the grid
when it is a multiple of the step of its own band.  Rounding takes the step from the
value before it is rounded, so a value close to the end of its band may be rounded out
of it; where every bound is a multiple of the steps on its two sides, the result is on
the grid all the same, and nothing on the grid is closer.
-/

namespace TickGrid

/-- Below each bound of `bands` its step applies, and from the last one on `last`. -/
structure TickTable where
  bands : List (ℕ × ℕ)
  last : ℕ

namespace TickTable

/-- The step of the first band that `p` is below the bound of. -/
def stepOf : List (ℕ × ℕ) → ℕ → ℚ → ℕ
  | [], last, _ => last
  | (bound, step) :: rest, last, p => if p < bound then step else stepOf rest last p

variable (T : TickTable)

def step (p : ℚ) : ℕ := stepOf T.bands T.last p

def OnGrid (p : ℚ) : Prop := ∃ n : ℤ, p = n * T.step p

/-- The multiple of the step of `p` at `p` or below. -/
def down (p : ℚ) : ℤ := ⌊p / T.step p⌋ * T.step p

/-- The multiple of the step of `p` at `p` or above. -/
def up (p : ℚ) : ℤ := ⌈p / T.step p⌉ * T.step p

/-- From `start` on the bounds grow, and each is a multiple of the steps on its sides. -/
def AlignedFrom : ℕ → List (ℕ × ℕ) → ℕ → Prop
  | start, [], last => 0 < last ∧ last ∣ start
  | start, (bound, step) :: rest, last =>
    0 < step ∧ step ∣ start ∧ step ∣ bound ∧ start < bound ∧ AlignedFrom bound rest last

def Aligned : Prop := AlignedFrom 0 T.bands T.last

instance decidableAlignedFrom :
    (start : ℕ) → (bands : List (ℕ × ℕ)) → (last : ℕ) → Decidable (AlignedFrom start bands last)
  | _, [], _ => inferInstanceAs (Decidable (_ ∧ _))
  | _, (bound, _) :: rest, last =>
    have := decidableAlignedFrom bound rest last
    inferInstanceAs (Decidable (_ ∧ _ ∧ _ ∧ _ ∧ _))

instance : Decidable T.Aligned := inferInstanceAs (Decidable (AlignedFrom ..))

/-! ### The band of a value -/

/-- The band of `p` under the steps `f`: its step divides where it starts, and where it
    ends if it does, and there the next step divides the bound too. -/
structure Band (f : ℚ → ℕ) (start : ℕ) (p : ℚ) (low : ℕ) : Prop where
  pos : 0 < f p
  start_le : start ≤ low
  low_le : low ≤ p
  dvd_low : f p ∣ low
  below : ∀ q : ℚ, low ≤ q → q ≤ p → f q = f p
  above : (∀ q, p ≤ q → f q = f p) ∨
    ∃ bound : ℕ, p < bound ∧ f p ∣ bound ∧ f bound ∣ bound ∧ ∀ q, p ≤ q → q < bound → f q = f p

theorem AlignedFrom.dvd_start {start : ℕ} {bands : List (ℕ × ℕ)} {last : ℕ}
    (h : AlignedFrom start bands last) : stepOf bands last start ∣ start := by
  cases bands with
  | nil => exact h.2
  | cons band rest =>
    obtain ⟨-, hdvd, -, hlt, -⟩ := h
    rw [stepOf, if_pos (by exact_mod_cast hlt)]
    exact hdvd

theorem AlignedFrom.band {start : ℕ} {bands : List (ℕ × ℕ)} {last : ℕ} {p : ℚ}
    (h : AlignedFrom start bands last) (hp : start ≤ p) : ∃ low, Band (stepOf bands last) start p low := by
  induction bands generalizing start with
  | nil => exact ⟨start, h.1, le_rfl, hp, h.2, fun _ _ _ => rfl, .inl fun _ _ => rfl⟩
  | cons band rest ih =>
    obtain ⟨bound, step⟩ := band
    obtain ⟨hpos, hstart, hbound, hlt, hrest⟩ := h
    have hbelow : ∀ q : ℚ, q < bound → stepOf ((bound, step) :: rest) last q = step :=
      fun q hq => if_pos hq
    have habove : ∀ q : ℚ, bound ≤ q → stepOf ((bound, step) :: rest) last q = stepOf rest last q :=
      fun q hq => if_neg (not_lt.mpr hq)
    rcases lt_or_ge p bound with hlow | hhigh
    · have hstep := hbelow p hlow
      refine ⟨start, ?_⟩
      constructor
      · rw [hstep]; exact hpos
      · exact le_rfl
      · exact hp
      · rw [hstep]; exact hstart
      · intro q _ hq
        rw [hstep, hbelow q (hq.trans_lt hlow)]
      · refine .inr ⟨bound, hlow, ?_, ?_, ?_⟩
        · rw [hstep]; exact hbound
        · rw [habove bound le_rfl]; exact hrest.dvd_start
        · intro q _ hq
          rw [hstep, hbelow q hq]
    · obtain ⟨low, hband⟩ := ih hrest hhigh
      have hlow : (bound : ℚ) ≤ low := by exact_mod_cast hband.start_le
      refine ⟨low, ?_⟩
      constructor
      · rw [habove p hhigh]; exact hband.pos
      · exact hlt.le.trans hband.start_le
      · exact hband.low_le
      · rw [habove p hhigh]; exact hband.dvd_low
      · intro q hq hqp
        rw [habove p hhigh, habove q (hlow.trans hq)]
        exact hband.below q hq hqp
      · rw [habove p hhigh]
        rcases hband.above with hall | ⟨end', hend, hdvd, hnext, hsame⟩
        · exact .inl fun q hq => (habove q (hhigh.trans hq)).trans (hall q hq)
        · refine .inr ⟨end', hend, hdvd, ?_, fun q hq hqe => ?_⟩
          · rw [habove _ (hhigh.trans hend.le)]; exact hnext
          · exact (habove q (hhigh.trans hq)).trans (hsame q hq hqe)

/-! ### Rounding -/

/-- What a step divides is one of its multiples. -/
theorem multiple_of_dvd {step low : ℕ} (h : step ∣ low) : ∃ n : ℤ, (low : ℚ) = n * step := by
  obtain ⟨n, hn⟩ := h
  exact ⟨n, by rw [hn]; push_cast; ring⟩

section Rounding

variable {T} (hT : T.Aligned) {p : ℚ}

include hT

theorem Aligned.exists_band (hp : 0 ≤ p) : ∃ low, Band T.step 0 p low :=
  AlignedFrom.band hT (by exact_mod_cast hp)

theorem step_pos (hp : 0 ≤ p) : (0 : ℚ) < T.step p := by
  obtain ⟨low, hband⟩ := hT.exists_band hp
  exact_mod_cast hband.pos

theorem down_le (hp : 0 ≤ p) : (T.down p : ℚ) ≤ p := by
  have hpos := step_pos hT hp
  have hfloor := Int.floor_le (p / T.step p)
  rw [le_div_iff₀ hpos] at hfloor
  unfold down
  exact_mod_cast hfloor

theorem lt_down_add (hp : 0 ≤ p) : p < T.down p + T.step p := by
  have hpos := step_pos hT hp
  have hfloor := Int.lt_floor_add_one (p / T.step p)
  rw [div_lt_iff₀ hpos, add_mul, one_mul] at hfloor
  unfold down
  exact_mod_cast hfloor

theorem le_up (hp : 0 ≤ p) : p ≤ T.up p := by
  have hpos := step_pos hT hp
  have hceil := Int.le_ceil (p / T.step p)
  rw [div_le_iff₀ hpos] at hceil
  unfold up
  exact_mod_cast hceil

/-- A multiple of the step of `p` that is not above `p` is not above `down p`. -/
theorem le_down {n : ℤ} (hp : 0 ≤ p) (hn : (n * T.step p : ℚ) ≤ p) : (n * T.step p : ℚ) ≤ T.down p := by
  have hpos := step_pos hT hp
  have hfloor : n ≤ ⌊p / T.step p⌋ := Int.le_floor.mpr ((le_div_iff₀ hpos).mpr hn)
  unfold down
  push_cast
  exact mul_le_mul_of_nonneg_right (by exact_mod_cast hfloor) hpos.le

/-- A multiple of the step of `p` that is not below `p` is not below `up p`. -/
theorem up_le {n : ℤ} (hp : 0 ≤ p) (hn : p ≤ (n * T.step p : ℚ)) : (T.up p : ℚ) ≤ n * T.step p := by
  have hpos := step_pos hT hp
  have hceil : ⌈p / T.step p⌉ ≤ n := Int.ceil_le.mpr ((div_le_iff₀ hpos).mpr hn)
  unfold up
  push_cast
  exact mul_le_mul_of_nonneg_right (by exact_mod_cast hceil) hpos.le

/-- Rounding down stays in the band, on the grid, and nothing on the grid is closer. -/
theorem down_isGreatest (hp : 0 ≤ p) : IsGreatest {q : ℚ | T.OnGrid q ∧ 0 ≤ q ∧ q ≤ p} (T.down p) := by
  obtain ⟨low, hband⟩ := hT.exists_band hp
  obtain ⟨n, hn⟩ := multiple_of_dvd hband.dvd_low
  have hlow : (low : ℚ) ≤ T.down p := by
    rw [hn]
    exact le_down hT hp (hn ▸ hband.low_le)
  have hle := down_le hT hp
  refine ⟨⟨⟨⌊p / T.step p⌋, ?_⟩, (Nat.cast_nonneg low).trans hlow, hle⟩, ?_⟩
  · rw [hband.below _ hlow hle, down]
    push_cast
    rfl
  · rintro q ⟨⟨m, hm⟩, -, hq⟩
    rcases le_total (low : ℚ) q with hge | hlt
    · rw [hband.below q hge hq] at hm
      rw [hm] at hq ⊢
      exact le_down hT hp hq
    · exact hlt.trans hlow

/-- Rounding up ends in the band or at its bound, on the grid, and nothing on the grid is
    closer. -/
theorem up_isLeast (hp : 0 ≤ p) : IsLeast {q : ℚ | T.OnGrid q ∧ p ≤ q} (T.up p) := by
  obtain ⟨low, hband⟩ := hT.exists_band hp
  have hge := le_up hT hp
  have hmultiple : (T.up p : ℚ) = (⌈p / T.step p⌉ : ℤ) * T.step p := by
    unfold up
    push_cast
    rfl
  rcases hband.above with hall | ⟨bound, hbound, hdvd, hnext, hsame⟩
  · refine ⟨⟨⟨⌈p / T.step p⌉, by rw [hall _ hge, ← hmultiple]⟩, hge⟩, ?_⟩
    rintro q ⟨⟨m, hm⟩, hq⟩
    rw [hall q hq] at hm
    rw [hm] at hq ⊢
    exact up_le hT hp hq
  · obtain ⟨n, hn⟩ := multiple_of_dvd hdvd
    have hle : (T.up p : ℚ) ≤ bound := by
      rw [hn]
      exact up_le hT hp (hn ▸ hbound.le)
    refine ⟨⟨?_, hge⟩, ?_⟩
    · rcases hle.lt_or_eq with hlt | heq
      · exact ⟨⌈p / T.step p⌉, by rw [hsame _ hge hlt, ← hmultiple]⟩
      · rw [heq]
        obtain ⟨m, hm⟩ := hnext
        exact ⟨m, by exact_mod_cast hm.trans (mul_comm _ _)⟩
    · rintro q ⟨⟨m, hm⟩, hq⟩
      rcases lt_or_ge q bound with hlt | hout
      · rw [hsame q hq hlt] at hm
        rw [hm] at hq ⊢
        exact up_le hT hp hq
      · exact hle.trans hout

theorem down_mono {q : ℚ} (hp : 0 ≤ p) (h : p ≤ q) : (T.down p : ℚ) ≤ T.down q :=
  (down_isGreatest hT hp).mono (down_isGreatest hT (hp.trans h)) fun _ hr =>
    ⟨hr.1, hr.2.1, hr.2.2.trans h⟩

theorem up_mono {q : ℚ} (hp : 0 ≤ p) (h : p ≤ q) : (T.up p : ℚ) ≤ T.up q :=
  (up_isLeast hT (hp.trans h)).mono (up_isLeast hT hp) fun _ hr => ⟨hr.1, h.trans hr.2⟩

theorem down_of_onGrid (hp : 0 ≤ p) (h : T.OnGrid p) : (T.down p : ℚ) = p :=
  le_antisymm (down_le hT hp) ((down_isGreatest hT hp).2 ⟨h, hp, le_rfl⟩)

theorem up_of_onGrid (hp : 0 ≤ p) (h : T.OnGrid p) : (T.up p : ℚ) = p :=
  le_antisymm ((up_isLeast hT hp).2 ⟨h, le_rfl⟩) (le_up hT hp)

end Rounding

end TickTable

end TickGrid
