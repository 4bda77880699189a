import Mathlib.Algebra.Order.BigOperators.Group.List
import Mathlib.Algebra.Order.Field.Basic
import Mathlib.Data.List.TakeDrop
import Mathlib.Order.Interval.Set.Defs
import Mathlib.Tactic.Linarith
import Mathlib.Tactic.Ring

/-!
# Averages of a series

The mean of a list, the mean with weights, and exponential smoothing over a linearly ordered
field.  All of them stay between two bounds of the values they are taken over.
-/

namespace AutoTrader.Averages

variable {α : Type*}

/-- Every value of a list lies between the two bounds. -/
def Within [LE α] (lo hi : α) (values : List α) : Prop := ∀ x ∈ values, lo ≤ x ∧ x ≤ hi

theorem Within.mono [LE α] {lo hi : α} {values part : List α} (h : Within lo hi values) (hpart : part ⊆ values) :
    Within lo hi part := by
  intro x hx
  exact h x (hpart hx)

variable [Field α]

/-! ### The mean and the mean with weights -/

def mean (values : List α) : α := values.sum / values.length

/-- The sum of the values, each times its weight. -/
def weightedSum (items : List (α × α)) : α := (items.map fun item => item.1 * item.2).sum

def totalWeight (items : List (α × α)) : α := (items.map (·.2)).sum

def weightedMean (items : List (α × α)) : α := weightedSum items / totalWeight items

@[simp] theorem weightedSum_cons (item : α × α) (items : List (α × α)) :
    weightedSum (item :: items) = item.1 * item.2 + weightedSum items := by simp [weightedSum]

@[simp] theorem totalWeight_cons (item : α × α) (items : List (α × α)) :
    totalWeight (item :: items) = item.2 + totalWeight items := by simp [totalWeight]

variable [LinearOrder α] [IsStrictOrderedRing α]

theorem sum_within {lo hi : α} {values : List α} (h : Within lo hi values) :
    values.length * lo ≤ values.sum ∧ values.sum ≤ values.length * hi := by
  constructor
  · simpa using List.card_nsmul_le_sum values lo fun x hx => (h x hx).1
  · simpa using List.sum_le_card_nsmul values hi fun x hx => (h x hx).2

theorem mean_within {lo hi : α} {values : List α} (h : Within lo hi values) (hne : values ≠ []) :
    lo ≤ mean values ∧ mean values ≤ hi := by
  have hpos : (0 : α) < values.length := by exact_mod_cast List.length_pos_iff.mpr hne
  have hsum := sum_within h
  unfold mean
  constructor
  · rw [le_div_iff₀ hpos, mul_comm]
    exact hsum.1
  · rw [div_le_iff₀ hpos, mul_comm]
    exact hsum.2

theorem weightedSum_within {lo hi : α} {items : List (α × α)}
    (h : ∀ item ∈ items, lo ≤ item.1 ∧ item.1 ≤ hi ∧ 0 ≤ item.2) :
    lo * totalWeight items ≤ weightedSum items ∧ weightedSum items ≤ hi * totalWeight items := by
  induction items with
  | nil => simp [weightedSum, totalWeight]
  | cons item rest ih =>
    obtain ⟨hlo, hhi, hweight⟩ := h item (by simp)
    obtain ⟨ihlo, ihhi⟩ := ih fun other hother => h other (by simp [hother])
    have hlow := mul_le_mul_of_nonneg_right hlo hweight
    have hhigh := mul_le_mul_of_nonneg_right hhi hweight
    simp only [weightedSum_cons, totalWeight_cons, mul_add]
    constructor
    · linarith
    · linarith

theorem weightedMean_within {lo hi : α} {items : List (α × α)}
    (h : ∀ item ∈ items, lo ≤ item.1 ∧ item.1 ≤ hi ∧ 0 ≤ item.2) (hpos : 0 < totalWeight items) :
    lo ≤ weightedMean items ∧ weightedMean items ≤ hi := by
  obtain ⟨hlow, hhigh⟩ := weightedSum_within h
  unfold weightedMean
  constructor
  · rwa [le_div_iff₀ hpos]
  · rwa [div_le_iff₀ hpos]

/-! ### Exponential smoothing -/

/-- One step from the current average towards a value. -/
def blend (rate current value : α) : α := (value - current) * rate + current

theorem blend_within {lo hi rate current value : α} (hrate : 0 ≤ rate ∧ rate ≤ 1)
    (hcurrent : lo ≤ current ∧ current ≤ hi) (hvalue : lo ≤ value ∧ value ≤ hi) :
    lo ≤ blend rate current value ∧ blend rate current value ≤ hi := by
  have hrest : 0 ≤ 1 - rate := sub_nonneg.mpr hrate.2
  have hsplit : blend rate current value = value * rate + current * (1 - rate) := by
    unfold blend
    ring
  have hlow := add_le_add (mul_le_mul_of_nonneg_right hvalue.1 hrate.1)
    (mul_le_mul_of_nonneg_right hcurrent.1 hrest)
  have hhigh := add_le_add (mul_le_mul_of_nonneg_right hvalue.2 hrate.1)
    (mul_le_mul_of_nonneg_right hcurrent.2 hrest)
  rw [hsplit]
  constructor
  · calc lo = lo * rate + lo * (1 - rate) := by ring
      _ ≤ _ := hlow
  · calc _ ≤ hi * rate + hi * (1 - rate) := hhigh
      _ = hi := by ring

theorem foldl_blend_within {lo hi rate seed : α} {values : List α} (hrate : 0 ≤ rate ∧ rate ≤ 1)
    (hseed : lo ≤ seed ∧ seed ≤ hi) (h : Within lo hi values) :
    lo ≤ values.foldl (blend rate) seed ∧ values.foldl (blend rate) seed ≤ hi := by
  induction values generalizing seed with
  | nil => exact hseed
  | cons value rest ih =>
    apply ih (blend_within hrate hseed (h value (by simp)))
    intro x hx
    exact h x (by simp [hx])

end AutoTrader.Averages
