import Mathlib.Data.String.Basic
import Mathlib.Tactic.Linarith
import Mathlib.Tactic.NormNum

/-!
# Numbers as texts of a fixed width

A text of a fixed number of decimal digits sorts like the number it stands for,
and a sequence of such texts sorts like the sequence of numbers, whatever follows
it.  `Precedes` is the order of such texts: it is decided before the shorter of
the two ends.  Read from the left, the digits give the number back (`foldl_fixed`).
-/

namespace Digits

/-! ### Texts of one length -/

/-- The texts have one length and the first sorts before the second. -/
inductive Precedes : List Char → List Char → Prop
  | here {c d : Char} {front back : List Char} : c < d → front.length = back.length →
      Precedes (c :: front) (d :: back)
  | later {c : Char} {front back : List Char} : Precedes front back →
      Precedes (c :: front) (c :: back)

theorem Precedes.length_eq {a b : List Char} (h : Precedes a b) : a.length = b.length := by
  induction h with
  | here _ hlen => simp [hlen]
  | later _ ih => simp [ih]

theorem Precedes.prefixed {a b : List Char} (front : List Char) (h : Precedes a b) :
    Precedes (front ++ a) (front ++ b) := by
  induction front with
  | nil => exact h
  | cons c front ih => exact .later ih

theorem Precedes.extended {a b x y : List Char} (h : Precedes a b) (hxy : x.length = y.length) :
    Precedes (a ++ x) (b ++ y) := by
  induction h with
  | here hcd hlen => exact .here hcd (by simp [hlen, hxy])
  | later _ ih => exact .later ih

/-- Whatever follows, the first text sorts before the second. -/
theorem Precedes.lt_append {a b : List Char} (h : Precedes a b) (x y : List Char) :
    a ++ x < b ++ y := by
  induction h with
  | here hcd _ => exact List.cons_lt_cons_iff.mpr (.inl hcd)
  | later _ ih => exact List.cons_lt_cons_iff.mpr (.inr ⟨rfl, ih⟩)

/-! ### Digits -/

/-- The last `width` decimal digits of a number. -/
def fixed : Nat → Nat → List Char
  | 0, _ => []
  | width + 1, n => fixed width (n / 10) ++ [(n % 10).digitChar]

@[simp] theorem length_fixed (width n : Nat) : (fixed width n).length = width := by
  induction width generalizing n with
  | zero => rfl
  | succ width ih => simp [fixed, ih]

theorem fixed_zero (width : Nat) : fixed width 0 = List.replicate width '0' := by
  induction width with
  | zero => rfl
  | succ width ih => rw [fixed, Nat.zero_div, ih, List.replicate_succ']; rfl

theorem digitChar_lt {m n : Nat} (h : m < n) (hn : n < 10) : m.digitChar < n.digitChar := by
  have hall : ∀ n < 10, ∀ m < n, m.digitChar < n.digitChar := by decide
  exact hall n hn m h

/-- Fixed-width texts sort like numbers. -/
theorem fixed_precedes {w m n : Nat} (h : m < n) (hn : n < 10 ^ w) :
    Precedes (fixed w m) (fixed w n) := by
  induction w generalizing m n with
  | zero => omega
  | succ w ih =>
    rw [pow_succ] at hn
    rcases Nat.lt_or_ge (m / 10) (n / 10) with hlt | hge
    · exact (ih hlt (by omega)).extended rfl
    · have hsame : m / 10 = n / 10 := by omega
      rw [fixed, fixed, hsame]
      exact Precedes.prefixed _ (.here (digitChar_lt (by omega) (by omega)) rfl)

theorem toNat_digitChar {n : Nat} (h : n < 10) : n.digitChar.toNat = 48 + n := by
  have hall : ∀ n < 10, n.digitChar.toNat = 48 + n := by decide
  exact hall n h

/-- Reading a text of digits from the left gives the number back. -/
theorem foldl_fixed {width n : Nat} (hn : n < 10 ^ width) (front : Int) :
    (fixed width n).foldl (fun m c => 10 * m + ((c.toNat : Int) - 48)) front = front * 10 ^ width + n := by
  induction width generalizing n with
  | zero =>
    rw [pow_zero] at hn
    rw [fixed, List.foldl_nil, Nat.lt_one_iff.mp hn]
    simp
  | succ width ih =>
    rw [pow_succ] at hn
    have hlast : n % 10 < 10 := Nat.mod_lt n (by omega)
    rw [fixed, List.foldl_append, ih (show n / 10 < 10 ^ width by omega), List.foldl_cons, List.foldl_nil,
      toNat_digitChar hlast, pow_succ]
    push_cast
    have hsplit : (n : Int) = 10 * (n / 10) + n % 10 := by omega
    linarith

/-- The letters of a number are digits. -/
theorem mem_fixed {width n : Nat} {c : Char} (h : c ∈ fixed width n) : ∃ d < 10, c = d.digitChar := by
  induction width generalizing n with
  | zero => cases h
  | succ width ih =>
    rw [fixed, List.mem_append, List.mem_singleton] at h
    rcases h with hfront | rfl
    · exact ih hfront
    · exact ⟨n % 10, Nat.mod_lt n (by omega), rfl⟩

/-- The digits of a number with leading zeros. -/
theorem zeros_toDigits {width n : Nat} (hn : n < 10 ^ width) (hwidth : 0 < width) :
    List.replicate (width - (Nat.toDigits 10 n).length) '0' ++ Nat.toDigits 10 n = fixed width n := by
  induction width generalizing n with
  | zero => omega
  | succ width ih =>
    rw [pow_succ] at hn
    rcases Nat.lt_or_ge n 10 with hsmall | hbig
    · rw [Nat.toDigits_of_lt_base hsmall, fixed, Nat.div_eq_of_lt hsmall, Nat.mod_eq_of_lt hsmall,
        fixed_zero]
      simp
    · have hwidth' : 0 < width := by
        rcases Nat.eq_zero_or_pos width with rfl | h
        · simp at hn; omega
        · exact h
      rw [Nat.toDigits_of_base_le (by omega) hbig, List.length_append, List.length_singleton,
        Nat.add_sub_add_right, ← List.append_assoc, ih (by omega) hwidth', fixed]

end Digits
