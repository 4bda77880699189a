/-
  AutoTrader/Python/Floats.lean
  =============================
  **`float(text)` and `int(text)`.**

  The grammar of `float`: an optional sign, digits of any script with single
  underscores between them, a fraction, an exponent, or one of the words for an
  infinity or a NaN.  A value above the largest double is an infinity and one
  below the smallest is a zero; between the two the value is kept exact.
-/
import AutoTrader.Python.Values
import Mathlib.Algebra.Order.Field.Rat
import Mathlib.Data.List.TakeDrop
import Mathlib.Data.List.TakeWhile

namespace AutoTrader

namespace Text

/-- A decimal digit of any script as the ASCII digit of its value. -/
def asciiDigit (c : Char) : Char := (decimalValue? c).elim c Nat.digitChar

/-- Every underscore stands between two digits; `prev` is the character before. -/
def underscoresBetweenDigits (prev : Char) : List Char → Bool
  | [] => prev != '_'
  | c :: rest =>
    (if c = '_' then prev.isDigit else prev != '_' || c.isDigit) && underscoresBetweenDigits c rest

/-- The number that ASCII digits stand for. -/
def digitsValue (digits : List Char) : Nat := digits.foldl (fun n c => 10 * n + (c.toNat - 48)) 0

/-- Whether there is a minus sign, and what follows the sign. -/
def splitSign : List Char → Bool × List Char
  | '-' :: rest => (true, rest)
  | '+' :: rest => (false, rest)
  | rest => (false, rest)

/-- The exponent at the end of a number, 0 if there is none. -/
def exponent? : List Char → Option Int
  | [] => some 0
  | c :: rest =>
    let (negative, digits) := splitSign rest
    if (c = 'e' ∨ c = 'E') ∧ digits ≠ [] ∧ digits.all Char.isDigit then
      some (if negative then -(digitsValue digits : Int) else digitsValue digits)
    else none

/-- The digits after a point, and the rest. -/
def splitFraction : List Char → List Char × List Char
  | '.' :: rest => rest.span Char.isDigit
  | rest => ([], rest)

/-- The value of a number without a sign. -/
def magnitude? (body : List Char) : Option ℚ :=
  let (whole, rest) := body.span Char.isDigit
  let (fraction, rest) := splitFraction rest
  if whole = [] ∧ fraction = [] then none
  else (exponent? rest).map fun e => digitsValue (whole ++ fraction) * 10 ^ (e - (fraction.length : Int))

/-- Beyond the largest double lies infinity, and below the smallest lies zero. -/
def toDouble (negative : Bool) (q : ℚ) : PyFloat :=
  if (2 : ℚ) ^ 1024 - 2 ^ 970 ≤ q then (if negative then .negInf else .posInf)
  else if q * 2 ^ 1075 ≤ 1 then .fin 0
  else .fin (if negative then -q else q)

/-- `float(s)`; `none` is its `ValueError`. -/
def toFloat? (s : String) : Option PyFloat :=
  let text := (strip s).toList.map asciiDigit
  let (negative, body) := splitSign (text.filter (· ≠ '_'))
  let word := String.ofList (body.map Char.toLower)
  if !underscoresBetweenDigits ' ' text then none
  else if word = "inf" ∨ word = "infinity" then some (if negative then .negInf else .posInf)
  else if word = "nan" then some .nan
  else (magnitude? body).map (toDouble negative)

/-- `int(s)`; `none` is its `ValueError`. -/
def toInt? (s : String) : Option Int :=
  let text := (strip s).toList.map asciiDigit
  let (negative, digits) := splitSign (text.filter (· ≠ '_'))
  if !underscoresBetweenDigits ' ' text ∨ digits = [] ∨ !digits.all Char.isDigit then none
  else some (if negative then -(digitsValue digits : Int) else digitsValue digits)

/-- A stripped text is empty or has a character that is not a space. -/
theorem blank_strip {s : String} (h : strip s ≠ "") : blank (strip s) = false := by
  by_contra hblank
  rw [Bool.not_eq_false] at hblank
  apply h
  have hnil : (s.toList.dropWhile isSpace).reverse.dropWhile isSpace = [] := by
    by_contra hne
    have hhead := List.head_dropWhile_not isSpace hne
    have hall : ∀ c ∈ (s.toList.dropWhile isSpace).reverse.dropWhile isSpace, isSpace c = true := by
      intro c hc
      simp only [blank, strip, String.toList_ofList, List.all_eq_true, List.mem_reverse] at hblank
      exact hblank c hc
    rw [hall _ (List.head_mem hne)] at hhead
    cases hhead
  simp [strip, hnil]

/-- A whole number that a double holds exactly. -/
theorem toDouble_natCast {n : Nat} (hpos : 0 < n) (hlt : n < 2 ^ 53) : toDouble false n = .fin n := by
  have hlarge : n + 2 ^ 970 < 2 ^ 1024 :=
    (Nat.add_lt_add_right hlt _).trans_le (by decide +kernel : 2 ^ 53 + 2 ^ 970 ≤ 2 ^ 1024)
  have hsmall : 1 < n * 2 ^ 1075 :=
    (by decide +kernel : 1 < 1 * 2 ^ 1075).trans_le (Nat.mul_le_mul_right _ hpos)
  have hlarge' : (n : ℚ) + 2 ^ 970 < 2 ^ 1024 := by exact_mod_cast hlarge
  have hsmall' : (1 : ℚ) < n * 2 ^ 1075 := by exact_mod_cast hsmall
  unfold toDouble
  rw [if_neg (not_le.mpr (lt_sub_iff_add_lt.mpr hlarge')), if_neg (not_le.mpr hsmall')]
  rfl

/-! ### ASCII digits -/

/-- The ASCII digits are digits with their own value. -/
theorem asciiDigit_of_isDigit {c : Char} (h : c.isDigit = true) : asciiDigit c = c := by
  have hrange : 48 ≤ c.toNat ∧ c.toNat ≤ 57 := Char.isDigit_iff_toNat.mp h
  have hvalue : decimalValue? c = some (c.toNat - 48) := by
    have hfirst : decimalZeros = 48 :: decimalZeros.tail := rfl
    rw [decimalValue?, hfirst, List.find?_cons_of_pos (by simp; omega)]
    rfl
  have hall : ∀ n : Nat, n ≤ 57 → 48 ≤ n → (n - 48).digitChar = Char.ofNat n := by decide
  rw [asciiDigit, hvalue]
  exact (hall c.toNat hrange.2 hrange.1).trans (Char.ofNat_toNat c)

theorem isDigit_not_space {c : Char} (h : c.isDigit = true) : isSpace c = false := by
  have hrange : 48 ≤ c.toNat ∧ c.toNat ≤ 57 := Char.isDigit_iff_toNat.mp h
  simp only [isSpace, Bool.or_eq_false_iff, Bool.and_eq_false_iff, decide_eq_false_iff_not, beq_eq_false_iff_ne]
  omega

section Digits

variable {ds : List Char} (hds : ∀ c ∈ ds, c.isDigit = true)

include hds

theorem strip_digits : (strip (String.ofList ds)).toList = ds := by
  have hkeep : ∀ l : List Char, (∀ c ∈ l, c.isDigit = true) → l.dropWhile isSpace = l := by
    intro l hl
    cases l with
    | nil => rfl
    | cons c rest => rw [List.dropWhile_cons_of_neg (by simp [isDigit_not_space (hl c (by simp))])]
  simp only [strip, String.toList_ofList]
  rw [hkeep ds hds, hkeep ds.reverse fun c hc => hds c (List.mem_reverse.mp hc), List.reverse_reverse]

theorem underscores_digits {prev : Char} (hprev : prev ≠ '_') :
    underscoresBetweenDigits prev ds = true := by
  induction ds generalizing prev with
  | nil => simpa [underscoresBetweenDigits] using hprev
  | cons c rest ih =>
    have hc := hds c (by simp)
    have hne : c ≠ '_' := by rintro rfl; revert hc; decide
    simp [underscoresBetweenDigits, hne, hprev, ih (fun d hd => hds d (by simp [hd])) hne]

theorem map_asciiDigit_digits : ds.map asciiDigit = ds :=
  (List.map_congr_left fun c hc => asciiDigit_of_isDigit (hds c hc)).trans (List.map_id ds)

theorem filter_digits : ds.filter (· ≠ '_') = ds := by
  apply List.filter_eq_self.mpr
  intro c hc
  have := hds c hc
  rw [decide_eq_true_eq]
  rintro rfl
  revert this
  decide

theorem splitSign_digits : splitSign ds = (false, ds) := by
  cases ds with
  | nil => rfl
  | cons c rest =>
    have hc := hds c (by simp)
    unfold splitSign
    split
    · rename_i heq; cases heq; exact absurd hc (by decide)
    · rename_i heq; cases heq; exact absurd hc (by decide)
    · rfl

theorem toInt?_digits (hne : ds ≠ []) : toInt? (String.ofList ds) = some (digitsValue ds : Int) := by
  have hall : ds.all Char.isDigit = true := List.all_eq_true.mpr hds
  unfold toInt?
  simp only [strip_digits hds, map_asciiDigit_digits hds, filter_digits hds, splitSign_digits hds,
    underscores_digits hds (by decide : ' ' ≠ '_'), hall]
  simp [hne]

/-- A text of digits is no word. -/
theorem ne_word_of_digits (word : String) (c : Char) (hc : c ∈ word.toList) (hletter : c.isDigit = false) :
    String.ofList (ds.map Char.toLower) ≠ word := by
  intro hword
  rw [← hword, String.toList_ofList, List.mem_map] at hc
  obtain ⟨d, hd, rfl⟩ := hc
  have hdigit := hds d hd
  have hlower : d.toLower = d := by
    have hrange : 48 ≤ d.toNat ∧ d.toNat ≤ 57 := Char.isDigit_iff_toNat.mp hdigit
    unfold Char.toLower
    rw [dif_neg]
    intro hupper
    have hle : 65 ≤ d.toNat := hupper.1
    omega
  rw [hlower, hdigit] at hletter
  cases hletter

theorem magnitude?_digits (hne : ds ≠ []) : magnitude? ds = some (digitsValue ds : ℚ) := by
  have hspan : ds.span Char.isDigit = (ds, []) := by
    rw [List.span_eq_takeWhile_dropWhile, List.takeWhile_eq_self_iff.mpr hds,
      List.dropWhile_eq_nil_iff.mpr hds]
  unfold magnitude?
  rw [hspan]
  simp [splitFraction, exponent?, hne]

/-- `float` of the digits of a number that a double holds exactly. -/
theorem toFloat?_digits (hne : ds ≠ []) (hpos : 0 < digitsValue ds) (hlt : digitsValue ds < 2 ^ 53) :
    toFloat? (String.ofList ds) = some (.fin (digitsValue ds)) := by
  unfold toFloat?
  simp only [strip_digits hds, map_asciiDigit_digits hds, filter_digits hds, splitSign_digits hds,
    underscores_digits hds (by decide : ' ' ≠ '_'), magnitude?_digits hds hne, Bool.not_true,
    Bool.false_eq_true, if_false,
    ne_word_of_digits hds "inf" 'i' (by decide) (by decide),
    ne_word_of_digits hds "infinity" 'i' (by decide) (by decide),
    ne_word_of_digits hds "nan" 'n' (by decide) (by decide), or_self]
  rw [Option.map_some, toDouble_natCast hpos hlt]

end Digits

/-- `int(str(n))`. -/
theorem toInt?_toString (n : Nat) : toInt? (toString (n : Int)) = some (n : Int) := by
  have htext : toString (n : Int) = String.ofList (Nat.toDigits 10 n) := by
    rw [Int.toString_eq_repr, Int.repr_eq_if, if_pos (by omega), Int.toNat_natCast, Nat.repr_eq_ofList_toDigits]
  rw [htext, toInt?_digits (fun c hc => Nat.isDigit_of_mem_toDigits (by decide) (by decide) hc)
    Nat.toDigits_ne_nil]
  have hvalue : digitsValue (Nat.toDigits 10 n) = n := Nat.ofDigitChars_ten_toDigits
  rw [hvalue]

end Text

end AutoTrader
