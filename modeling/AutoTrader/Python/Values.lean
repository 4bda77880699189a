/-
  AutoTrader/Python/Values.lean
  =============================
  **The Python values the storage layer validates.**

  Numeric arguments reach `Database` as `bool`, `int` or `float` and the
  validators tell them apart with `isinstance`, so the three are constructors of
  one type.  A `float` is an exact rational, a NaN or an infinity: rounding is
  not modelled, the special values are, since the validators exclude them.

  Texts are Lean strings.  `strip`, `isdigit` and `upper` follow the Unicode
  tables of Python 3.11.
-/
import Mathlib.Data.Rat.Defs
import Mathlib.Algebra.Order.Ring.Rat

namespace AutoTrader

/-! ### Numbers -/

/-- A Python `float` with exact finite values. -/
inductive PyFloat where
  | fin (q : ℚ)
  | nan
  | posInf
  | negInf
deriving DecidableEq

namespace PyFloat

/-- `<` on floats: false as soon as one side is a NaN. -/
def lt : PyFloat → PyFloat → Bool
  | .fin a, .fin b => a < b
  | .fin _, .posInf => true
  | .negInf, .fin _ => true
  | .negInf, .posInf => true
  | _, _ => false

/-- `<=` on floats. -/
def le : PyFloat → PyFloat → Bool
  | .nan, _ => false
  | _, .nan => false
  | a, b => !lt b a

/-- `x <= 0`; a NaN is not. -/
def nonpos : PyFloat → Bool
  | .fin q => q ≤ 0
  | .negInf => true
  | _ => false

/-- `x * n` for a positive `int`. -/
def scale (x : PyFloat) (n : Int) : PyFloat :=
  match x with
  | .fin q => .fin (q * n)
  | other => other

/-- `x - q` for a finite `q`. -/
def sub (x : PyFloat) (q : ℚ) : PyFloat :=
  match x with
  | .fin a => .fin (a - q)
  | other => other

/-- `x / n` for a positive `int`. -/
def div (x : PyFloat) (n : Int) : PyFloat :=
  match x with
  | .fin a => .fin (a / n)
  | other => other

/-- `bool(x)`: only zero is false. -/
def truthy : PyFloat → Bool
  | .fin q => q ≠ 0
  | _ => true

end PyFloat

/-- A numeric argument as `isinstance` sees it. -/
inductive Number where
  | bool (b : Bool)
  | int (n : Int)
  | float (x : PyFloat)
deriving DecidableEq

/-- A positive rational, the value of every price that passed validation. -/
structure PosRat where
  val : ℚ
  pos : 0 < val
deriving DecidableEq

namespace PosRat

/-- A whole number of won as a price. -/
def ofNat (n : Nat) (h : 0 < n) : PosRat := ⟨n, by exact_mod_cast h⟩

end PosRat

/-- A finite price above zero. -/
def PyFloat.price? : PyFloat → Option PosRat
  | .fin q => if h : 0 < q then some ⟨q, h⟩ else none
  | _ => none

theorem PyFloat.price?_eq_some {x : PyFloat} {p : PosRat} (h : x.price? = some p) : x = .fin p.val := by
  cases x with
  | fin q =>
    simp only [price?, Option.dite_none_right_eq_some, Option.some.injEq] at h
    obtain ⟨_, rfl⟩ := h
    rfl
  | nan => cases h
  | posInf => cases h
  | negInf => cases h

theorem PyFloat.price?_fin (p : PosRat) : (PyFloat.fin p.val).price? = some p := by
  simp [price?, p.pos]

/-- The finite positive value that `_validate_positive_number` lets through. -/
def Number.positive? : Number → Option PosRat
  | .bool _ => none
  | .int n => if h : (0 : ℚ) < n then some ⟨n, h⟩ else none
  | .float (.fin q) => if h : 0 < q then some ⟨q, h⟩ else none
  | .float _ => none

/-- The value of a number in a comparison with a `float`. -/
def Number.value : Number → PyFloat
  | .bool b => .fin (if b then 1 else 0)
  | .int n => .fin n
  | .float x => x

theorem Number.value_of_positive? {n : Number} {q : PosRat} (h : n.positive? = some q) :
    n.value = .fin q.val := by
  cases n with
  | bool b => cases h
  | int n =>
    simp only [Number.positive?] at h
    split at h
    · cases h; rfl
    · cases h
  | float x =>
    cases x with
    | fin r =>
      simp only [Number.positive?] at h
      split at h
      · cases h; rfl
      · cases h
    | nan => cases h
    | posInf => cases h
    | negInf => cases h

/-- `value <= 0`; a NaN is not. -/
def Number.nonpos : Number → Bool
  | .bool b => !b
  | .int n => n ≤ 0
  | .float x => x.nonpos

/-! ### Texts -/

namespace Text

/-- `str.isspace` for one character. -/
def isSpace (c : Char) : Bool :=
  let n := c.toNat
  (0x9 ≤ n && n ≤ 0xd) || (0x1c ≤ n && n ≤ 0x20) || n == 0x85 || n == 0xa0 || n == 0x1680 ||
  (0x2000 ≤ n && n ≤ 0x200a) || n == 0x2028 || n == 0x2029 || n == 0x202f || n == 0x205f ||
  n == 0x3000

/-- `str.strip()`. -/
def strip (s : String) : String :=
  String.ofList ((s.toList.dropWhile isSpace).reverse.dropWhile isSpace).reverse

/-- `not value.strip()`. -/
def blank (s : String) : Bool := s.toList.all isSpace

theorem blank_append (a b : String) : blank (a ++ b) = (blank a && blank b) := by
  simp [blank]

/-- The zeros of the Unicode decimal digits; the other nine follow each of them. -/
def decimalZeros : List Nat :=
  [0x30, 0x660, 0x6f0, 0x7c0, 0x966, 0x9e6, 0xa66, 0xae6, 0xb66, 0xbe6, 0xc66, 0xce6, 0xd66, 0xde6,
   0xe50, 0xed0, 0xf20, 0x1040, 0x1090, 0x17e0, 0x1810, 0x1946, 0x19d0, 0x1a80, 0x1a90, 0x1b50,
   0x1bb0, 0x1c40, 0x1c50, 0xa620, 0xa8d0, 0xa900, 0xa9d0, 0xa9f0, 0xaa50, 0xabf0, 0xff10, 0x104a0,
   0x10d30, 0x11066, 0x110f0, 0x11136, 0x111d0, 0x112f0, 0x11450, 0x114d0, 0x11650, 0x116c0,
   0x11730, 0x118e0, 0x11950, 0x11c50, 0x11d50, 0x11da0, 0x16a60, 0x16ac0, 0x16b50, 0x1d7ce,
   0x1d7d8, 0x1d7e2, 0x1d7ec, 0x1d7f6, 0x1e140, 0x1e2f0, 0x1e950, 0x1fbf0]

/-- The digits that are not decimal (superscripts, circled digits, ...): `isdigit`
    accepts them and `int()` does not. -/
def otherDigits : List (Nat × Nat) :=
  [(0xb2, 0xb3), (0xb9, 0xb9), (0x1369, 0x1371), (0x19da, 0x19da), (0x2070, 0x2070),
   (0x2074, 0x2079), (0x2080, 0x2089), (0x2460, 0x2468), (0x2474, 0x247c), (0x2488, 0x2490),
   (0x24ea, 0x24ea), (0x24f5, 0x24fd), (0x24ff, 0x24ff), (0x2776, 0x277e), (0x2780, 0x2788),
   (0x278a, 0x2792), (0x10a40, 0x10a43), (0x10e60, 0x10e68), (0x11052, 0x1105a), (0x1f100, 0x1f10a)]

/-- The value of a decimal digit. -/
def decimalValue? (c : Char) : Option Nat :=
  (decimalZeros.find? fun z => z ≤ c.toNat && c.toNat < z + 10).map (c.toNat - ·)

/-- `str.isdigit` for one character. -/
def isDigitChar (c : Char) : Bool :=
  (decimalValue? c).isSome || otherDigits.any fun r => r.1 ≤ c.toNat && c.toNat ≤ r.2

/-- `str.isdigit()`. -/
def isdigit (s : String) : Bool := s.toList != [] && s.toList.all isDigitChar

/-- No digit is a space. -/
theorem isSpace_of_isDigitChar {c : Char} (h : isDigitChar c = true) : isSpace c = false := by
  by_contra hspace
  rw [Bool.not_eq_false] at hspace
  let spaces : List Nat := [0x9, 0xa, 0xb, 0xc, 0xd, 0x1c, 0x1d, 0x1e, 0x1f, 0x20, 0x85, 0xa0, 0x1680,
    0x2000, 0x2001, 0x2002, 0x2003, 0x2004, 0x2005, 0x2006, 0x2007, 0x2008, 0x2009, 0x200a, 0x2028,
    0x2029, 0x202f, 0x205f, 0x3000]
  have hmem : c.toNat ∈ spaces := by
    simp only [isSpace, Bool.or_eq_true, Bool.and_eq_true, decide_eq_true_eq, beq_iff_eq] at hspace
    simp only [spaces, List.mem_cons, List.not_mem_nil, or_false]
    omega
  have hno : ∀ n ∈ spaces, (∀ z ∈ decimalZeros, ¬(z ≤ n && n < z + 10) = true) ∧
      (otherDigits.any fun r => r.1 ≤ n && n ≤ r.2) = false := by decide
  obtain ⟨hzero, hother⟩ := hno _ hmem
  have hnone : decimalValue? c = none := by
    rw [decimalValue?, List.find?_eq_none.mpr hzero, Option.map_none]
  rw [isDigitChar, hnone, hother] at h
  cases h

theorem blank_of_isdigit {s : String} (h : isdigit s = true) : blank s = false := by
  unfold isdigit at h
  rw [Bool.and_eq_true] at h
  obtain ⟨hne, hall⟩ := h
  unfold blank
  cases hs : s.toList with
  | nil => rw [hs] at hne; cases hne
  | cons c cs =>
    rw [hs] at hall
    have hc := isSpace_of_isDigitChar (List.all_eq_true.mp hall c List.mem_cons_self)
    simp [hc]

/-- `int(s)` for a text of digits; `none` is its `ValueError`. -/
def toNat? (s : String) : Option Nat :=
  s.toList.foldl (fun acc c => do pure (10 * (← acc) + (← decimalValue? c))) (some 0)

/-- `str.upper` on the characters whose upper case is a letter of `BUY` or `SELL`:
    the ASCII letters and the long s.  Every other character upper-cases to
    something that contains no match for either word. -/
def upperChar (c : Char) : Char := if c.toNat == 0x17f then 'S' else c.toUpper

/-- `value.strip().lower() in words`, for words of ASCII letters and digits. -/
def isWord (words : List String) (s : String) : Bool :=
  words.contains (String.ofList ((strip s).toList.map Char.toLower))

/-! ### Decimal texts -/

/-- The text of a natural number determines it. -/
theorem repr_nat_injective {m n : Nat} (h : m.repr = n.repr) : m = n := by
  have hdigits : Nat.toDigits 10 m = Nat.toDigits 10 n := by
    rw [← Nat.toList_repr, ← Nat.toList_repr, h]
  rw [← Nat.ofDigitChars_ten_toDigits (n := m), hdigits, Nat.ofDigitChars_ten_toDigits]

theorem isDigit_of_mem_repr {n : Nat} {c : Char} (h : c ∈ n.repr.toList) : c.isDigit = true := by
  rw [Nat.toList_repr] at h
  exact Nat.isDigit_of_mem_toDigits (by decide) (by decide) h

/-- A text of digits does not start with a sign. -/
theorem repr_nat_ne_minus (m n : Nat) : m.repr ≠ "-" ++ n.repr := by
  intro h
  have hmem : '-' ∈ m.repr.toList := by rw [h]; simp
  have := isDigit_of_mem_repr hmem
  revert this
  decide

/-- The text of an `int` determines it. -/
theorem toString_int_injective {m n : Int} (h : toString m = toString n) : m = n := by
  rw [Int.toString_eq_repr, Int.toString_eq_repr, Int.repr_eq_if, Int.repr_eq_if] at h
  split at h <;> split at h
  · have := repr_nat_injective h; omega
  · exact absurd h (repr_nat_ne_minus _ _)
  · exact absurd h.symm (repr_nat_ne_minus _ _)
  · have := repr_nat_injective ((String.append_right_inj "-").mp h); omega

theorem colon_notMem_int (n : Int) : ':' ∉ (toString n).toList := by
  intro h
  rw [Int.toString_eq_repr, Int.repr_eq_if] at h
  have hdigit : ∀ m : Nat, ':' ∉ m.repr.toList := by
    intro m hm
    have := isDigit_of_mem_repr hm
    revert this
    decide
  split at h
  · exact hdigit _ h
  · rw [String.toList_append, List.mem_append] at h
    rcases h with h | h
    · revert h; decide
    · exact hdigit _ h

/-- A text is cut at its last colon in one way. -/
theorem append_colon_inj {front front' back back' : String} (hb : ':' ∉ back.toList)
    (hb' : ':' ∉ back'.toList) (h : front ++ ":" ++ back = front' ++ ":" ++ back') :
    front = front' ∧ back = back' := by
  have hlist : front.toList ++ ':' :: back.toList = front'.toList ++ ':' :: back'.toList := by
    have := congrArg String.toList h
    simpa using this
  rcases List.append_eq_append_iff.mp hlist with ⟨mid, hf, hrest⟩ | ⟨mid, hf, hrest⟩
  · cases mid with
    | nil =>
      simp only [List.append_nil, List.nil_append, List.cons.injEq, true_and] at hf hrest
      exact ⟨(String.toList_inj.mp hf).symm, String.toList_inj.mp hrest⟩
    | cons c mid =>
      simp only [List.cons_append, List.cons.injEq] at hrest
      exact absurd (by rw [hrest.2]; simp) hb
  · cases mid with
    | nil =>
      simp only [List.append_nil, List.nil_append, List.cons.injEq, true_and] at hf hrest
      exact ⟨String.toList_inj.mp hf, (String.toList_inj.mp hrest).symm⟩
    | cons c mid =>
      simp only [List.cons_append, List.cons.injEq] at hrest
      exact absurd (by rw [hrest.2]; simp) hb'

end Text

/-- The truth value of an optional text: `None` and `""` are false. -/
def truthy (s : Option String) : Bool := (s.getD "") != ""

/-! ### Exceptions -/

/-- The exceptions the modelled code raises or receives. -/
inductive Exn where
  | valueError (message : String)
  | typeError (message : String)
  | integrityError (message : String)
  | orderSafetyGateError (message : String)
  | kisHttpError (statusCode : Int) (details : List (String × String))
  | other (typeName message : String)
deriving DecidableEq

namespace Exn

/-- `type(exc).__name__`. -/
def typeName : Exn → String
  | .valueError _ => "ValueError"
  | .typeError _ => "TypeError"
  | .integrityError _ => "IntegrityError"
  | .orderSafetyGateError _ => "OrderSafetyGateError"
  | .kisHttpError _ _ => "KisHttpError"
  | .other name _ => name

/-- `str(exc)`. -/
def message : Exn → String
  | .valueError m => m
  | .typeError m => m
  | .integrityError m => m
  | .orderSafetyGateError m => m
  | .kisHttpError code details =>
    let shown := details.filterMap fun (key, value) =>
      if value == "" then none else some (key ++ "=" ++ value)
    "KIS HTTP " ++ toString code ++
      (if shown == [] then "" else " (" ++ " ".intercalate shown ++ ")")
  | .other _ m => m

end Exn

/-! ### Results -/

theorem Except.bind_eq_ok {α β : Type} {x : Except Exn α} {f : α → Except Exn β} {b : β}
    (h : (x >>= f) = .ok b) : ∃ a, x = .ok a ∧ f a = .ok b := by
  cases x with
  | error e => cases h
  | ok a => exact ⟨a, rfl, h⟩

theorem Except.eq_ok_of_toOption {ε α : Type} {x : Except ε α} {a : α} (h : x.toOption = some a) :
    x = .ok a := by
  cases x with
  | error e => cases h
  | ok b => cases h; rfl

/-- The exception, if one was raised. -/
def Except.exn? {α : Type} : Except Exn α → Option Exn
  | .error e => some e
  | .ok _ => none

theorem Except.eq_error_of_exn? {α : Type} {x : Except Exn α} {e : Exn} (h : Except.exn? x = some e) :
    x = .error e := by
  cases x with
  | error e' => cases h; rfl
  | ok a => cases h

end AutoTrader
