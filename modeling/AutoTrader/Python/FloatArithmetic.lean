/-
  AutoTrader/Python/FloatArithmetic.lean
  ======================================
  **Arithmetic on floats.**

  Sums, products and quotients with the infinities and the NaN as IEEE 754 has them; between
  finite numbers they are exact.  A division by zero raises in Python, so a quotient is only
  asked for where its divisor is not zero.
-/
import AutoTrader.Python.Values

namespace AutoTrader

namespace PyFloat

/-- `x + y`. -/
def plus : PyFloat → PyFloat → PyFloat
  | .fin a, .fin b => .fin (a + b)
  | .nan, _ | _, .nan => .nan
  | .posInf, .negInf | .negInf, .posInf => .nan
  | .posInf, _ | _, .posInf => .posInf
  | .negInf, _ | _, .negInf => .negInf

/-- `-x`. -/
def negated : PyFloat → PyFloat
  | .fin a => .fin (-a)
  | .nan => .nan
  | .posInf => .negInf
  | .negInf => .posInf

/-- `x - y`. -/
def minus (x y : PyFloat) : PyFloat := x.plus y.negated

/-- `x * n`. -/
def times (x : PyFloat) (n : Int) : PyFloat :=
  match x with
  | .fin a => .fin (a * n)
  | .nan => .nan
  | infinite => if 0 < n then infinite else if n < 0 then infinite.negated else .nan

/-- `x / n` for an `n` that is not zero. -/
def dividedBy (x : PyFloat) (n : Int) : PyFloat :=
  match x with
  | .fin a => .fin (a / n)
  | .nan => .nan
  | infinite => if 0 < n then infinite else infinite.negated

/-- `x * y`. -/
def mul : PyFloat → PyFloat → PyFloat
  | .fin a, .fin b => .fin (a * b)
  | .nan, _ | _, .nan => .nan
  | .fin a, y => if 0 < a then y else if a < 0 then y.negated else .nan
  | x, .fin b => if 0 < b then x else if b < 0 then x.negated else .nan
  | .posInf, y => y
  | .negInf, y => y.negated

/-- `x / y` for a `y` that is not zero. -/
def quot : PyFloat → PyFloat → PyFloat
  | .fin a, .fin b => .fin (a / b)
  | .nan, _ | _, .nan => .nan
  | .fin _, _ => .fin 0
  | x, .fin b => if 0 < b then x else x.negated
  | _, _ => .nan

@[simp] theorem plus_fin (a b : ℚ) : (fin a).plus (fin b) = fin (a + b) := rfl

@[simp] theorem minus_fin (a b : ℚ) : (fin a).minus (fin b) = fin (a - b) := by
  rw [sub_eq_add_neg]
  rfl

@[simp] theorem times_fin (a : ℚ) (n : Int) : (fin a).times n = fin (a * n) := rfl

@[simp] theorem dividedBy_fin (a : ℚ) (n : Int) : (fin a).dividedBy n = fin (a / n) := rfl

@[simp] theorem mul_fin (a b : ℚ) : (fin a).mul (fin b) = fin (a * b) := rfl

@[simp] theorem quot_fin (a b : ℚ) : (fin a).quot (fin b) = fin (a / b) := rfl

/-- `sum(values)`. -/
def sum (values : List PyFloat) : PyFloat := values.foldl plus (.fin 0)

theorem foldl_plus_fin (qs : List ℚ) (start : ℚ) :
    (qs.map fin).foldl plus (.fin start) = .fin (start + qs.sum) := by
  induction qs generalizing start with
  | nil => simp
  | cons q rest ih =>
    simp only [List.map_cons, List.foldl_cons, plus_fin, List.sum_cons]
    rw [ih, add_assoc]

/-- The sum of finite floats is the float of their sum. -/
@[simp] theorem sum_fin (qs : List ℚ) : sum (qs.map fin) = .fin qs.sum := by
  rw [sum, foldl_plus_fin, zero_add]

end PyFloat

end AutoTrader
