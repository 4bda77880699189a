import Mathlib.Algebra.Field.Basic
import Mathlib.Tactic.FieldSimp
import Mathlib.Tactic.LinearCombination
import Mathlib.Tactic.Ring

/-!
# Stock at average cost

A stock is bought and sold in lots.  Its cost grows by what is paid and falls, with every
sale, by what the sold lot cost at the average of the moment.  A bookkeeper who keeps the
average instead of the cost has the same stock (`Stock.At.buy`, `Stock.At.sell`).

A third way to price a stock is the average over all purchases.  It agrees with the
average cost exactly when the lots sold cost what they would cost at that average
(`average_eq_iff`).
-/

namespace AverageCost

variable {F : Type} [Field F]

inductive Trade (F : Type) where
  | buy (quantity price : F)
  | sell (quantity : F)

structure Stock (F : Type) where
  quantity : F
  cost : F

namespace Stock

def empty : Stock F := ⟨0, 0⟩

def average (s : Stock F) : F := s.cost / s.quantity

def trade (s : Stock F) : Trade F → Stock F
  | .buy n p => ⟨s.quantity + n, s.cost + n * p⟩
  | .sell n => ⟨s.quantity - n, s.cost - s.average * n⟩

/-- The stock is held at an average. -/
structure At (s : Stock F) (quantity average : F) : Prop where
  quantity_eq : s.quantity = quantity
  cost_eq : s.cost = quantity * average

theorem At.average_eq {s : Stock F} {q a : F} (h : s.At q a) (hq : q ≠ 0) : s.average = a := by
  rw [average, h.cost_eq, h.quantity_eq, mul_div_cancel_left₀ a hq]

/-- A purchase moves the average. -/
theorem At.buy {s : Stock F} {q a : F} (h : s.At q a) {n p : F} (hn : q + n ≠ 0) :
    (s.trade (.buy n p)).At (q + n) ((q * a + n * p) / (q + n)) where
  quantity_eq := congrArg (· + n) h.quantity_eq
  cost_eq := by
    rw [mul_div_cancel₀ _ hn, ← h.cost_eq]
    rfl

/-- A sale leaves the average. -/
theorem At.sell {s : Stock F} {q a : F} (h : s.At q a) (hq : q ≠ 0) (n : F) : (s.trade (.sell n)).At (q - n) a where
  quantity_eq := congrArg (· - n) h.quantity_eq
  cost_eq := by
    have hcost : (s.trade (.sell n)).cost = s.cost - s.average * n := rfl
    rw [hcost, h.average_eq hq, h.cost_eq]
    ring

end Stock

/-! ### Histories -/

/-- The stock after a history, from nothing. -/
def stockOf (trades : List (Trade F)) : Stock F := trades.foldl Stock.trade .empty

/-- The lots bought. -/
def bought : List (Trade F) → F
  | [] => 0
  | .buy n _ :: rest => n + bought rest
  | .sell _ :: rest => bought rest

/-- What they cost. -/
def paid : List (Trade F) → F
  | [] => 0
  | .buy n p :: rest => n * p + paid rest
  | .sell _ :: rest => paid rest

/-- The lots sold. -/
def sold : List (Trade F) → F
  | [] => 0
  | .buy _ _ :: rest => sold rest
  | .sell n :: rest => n + sold rest

/-- What the lots sold cost, each at the average of the stock it was sold from. -/
def soldCost (s : Stock F) : List (Trade F) → F
  | [] => 0
  | .buy n p :: rest => soldCost (s.trade (.buy n p)) rest
  | .sell n :: rest => s.average * n + soldCost (s.trade (.sell n)) rest

theorem stockOf_append (trades : List (Trade F)) (t : Trade F) :
    stockOf (trades ++ [t]) = (stockOf trades).trade t := by
  rw [stockOf, List.foldl_append]
  rfl

theorem foldl_trade (s : Stock F) (trades : List (Trade F)) :
    (trades.foldl Stock.trade s).quantity = s.quantity + bought trades - sold trades ∧
      (trades.foldl Stock.trade s).cost = s.cost + paid trades - soldCost s trades := by
  induction trades generalizing s with
  | nil => simp [bought, sold, paid, soldCost]
  | cons t rest ih =>
    obtain ⟨hquantity, hcost⟩ := ih (s.trade t)
    rw [List.foldl_cons, hquantity, hcost]
    cases t with
    | buy n p =>
      simp only [bought, sold, paid, soldCost]
      refine ⟨?_, ?_⟩ <;> dsimp only [Stock.trade] <;> ring
    | sell n =>
      simp only [bought, sold, paid, soldCost]
      refine ⟨?_, ?_⟩ <;> dsimp only [Stock.trade] <;> ring

/-- The totals do not depend on the order. -/
theorem totals_perm {trades trades' : List (Trade F)} (h : trades.Perm trades') :
    bought trades = bought trades' ∧ paid trades = paid trades' ∧ sold trades = sold trades' := by
  induction h with
  | nil => exact ⟨rfl, rfl, rfl⟩
  | cons t _ ih =>
    obtain ⟨hbought, hpaid, hsold⟩ := ih
    cases t <;> simp only [bought, paid, sold, hbought, hpaid, hsold, and_self]
  | swap t t' rest => cases t <;> cases t' <;> simp only [bought, paid, sold, add_left_comm, and_self]
  | trans _ _ ih ih' => exact ⟨ih.1.trans ih'.1, ih.2.1.trans ih'.2.1, ih.2.2.trans ih'.2.2⟩

/-- What is left, and what it cost. -/
theorem stockOf_eq (trades : List (Trade F)) :
    (stockOf trades).quantity = bought trades - sold trades ∧
      (stockOf trades).cost = paid trades - soldCost .empty trades := by
  obtain ⟨hquantity, hcost⟩ := foldl_trade .empty trades
  rw [stockOf, hquantity, hcost]
  exact ⟨by rw [Stock.empty, zero_add], by rw [Stock.empty, zero_add]⟩

/-- The average cost is the average over all purchases exactly when the lots sold cost what they would
    cost at that average. -/
theorem average_eq_iff {trades : List (Trade F)} (hbought : bought trades ≠ 0)
    (hleft : (stockOf trades).quantity ≠ 0) :
    (stockOf trades).average = paid trades / bought trades ↔
      soldCost .empty trades * bought trades = sold trades * paid trades := by
  obtain ⟨hquantity, hcost⟩ := stockOf_eq trades
  rw [Stock.average, div_eq_div_iff hleft hbought, hquantity, hcost]
  constructor
  · intro h
    linear_combination -h
  · intro h
    linear_combination -h

end AverageCost
