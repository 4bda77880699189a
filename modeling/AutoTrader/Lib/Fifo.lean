import Mathlib.Algebra.BigOperators.Group.List.Basic
import Mathlib.Algebra.BigOperators.Group.Finset.Piecewise
import Mathlib.Algebra.GroupWithZero.Nat
import Mathlib.Data.List.Infix

/-!
# First in, first out

Inventory is a queue of lots for each key, a lot being so many units that were bought on
the same terms.  A sale takes units from the front of its queue and leaves one matched
piece for every lot it touches.

A queue says more than it has to: what it stands for is the sequence of its units, and on
units a sale is `List.take` and `List.drop`.  That gives the conservation law, and what a
sale costs.  Cutting a lot or a sale in two cuts at most one matched piece in two.
-/

namespace Fifo

variable {κ α β γ : Type}

/-- Lots in the order they were bought: a number of units, and their terms. -/
abbrev Lots (α : Type) := List (Nat × α)

/-- The units of a queue, one by one. -/
def units (lots : Lots α) : List α := lots.flatMap fun lot => List.replicate lot.1 lot.2

def total (lots : Lots α) : Nat := (lots.map Prod.fst).sum

/-- Takes units from the front: the matched pieces and the lots that are left, or `none`
    when the queue holds fewer units. -/
def take : Nat → Lots α → Option (Lots α × Lots α)
  | 0, lots => some ([], lots)
  | _ + 1, [] => none
  | n + 1, (q, a) :: rest =>
    if n + 1 < q then some ([(n + 1, a)], (q - (n + 1), a) :: rest)
    else (take (n + 1 - q) rest).map fun (pieces, left) => ((q, a) :: pieces, left)

@[simp] theorem units_nil : units ([] : Lots α) = [] := rfl

@[simp] theorem units_cons (lot : Nat × α) (rest : Lots α) :
    units (lot :: rest) = List.replicate lot.1 lot.2 ++ units rest := rfl

@[simp] theorem units_append (xs ys : Lots α) : units (xs ++ ys) = units xs ++ units ys :=
  List.flatMap_append

@[simp] theorem total_nil : total ([] : Lots α) = 0 := rfl

@[simp] theorem total_cons (lot : Nat × α) (rest : Lots α) : total (lot :: rest) = lot.1 + total rest := rfl

@[simp] theorem total_append (xs ys : Lots α) : total (xs ++ ys) = total xs + total ys := by
  simp [total]

@[simp] theorem length_units (lots : Lots α) : (units lots).length = total lots := by
  induction lots with
  | nil => rfl
  | cons lot rest ih => simp [ih]

@[simp] theorem take_zero (lots : Lots α) : take 0 lots = some ([], lots) := by
  cases lots <;> rfl

theorem take_nil {n : Nat} (hn : 0 < n) : take n ([] : Lots α) = none := by
  obtain ⟨n, rfl⟩ := Nat.exists_eq_succ_of_ne_zero hn.ne'
  rfl

theorem take_of_lt {n q : Nat} (a : α) (rest : Lots α) (hn : 0 < n) (hlt : n < q) :
    take n ((q, a) :: rest) = some ([(n, a)], (q - n, a) :: rest) := by
  obtain ⟨n, rfl⟩ := Nat.exists_eq_succ_of_ne_zero hn.ne'
  exact if_pos hlt

theorem take_of_le {n q : Nat} (a : α) (rest : Lots α) (hn : 0 < n) (hle : q ≤ n) :
    take n ((q, a) :: rest) =
      (take (n - q) rest).map fun (pieces, left) => ((q, a) :: pieces, left) := by
  obtain ⟨n, rfl⟩ := Nat.exists_eq_succ_of_ne_zero hn.ne'
  exact if_neg (Nat.not_lt.mpr hle)

/-- What can happen when units are taken: nothing is wanted, the first lot is more than
    enough, or it is used up and the rest comes from behind it. -/
theorem take_cases {n : Nat} {lots pieces left : Lots α} (h : take n lots = some (pieces, left)) :
    (n = 0 ∧ pieces = [] ∧ left = lots) ∨
      ∃ q a rest, lots = (q, a) :: rest ∧ 0 < n ∧
        ((n < q ∧ pieces = [(n, a)] ∧ left = (q - n, a) :: rest) ∨
          (q ≤ n ∧ ∃ more, take (n - q) rest = some (more, left) ∧ pieces = (q, a) :: more)) := by
  rcases Nat.eq_zero_or_pos n with rfl | hn
  · rw [take_zero] at h
    cases h
    exact .inl ⟨rfl, rfl, rfl⟩
  refine .inr ?_
  rcases lots with _ | ⟨⟨q, a⟩, rest⟩
  · rw [take_nil hn] at h
    cases h
  refine ⟨q, a, rest, rfl, hn, ?_⟩
  rcases Nat.lt_or_ge n q with hlt | hle
  · rw [take_of_lt a rest hn hlt] at h
    cases h
    exact .inl ⟨hlt, rfl, rfl⟩
  · rw [take_of_le a rest hn hle, Option.map_eq_some_iff] at h
    obtain ⟨⟨more, left'⟩, hmore, heq⟩ := h
    cases heq
    exact .inr ⟨hle, more, hmore, rfl⟩

/-- A sale goes through exactly when the queue holds enough units. -/
theorem take_isSome_iff {n : Nat} {lots : Lots α} : (take n lots).isSome ↔ n ≤ total lots := by
  induction lots generalizing n with
  | nil =>
    rcases Nat.eq_zero_or_pos n with rfl | hn
    · simp
    · simp [take_nil hn]
      omega
  | cons lot rest ih =>
    obtain ⟨q, a⟩ := lot
    rcases Nat.eq_zero_or_pos n with rfl | hn
    · simp
    rcases Nat.lt_or_ge n q with hlt | hle
    · simp [take_of_lt a rest hn hlt]
      omega
    · rw [take_of_le a rest hn hle, Option.isSome_map, ih, total_cons]
      omega

/-- On units, a sale takes from the front and drops what it took. -/
theorem take_units {n : Nat} {lots pieces left : Lots α} (h : take n lots = some (pieces, left)) :
    units pieces = (units lots).take n ∧ units left = (units lots).drop n := by
  induction lots generalizing n pieces with
  | nil =>
    obtain ⟨rfl, rfl, rfl⟩ | ⟨q, a, rest, heq, -⟩ := take_cases h
    · simp
    · cases heq
  | cons lot rest ih =>
    obtain ⟨rfl, rfl, rfl⟩ | ⟨q, a, rest, heq, hn, hcase⟩ := take_cases h
    · simp
    cases heq
    obtain ⟨hlt, rfl, rfl⟩ | ⟨hle, more, hmore, rfl⟩ := hcase
    · constructor
      · simp [List.take_append, List.take_replicate, Nat.min_eq_left hlt.le, Nat.sub_eq_zero_of_le hlt.le]
      · simp [List.drop_append, List.drop_replicate, Nat.sub_eq_zero_of_le hlt.le]
    · obtain ⟨hpieces, hleft⟩ := ih hmore
      constructor
      · simp [List.take_append, List.take_replicate, Nat.min_eq_right hle, hpieces]
      · simp [List.drop_append, List.drop_replicate, Nat.sub_eq_zero_of_le hle, hleft]

theorem take_append_units {n : Nat} {lots pieces left : Lots α} (h : take n lots = some (pieces, left)) :
    units pieces ++ units left = units lots := by
  obtain ⟨hpieces, hleft⟩ := take_units h
  rw [hpieces, hleft, List.take_append_drop]

theorem take_total {n : Nat} {lots pieces left : Lots α} (h : take n lots = some (pieces, left)) :
    total pieces = n := by
  have hle : n ≤ total lots := take_isSome_iff.mp (by rw [h]; rfl)
  rw [← length_units, (take_units h).1, List.length_take, length_units, Nat.min_eq_left hle]

/-- The terms of the lots play no part in how units are taken. -/
theorem take_map (f : α → β) (n : Nat) (lots : Lots α) :
    take n (lots.map fun lot => (lot.1, f lot.2)) =
      (take n lots).map fun (pieces, left) =>
        (pieces.map fun lot => (lot.1, f lot.2), left.map fun lot => (lot.1, f lot.2)) := by
  induction lots generalizing n with
  | nil =>
    rcases Nat.eq_zero_or_pos n with rfl | hn
    · simp
    · simp [take_nil hn]
  | cons lot rest ih =>
    obtain ⟨q, a⟩ := lot
    rcases Nat.eq_zero_or_pos n with rfl | hn
    · simp
    rw [List.map_cons]
    rcases Nat.lt_or_ge n q with hlt | hle
    · simp [take_of_lt _ _ hn hlt]
    · rw [take_of_le _ _ hn hle, take_of_le _ _ hn hle, ih, Option.map_map, Option.map_map]
      rfl

/-! ### Cutting one item in two -/

/-- The second list is the first, with at most one item cut into two adjacent parts. -/
inductive Cut (parts : γ → γ → γ → Prop) : List γ → List γ → Prop
  | same (xs : List γ) : Cut parts xs xs
  | head {x y z : γ} (xs : List γ) : parts x y z → Cut parts (x :: xs) (y :: z :: xs)
  | tail (x : γ) {xs ys : List γ} : Cut parts xs ys → Cut parts (x :: xs) (x :: ys)

namespace Cut

variable {parts : γ → γ → γ → Prop} {xs ys : List γ}

theorem append_left (front : List γ) (h : Cut parts xs ys) : Cut parts (front ++ xs) (front ++ ys) := by
  induction front with
  | nil => exact h
  | cons x _ ih => exact .tail x ih

theorem append_right (back : List γ) (h : Cut parts xs ys) : Cut parts (xs ++ back) (ys ++ back) := by
  induction h with
  | same xs => exact .same _
  | head xs hparts => exact .head _ hparts
  | tail x _ ih => exact .tail x ih

theorem map {δ : Type} {parts' : δ → δ → δ → Prop} {f : γ → δ} (h : Cut parts xs ys)
    (hparts : ∀ {x y z}, parts x y z → parts' (f x) (f y) (f z)) : Cut parts' (xs.map f) (ys.map f) := by
  induction h with
  | same xs => exact .same _
  | head xs hp => exact .head _ (hparts hp)
  | tail x _ ih => exact .tail _ ih

/-- Where the cut is. -/
theorem exists_split (h : Cut parts xs ys) :
    xs = ys ∨ ∃ front x y z back, parts x y z ∧ xs = front ++ x :: back ∧ ys = front ++ y :: z :: back := by
  induction h with
  | same xs => exact .inl rfl
  | head xs hparts => exact .inr ⟨[], _, _, _, xs, hparts, rfl, rfl⟩
  | tail x _ ih =>
    rcases ih with rfl | ⟨front, x', y, z, back, hparts, rfl, rfl⟩
    · exact .inl rfl
    · exact .inr ⟨x :: front, x', y, z, back, hparts, rfl, rfl⟩

end Cut

/-- A lot cut in two: both parts on its terms. -/
def LotParts (x y z : Nat × α) : Prop :=
  x.1 = y.1 + z.1 ∧ 0 < y.1 ∧ 0 < z.1 ∧ y.2 = x.2 ∧ z.2 = x.2

theorem LotParts.mk {i j : Nat} (hi : 0 < i) (hj : 0 < j) (a : α) : LotParts (i + j, a) (i, a) (j, a) :=
  ⟨rfl, hi, hj, rfl, rfl⟩

theorem total_cut {lots lots' : Lots α} (h : Cut LotParts lots lots') : total lots' = total lots := by
  induction h with
  | same lots => rfl
  | head lots hparts => simp [hparts.1, Nat.add_assoc]
  | tail lot _ ih => simp [ih]

/-- A cut in a queue is a cut in what a sale takes or in what it leaves, never in both. -/
theorem take_cut {n : Nat} {lots lots' pieces left : Lots α} (hcut : Cut LotParts lots lots')
    (h : take n lots = some (pieces, left)) :
    ∃ pieces' left', take n lots' = some (pieces', left') ∧
      ((Cut LotParts pieces pieces' ∧ left' = left) ∨ (pieces' = pieces ∧ Cut LotParts left left')) := by
  induction hcut generalizing n pieces with
  | same lots => exact ⟨pieces, left, h, .inl ⟨.same _, rfl⟩⟩
  | @head x y z rest hparts =>
    obtain ⟨i, a⟩ := y
    obtain ⟨j, b⟩ := z
    obtain ⟨q, c⟩ := x
    obtain ⟨rfl, hi, hj, rfl, rfl⟩ : q = i + j ∧ 0 < i ∧ 0 < j ∧ a = c ∧ b = c := hparts
    rcases Nat.eq_zero_or_pos n with rfl | hn
    · rw [take_zero] at h ⊢
      cases h
      exact ⟨_, _, rfl, .inr ⟨rfl, .head _ (.mk hi hj b)⟩⟩
    rcases Nat.lt_or_ge n (i + j) with hlt | hle
    · rw [take_of_lt _ _ hn hlt] at h
      cases h
      rcases Nat.lt_trichotomy n i with hbefore | rfl | hafter
      · refine ⟨_, _, take_of_lt _ _ hn hbefore, .inr ⟨rfl, ?_⟩⟩
        rw [show i + j - n = (i - n) + j by omega]
        exact .head _ (.mk (by omega) hj b)
      · refine ⟨[(n, b)], (j, b) :: rest, ?_, .inl ⟨.same _, ?_⟩⟩
        · rw [take_of_le _ _ hn le_rfl, Nat.sub_self, take_zero]
          rfl
        · rw [Nat.add_sub_cancel_left]
      · refine ⟨[(i, b), (n - i, b)], (j - (n - i), b) :: rest, ?_, .inl ⟨?_, ?_⟩⟩
        · rw [take_of_le _ _ hn hafter.le, take_of_lt _ _ (Nat.sub_pos_of_lt hafter) (by omega)]
          rfl
        · nth_rewrite 1 [show n = i + (n - i) by omega]
          exact .head _ (.mk hi (by omega) b)
        · rw [show i + j - n = j - (n - i) by omega]
    · rw [take_of_le _ _ hn hle, Option.map_eq_some_iff] at h
      obtain ⟨⟨more, left'⟩, hmore, heq⟩ := h
      cases heq
      refine ⟨(i, b) :: (j, b) :: more, left, ?_, .inl ⟨.head _ (.mk hi hj b), rfl⟩⟩
      rw [take_of_le _ _ hn (by omega), take_of_le _ _ (by omega) (by omega),
        show n - i - j = n - (i + j) by omega, hmore]
      rfl
  | tail lot hrest ih =>
    obtain ⟨rfl, rfl, rfl⟩ | ⟨q, a, rest, heq, hn, hcase⟩ := take_cases h
    · exact ⟨_, _, take_zero _, .inr ⟨rfl, .tail _ hrest⟩⟩
    cases heq
    obtain ⟨hlt, rfl, rfl⟩ | ⟨hle, more, hmore, rfl⟩ := hcase
    · exact ⟨_, _, take_of_lt _ _ hn hlt, .inr ⟨rfl, .tail _ hrest⟩⟩
    · obtain ⟨more', left', htake, hwhere⟩ := ih hmore
      refine ⟨(q, a) :: more', left', ?_, ?_⟩
      · rw [take_of_le _ _ hn hle, htake]
        rfl
      · rcases hwhere with ⟨hcut, rfl⟩ | ⟨rfl, hcut⟩
        · exact .inl ⟨.tail _ hcut, rfl⟩
        · exact .inr ⟨rfl, hcut⟩

/-- A sale in two parts takes the same units, and cuts at most one piece in two. -/
theorem take_add {m n : Nat} {lots pieces left : Lots α} (h : take (m + n) lots = some (pieces, left)) :
    ∃ first between second, take m lots = some (first, between) ∧
      take n between = some (second, left) ∧ Cut LotParts pieces (first ++ second) := by
  rcases Nat.eq_zero_or_pos n with rfl | hn
  · refine ⟨pieces, left, [], h, take_zero _, ?_⟩
    rw [List.append_nil]
    exact .same _
  induction lots generalizing m pieces with
  | nil =>
    rw [take_nil (by omega)] at h
    cases h
  | cons lot rest ih =>
    rcases Nat.eq_zero_or_pos m with rfl | hm
    · rw [Nat.zero_add] at h
      exact ⟨[], lot :: rest, pieces, take_zero _, h, .same _⟩
    obtain ⟨hzero, -⟩ | ⟨q, a, rest, heq, -, hcase⟩ := take_cases h
    · omega
    cases heq
    obtain ⟨hlt, rfl, rfl⟩ | ⟨hle, more, hmore, rfl⟩ := hcase
    · refine ⟨[(m, a)], (q - m, a) :: rest, [(n, a)], take_of_lt _ _ hm (by omega), ?_, ?_⟩
      · rw [take_of_lt _ _ hn (by omega), Nat.sub_sub]
      · exact .head _ (.mk hm hn a)
    rcases Nat.lt_or_ge m q with hlt | hfirst
    · refine ⟨[(m, a)], (q - m, a) :: rest, (q - m, a) :: more, take_of_lt _ _ hm hlt, ?_, ?_⟩
      · rw [take_of_le _ _ hn (by omega), show n - (q - m) = m + n - q by omega, hmore]
        rfl
      · nth_rewrite 1 [show q = m + (q - m) by omega]
        exact .head _ (.mk hm (Nat.sub_pos_of_lt hlt) a)
    · rw [show m + n - q = (m - q) + n by omega] at hmore
      obtain ⟨first, between, second, hone, htwo, hcut⟩ := ih hmore
      refine ⟨(q, a) :: first, between, second, ?_, htwo, .tail _ hcut⟩
      rw [take_of_le _ _ hm hfirst, hone]
      rfl

/-! ### Trades in many queues -/

/-- Units of a key that are bought, or sold, on some terms. -/
inductive Trade (κ α β : Type) where
  | buy (key : κ) (quantity : Nat) (terms : α)
  | sell (key : κ) (quantity : Nat) (terms : β)

/-- Units that one sale took from one lot, with the terms of both. -/
structure Piece (κ α β : Type) where
  key : κ
  quantity : Nat
  bought : α
  sold : β

def pieces (key : κ) (terms : β) (taken : Lots α) : List (Piece κ α β) :=
  taken.map fun lot => ⟨key, lot.1, lot.2, terms⟩

variable [DecidableEq κ]

namespace Trade

/-- What one trade does to the stock, and the pieces it matches. -/
def apply (stock : κ → Lots α) : Trade κ α β → Option ((κ → Lots α) × List (Piece κ α β))
  | .buy key n terms => some (Function.update stock key (stock key ++ [(n, terms)]), [])
  | .sell key n terms => (take n (stock key)).map fun (taken, left) =>
      (Function.update stock key left, pieces key terms taken)

/-- The lots that a trade adds to the queue of a key. -/
def bought (key : κ) : Trade κ α β → Lots α
  | .buy key' n terms => if key' = key then [(n, terms)] else []
  | .sell .. => []

/-- The units that a trade takes from the queue of a key. -/
def sold (key : κ) : Trade κ α β → Nat
  | .buy .. => 0
  | .sell key' n _ => if key' = key then n else 0

end Trade

def run : (κ → Lots α) → List (Trade κ α β) → Option ((κ → Lots α) × List (Piece κ α β))
  | stock, [] => some (stock, [])
  | stock, trade :: rest => (trade.apply stock).bind fun (stock', first) =>
      (run stock' rest).map fun (final, more) => (final, first ++ more)

def bought (key : κ) (trades : List (Trade κ α β)) : Lots α := trades.flatMap (Trade.bought key)

def sold (key : κ) (trades : List (Trade κ α β)) : Nat := (trades.map (Trade.sold key)).sum

/-- No trade sells units that were not bought before it. -/
def Covered (stock : κ → Lots α) (trades : List (Trade κ α β)) : Prop :=
  ∀ front, front <+: trades → ∀ key, sold key front ≤ total (stock key) + total (bought key front)

/-- The pieces of one key, as lots. -/
def piecesOf (key : κ) (matched : List (Piece κ α β)) : Lots α :=
  (matched.filter fun p => p.key = key).map fun p => (p.quantity, p.bought)

@[simp] theorem bought_nil (key : κ) : bought key ([] : List (Trade κ α β)) = [] := rfl

@[simp] theorem bought_cons (key : κ) (trade : Trade κ α β) (rest : List (Trade κ α β)) :
    bought key (trade :: rest) = trade.bought key ++ bought key rest := rfl

@[simp] theorem sold_nil (key : κ) : sold key ([] : List (Trade κ α β)) = 0 := rfl

@[simp] theorem sold_cons (key : κ) (trade : Trade κ α β) (rest : List (Trade κ α β)) :
    sold key (trade :: rest) = trade.sold key + sold key rest := rfl

@[simp] theorem piecesOf_nil (key : κ) : piecesOf key ([] : List (Piece κ α β)) = [] := rfl

@[simp] theorem piecesOf_append (key : κ) (xs ys : List (Piece κ α β)) :
    piecesOf key (xs ++ ys) = piecesOf key xs ++ piecesOf key ys := by
  simp [piecesOf]

theorem piecesOf_pieces_self (key : κ) (terms : β) (taken : Lots α) :
    piecesOf key (pieces key terms taken) = taken := by
  simp [piecesOf, pieces, List.filter_map, Function.comp_def]

theorem piecesOf_pieces_ne {key key' : κ} (hne : key' ≠ key) (terms : β) (taken : Lots α) :
    piecesOf key (pieces key' terms taken) = [] := by
  simp [piecesOf, pieces, List.filter_map, Function.comp_def, hne]

/-- The steps of a run. -/
theorem run_cons_eq_some {stock final : κ → Lots α} {trade : Trade κ α β} {rest : List (Trade κ α β)}
    {matched : List (Piece κ α β)} (h : run stock (trade :: rest) = some (final, matched)) :
    ∃ stock' first more, trade.apply stock = some (stock', first) ∧
      run stock' rest = some (final, more) ∧ matched = first ++ more := by
  rw [run, Option.bind_eq_some_iff] at h
  obtain ⟨⟨stock', first⟩, happly, h⟩ := h
  rw [Option.map_eq_some_iff] at h
  obtain ⟨⟨final', more⟩, hrun, heq⟩ := h
  cases heq
  exact ⟨stock', first, more, happly, hrun, rfl⟩

theorem run_cons {stock stock' final : κ → Lots α} {trade : Trade κ α β} {rest : List (Trade κ α β)}
    {first more : List (Piece κ α β)} (happly : trade.apply stock = some (stock', first))
    (hrun : run stock' rest = some (final, more)) :
    run stock (trade :: rest) = some (final, first ++ more) := by
  simp [run, happly, hrun]

/-! ### Conservation -/

/-- One trade moves units from the front of a queue to the pieces, and adds at the back. -/
theorem Trade.apply_units {stock stock' : κ → Lots α} {trade : Trade κ α β} {first : List (Piece κ α β)}
    (h : trade.apply stock = some (stock', first)) (key : κ) :
    units (piecesOf key first) ++ units (stock' key) = units (stock key) ++ units (trade.bought key) ∧
      total (piecesOf key first) = trade.sold key := by
  cases trade with
  | buy key' n terms =>
    cases h
    rcases eq_or_ne key' key with rfl | hne
    · simp [bought, sold]
    · simp [bought, sold, hne, Function.update_of_ne hne.symm]
  | sell key' n terms =>
    rw [apply, Option.map_eq_some_iff] at h
    obtain ⟨⟨taken, left⟩, htake, heq⟩ := h
    cases heq
    rcases eq_or_ne key' key with rfl | hne
    · simp [bought, sold, piecesOf_pieces_self, take_append_units htake, take_total htake]
    · simp [bought, sold, hne, Function.update_of_ne hne.symm, piecesOf_pieces_ne hne]

theorem run_append_units {stock final : κ → Lots α} {trades : List (Trade κ α β)}
    {matched : List (Piece κ α β)} (h : run stock trades = some (final, matched)) (key : κ) :
    units (piecesOf key matched) ++ units (final key) = units (stock key) ++ units (bought key trades) ∧
      total (piecesOf key matched) = sold key trades := by
  induction trades generalizing stock matched with
  | nil =>
    cases h
    simp
  | cons trade rest ih =>
    obtain ⟨stock', first, more, happly, hrun, rfl⟩ := run_cons_eq_some h
    obtain ⟨hunits, htotal⟩ := Trade.apply_units happly key
    obtain ⟨hunits', htotal'⟩ := ih hrun
    constructor
    · rw [piecesOf_append, units_append, List.append_assoc, hunits', ← List.append_assoc, hunits,
        bought_cons, units_append, List.append_assoc]
    · rw [piecesOf_append, total_append, htotal, htotal', sold_cons]

/-- **First in, first out**: the units sold of a key are the first ones bought. -/
theorem run_units {stock final : κ → Lots α} {trades : List (Trade κ α β)}
    {matched : List (Piece κ α β)} (h : run stock trades = some (final, matched)) (key : κ) :
    units (piecesOf key matched) =
      (units (stock key) ++ units (bought key trades)).take (sold key trades) := by
  obtain ⟨hunits, htotal⟩ := run_append_units h key
  rw [← hunits, ← htotal, ← length_units, List.take_left]

/-- Trades run through exactly when nothing is sold that was not bought before. -/
theorem run_isSome_iff {stock : κ → Lots α} {trades : List (Trade κ α β)} :
    (run stock trades).isSome ↔ Covered stock trades := by
  induction trades generalizing stock with
  | nil => simp [run, Covered]
  | cons trade rest ih =>
    have hstep : ∀ {stock' first}, trade.apply stock = some (stock', first) →
        ((run stock (trade :: rest)).isSome ↔ Covered stock' rest) := by
      intro stock' first happly
      rw [run, happly, Option.bind_some, Option.isSome_map, ih]
    have hshift : ∀ {stock' first}, trade.apply stock = some (stock', first) → ∀ front key,
        (sold key (trade :: front) ≤ total (stock key) + total (bought key (trade :: front)) ↔
          sold key front ≤ total (stock' key) + total (bought key front)) := by
      intro stock' first happly front key
      obtain ⟨hunits, htotal⟩ := Trade.apply_units happly key
      have hlength := congrArg List.length hunits
      simp only [List.length_append, length_units] at hlength
      rw [sold_cons, bought_cons, total_append]
      omega
    rcases happly : trade.apply stock with _ | ⟨stock', first⟩
    · -- Only a sale can fail, and then the history up to it is not covered.
      have hnone : run stock (trade :: rest) = none := by rw [run, happly]; rfl
      rw [hnone]
      simp only [Option.isSome_none, Bool.false_eq_true, false_iff]
      intro hcovered
      cases trade with
      | buy key n terms => cases happly
      | sell key n terms =>
        have hle := hcovered [.sell key n terms] (List.prefix_append [_] rest) key
        simp only [sold_cons, Trade.sold, bought_cons, Trade.bought, if_pos] at hle
        have hsome := take_isSome_iff.mpr (by simpa using hle)
        rw [Trade.apply, Option.map_eq_none_iff] at happly
        rw [happly] at hsome
        cases hsome
    · rw [hstep happly]
      constructor
      · intro hcovered front hfront key
        rcases front with _ | ⟨t, front⟩
        · simp
        obtain ⟨rfl, hrest⟩ := List.cons_prefix_cons.mp hfront
        exact (hshift happly front key).mpr (hcovered front hrest key)
      · intro hcovered front hfront key
        exact (hshift happly front key).mp
          (hcovered (trade :: front) (List.cons_prefix_cons.mpr ⟨rfl, hfront⟩) key)

/-! ### Values -/

section Values

variable {M : Type} [AddCommMonoid M]

/-- The value of a sale at its terms. -/
def Trade.saleValue (value : β → M) : Trade κ α β → M
  | .buy .. => 0
  | .sell _ n terms => n • value terms

omit [DecidableEq κ] in
theorem sum_pieces_sold (value : β → M) (key : κ) (terms : β) (taken : Lots α) :
    ((pieces key terms taken).map fun p => p.quantity • value p.sold).sum = total taken • value terms := by
  induction taken with
  | nil => simp [pieces]
  | cons lot rest ih =>
    simp only [pieces, List.map_cons, List.sum_cons, List.map_map] at ih ⊢
    rw [ih, total_cons, add_nsmul]

/-- The pieces are worth, at the terms they were sold on, what the sales were worth. -/
theorem run_sum_sold (value : β → M) {stock final : κ → Lots α} {trades : List (Trade κ α β)}
    {matched : List (Piece κ α β)} (h : run stock trades = some (final, matched)) :
    (matched.map fun p => p.quantity • value p.sold).sum = (trades.map (Trade.saleValue value)).sum := by
  induction trades generalizing stock matched with
  | nil =>
    cases h
    rfl
  | cons trade rest ih =>
    obtain ⟨stock', first, more, happly, hrun, rfl⟩ := run_cons_eq_some h
    rw [List.map_append, List.sum_append, ih hrun, List.map_cons, List.sum_cons]
    congr 1
    cases trade with
    | buy key n terms =>
      cases happly
      rfl
    | sell key n terms =>
      rw [Trade.apply, Option.map_eq_some_iff] at happly
      obtain ⟨⟨taken, left⟩, htake, heq⟩ := happly
      cases heq
      rw [sum_pieces_sold, take_total htake]
      rfl

theorem sum_units (value : α → M) (lots : Lots α) :
    ((units lots).map value).sum = (lots.map fun lot => lot.1 • value lot.2).sum := by
  induction lots with
  | nil => rfl
  | cons lot rest ih => simp [ih]

/-- The pieces are worth, at the terms they were bought on, what their units are worth. -/
theorem sum_bought (value : α → M) {keys : Finset κ} {matched : List (Piece κ α β)}
    (hkeys : ∀ p ∈ matched, p.key ∈ keys) :
    (matched.map fun p => p.quantity • value p.bought).sum =
      ∑ key ∈ keys, ((units (piecesOf key matched)).map value).sum := by
  induction matched with
  | nil => simp
  | cons p rest ih =>
    have hone : ∀ key, ((units (piecesOf key (p :: rest))).map value).sum =
        (if key = p.key then p.quantity • value p.bought else 0) +
          ((units (piecesOf key rest)).map value).sum := by
      intro key
      rcases eq_or_ne p.key key with rfl | hne
      · simp [sum_units, piecesOf]
      · simp [sum_units, piecesOf, hne, hne.symm]
    rw [Finset.sum_congr rfl fun key _ => hone key, Finset.sum_add_distrib, List.map_cons, List.sum_cons,
      ih fun q hq => hkeys q (List.mem_cons_of_mem _ hq), Finset.sum_ite_eq',
      if_pos (hkeys p List.mem_cons_self)]

end Values

/-! ### Cutting one trade in two -/

/-- A trade cut in two: both parts of the same key, on the same terms. -/
inductive TradeParts : Trade κ α β → Trade κ α β → Trade κ α β → Prop
  | buy (key : κ) {i j : Nat} (terms : α) : 0 < i → 0 < j →
      TradeParts (.buy key (i + j) terms) (.buy key i terms) (.buy key j terms)
  | sell (key : κ) {i j : Nat} (terms : β) : 0 < i → 0 < j →
      TradeParts (.sell key (i + j) terms) (.sell key i terms) (.sell key j terms)

/-- A matched piece cut in two. -/
def PieceParts (x y z : Piece κ α β) : Prop :=
  x.quantity = y.quantity + z.quantity ∧ 0 < y.quantity ∧ 0 < z.quantity ∧
    (y.key = x.key ∧ y.bought = x.bought ∧ y.sold = x.sold) ∧
    (z.key = x.key ∧ z.bought = x.bought ∧ z.sold = x.sold)

omit [DecidableEq κ] in
theorem cut_pieces {taken taken' : Lots α} (h : Cut LotParts taken taken') (key : κ) (terms : β) :
    Cut PieceParts (pieces key terms taken) (pieces key terms taken') := by
  refine h.map ?_
  rintro x y z ⟨hsum, hy, hz, hyterms, hzterms⟩
  exact ⟨hsum, hy, hz, ⟨rfl, hyterms, rfl⟩, ⟨rfl, hzterms, rfl⟩⟩

/-- Cutting a lot of the stock cuts at most one piece of a run. -/
theorem run_cut_stock {stock final : κ → Lots α} {trades : List (Trade κ α β)}
    {matched : List (Piece κ α β)} {key : κ} {lots : Lots α} (hcut : Cut LotParts (stock key) lots)
    (h : run stock trades = some (final, matched)) :
    ∃ final' matched', run (Function.update stock key lots) trades = some (final', matched') ∧
      Cut PieceParts matched matched' := by
  induction trades generalizing stock lots matched with
  | nil =>
    cases h
    exact ⟨_, _, rfl, .same _⟩
  | cons trade rest ih =>
    obtain ⟨stock', first, more, happly, hrun, rfl⟩ := run_cons_eq_some h
    -- While the cut stays in the stock, the rest of the run starts from a cut stock again.
    have hlater : ∀ lots', Cut LotParts (stock' key) lots' →
        trade.apply (Function.update stock key lots) = some (Function.update stock' key lots', first) →
        ∃ final' matched', run (Function.update stock key lots) (trade :: rest) = some (final', matched') ∧
          Cut PieceParts (first ++ more) matched' := by
      intro lots' hcut' happly'
      obtain ⟨final', more', hrun', hmore⟩ := ih hcut' hrun
      exact ⟨final', first ++ more', run_cons happly' hrun', hmore.append_left first⟩
    cases trade with
    | buy key' n terms =>
      cases happly
      rcases eq_or_ne key' key with rfl | hne
      · refine hlater (lots ++ [(n, terms)]) ?_ ?_
        · rw [Function.update_self]
          exact hcut.append_right _
        · simp [Trade.apply]
      · refine hlater lots ?_ ?_
        · rwa [Function.update_of_ne hne.symm]
        · simp [Trade.apply, hne, Function.update_comm hne]
    | sell key' n terms =>
      rw [Trade.apply, Option.map_eq_some_iff] at happly
      obtain ⟨⟨taken, left⟩, htake, heq⟩ := happly
      cases heq
      rcases eq_or_ne key' key with rfl | hne
      · obtain ⟨taken', left', htake', ⟨hpieces, rfl⟩ | ⟨rfl, hleft⟩⟩ := take_cut hcut htake
        · refine ⟨final, pieces key' terms taken' ++ more, run_cons ?_ hrun,
            (cut_pieces hpieces key' terms).append_right more⟩
          simp [Trade.apply, htake']
        · refine hlater left' ?_ ?_
          · rwa [Function.update_self]
          · simp [Trade.apply, htake']
      · refine hlater lots ?_ ?_
        · rwa [Function.update_of_ne hne.symm]
        · simp [Trade.apply, hne, htake, Function.update_comm hne]

/-- **Cutting one trade in two cuts at most one matched piece in two.** -/
theorem run_cut {stock final : κ → Lots α} {trades trades' : List (Trade κ α β)}
    {matched : List (Piece κ α β)} (hcut : Cut TradeParts trades trades')
    (h : run stock trades = some (final, matched)) :
    ∃ final' matched', run stock trades' = some (final', matched') ∧ Cut PieceParts matched matched' := by
  induction hcut generalizing stock matched with
  | same trades => exact ⟨final, matched, h, .same _⟩
  | head rest hparts =>
    obtain ⟨stock', first, more, happly, hrun, rfl⟩ := run_cons_eq_some h
    cases hparts with
    | @buy key i j terms hi hj =>
      cases happly
      have hlots : Cut LotParts (stock key ++ [(i + j, terms)]) (stock key ++ [(i, terms), (j, terms)]) :=
        Cut.append_left (stock key) (.head [] (.mk hi hj terms))
      rw [← Function.update_self key (stock key ++ [(i + j, terms)]) stock] at hlots
      obtain ⟨final', more', hrun', hmore⟩ := run_cut_stock hlots hrun
      refine ⟨final', [] ++ ([] ++ more'), run_cons rfl (run_cons rfl ?_), hmore⟩
      simpa [Function.update_idem] using hrun'
    | @sell key i j terms hi hj =>
      rw [Trade.apply, Option.map_eq_some_iff] at happly
      obtain ⟨⟨taken, left⟩, htake, heq⟩ := happly
      cases heq
      obtain ⟨one, between, two, hone, htwo, hpieces⟩ := take_add htake
      refine ⟨final, pieces key terms one ++ (pieces key terms two ++ more), ?_, ?_⟩
      · have hfirst : Trade.apply stock (.sell key i terms) =
            some (Function.update stock key between, pieces key terms one) := by
          simp [Trade.apply, hone]
        refine run_cons hfirst (run_cons ?_ hrun)
        simp [Trade.apply, htwo]
      · rw [← List.append_assoc]
        refine Cut.append_right more ?_
        simpa [pieces] using cut_pieces hpieces key terms
  | tail trade _ ih =>
    obtain ⟨stock', first, more, happly, hrun, rfl⟩ := run_cons_eq_some h
    obtain ⟨final', more', hrun', hmore⟩ := ih hrun
    exact ⟨final', first ++ more', run_cons happly hrun', hmore.append_left first⟩

/-- A cut changes neither what is bought nor what is sold. -/
theorem totals_cut {trades trades' : List (Trade κ α β)} (hcut : Cut TradeParts trades trades') (key : κ) :
    sold key trades' = sold key trades ∧ total (bought key trades') = total (bought key trades) := by
  induction hcut with
  | same trades => exact ⟨rfl, rfl⟩
  | head rest hparts =>
    cases hparts with
    | buy key' terms hi hj =>
      rcases eq_or_ne key' key with rfl | hne
      · simp [Trade.sold, Trade.bought, Nat.add_assoc]
      · simp [Trade.sold, Trade.bought, hne]
    | sell key' terms hi hj =>
      rcases eq_or_ne key' key with rfl | hne
      · simp [Trade.sold, Trade.bought, Nat.add_assoc]
      · simp [Trade.sold, Trade.bought, hne]
  | tail trade _ ih =>
    obtain ⟨hsold, hbought⟩ := ih
    simp [hsold, hbought]

omit [DecidableEq κ] in
theorem prefix_cut {trades trades' front : List (Trade κ α β)} (hcut : Cut TradeParts trades trades')
    (hfront : front <+: trades) : ∃ front', front' <+: trades' ∧ Cut TradeParts front front' := by
  induction hcut generalizing front with
  | same trades => exact ⟨front, hfront, .same _⟩
  | @head x y z rest hparts =>
    rcases front with _ | ⟨t, front⟩
    · exact ⟨[], List.nil_prefix, .same _⟩
    obtain ⟨rfl, hrest⟩ := List.cons_prefix_cons.mp hfront
    refine ⟨y :: z :: front, ?_, .head front hparts⟩
    exact List.cons_prefix_cons.mpr ⟨rfl, List.cons_prefix_cons.mpr ⟨rfl, hrest⟩⟩
  | tail trade _ ih =>
    rcases front with _ | ⟨t, front⟩
    · exact ⟨[], List.nil_prefix, .same _⟩
    obtain ⟨rfl, hrest⟩ := List.cons_prefix_cons.mp hfront
    obtain ⟨front', hfront', hcut'⟩ := ih hrest
    exact ⟨t :: front', List.cons_prefix_cons.mpr ⟨rfl, hfront'⟩, .tail t hcut'⟩

/-- A history and the same history with a trade cut run through together. -/
theorem run_isSome_cut {stock : κ → Lots α} {trades trades' : List (Trade κ α β)}
    (hcut : Cut TradeParts trades trades') : (run stock trades').isSome ↔ (run stock trades).isSome := by
  constructor
  · rw [run_isSome_iff, run_isSome_iff]
    intro hcovered front hfront key
    obtain ⟨front', hfront', hcut'⟩ := prefix_cut hcut hfront
    obtain ⟨hsold, hbought⟩ := totals_cut hcut' key
    rw [← hsold, ← hbought]
    exact hcovered front' hfront' key
  · intro h
    obtain ⟨⟨final, matched⟩, hrun⟩ := Option.isSome_iff_exists.mp h
    obtain ⟨final', matched', hrun', -⟩ := run_cut hcut hrun
    rw [hrun']
    rfl

end Fifo
