import Mathlib.Data.List.Nodup
import Mathlib.Data.List.Sort

/-!
# Rows sorted by a key

Rows with distinct keys, sorted by the key, stand in strictly ascending order
(`pairwise_sorted`), and such a list is known from its members (`eq_of_mem_iff`).  Rows that
stand in ascending order already are left alone by the sort (`sorted_of_ascending`).  The sort
is stable, so it commutes with a filter (`filter_insertionSort`).
-/

namespace SortedRows

variable {R K : Type} [LinearOrder K] {key : R → K}

theorem pairwise_sorted {rows : List R} (hnodup : (rows.map key).Nodup) :
    (rows.insertionSort fun a b => key a ≤ key b).Pairwise fun a b => key a < key b := by
  have _ : Std.Total fun a b : R => key a ≤ key b := ⟨fun a b => le_total (key a) (key b)⟩
  have _ : IsTrans R fun a b : R => key a ≤ key b := ⟨fun a b c hab hbc => hab.trans hbc⟩
  have hle := List.pairwise_insertionSort (fun a b => key a ≤ key b) rows
  have hperm := List.perm_insertionSort (fun a b => key a ≤ key b) rows
  have hne := List.pairwise_map.mp ((hperm.map key).nodup_iff.mpr hnodup)
  exact (hle.and hne).imp fun h => lt_of_le_of_ne h.1 h.2

/-- Two lists in strictly ascending order with the same members are the same. -/
theorem eq_of_mem_iff {rows rows' : List R} (h : rows.Pairwise fun a b => key a < key b)
    (h' : rows'.Pairwise fun a b => key a < key b) (hmem : ∀ r, r ∈ rows ↔ r ∈ rows') : rows = rows' := by
  have _ : Std.Irrefl fun a b : R => key a < key b := ⟨fun a => lt_irrefl (key a)⟩
  have _ : Std.Antisymm fun a b : R => key a < key b := ⟨fun a b hab hba => absurd hab hba.asymm⟩
  exact List.Pairwise.eq_of_mem_iff h h' hmem

/-- A sort by an order that the rows follow already leaves them alone. -/
theorem sorted_of_ascending {rows : List R} {le : R → R → Prop} [DecidableRel le]
    (h : rows.Pairwise fun a b => key a < key b) (hle : ∀ a b, key a < key b → le a b) :
    rows.insertionSort le = rows :=
  (h.imp fun hlt => hle _ _ hlt).insertionSort_eq

/-! ### Filters -/

section Filter

variable {le : R → R → Prop} [DecidableRel le]

theorem orderedInsert_of_le {r : R} {rows : List R} (h : ∀ s ∈ rows, le r s) :
    rows.orderedInsert le r = r :: rows := by
  cases rows with
  | nil => rfl
  | cons s rest => rw [List.orderedInsert_cons, if_pos (h s (by simp))]

theorem filter_orderedInsert (htrans : ∀ a b c, le a b → le b c → le a c) (keep : R → Bool) (r : R) {rows : List R}
    (h : rows.Pairwise le) :
    (rows.orderedInsert le r).filter keep =
      if keep r then (rows.filter keep).orderedInsert le r else rows.filter keep := by
  induction rows with
  | nil => cases hkeep : keep r <;> simp [hkeep]
  | cons s rest ih =>
    obtain ⟨hs, hrest⟩ := List.pairwise_cons.mp h
    rw [List.orderedInsert_cons]
    split
    · rename_i hle
      have hall : ∀ t ∈ (s :: rest).filter keep, le r t := by
        intro t ht
        rcases List.mem_cons.mp (List.mem_filter.mp ht).1 with rfl | ht
        · exact hle
        · exact htrans r s t hle (hs t ht)
      rw [orderedInsert_of_le hall, List.filter_cons]
    · rename_i hgt
      rw [List.filter_cons, ih hrest, List.filter_cons]
      cases keep s with
      | false => rfl
      | true =>
        cases keep r with
        | false => rfl
        | true => simp [List.orderedInsert_cons, hgt]

variable (le) in
/-- The sort of the rows that are kept. -/
theorem filter_insertionSort (htrans : ∀ a b c, le a b → le b c → le a c) (htotal : ∀ a b, le a b ∨ le b a)
    (keep : R → Bool) (rows : List R) :
    (rows.insertionSort le).filter keep = (rows.filter keep).insertionSort le := by
  have _ : Std.Total le := ⟨htotal⟩
  have _ : IsTrans R le := ⟨htrans⟩
  induction rows with
  | nil => rfl
  | cons r rest ih =>
    rw [List.insertionSort_cons, filter_orderedInsert htrans keep r (List.pairwise_insertionSort le rest), ih,
      List.filter_cons]
    split
    · rfl
    · rfl

end Filter

/-- Of rows in the order of a key, those from a bound on are the end. -/
theorem filter_suffix {rows : List R} (h : rows.Pairwise fun a b => key a ≤ key b) (bound : K) :
    rows.filter (fun r => decide (bound ≤ key r)) <:+ rows := by
  induction rows with
  | nil => exact List.suffix_rfl
  | cons r rest ih =>
    obtain ⟨hr, hrest⟩ := List.pairwise_cons.mp h
    rw [List.filter_cons]
    split
    · rename_i hkeep
      have hall := List.filter_eq_self.mpr fun s hs => decide_eq_true ((of_decide_eq_true hkeep).trans (hr s hs))
      exact ⟨[], by rw [hall, List.nil_append]⟩
    · exact (ih hrest).trans (List.suffix_cons r rest)

end SortedRows
