import Mathlib.Algebra.BigOperators.Group.List.Basic
import Mathlib.Data.List.Nodup
import Mathlib.Order.Lattice

/-!
# Rows in the order of their keys, cut into groups

Rows whose keys never fall come in groups, one for each key.  A reader that closes a group
when a row of a higher key arrives has the groups of the rows it was given: the next row
extends the last group (`Grouped.extend`) or opens one (`Grouped.start`).  No row is lost
and none is in two groups, so a sum over the groups is the sum over the rows
(`Grouped.sum`).
-/

namespace Streaming

variable {R K : Type} {keyOf : R → K}

/-- The rows, cut into one group for each key, in the order of the keys. -/
structure Grouped [LT K] (keyOf : R → K) (groups : List (K × List R)) (rows : List R) : Prop where
  rows_eq : groups.flatMap Prod.snd = rows
  nonempty : ∀ group ∈ groups, group.2 ≠ []
  key_eq : ∀ group ∈ groups, ∀ row ∈ group.2, keyOf row = group.1
  increasing : (groups.map Prod.fst).Pairwise (· < ·)

namespace Grouped

variable [LinearOrder K] {groups : List (K × List R)} {rows : List R} {row : R}

theorem nil : Grouped keyOf [] ([] : List R) := by
  refine ⟨rfl, ?_, ?_, List.Pairwise.nil⟩
  · intro group hgroup
    exact absurd hgroup List.not_mem_nil
  · intro group hgroup
    exact absurd hgroup List.not_mem_nil

/-- A row of the last key joins the last group. -/
theorem extend {key : K} {last : List R} (h : Grouped keyOf (groups ++ [(key, last)]) rows)
    (hkey : keyOf row = key) : Grouped keyOf (groups ++ [(key, last ++ [row])]) (rows ++ [row]) := by
  have hmem : ∀ group ∈ groups, group ∈ groups ++ [(key, last)] :=
    fun group hgroup => List.mem_append_left _ hgroup
  have hlast : (key, last) ∈ groups ++ [(key, last)] := List.mem_append_right _ (List.mem_singleton_self _)
  refine ⟨?_, ?_, ?_, ?_⟩
  · rw [← h.rows_eq]
    simp
  · intro group hgroup
    rcases List.mem_append.mp hgroup with hgroup | hgroup
    · exact h.nonempty group (hmem group hgroup)
    · rw [List.mem_singleton.mp hgroup]
      simp
  · intro group hgroup r hr
    rcases List.mem_append.mp hgroup with hgroup | hgroup
    · exact h.key_eq group (hmem group hgroup) r hr
    · rw [List.mem_singleton.mp hgroup] at hr ⊢
      rcases List.mem_append.mp hr with hr | hr
      · exact h.key_eq (key, last) hlast r hr
      · rw [List.mem_singleton.mp hr]
        exact hkey
  · have hkeys := h.increasing
    rw [List.map_append] at hkeys ⊢
    exact hkeys

/-- A row of a higher key opens a group. -/
theorem start (h : Grouped keyOf groups rows) (hkey : ∀ group ∈ groups, group.1 < keyOf row) :
    Grouped keyOf (groups ++ [(keyOf row, [row])]) (rows ++ [row]) := by
  refine ⟨?_, ?_, ?_, ?_⟩
  · rw [← h.rows_eq]
    simp
  · intro group hgroup
    rcases List.mem_append.mp hgroup with hgroup | hgroup
    · exact h.nonempty group hgroup
    · rw [List.mem_singleton.mp hgroup]
      exact List.cons_ne_nil row []
  · intro group hgroup r hr
    rcases List.mem_append.mp hgroup with hgroup | hgroup
    · exact h.key_eq group hgroup r hr
    · rw [List.mem_singleton.mp hgroup] at hr ⊢
      rw [List.mem_singleton.mp hr]
  · rw [List.map_append, List.pairwise_append]
    refine ⟨h.increasing, List.pairwise_singleton _ _, fun k hk k' hk' => ?_⟩
    obtain ⟨group, hgroup, rfl⟩ := List.mem_map.mp hk
    rw [List.mem_singleton.mp hk']
    exact hkey group hgroup

/-- The keys of the groups before the last are lower. -/
theorem lt_last {key : K} {last : List R} (h : Grouped keyOf (groups ++ [(key, last)]) rows) :
    ∀ group ∈ groups, group.1 < key := by
  intro group hgroup
  have hkeys := h.increasing
  rw [List.map_append, List.pairwise_append] at hkeys
  exact hkeys.2.2 group.1 (List.mem_map_of_mem hgroup) key (List.mem_singleton_self key)

/-- **The group of a key holds the rows of the key, in their order.** -/
theorem group_eq {group : K × List R} (h : Grouped keyOf groups rows) (hgroup : group ∈ groups) :
    group.2 = rows.filter fun row => keyOf row = group.1 := by
  obtain ⟨front, back, rfl⟩ := List.append_of_mem hgroup
  have hother : ∀ other ∈ front ++ back, other.1 ≠ group.1 := by
    have hnodup : ((front ++ group :: back).map Prod.fst).Nodup := h.increasing.imp fun hlt => hlt.ne
    rw [List.map_append, List.map_cons, List.nodup_middle, List.nodup_cons, ← List.map_append] at hnodup
    intro other hother heq
    exact hnodup.1 (heq ▸ List.mem_map_of_mem hother)
  -- the groups of other keys have no row of this one
  have hnone : ∀ others : List (K × List R), (∀ other ∈ others, other ∈ front ++ group :: back ∧ other.1 ≠ group.1) →
      (others.flatMap Prod.snd).filter (fun row => keyOf row = group.1) = [] := by
    intro others hothers
    refine List.filter_eq_nil_iff.mpr fun row hrow => ?_
    obtain ⟨other, hin, hrow⟩ := List.mem_flatMap.mp hrow
    obtain ⟨hmem, hne⟩ := hothers other hin
    rw [h.key_eq other hmem row hrow, decide_eq_true_eq]
    exact hne
  have hfront := hnone front fun other ho =>
    ⟨List.mem_append_left _ ho, hother other (List.mem_append_left _ ho)⟩
  have hback := hnone back fun other ho =>
    ⟨List.mem_append_right _ (List.mem_cons_of_mem _ ho), hother other (List.mem_append_right _ ho)⟩
  have hown : group.2.filter (fun row => keyOf row = group.1) = group.2 :=
    List.filter_eq_self.mpr fun row hrow => decide_eq_true (h.key_eq group hgroup row hrow)
  rw [← h.rows_eq, List.flatMap_append, List.flatMap_cons, List.filter_append, List.filter_append, hown,
    hfront, hback, List.nil_append, List.append_nil]

/-- The keys of the groups are the keys of the rows. -/
theorem key_mem_iff (h : Grouped keyOf groups rows) (key : K) :
    key ∈ groups.map Prod.fst ↔ ∃ row ∈ rows, keyOf row = key := by
  rw [← h.rows_eq]
  constructor
  · intro hkey
    obtain ⟨group, hgroup, rfl⟩ := List.mem_map.mp hkey
    obtain ⟨row, hrow⟩ := List.exists_mem_of_ne_nil _ (h.nonempty group hgroup)
    exact ⟨row, List.mem_flatMap.mpr ⟨group, hgroup, hrow⟩, h.key_eq group hgroup row hrow⟩
  · rintro ⟨row, hrow, rfl⟩
    obtain ⟨group, hgroup, hrow⟩ := List.mem_flatMap.mp hrow
    rw [h.key_eq group hgroup row hrow]
    exact List.mem_map_of_mem hgroup

/-- A sum over the groups is the sum over the rows. -/
theorem sum {M : Type} [AddCommMonoid M] (h : Grouped keyOf groups rows) (weight : R → M) :
    (groups.map fun group => (group.2.map weight).sum).sum = (rows.map weight).sum := by
  rw [← h.rows_eq]
  clear h
  induction groups with
  | nil => rfl
  | cons group rest ih =>
    rw [List.map_cons, List.sum_cons, List.flatMap_cons, List.map_append, List.sum_append, ih]

end Grouped

end Streaming
