import Mathlib.Data.List.Nodup
import Mathlib.Algebra.BigOperators.Group.List.Basic
import Mathlib.Tactic.Abel

/-!
# Keyed tables

A relational table with a primary key: the rows in insertion order, no two of
them with the same key.  The uniqueness of the key is a field of the structure,
so the statements that a database refuses cannot be expressed here either.

`insertOrIgnore` and `update` are the two writing statements; `find?` is the
point lookup.  The lemmas describe every lookup and every weighted total after a
write in terms of the table before it, so that clients never look at the list of
rows.
-/

namespace Relational

/-- A table of rows `R` whose primary key is `key`. -/
structure Table (R : Type) {K : Type} (key : R → K) where
  rows : List R
  nodup : (rows.map key).Nodup

namespace Table

variable {R K M : Type} {key : R → K}

@[ext] theorem ext {t u : Table R key} (h : t.rows = u.rows) : t = u := by
  cases t; cases u; simp only at h; subst h; rfl

/-- The table without rows. -/
def empty : Table R key := ⟨[], List.nodup_nil⟩

@[simp] theorem rows_empty : (empty : Table R key).rows = [] := rfl

/-- Two rows with the same key are the same row. -/
theorem eq_of_key_eq (t : Table R key) {r s : R} (hr : r ∈ t.rows) (hs : s ∈ t.rows)
    (h : key r = key s) : r = s :=
  List.inj_on_of_nodup_map t.nodup hr hs h

/-! ### Totals -/

/-- The sum of a weight over all rows; a filtered sum is a weight that vanishes
    off the filter. -/
def total [AddCommMonoid M] (t : Table R key) (w : R → M) : M := (t.rows.map w).sum

theorem total_append [AddCommMonoid M] {t u : Table R key} {r : R}
    (h : u.rows = t.rows ++ [r]) (w : R → M) : u.total w = t.total w + w r := by
  simp [total, h]

theorem total_add [AddCommMonoid M] (t : Table R key) (v w : R → M) :
    t.total (fun r => v r + w r) = t.total v + t.total w :=
  List.sum_map_add

theorem total_zero [AddCommMonoid M] (t : Table R key) : t.total (fun _ => (0 : M)) = 0 := by
  simp [total]

section Lookup

variable [DecidableEq K]

/-- The row with primary key `k`. -/
def find? (t : Table R key) (k : K) : Option R :=
  t.rows.find? fun r => decide (key r = k)

theorem find?_eq_some_iff (t : Table R key) {k : K} {r : R} :
    t.find? k = some r ↔ r ∈ t.rows ∧ key r = k := by
  constructor
  · intro h
    exact ⟨List.mem_of_find?_eq_some h, by simpa using List.find?_some h⟩
  · rintro ⟨hr, rfl⟩
    cases hf : t.find? (key r) with
    | none =>
      have hnone := List.find?_eq_none.mp hf r hr
      simp at hnone
    | some s =>
      have hs := List.mem_of_find?_eq_some hf
      have hk : key s = key r := by simpa using List.find?_some hf
      rw [t.eq_of_key_eq hs hr hk]

theorem find?_of_mem (t : Table R key) {r : R} (hr : r ∈ t.rows) : t.find? (key r) = some r :=
  t.find?_eq_some_iff.mpr ⟨hr, rfl⟩

theorem mem_of_find? (t : Table R key) {k : K} {r : R} (h : t.find? k = some r) : r ∈ t.rows :=
  (t.find?_eq_some_iff.mp h).1

theorem key_of_find? (t : Table R key) {k : K} {r : R} (h : t.find? k = some r) : key r = k :=
  (t.find?_eq_some_iff.mp h).2

theorem find?_eq_none_iff (t : Table R key) {k : K} :
    t.find? k = none ↔ ∀ r ∈ t.rows, key r ≠ k := by
  simp [find?]

@[simp] theorem find?_empty (k : K) : (empty : Table R key).find? k = none := rfl

/-! ### Inserting -/

/-- `INSERT OR IGNORE`: append the row unless its key is taken; the flag is the
    statement's row count. -/
def insertOrIgnore (t : Table R key) (r : R) : Table R key × Bool :=
  if h : key r ∈ t.rows.map key then (t, false)
  else (⟨t.rows ++ [r], by
    rw [List.map_append]
    exact List.nodup_append.mpr ⟨t.nodup, by simp, by
      intro a ha b hb hab
      simp only [List.map_cons, List.map_nil, List.mem_singleton] at hb
      exact h (hb ▸ hab ▸ ha)⟩⟩, true)

theorem insertOrIgnore_of_taken {t : Table R key} {r s : R} (h : t.find? (key r) = some s) :
    t.insertOrIgnore r = (t, false) := by
  have hmem : key r ∈ t.rows.map key :=
    List.mem_map.mpr ⟨s, t.mem_of_find? h, t.key_of_find? h⟩
  rw [insertOrIgnore, dif_pos hmem]

theorem insertOrIgnore_of_free {t : Table R key} {r : R} (h : t.find? (key r) = none) :
    (t.insertOrIgnore r).2 = true ∧ (t.insertOrIgnore r).1.rows = t.rows ++ [r] := by
  have hmem : key r ∉ t.rows.map key := by
    rintro hm
    obtain ⟨s, hs, hk⟩ := List.mem_map.mp hm
    exact t.find?_eq_none_iff.mp h s hs hk
  simp only [insertOrIgnore, dif_neg hmem, and_self]

/-- Either the key was taken and nothing changed, or the row was appended. -/
theorem insertOrIgnore_cases (t : Table R key) (r : R) :
    ((∃ s, t.find? (key r) = some s) ∧ t.insertOrIgnore r = (t, false)) ∨
    (t.find? (key r) = none ∧ (t.insertOrIgnore r).2 = true ∧
      (t.insertOrIgnore r).1.rows = t.rows ++ [r]) := by
  cases h : t.find? (key r) with
  | some s => exact Or.inl ⟨⟨s, rfl⟩, insertOrIgnore_of_taken h⟩
  | none => exact Or.inr ⟨rfl, insertOrIgnore_of_free h⟩

theorem find?_append {t u : Table R key} {r : R} (h : u.rows = t.rows ++ [r]) (k : K) :
    u.find? k = (t.find? k).or (if key r = k then some r else none) := by
  simp only [find?, h, List.find?_append, List.find?_cons, List.find?_nil]
  by_cases hk : key r = k <;> simp [hk]

/-! ### Updating -/

/-- `UPDATE ... WHERE key = k`: rewrite the row with primary key `k`; the key
    itself is never rewritten. -/
def update (t : Table R key) (k : K) (f : R → R) (hf : ∀ r, key (f r) = key r) : Table R key :=
  ⟨t.rows.map fun r => if key r = k then f r else r, by
    have h : (t.rows.map fun r => if key r = k then f r else r).map key = t.rows.map key := by
      rw [List.map_map]
      apply List.map_congr_left
      intro r _
      by_cases hr : key r = k <;> simp [hr, hf]
    rw [h]; exact t.nodup⟩

theorem mem_update (t : Table R key) (k : K) (f : R → R) (hf : ∀ r, key (f r) = key r) {s : R} :
    s ∈ (t.update k f hf).rows ↔
      ∃ r ∈ t.rows, s = if key r = k then f r else r := by
  simp only [update, List.mem_map]
  constructor
  · rintro ⟨r, hr, rfl⟩; exact ⟨r, hr, rfl⟩
  · rintro ⟨r, hr, rfl⟩; exact ⟨r, hr, rfl⟩

theorem find?_update_self (t : Table R key) (k : K) (f : R → R) (hf : ∀ r, key (f r) = key r) :
    (t.update k f hf).find? k = (t.find? k).map f := by
  cases h : t.find? k with
  | none =>
    simp only [Option.map_none, find?_eq_none_iff, mem_update]
    rintro s ⟨r, hr, rfl⟩
    have hk := t.find?_eq_none_iff.mp h r hr
    rwa [if_neg hk]
  | some r =>
    have hk := t.key_of_find? h
    simp only [Option.map_some, find?_eq_some_iff, mem_update]
    exact ⟨⟨r, t.mem_of_find? h, by rw [if_pos hk]⟩, by rw [hf, hk]⟩

theorem find?_update_ne (t : Table R key) {k j : K} (hjk : j ≠ k) (f : R → R)
    (hf : ∀ r, key (f r) = key r) : (t.update k f hf).find? j = t.find? j := by
  cases h : t.find? j with
  | none =>
    simp only [find?_eq_none_iff, mem_update]
    rintro s ⟨r, hr, rfl⟩
    have hk := t.find?_eq_none_iff.mp h r hr
    by_cases hr' : key r = k
    · rw [if_pos hr', hf]; exact hk
    · rwa [if_neg hr']
  | some r =>
    have hk := t.key_of_find? h
    simp only [find?_eq_some_iff, mem_update]
    refine ⟨⟨r, t.mem_of_find? h, ?_⟩, hk⟩
    rw [if_neg (fun hkk => hjk (hk.symm.trans hkk))]

theorem find?_update (t : Table R key) (k j : K) (f : R → R) (hf : ∀ r, key (f r) = key r) :
    (t.update k f hf).find? j = if j = k then (t.find? k).map f else t.find? j := by
  by_cases h : j = k
  · subst h; rw [if_pos rfl, find?_update_self]
  · rw [if_neg h, find?_update_ne t h]

/-- Updating a key that is not there changes nothing. -/
theorem update_of_find?_none {t : Table R key} {k : K} {f : R → R}
    {hf : ∀ r, key (f r) = key r} (h : t.find? k = none) : t.update k f hf = t := by
  apply ext
  simp only [update]
  conv_rhs => rw [← List.map_id t.rows]
  apply List.map_congr_left
  intro r hr
  rw [if_neg (t.find?_eq_none_iff.mp h r hr), id]

/-- Rewriting one row replaces its weight in the total. -/
theorem total_update [AddCommGroup M] (t : Table R key) {k : K} {r : R} (h : t.find? k = some r)
    (f : R → R) (hf : ∀ r, key (f r) = key r) (w : R → M) :
    (t.update k f hf).total w = t.total w - w r + w (f r) := by
  have hk := t.key_of_find? h
  obtain ⟨front, back, hsplit⟩ := List.append_of_mem (t.mem_of_find? h)
  have hnd := t.nodup
  rw [hsplit, List.map_append, List.map_cons] at hnd
  -- the rows on either side of `r` have other keys, so the rewrite skips them
  have hother : ∀ s ∈ front ++ back, (if key s = k then f s else s) = s := by
    intro s hs
    rw [if_neg]
    intro hsk
    rw [List.nodup_middle] at hnd
    apply (List.nodup_cons.mp hnd).1
    rw [hk, ← hsk, ← List.map_append]
    exact List.mem_map_of_mem hs
  have hfront : front.map (fun s => if key s = k then f s else s) = front := by
    conv_rhs => rw [← List.map_id front]
    exact List.map_congr_left fun s hs => hother s (List.mem_append_left _ hs)
  have hback : back.map (fun s => if key s = k then f s else s) = back := by
    conv_rhs => rw [← List.map_id back]
    exact List.map_congr_left fun s hs => hother s (List.mem_append_right _ hs)
  simp only [total, update, hsplit, List.map_append, List.map_cons, hfront, hback, hk, if_true,
    List.sum_append, List.sum_cons]
  abel

/-- Two weights that differ on one row only. -/
theorem total_eq_add [AddCommMonoid M] (t : Table R key) {k : K} {r : R} (h : t.find? k = some r)
    {v w : R → M} {x : M} (hother : ∀ s ∈ t.rows, key s ≠ k → w s = v s) (hr : w r = v r + x) :
    t.total w = t.total v + x := by
  have hk := t.key_of_find? h
  obtain ⟨front, back, hsplit⟩ := List.append_of_mem (t.mem_of_find? h)
  have hnd := t.nodup
  rw [hsplit, List.map_append, List.map_cons, List.nodup_middle] at hnd
  have hsame : ∀ s ∈ front ++ back, w s = v s := by
    intro s hs
    apply hother s
    · rw [hsplit]
      rcases List.mem_append.mp hs with hs | hs
      · exact List.mem_append_left _ hs
      · exact List.mem_append_right _ (List.mem_cons_of_mem _ hs)
    · intro hsk
      apply (List.nodup_cons.mp hnd).1
      rw [hk, ← hsk, ← List.map_append]
      exact List.mem_map_of_mem hs
  have hfront : front.map w = front.map v :=
    List.map_congr_left fun s hs => hsame s (List.mem_append_left _ hs)
  have hback : back.map w = back.map v :=
    List.map_congr_left fun s hs => hsame s (List.mem_append_right _ hs)
  simp only [total, hsplit, List.map_append, List.map_cons, List.sum_append, List.sum_cons, hfront,
    hback, hr]
  abel

omit [DecidableEq K] in
theorem total_congr [AddCommMonoid M] (t : Table R key) {v w : R → M}
    (h : ∀ r ∈ t.rows, w r = v r) : t.total w = t.total v := by
  rw [total, total, List.map_congr_left h]

/-- A weight of the row under one key only. -/
theorem total_single [AddCommMonoid M] (t : Table R key) (k : K) (p : R → Prop) [DecidablePred p] (x : M) :
    t.total (fun r => if p r ∧ k = key r then x else 0) =
      if (t.find? k).any (fun r => p r) = true then x else 0 := by
  cases h : t.find? k with
  | none =>
    have hzero : ∀ r ∈ t.rows, (if p r ∧ k = key r then x else 0) = 0 := by
      intro r hr
      rw [if_neg fun hp => t.find?_eq_none_iff.mp h r hr hp.2.symm]
    rw [Option.any_none, if_neg Bool.false_ne_true, t.total_congr hzero, t.total_zero]
  | some r =>
    have hk := t.key_of_find? h
    rw [Option.any_some, t.total_eq_add h (v := fun _ => 0) (x := if decide (p r) = true then x else 0)]
    · rw [t.total_zero, zero_add]
    · intro s _ hs
      rw [if_neg fun hp => hs hp.2.symm]
    · simp [hk]

/-- A total over the rows of what the elements of a list give to the row they name is a
    total over the elements that name a row. -/
theorem total_named {F : Type} [AddCommMonoid M] (t : Table R key) (p : R → Prop) [DecidablePred p]
    (g : F → K) (v : F → M) (fs : List F) :
    t.total (fun r => if p r then (fs.map fun f => if g f = key r then v f else 0).sum else 0) =
      (fs.map fun f => if (t.find? (g f)).any (fun r => p r) = true then v f else 0).sum := by
  induction fs with
  | nil => simp [t.total_zero]
  | cons f rest ih =>
    rw [List.map_cons, List.sum_cons, ← ih, ← t.total_single (g f) p (v f), ← t.total_add]
    apply t.total_congr
    intro r _
    by_cases hp : p r <;> simp [hp]

/-- `UPDATE ... WHERE key = k AND cond`: the flag is the statement's row count. -/
def updateWhere (t : Table R key) (k : K) (cond : R → Bool) (f : R → R)
    (hf : ∀ r, key (f r) = key r) : Table R key × Bool :=
  match t.find? k with
  | none => (t, false)
  | some r => if cond r then (t.update k f hf, true) else (t, false)

/-- Either no row qualified and nothing changed, or the row was rewritten. -/
theorem updateWhere_cases (t : Table R key) (k : K) (cond : R → Bool) (f : R → R)
    (hf : ∀ r, key (f r) = key r) :
    ((∀ r, t.find? k = some r → cond r = false) ∧ t.updateWhere k cond f hf = (t, false)) ∨
    (∃ r, t.find? k = some r ∧ cond r = true ∧
      t.updateWhere k cond f hf = (t.update k f hf, true)) := by
  unfold updateWhere
  cases h : t.find? k with
  | none => exact Or.inl ⟨by simp, rfl⟩
  | some r =>
    cases hc : cond r with
    | false => exact Or.inl ⟨by intro s hs; simp_all, by simp [hc]⟩
    | true => exact Or.inr ⟨r, rfl, hc, by simp [hc]⟩

theorem updateWhere_of_find? {t : Table R key} {k : K} {r : R} (h : t.find? k = some r)
    (cond : R → Bool) (hc : cond r = true) (f : R → R) (hf : ∀ r, key (f r) = key r) :
    t.updateWhere k cond f hf = (t.update k f hf, true) := by
  simp only [updateWhere, h, hc, if_true]

omit [DecidableEq K] in
theorem map_keys_nodup (t : Table R key) {f : R → R} (hf : ∀ r, key (f r) = key r) :
    ((t.rows.map f).map key).Nodup := by
  have hkeys : (t.rows.map f).map key = t.rows.map key := by
    rw [List.map_map]
    exact List.map_congr_left fun r _ => hf r
  rw [hkeys]
  exact t.nodup

/-- `UPDATE ... WHERE cond`, over the whole table; the answer is the row count. -/
def updateAll (t : Table R key) (cond : R → Bool) (f : R → R) (hf : ∀ r, key (f r) = key r) :
    Table R key × Nat :=
  (⟨t.rows.map fun r => if cond r then f r else r, t.map_keys_nodup (by
      intro r
      split
      · exact hf r
      · rfl)⟩,
    (t.rows.filter cond).length)

theorem find?_updateAll (t : Table R key) (cond : R → Bool) (f : R → R)
    (hf : ∀ r, key (f r) = key r) (k : K) :
    (t.updateAll cond f hf).1.find? k = (t.find? k).map fun r => if cond r then f r else r := by
  have hkey : ∀ r, key (if cond r then f r else r) = key r := by
    intro r
    split
    · exact hf r
    · rfl
  simp only [updateAll, find?, List.find?_map, Function.comp_def, hkey]

/-- `INSERT ... ON CONFLICT(key) DO UPDATE`: replace the row with this key or append it. -/
def upsert (t : Table R key) (r : R) : Table R key :=
  if (t.find? (key r)).isSome then
    t.update (key r) (fun s => if key s = key r then r else s) (by
      intro s
      split
      · rename_i h; exact h.symm
      · rfl)
  else (t.insertOrIgnore r).1

theorem find?_upsert_self (t : Table R key) (r : R) : (t.upsert r).find? (key r) = some r := by
  unfold upsert
  cases h : t.find? (key r) with
  | some s =>
    have hk := t.key_of_find? h
    simp [find?_update_self, h, hk]
  | none =>
    obtain ⟨-, hrows⟩ := insertOrIgnore_of_free h
    simp [find?_append hrows, h]

theorem find?_upsert_ne (t : Table R key) {r : R} {k : K} (hk : k ≠ key r) :
    (t.upsert r).find? k = t.find? k := by
  unfold upsert
  cases h : t.find? (key r) with
  | some s => simp [find?_update_ne _ hk]
  | none =>
    obtain ⟨-, hrows⟩ := insertOrIgnore_of_free h
    simp [find?_append hrows, Ne.symm hk]

theorem find?_upsert (t : Table R key) (r : R) (k : K) :
    (t.upsert r).find? k = if k = key r then some r else t.find? k := by
  by_cases hk : k = key r
  · rw [if_pos hk, hk, find?_upsert_self]
  · rw [if_neg hk, find?_upsert_ne t hk]

/-- Writing a row replaces the weight of the one with its key. -/
theorem total_upsert [AddCommGroup M] (t : Table R key) (r : R) (w : R → M) :
    (t.upsert r).total w = t.total w - (t.find? (key r)).elim 0 w + w r := by
  unfold upsert
  cases h : t.find? (key r) with
  | some s =>
    have hk := t.key_of_find? h
    simp [total_update t h, hk]
  | none =>
    obtain ⟨-, hrows⟩ := insertOrIgnore_of_free h
    simp [total_append hrows]

/-- `INSERT ... ON CONFLICT(key) DO UPDATE ... WHERE cond`: append the row, or
    replace the one with its key if that one qualifies; the flag is the row count. -/
def upsertWhere (t : Table R key) (r : R) (cond : R → Bool) : Table R key × Bool :=
  match t.find? (key r) with
  | none => (t.upsert r, true)
  | some s => if cond s then (t.upsert r, true) else (t, false)

/-- Either the row that is there does not qualify, or the row is written. -/
theorem upsertWhere_cases (t : Table R key) (r : R) (cond : R → Bool) :
    (∃ s, t.find? (key r) = some s ∧ cond s = false ∧ t.upsertWhere r cond = (t, false)) ∨
    ((∀ s, t.find? (key r) = some s → cond s = true) ∧ t.upsertWhere r cond = (t.upsert r, true)) := by
  unfold upsertWhere
  cases h : t.find? (key r) with
  | none => exact Or.inr ⟨by simp, rfl⟩
  | some s =>
    cases hc : cond s with
    | false => exact Or.inl ⟨s, rfl, hc, by simp [hc]⟩
    | true => exact Or.inr ⟨by intro s' hs'; simp_all, by simp [hc]⟩

/-! ### Deleting -/

/-- `DELETE ... WHERE key = k`. -/
def delete (t : Table R key) (k : K) : Table R key :=
  ⟨t.rows.filter fun r => !decide (key r = k), t.nodup.sublist (List.filter_sublist.map key)⟩

theorem find?_delete_self (t : Table R key) (k : K) : (t.delete k).find? k = none := by
  simp [find?_eq_none_iff, delete]

theorem find?_delete_ne (t : Table R key) {j k : K} (hjk : j ≠ k) :
    (t.delete k).find? j = t.find? j := by
  cases h : t.find? j with
  | none =>
    rw [find?_eq_none_iff] at h ⊢
    exact fun r hr => h r (List.mem_filter.mp hr).1
  | some r =>
    have hk := t.key_of_find? h
    rw [find?_eq_some_iff]
    refine ⟨List.mem_filter.mpr ⟨t.mem_of_find? h, ?_⟩, hk⟩
    simp [hk, hjk]

/-- Deleting a row takes its weight away. -/
theorem total_delete [AddCommGroup M] (t : Table R key) {k : K} {r : R} (h : t.find? k = some r)
    (w : R → M) : (t.delete k).total w = t.total w - w r := by
  have hk := t.key_of_find? h
  obtain ⟨front, back, hsplit⟩ := List.append_of_mem (t.mem_of_find? h)
  have hnd := t.nodup
  rw [hsplit, List.map_append, List.map_cons, List.nodup_middle] at hnd
  have hother : ∀ s ∈ front ++ back, key s ≠ k := by
    intro s hs hsk
    apply (List.nodup_cons.mp hnd).1
    rw [hk, ← hsk, ← List.map_append]
    exact List.mem_map_of_mem hs
  have hfront : front.filter (fun s => !decide (key s = k)) = front :=
    List.filter_eq_self.mpr fun s hs => by simp [hother s (List.mem_append_left _ hs)]
  have hback : back.filter (fun s => !decide (key s = k)) = back :=
    List.filter_eq_self.mpr fun s hs => by simp [hother s (List.mem_append_right _ hs)]
  simp only [total, delete, hsplit, List.filter_append, List.filter_cons, hk, decide_true, Bool.not_true,
    Bool.false_eq_true, if_false, hfront, hback, List.map_append, List.map_cons, List.sum_append,
    List.sum_cons]
  abel

theorem find?_delete (t : Table R key) (j k : K) :
    (t.delete k).find? j = if j = k then none else t.find? j := by
  by_cases hjk : j = k
  · rw [if_pos hjk, hjk, find?_delete_self]
  · rw [if_neg hjk, find?_delete_ne t hjk]

/-- `DELETE ... WHERE key = k AND cond`; the flag is the row count. -/
def deleteWhere (t : Table R key) (k : K) (cond : R → Bool) : Table R key × Bool :=
  match t.find? k with
  | none => (t, false)
  | some r => if cond r then (t.delete k, true) else (t, false)

theorem deleteWhere_cases (t : Table R key) (k : K) (cond : R → Bool) :
    ((∀ r, t.find? k = some r → cond r = false) ∧ t.deleteWhere k cond = (t, false)) ∨
    (∃ r, t.find? k = some r ∧ cond r = true ∧ t.deleteWhere k cond = (t.delete k, true)) := by
  unfold deleteWhere
  cases h : t.find? k with
  | none => exact Or.inl ⟨by simp, rfl⟩
  | some r =>
    cases hc : cond r with
    | false => exact Or.inl ⟨by intro s hs; simp_all, by simp [hc]⟩
    | true => exact Or.inr ⟨r, rfl, hc, by simp [hc]⟩

end Lookup

end Table

end Relational
