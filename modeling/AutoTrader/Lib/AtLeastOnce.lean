import Mathlib.Data.List.Nodup
import Mathlib.Data.List.Perm.Basic

/-!
# Messages that arrive in any order and more than once

A receiver handles messages one after the other.  A message carries one of a set of items,
or none.  The receiver accumulates the items when a new one is taken and a message without
a new one changes nothing that counts (`Accumulates`).  Every delivery of all the items then
ends after some arrangement of them (`Accumulates.delivered`); what the invariant says of a
state without looking at the arrangement is the same for every delivery.
-/

namespace AtLeastOnce

variable {M I σ β : Type*}

/-- Handle messages one after the other. -/
def deliverAll (step : M → σ → β × σ) : List M → σ → List β × σ
  | [], s => ([], s)
  | m :: rest, s =>
    let (answer, s₁) := step m s
    let (answers, s₂) := deliverAll step rest s₁
    (answer :: answers, s₂)

theorem head_mem_deliverAll (step : M → σ → β × σ) (m : M) (rest : List M) (s : σ) :
    (step m s).1 ∈ (deliverAll step (m :: rest) s).1 := List.mem_cons_self

/-- What handling one valid message does to the items taken so far. -/
structure Accumulates (step : M → σ → β × σ) (item : M → Option I) (items : List I) (valid : M → Prop)
    (good : β → Prop) (inv : List I → σ → Prop) : Prop where
  idle : ∀ m s seen, valid m → item m = none → inv seen s → good (step m s).1 ∧ inv seen (step m s).2
  again : ∀ m s seen i, valid m → item m = some i → i ∈ seen → inv seen s →
    good (step m s).1 ∧ inv seen (step m s).2
  take : ∀ m s seen i, valid m → item m = some i → (seen ++ [i]).Nodup → seen ++ [i] ⊆ items → inv seen s →
    good (step m s).1 ∧ inv (seen ++ [i]) (step m s).2

section Runs

variable {step : M → σ → β × σ} {item : M → Option I} {items : List I} {valid : M → Prop}
  {good : β → Prop} {inv : List I → σ → Prop}

/-- The items taken after a message. -/
def Taken (seen seen' : List I) (ms : List M) (item : M → Option I) : Prop :=
  ∀ i, i ∈ seen' ↔ i ∈ seen ∨ ∃ m ∈ ms, item m = some i

theorem Accumulates.handle (h : Accumulates step item items valid good inv) {m : M} (hvalid : valid m)
    (hitem : ∀ i, item m = some i → i ∈ items) {seen : List I} {s : σ} (hnodup : seen.Nodup)
    (hseen : seen ⊆ items) (hinv : inv seen s) :
    good (step m s).1 ∧ ∃ seen', seen'.Nodup ∧ seen' ⊆ items ∧ Taken seen seen' [m] item ∧
      inv seen' (step m s).2 := by
  cases hm : item m with
  | none =>
    obtain ⟨hgood, hinv'⟩ := h.idle m s seen hvalid hm hinv
    exact ⟨hgood, seen, hnodup, hseen, fun i => by simp [hm], hinv'⟩
  | some i =>
    by_cases hi : i ∈ seen
    · obtain ⟨hgood, hinv'⟩ := h.again m s seen i hvalid hm hi hinv
      refine ⟨hgood, seen, hnodup, hseen, fun j => ⟨.inl, ?_⟩, hinv'⟩
      rintro (hj | ⟨m', hm', hj⟩)
      · exact hj
      · rw [List.mem_singleton.mp hm', hm, Option.some.injEq] at hj
        exact hj ▸ hi
    · have hnodup' : (seen ++ [i]).Nodup := by
        rw [← List.concat_eq_append]
        exact List.Nodup.concat hi hnodup
      have hseen' : seen ++ [i] ⊆ items :=
        List.append_subset.mpr ⟨hseen, by simpa using hitem i hm⟩
      obtain ⟨hgood, hinv'⟩ := h.take m s seen i hvalid hm hnodup' hseen' hinv
      refine ⟨hgood, seen ++ [i], hnodup', hseen', fun j => ?_, hinv'⟩
      simp [hm, eq_comm]

theorem Accumulates.run (h : Accumulates step item items valid good inv) {ms : List M}
    (hvalid : ∀ m ∈ ms, valid m) (hitem : ∀ m ∈ ms, ∀ i, item m = some i → i ∈ items) {seen : List I} {s : σ}
    (hnodup : seen.Nodup) (hseen : seen ⊆ items) (hinv : inv seen s) :
    (∀ answer ∈ (deliverAll step ms s).1, good answer) ∧ ∃ seen', seen'.Nodup ∧ seen' ⊆ items ∧
      Taken seen seen' ms item ∧ inv seen' (deliverAll step ms s).2 := by
  induction ms generalizing seen s with
  | nil => exact ⟨nofun, seen, hnodup, hseen, fun i => by simp, hinv⟩
  | cons m rest ih =>
    obtain ⟨hgood, seen₁, hnodup₁, hseen₁, htaken₁, hinv₁⟩ :=
      h.handle (hvalid m List.mem_cons_self) (hitem m List.mem_cons_self) hnodup hseen hinv
    obtain ⟨hrest, seen₂, hnodup₂, hseen₂, htaken₂, hinv₂⟩ :=
      ih (fun m' hm' => hvalid m' (List.mem_cons_of_mem _ hm'))
        (fun m' hm' => hitem m' (List.mem_cons_of_mem _ hm')) hnodup₁ hseen₁ hinv₁
    refine ⟨List.forall_mem_cons.mpr ⟨hgood, hrest⟩, seen₂, hnodup₂, hseen₂, fun i => ?_, hinv₂⟩
    rw [htaken₂ i, htaken₁ i]
    simp only [List.mem_cons, List.not_mem_nil, or_false, exists_eq_left, or_assoc, exists_eq_or_imp]

/-- **Every delivery of all the items ends after some arrangement of them.** -/
theorem Accumulates.delivered (h : Accumulates step item items valid good inv) (hitems : items.Nodup)
    {ms : List M} (hvalid : ∀ m ∈ ms, valid m) (hitem : ∀ m ∈ ms, ∀ i, item m = some i → i ∈ items)
    (hall : ∀ i ∈ items, ∃ m ∈ ms, item m = some i) {s : σ} (hinv : inv [] s) :
    (∀ answer ∈ (deliverAll step ms s).1, good answer) ∧
      ∃ seen, seen.Perm items ∧ inv seen (deliverAll step ms s).2 := by
  obtain ⟨hgood, seen, hnodup, hseen, htaken, hinv'⟩ :=
    h.run hvalid hitem List.nodup_nil (List.nil_subset items) hinv
  refine ⟨hgood, seen, (List.perm_ext_iff_of_nodup hnodup hitems).mpr fun i => ⟨@hseen i, fun hi => ?_⟩, hinv'⟩
  exact (htaken i).mpr (.inr (hall i hi))

end Runs

end AtLeastOnce
