import Mathlib.Logic.Basic

/-!
# Checks that accept exactly what has a property

A validator either returns a value or raises.  `Validates` says which inputs it accepts,
what it returns for them, and that it raises nothing but the errors it is allowed to; a
validator made of several in a row accepts what all of them accept.
-/

namespace Validation

variable {E α β : Type} {raised : E → Prop} {P Q : Prop}

/-- The check returns `a` if `P` holds, and raises an error of the allowed kind if not. -/
structure Validates (raised : E → Prop) (check : Except E α) (P : Prop) (a : α) : Prop where
  accepts : P → check = .ok a
  rejects : ¬ P → ∃ e, check = .error e ∧ raised e

namespace Validates

variable {check : Except E α} {a : α}

theorem ok (a : α) : Validates raised (.ok a) True a :=
  ⟨fun _ => rfl, fun h => absurd trivial h⟩

theorem error {e : E} (a : α) (h : raised e) : Validates raised (.error e : Except E α) False a :=
  ⟨False.elim, fun _ => ⟨e, rfl, h⟩⟩

theorem congr (h : Validates raised check P a) (hiff : P ↔ Q) : Validates raised check Q a :=
  ⟨fun hq => h.accepts (hiff.mpr hq), fun hq => h.rejects fun hp => hq (hiff.mp hp)⟩

/-- A check of one condition. -/
theorem ite [Decidable P] {e : E} (a : α) (h : raised e) :
    Validates raised (if P then .ok a else .error e) P a :=
  ⟨fun hp => if_pos hp, fun hp => ⟨e, if_neg hp, h⟩⟩

/-- What is wrong is raised, and the rest is checked. -/
theorem raiseIf [Decidable P] {e : E} (hraised : raised e) (h : ¬ P → Validates raised check Q a) :
    Validates raised (if P then .error e else check) (¬ P ∧ Q) a := by
  by_cases hp : P
  · rw [if_pos hp]
    exact (error a hraised).congr ⟨False.elim, fun hq => hq.1 hp⟩
  · rw [if_neg hp]
    exact (h hp).congr ⟨fun hq => ⟨hp, hq⟩, And.right⟩

/-- A check that is skipped under a condition. -/
theorem skipIf [Decidable P] {d : α} (hd : P → a = d) (h : Validates raised check Q a) :
    Validates raised (if P then .ok d else check) (P ∨ Q) a := by
  by_cases hp : P
  · rw [if_pos hp, ← hd hp]
    exact (ok a).congr ⟨fun _ => .inl hp, fun _ => trivial⟩
  · rw [if_neg hp]
    exact h.congr ⟨.inr, fun hq => hq.resolve_left hp⟩

/-- One check after another. -/
theorem bind {f : α → Except E β} {b : β} (h : Validates raised check P a)
    (hf : P → Validates raised (f a) Q b) : Validates raised (check >>= f) (P ∧ Q) b := by
  by_cases hp : P
  · rw [h.accepts hp]
    exact (hf hp).congr ⟨fun hq => ⟨hp, hq⟩, And.right⟩
  · obtain ⟨e, he, hraised⟩ := h.rejects hp
    rw [he]
    exact (error b hraised).congr ⟨False.elim, fun hq => hp hq.1⟩

/-- A check of every element. -/
theorem mapM {f : α → Except E β} {g : α → β} {R : α → Prop} {xs : List α}
    (h : ∀ x ∈ xs, Validates raised (f x) (R x) (g x)) :
    Validates raised (xs.mapM f) (∀ x ∈ xs, R x) (xs.map g) := by
  induction xs with
  | nil => exact (ok []).congr ⟨fun _ => by simp, fun _ => trivial⟩
  | cons x rest ih =>
    rw [List.mapM_cons]
    have hrest := ih fun y hy => h y (List.mem_cons_of_mem _ hy)
    refine ((h x List.mem_cons_self).bind fun _ => hrest.bind fun _ => ok (g x :: rest.map g)).congr ?_
    rw [List.forall_mem_cons, and_true]

/-- What the check returns. -/
theorem eq_ok_iff (h : Validates raised check P a) {b : α} : check = .ok b ↔ P ∧ b = a := by
  by_cases hp : P
  · rw [h.accepts hp]
    exact ⟨fun heq => ⟨hp, (Except.ok.inj heq).symm⟩, fun heq => heq.2 ▸ rfl⟩
  · obtain ⟨e, he, -⟩ := h.rejects hp
    rw [he]
    exact ⟨fun heq => (nomatch heq), fun heq => absurd heq.1 hp⟩

end Validates

end Validation
