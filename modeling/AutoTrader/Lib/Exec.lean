import Mathlib.Data.List.Basic

/-!
# Stateful computations that can raise, and transactions

`Exec σ ε α` runs on a store `σ` and either returns a value or raises an
exception; in both cases the store it leaves behind is observable.  Raising does
not undo anything by itself: that is the job of `atomically`, which commits the
store of a body that returns and restores the store of a body that raises.

The two facts clients use are `run_atomically_of_error` (a transaction that
raises leaves the store as it was) and `Keeps` (what a computation preserves),
with one rule for each way of building a computation.
-/

namespace Transactional

/-- A computation on a store `σ` that returns an `α` or raises an `ε`. -/
structure Exec (σ ε α : Type) where
  run : σ → Except ε α × σ

namespace Exec

variable {σ ε α β : Type}

/-- Raise an exception; the store stays as it is at this point. -/
def raise (e : ε) : Exec σ ε α := ⟨fun s => (.error e, s)⟩

/-- Read the store. -/
def query (f : σ → α) : Exec σ ε α := ⟨fun s => (.ok (f s), s)⟩

/-- Run a statement: it changes the store and answers. -/
def statement (f : σ → α × σ) : Exec σ ε α := ⟨fun s => (.ok (f s).1, (f s).2)⟩

instance : Monad (Exec σ ε) where
  pure a := ⟨fun s => (.ok a, s)⟩
  bind m f := ⟨fun s =>
    match m.run s with
    | (.ok a, s') => (f a).run s'
    | (.error e, s') => (.error e, s')⟩

/-- Raise `e` unless the condition holds. -/
def require (c : Bool) (e : ε) : Exec σ ε Unit := if c then pure () else raise e

/-- A transaction: commit when the body returns, roll back when it raises. -/
def atomically (m : Exec σ ε α) : Exec σ ε α := ⟨fun s =>
  match m.run s with
  | (.ok a, s') => (.ok a, s')
  | (.error e, _) => (.error e, s)⟩

/-- A computation that does not touch the store. -/
def ofExcept (r : Except ε α) : Exec σ ε α := ⟨fun s => (r, s)⟩

/-! ### Running -/

@[simp] theorem run_pure (a : α) (s : σ) : (pure a : Exec σ ε α).run s = (.ok a, s) := rfl

@[simp] theorem run_raise (e : ε) (s : σ) : (raise e : Exec σ ε α).run s = (.error e, s) := rfl

@[simp] theorem run_query (f : σ → α) (s : σ) :
    (query f : Exec σ ε α).run s = (.ok (f s), s) := rfl

@[simp] theorem run_statement (f : σ → α × σ) (s : σ) :
    (statement f : Exec σ ε α).run s = (.ok (f s).1, (f s).2) := rfl

theorem run_bind (m : Exec σ ε α) (f : α → Exec σ ε β) (s : σ) :
    (m >>= f).run s =
      match m.run s with
      | (.ok a, s') => (f a).run s'
      | (.error e, s') => (.error e, s') := rfl

/-- Sequencing after a computation that returns. -/
theorem run_bind_ok {m : Exec σ ε α} {f : α → Exec σ ε β} {s s' : σ} {a : α}
    (h : m.run s = (.ok a, s')) : (m >>= f).run s = (f a).run s' := by
  rw [run_bind, h]

/-- Sequencing after a computation that raises. -/
theorem run_bind_error {m : Exec σ ε α} {f : α → Exec σ ε β} {s s' : σ} {e : ε}
    (h : m.run s = (.error e, s')) : (m >>= f).run s = (.error e, s') := by
  rw [run_bind, h]

@[simp] theorem run_ofExcept (r : Except ε α) (s : σ) :
    (ofExcept r : Exec σ ε α).run s = (r, s) := rfl

@[simp] theorem run_ofExcept_ok_bind (a : α) (f : α → Exec σ ε β) (s : σ) :
    (ofExcept (.ok a) >>= f).run s = (f a).run s := rfl

@[simp] theorem run_ofExcept_error_bind (e : ε) (f : α → Exec σ ε β) (s : σ) :
    (ofExcept (.error e) >>= f).run s = (.error e, s) := rfl

@[simp] theorem run_raise_bind (e : ε) (f : α → Exec σ ε β) (s : σ) :
    (raise e >>= f).run s = (.error e, s) := rfl

@[simp] theorem run_pure_bind (a : α) (f : α → Exec σ ε β) (s : σ) :
    ((pure a : Exec σ ε α) >>= f).run s = (f a).run s := rfl

@[simp] theorem run_query_bind (q : σ → α) (f : α → Exec σ ε β) (s : σ) :
    (query q >>= f).run s = (f (q s)).run s := rfl

@[simp] theorem run_statement_bind (q : σ → α × σ) (f : α → Exec σ ε β) (s : σ) :
    (statement q >>= f).run s = (f (q s).1).run (q s).2 := rfl

@[simp] theorem run_ite (c : Prop) [Decidable c] (m n : Exec σ ε α) (s : σ) :
    (if c then m else n).run s = if c then m.run s else n.run s := by
  split <;> rfl

@[simp] theorem run_require (c : Bool) (e : ε) (s : σ) :
    (require c e : Exec σ ε Unit).run s = if c then (.ok (), s) else (.error e, s) := by
  cases c <;> rfl

/-- A check either passes and the rest runs on the same store, or raises there. -/
@[simp] theorem run_require_bind (c : Bool) (e : ε) (f : Unit → Exec σ ε β) (s : σ) :
    (require c e >>= f).run s = if c then (f ()).run s else (.error e, s) := by
  cases c <;> rfl

theorem run_atomically (m : Exec σ ε α) (s : σ) :
    (atomically m).run s =
      match m.run s with
      | (.ok a, s') => (.ok a, s')
      | (.error e, _) => (.error e, s) := rfl

/-- A transaction that raises leaves the store as it was. -/
theorem run_atomically_of_error {m : Exec σ ε α} {s : σ} {e : ε}
    (h : ((atomically m).run s).1 = .error e) : ((atomically m).run s).2 = s := by
  rw [run_atomically] at h ⊢
  rcases hm : m.run s with ⟨r, s'⟩
  rw [hm] at h
  cases r with
  | ok a => simp at h
  | error e' => rfl

/-- A transaction that returns is its body. -/
theorem run_atomically_of_ok {m : Exec σ ε α} {s s' : σ} {a : α}
    (h : (atomically m).run s = (.ok a, s')) : m.run s = (.ok a, s') := by
  rw [run_atomically] at h
  rcases hm : m.run s with ⟨r, s''⟩
  rw [hm] at h
  cases r with
  | ok b => exact h
  | error e => simp at h

/-- A sequence that returns: both parts return. -/
theorem run_bind_eq_ok {m : Exec σ ε α} {f : α → Exec σ ε β} {s s'' : σ} {b : β}
    (h : (m >>= f).run s = (.ok b, s'')) :
    ∃ a s', m.run s = (.ok a, s') ∧ (f a).run s' = (.ok b, s'') := by
  rw [run_bind] at h
  rcases hm : m.run s with ⟨r, s'⟩
  rw [hm] at h
  cases r with
  | ok a => exact ⟨a, s', rfl, h⟩
  | error e => simp at h

/-- A loop that returns: an invariant over the elements still to be processed. -/
theorem run_foldlM_ok {f : α → β → Exec σ ε α} {I : List β → α → σ → Prop}
    (hstep : ∀ x rest a s a' s', I (x :: rest) a s → (f a x).run s = (.ok a', s') → I rest a' s')
    (xs : List β) {a a' : α} {s s' : σ} (h : I xs a s)
    (hrun : (xs.foldlM f a).run s = (.ok a', s')) : I [] a' s' := by
  induction xs generalizing a s with
  | nil =>
    simp only [List.foldlM_nil, run_pure, Prod.mk.injEq, Except.ok.injEq] at hrun
    obtain ⟨rfl, rfl⟩ := hrun
    exact h
  | cons x rest ih =>
    rw [List.foldlM_cons] at hrun
    obtain ⟨a₁, s₁, hx, hrest⟩ := run_bind_eq_ok hrun
    exact ih (hstep x rest a s a₁ s₁ h hx) hrest

/-! ### What a computation preserves -/

/-- The predicate holds of the store a computation leaves behind, whether it
    returned or raised, whenever it held before. -/
def Keeps (P : σ → Prop) (m : Exec σ ε α) : Prop := ∀ s, P s → P (m.run s).2

theorem Keeps.pure (P : σ → Prop) (a : α) : Keeps P (Pure.pure a : Exec σ ε α) :=
  fun _ h => h

theorem Keeps.raise (P : σ → Prop) (e : ε) : Keeps P (raise e : Exec σ ε α) :=
  fun _ h => h

theorem Keeps.query (P : σ → Prop) (f : σ → α) : Keeps P (query f : Exec σ ε α) :=
  fun _ h => h

theorem Keeps.require (P : σ → Prop) (c : Bool) (e : ε) :
    Keeps P (Exec.require c e : Exec σ ε Unit) := by
  intro s h
  cases c <;> exact h

theorem Keeps.bind {P : σ → Prop} {m : Exec σ ε α} {f : α → Exec σ ε β}
    (hm : Keeps P m) (hf : ∀ a, Keeps P (f a)) : Keeps P (m >>= f) := by
  intro s h
  have hm' := hm s h
  rw [run_bind]
  rcases hr : m.run s with ⟨r, s'⟩
  rw [hr] at hm'
  cases r with
  | ok a => exact hf a s' hm'
  | error e => exact hm'

/-- For a transaction only a body that returns has to preserve the predicate. -/
theorem Keeps.atomically {P : σ → Prop} {m : Exec σ ε α}
    (hm : ∀ s a s', P s → m.run s = (.ok a, s') → P s') : Keeps P (atomically m) := by
  intro s h
  rw [run_atomically]
  rcases hr : m.run s with ⟨r, s'⟩
  cases r with
  | ok a => exact hm s a s' h hr
  | error e => exact h

theorem Keeps.transaction {P : σ → Prop} {m : Exec σ ε α} (hm : Keeps P m) :
    Keeps P (Exec.atomically m) := by
  apply Keeps.atomically
  intro s a s' h hrun
  have hs := hm s h
  rwa [hrun] at hs

end Exec

end Transactional
