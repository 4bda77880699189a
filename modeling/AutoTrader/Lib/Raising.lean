import AutoTrader.Lib.Interleave
import Mathlib.Control.Lawful

/-!
# Programs that can raise

`Raising S ε` adds exceptions to the programs of `Interleave`.  Unlike a
transaction, a program that raises keeps what its earlier actions did: the
exception only ends it.  `SafeE` is the program logic with a second
postcondition, for the exception; the rules mirror the ones of `Safe`, with one
for loops over a list.  `Ends` is its counterpart for a program that runs alone.
-/

namespace Interleave

/-- Programs that return an `α` or raise an `ε`. -/
abbrev Raising (S : Signature) (ε : Type) := ExceptT ε (Prog S)

variable {S : Signature} {σ ε α β γ : Type}

/-- The two postconditions as one. -/
def outcome (Q : α → σ → Prop) (E : ε → σ → Prop) : Except ε α → σ → Prop
  | .ok a, s => Q a s
  | .error e, s => E e s

namespace Raising

/-- Perform an action whose reply is a plain value. -/
def ask (o : S.Op) : Raising S ε (S.Reply o) := ExceptT.lift (Prog.perform o)

/-- Catch: the program's outcome becomes a value. -/
def attempt (p : Raising S ε α) : Raising S ε (Except ε α) := ExceptT.lift p.run

theorem run_bind (p : Raising S ε α) (f : α → Raising S ε β) :
    (p >>= f).run = p.run >>= fun r =>
      match r with
      | .ok a => (f a).run
      | .error e => .ret (.error e) := rfl

theorem run_pure (a : α) : (pure a : Raising S ε α).run = .ret (.ok a) := rfl

theorem run_throw (e : ε) : (throw e : Raising S ε α).run = .ret (.error e) := rfl

theorem run_ask (o : S.Op) : (ask o : Raising S ε _).run = .act o fun b => .ret (.ok b) := rfl

theorem run_attempt (p : Raising S ε α) : (attempt p).run = p.run >>= fun r => .ret (.ok r) := rfl

theorem run_ite (c : Prop) [Decidable c] (p q : Raising S ε α) :
    (if c then p else q).run = if c then p.run else q.run := by
  split <;> rfl

/-! ### Which actions a program can perform -/

/-- Every action the program can perform satisfies `P`. -/
def Only (P : S.Op → Prop) (p : Raising S ε α) : Prop := Prog.Only P p.run

section Only

variable {P : S.Op → Prop}

theorem Only.pure (a : α) : Only P (Pure.pure a : Raising S ε α) := trivial

theorem Only.throw (e : ε) : Only P (MonadExcept.throw e : Raising S ε α) := trivial

theorem Only.ask {o : S.Op} (h : P o) : Only P (Raising.ask o : Raising S ε _) :=
  ⟨h, fun _ => trivial⟩

theorem Only.bind {p : Raising S ε α} {f : α → Raising S ε β} (hp : Only P p)
    (hf : ∀ a, Only P (f a)) : Only P (p >>= f) := by
  refine Prog.Only.bind hp fun r => ?_
  cases r with
  | ok a => exact hf a
  | error e => trivial

theorem Only.ite {c : Prop} [Decidable c] {p q : Raising S ε α} (hp : Only P p) (hq : Only P q) :
    Only P (if c then p else q) := by
  split
  · exact hp
  · exact hq

theorem Only.attempt {p : Raising S ε α} (hp : Only P p) : Only P (Raising.attempt p) :=
  Prog.Only.bind hp fun _ => trivial

theorem Only.foldlM {f : α → β → Raising S ε α} (hf : ∀ a x, Only P (f a x)) (xs : List β) (a : α) :
    Only P (xs.foldlM f a) := by
  induction xs generalizing a with
  | nil => exact Only.pure a
  | cons x rest ih =>
    rw [List.foldlM_cons]
    exact (hf a x).bind ih

theorem Only.mono {Q : S.Op → Prop} (h : ∀ o, P o → Q o) {p : Raising S ε α} (hp : Only P p) :
    Only Q p :=
  Prog.Only.mono h hp

theorem Only.and {Q : S.Op → Prop} {p : Raising S ε α} (hp : Only P p) (hq : Only Q p) :
    Only (fun o => P o ∧ Q o) p :=
  Prog.Only.and hp hq

end Only

/-! ### Running alone -/

section Eval

variable (h : (o : S.Op) → σ → S.Reply o × σ)

/-- Run a raising program to its end against a handler. -/
def eval (p : Raising S ε α) (s : σ) : Except ε α × σ := Prog.eval h p.run s

theorem eval_bind (p : Raising S ε α) (f : α → Raising S ε β) (s : σ) :
    eval h (p >>= f) s =
      match eval h p s with
      | (.ok a, s') => eval h (f a) s'
      | (.error e, s') => (.error e, s') := by
  simp only [eval, run_bind, Prog.eval_bind]
  rcases Prog.eval h p.run s with ⟨r, s'⟩
  cases r <;> rfl

@[simp] theorem eval_pure (a : α) (s : σ) : eval h (pure a : Raising S ε α) s = (.ok a, s) := rfl

@[simp] theorem eval_throw (e : ε) (s : σ) :
    eval h (throw e : Raising S ε α) s = (.error e, s) := rfl

@[simp] theorem eval_ask (o : S.Op) (s : σ) :
    eval h (ask o : Raising S ε _) s = (.ok (h o s).1, (h o s).2) := rfl

theorem eval_attempt (p : Raising S ε α) (s : σ) :
    eval h (attempt p) s = (.ok (eval h p s).1, (eval h p s).2) := by
  simp only [eval, run_attempt, Prog.eval_bind, Prog.eval]

theorem eval_ite (c : Prop) [Decidable c] (p q : Raising S ε α) (s : σ) :
    eval h (if c then p else q) s = if c then eval h p s else eval h q s := by
  split <;> rfl

/-- Actions that leave the store alone. -/
theorem eval_of_only {P : S.Op → Prop} (hP : ∀ o s, P o → (h o s).2 = s) {p : Raising S ε α}
    (hp : Only P p) (s : σ) : (eval h p s).2 = s := by
  have hprog : ∀ (q : Prog S (Except ε α)), q.Only P → ∀ s, (q.eval h s).2 = s := by
    intro q
    induction q with
    | ret a => intro _ s; rfl
    | act o k ih =>
      intro hq s
      rw [Prog.eval, ih _ (hq.2 _), hP o s hq.1]
  exact hprog p.run hp s

end Eval

/-! ### The program logic -/

section Logic

variable (sem : (o : S.Op) → σ → S.Reply o → σ → Prop) (inv : σ → Prop) (rely guar : σ → σ → Prop)

/-- `Safe` with a postcondition for each way to end. -/
def SafeE (p : Raising S ε α) (Q : α → σ → Prop) (E : ε → σ → Prop) (s : σ) : Prop :=
  Prog.Safe sem inv rely guar p.run (outcome Q E) s

variable {sem inv rely guar} {Q : α → σ → Prop} {E : ε → σ → Prop} {s : σ}

theorem SafeE.pure {a : α} (h : ∀ s', Relation.ReflTransGen rely s s' → Q a s') :
    SafeE sem inv rely guar (Pure.pure a) Q E s := h

theorem SafeE.throw {e : ε} (h : ∀ s', Relation.ReflTransGen rely s s' → E e s') :
    SafeE sem inv rely guar (MonadExcept.throw e) Q E s := h

theorem SafeE.interfere {p : Raising S ε α} {s' : σ} (h : SafeE sem inv rely guar p Q E s)
    (hs : Relation.ReflTransGen rely s s') : SafeE sem inv rely guar p Q E s' :=
  Prog.Safe.interfere h hs

theorem SafeE.mono {p : Raising S ε α} {Q' : α → σ → Prop} {E' : ε → σ → Prop}
    (h : SafeE sem inv rely guar p Q E s) (hQ : ∀ a s, Q a s → Q' a s)
    (hE : ∀ e s, E e s → E' e s) : SafeE sem inv rely guar p Q' E' s := by
  refine Prog.Safe.mono h fun r s hr => ?_
  cases r with
  | ok a => exact hQ a s hr
  | error e => exact hE e s hr

theorem SafeE.bind {p : Raising S ε α} {f : α → Raising S ε β} {Q : β → σ → Prop}
    (h : SafeE sem inv rely guar p (fun a s => SafeE sem inv rely guar (f a) Q E s) E s) :
    SafeE sem inv rely guar (p >>= f) Q E s := by
  refine Prog.Safe.bind (Prog.Safe.mono (Prog.Safe.stable h) fun r s hr => ?_)
  cases r with
  | ok a => exact hr s .refl
  | error e => exact hr

/-- Sequencing with an assertion between the two. -/
theorem SafeE.seq {p : Raising S ε α} {f : α → Raising S ε β} {R : α → σ → Prop} {Q : β → σ → Prop}
    (hp : SafeE sem inv rely guar p R E s)
    (hf : ∀ a s, R a s → SafeE sem inv rely guar (f a) Q E s) :
    SafeE sem inv rely guar (p >>= f) Q E s :=
  SafeE.bind (hp.mono hf fun _ _ h => h)

theorem SafeE.ask {o : S.Op} {Q : S.Reply o → σ → Prop}
    (h : ∀ s₁, Relation.ReflTransGen rely s s₁ → inv s₁ → ∀ b s₂, sem o s₁ b s₂ →
      inv s₂ ∧ guar s₁ s₂ ∧ ∀ s', Relation.ReflTransGen rely s₂ s' → Q b s') :
    SafeE sem inv rely guar (Raising.ask o) Q E s := h

theorem SafeE.attempt {p : Raising S ε α} {Q : Except ε α → σ → Prop}
    (h : SafeE sem inv rely guar p (fun a s => Q (.ok a) s) (fun e s => Q (.error e) s) s) :
    SafeE sem inv rely guar (Raising.attempt p) Q E s := by
  refine Prog.Safe.bind (Prog.Safe.mono (Prog.Safe.stable h) fun r s hr => ?_)
  cases r with
  | ok a => exact hr
  | error e => exact hr

theorem SafeE.ite {c : Prop} [Decidable c] {p q : Raising S ε α}
    (hp : c → SafeE sem inv rely guar p Q E s) (hq : ¬ c → SafeE sem inv rely guar q Q E s) :
    SafeE sem inv rely guar (if c then p else q) Q E s := by
  split
  · exact hp ‹_›
  · exact hq ‹_›

/-- A program all of whose possible actions are within the guarantee is safe. -/
theorem SafeE.of_acts (h : ∀ o s b s', inv s → sem o s b s' → inv s' ∧ guar s s')
    (p : Raising S ε α) (s : σ) :
    SafeE sem inv rely guar p (fun _ _ => True) (fun _ _ => True) s :=
  Prog.Safe.mono (Prog.Safe.of_acts h p.run s) fun r _ _ => by cases r <;> trivial

/-- Loops: an invariant over the elements still to be processed. -/
theorem SafeE.foldlM {f : α → β → Raising S ε α} {I : List β → α → σ → Prop}
    (hstable : ∀ a s s', Relation.ReflTransGen rely s s' → I [] a s → I [] a s')
    (hstep : ∀ x rest a s, I (x :: rest) a s →
      SafeE sem inv rely guar (f a x) (fun a' s' => I rest a' s') E s)
    (xs : List β) {a : α} {s : σ} (h : I xs a s) :
    SafeE sem inv rely guar (xs.foldlM f a) (fun a s => I [] a s) E s := by
  induction xs generalizing a s with
  | nil => exact SafeE.pure fun s' hs' => hstable a s s' hs' h
  | cons x rest ih =>
    rw [List.foldlM_cons]
    exact SafeE.bind (SafeE.mono (hstep x rest a s h) (fun a' s' h' => ih h') fun _ _ he => he)

/-- Loops over a list whose elements share a property, with an invariant that
    does not depend on what is left to do. -/
theorem SafeE.foldlM_of_mem {f : α → β → Raising S ε α} {I : α → σ → Prop}
    (hstable : ∀ a s s', Relation.ReflTransGen rely s s' → I a s → I a s')
    (xs : List β)
    (hstep : ∀ x ∈ xs, ∀ a s, I a s → SafeE sem inv rely guar (f a x) I E s)
    {a : α} {s : σ} (h : I a s) :
    SafeE sem inv rely guar (xs.foldlM f a) I E s := by
  refine SafeE.mono (SafeE.foldlM (I := fun rest a s => (∀ x ∈ rest, x ∈ xs) ∧ I a s)
    (fun a s s' hs h => ⟨by simp, hstable a s s' hs h.2⟩) ?_ xs ⟨fun _ hx => hx, h⟩)
    (fun _ _ h => h.2) fun _ _ he => he
  rintro x rest a s ⟨hmem, hI⟩
  refine SafeE.mono (hstep x (hmem x (by simp)) a s hI) (fun a' s' h' => ⟨?_, h'⟩) fun _ _ he => he
  intro y hy
  exact hmem y (by simp [hy])

/-! #### Programs that keep an assertion -/

section Keeps

variable (sem inv rely guar) (R : σ → Prop)

/-- Started where `R` holds, the program ends where `R` holds. -/
def Keeps (p : Raising S ε α) : Prop :=
  ∀ s, R s → SafeE sem inv rely guar p (fun _ => R) (fun _ => R) s

variable {sem inv rely guar R} (hR : ∀ s s', rely s s' → R s → R s')

include hR

theorem Keeps.stable {s s' : σ} (hs : Relation.ReflTransGen rely s s') (h : R s) : R s' := by
  induction hs with
  | refl => exact h
  | tail _ hstep ih => exact hR _ _ hstep ih

theorem Keeps.of_only {P : S.Op → Prop}
    (hP : ∀ o, P o → ∀ s b s', R s → inv s → sem o s b s' → inv s' ∧ guar s s' ∧ R s')
    {p : Raising S ε α} (hp : Only P p) : Keeps sem inv rely guar R p := by
  intro s h
  refine Prog.Safe.mono (Prog.Safe.of_only hR hP hp h) fun r _ hr => ?_
  cases r with
  | ok a => exact hr
  | error e => exact hr

theorem Keeps.pure (a : α) : Keeps sem inv rely guar R (Pure.pure a : Raising S ε α) :=
  fun _ h => SafeE.pure fun _ hs => Keeps.stable hR hs h

theorem Keeps.throw (e : ε) : Keeps sem inv rely guar R (MonadExcept.throw e : Raising S ε α) :=
  fun _ h => SafeE.throw fun _ hs => Keeps.stable hR hs h

theorem Keeps.ask {o : S.Op} (h : ∀ s b s', R s → inv s → sem o s b s' → inv s' ∧ guar s s' ∧ R s') :
    Keeps sem inv rely guar R (Raising.ask o : Raising S ε _) := by
  intro s hs
  apply SafeE.ask
  intro s₁ hs₁ hi b s₂ hb
  obtain ⟨hi₂, hg, hR₂⟩ := h s₁ b s₂ (Keeps.stable hR hs₁ hs) hi hb
  exact ⟨hi₂, hg, fun s' hs' => Keeps.stable hR hs' hR₂⟩

omit hR

theorem Keeps.bind {p : Raising S ε α} {f : α → Raising S ε β} (hp : Keeps sem inv rely guar R p)
    (hf : ∀ a, Keeps sem inv rely guar R (f a)) : Keeps sem inv rely guar R (p >>= f) :=
  fun s h => SafeE.bind (SafeE.mono (hp s h) (fun a s' h' => hf a s' h') fun _ _ he => he)

theorem Keeps.attempt {p : Raising S ε α} (hp : Keeps sem inv rely guar R p) :
    Keeps sem inv rely guar R (Raising.attempt p) :=
  fun s h => SafeE.attempt (hp s h)

include hR in
theorem Keeps.foldlM {f : α → β → Raising S ε α} (hf : ∀ a x, Keeps sem inv rely guar R (f a x))
    (xs : List β) (a : α) : Keeps sem inv rely guar R (xs.foldlM f a) := by
  intro s h
  exact SafeE.foldlM_of_mem (I := fun _ s => R s) (fun _ _ _ hs h' => Keeps.stable hR hs h') xs
    (fun x _ a s h' => hf a x s h') h

end Keeps

end Logic

/-! ### The program logic without interference -/

section Alone

variable {h : (o : S.Op) → σ → S.Reply o × σ} {Q : α → σ → Prop} {E : ε → σ → Prop} {s : σ}

/-- Run alone from `s`, the program returns within `Q` or raises within `E`. -/
def Ends (h : (o : S.Op) → σ → S.Reply o × σ) (p : Raising S ε α) (Q : α → σ → Prop)
    (E : ε → σ → Prop) (s : σ) : Prop :=
  outcome Q E (eval h p s).1 (eval h p s).2

theorem Ends.pure {a : α} (hQ : Q a s) : Ends h (Pure.pure a) Q E s := hQ

theorem Ends.throw {e : ε} (hE : E e s) : Ends h (MonadExcept.throw e) Q E s := hE

theorem Ends.of_eval {p : Raising S ε α} {r : Except ε α} {s' : σ} (hp : eval h p s = (r, s'))
    (hr : outcome Q E r s') : Ends h p Q E s := by
  rw [Ends, hp]; exact hr

theorem Ends.outcome_eval {p : Raising S ε α} (hp : Ends h p Q E s) :
    outcome Q E (eval h p s).1 (eval h p s).2 := hp

theorem Ends.returned {p : Raising S ε α} {a : α} {s' : σ} (hp : Ends h p Q E s)
    (hr : eval h p s = (.ok a, s')) : Q a s' := by
  rw [Ends, hr] at hp; exact hp

/-- What both postconditions say of the store holds of the store left behind. -/
theorem Ends.store {p : Raising S ε α} {P : σ → Prop}
    (hp : Ends h p (fun _ => P) (fun _ => P) s) : P (eval h p s).2 := by
  unfold Ends at hp
  rcases hr : eval h p s with ⟨r, s'⟩
  rw [hr] at hp
  cases r with
  | ok a => exact hp
  | error e => exact hp

theorem Ends.bind {p : Raising S ε α} {f : α → Raising S ε β} {Q : β → σ → Prop}
    (hp : Ends h p (fun a s => Ends h (f a) Q E s) E s) : Ends h (p >>= f) Q E s := by
  unfold Ends at hp ⊢
  rw [eval_bind]
  rcases hr : eval h p s with ⟨r, s'⟩
  rw [hr] at hp
  cases r with
  | ok a => exact hp
  | error e => exact hp

/-- Sequencing after a program whose outcome is known. -/
theorem Ends.after {p : Raising S ε α} {f : α → Raising S ε β} {Q : β → σ → Prop} {a : α} {s' : σ}
    (hp : eval h p s = (.ok a, s')) (hf : Ends h (f a) Q E s') : Ends h (p >>= f) Q E s := by
  unfold Ends at hf ⊢
  rw [eval_bind, hp]
  exact hf

theorem Ends.attempt {p : Raising S ε α} {Q : Except ε α → σ → Prop}
    (hp : Ends h p (fun a s => Q (.ok a) s) (fun e s => Q (.error e) s) s) :
    Ends h (Raising.attempt p) Q E s := by
  unfold Ends at hp ⊢
  rw [eval_attempt]
  rcases hr : eval h p s with ⟨r, s'⟩
  rw [hr] at hp
  cases r with
  | ok a => exact hp
  | error e => exact hp

theorem Ends.mono {p : Raising S ε α} {Q' : α → σ → Prop} {E' : ε → σ → Prop}
    (hp : Ends h p Q E s) (hQ : ∀ a s, Q a s → Q' a s) (hE : ∀ e s, E e s → E' e s) :
    Ends h p Q' E' s := by
  unfold Ends at hp ⊢
  rcases hr : eval h p s with ⟨r, s'⟩
  rw [hr] at hp
  cases r with
  | ok a => exact hQ a s' hp
  | error e => exact hE e s' hp

/-- Sequencing through an intermediate assertion. -/
theorem Ends.seq {p : Raising S ε α} {f : α → Raising S ε β} {R : α → σ → Prop} {Q : β → σ → Prop}
    (hp : Ends h p R E s) (hf : ∀ a s', R a s' → Ends h (f a) Q E s') : Ends h (p >>= f) Q E s :=
  Ends.bind (hp.mono (fun a s' ha => hf a s' ha) fun _ _ he => he)

theorem Ends.ite {c : Prop} [Decidable c] {p q : Raising S ε α} (hp : c → Ends h p Q E s)
    (hq : ¬ c → Ends h q Q E s) : Ends h (if c then p else q) Q E s := by
  split
  · exact hp ‹_›
  · exact hq ‹_›

theorem Ends.trivial {p : Raising S ε α} :
    Ends h p (fun _ _ => True) (fun _ _ => True) s := by
  unfold Ends
  rcases eval h p s with ⟨r, s'⟩
  cases r with
  | ok a => exact True.intro
  | error e => exact True.intro

/-- What every action of a program keeps, the program keeps. -/
theorem Ends.of_only {P : S.Op → Prop} {R : σ → Prop} (hP : ∀ o s, P o → R s → R (h o s).2)
    {p : Raising S ε α} (hp : Only P p) (hs : R s) : Ends h p (fun _ => R) (fun _ => R) s := by
  have hprog : ∀ (q : Prog S (Except ε α)), q.Only P → ∀ s, R s → R (q.eval h s).2 := by
    intro q
    induction q with
    | ret a => intro _ s hs; exact hs
    | act o k ih => intro hq s hs; exact ih _ (hq.2 _) _ (hP o s hq.1 hs)
  have hR : R (eval h p s).2 := hprog p.run hp s hs
  unfold Ends
  rcases hr : eval h p s with ⟨r, s'⟩
  rw [hr] at hR
  cases r with
  | ok a => exact hR
  | error e => exact hR

theorem Ends.and {p : Raising S ε α} {Q' : α → σ → Prop} {E' : ε → σ → Prop}
    (hp : Ends h p Q E s) (hp' : Ends h p Q' E' s) :
    Ends h p (fun a s => Q a s ∧ Q' a s) (fun e s => E e s ∧ E' e s) s := by
  unfold Ends at hp hp' ⊢
  rcases hr : eval h p s with ⟨r, s'⟩
  rw [hr] at hp hp'
  cases r with
  | ok a => exact ⟨hp, hp'⟩
  | error e => exact ⟨hp, hp'⟩

/-- A program that runs alone has one outcome. -/
theorem Ends.forall {ι : Type*} {p : Raising S ε α} {Q : ι → α → σ → Prop} {E : ι → ε → σ → Prop}
    (hp : ∀ i, Ends h p (Q i) (E i) s) :
    Ends h p (fun a s => ∀ i, Q i a s) (fun e s => ∀ i, E i e s) s := by
  unfold Ends at hp ⊢
  rcases hr : eval h p s with ⟨r, s'⟩
  rw [hr] at hp
  cases r with
  | ok a => exact hp
  | error e => exact hp

/-- Loops: an invariant over the elements still to be processed. -/
theorem Ends.foldlM {f : α → β → Raising S ε α} {I : List β → α → σ → Prop}
    (hstep : ∀ x rest a s, I (x :: rest) a s → Ends h (f a x) (fun a' s' => I rest a' s') E s)
    (xs : List β) {a : α} {s : σ} (hs : I xs a s) :
    Ends h (xs.foldlM f a) (fun a s => I [] a s) E s := by
  induction xs generalizing a s with
  | nil => exact hs
  | cons x rest ih =>
    rw [List.foldlM_cons]
    exact Ends.bind (Ends.mono (hstep x rest a s hs) (fun a' s' h' => ih h') fun _ _ he => he)

/-- A run alone is a sequence of the changes its actions make. -/
theorem eval_steps {R : σ → σ → Prop} (hR : ∀ o s, R s (h o s).2) (p : Raising S ε α) (s : σ) :
    Relation.ReflTransGen R s (eval h p s).2 := by
  have hprog : ∀ (q : Prog S (Except ε α)) (s : σ), Relation.ReflTransGen R s (q.eval h s).2 := by
    intro q
    induction q with
    | ret a => intro s; exact .refl
    | act o k ih => intro s; exact .head (hR o s) (ih _ _)
  exact hprog p.run s

end Alone

end Raising

end Interleave
