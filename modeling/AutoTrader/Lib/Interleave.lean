import Mathlib.Logic.Relation
import Mathlib.Logic.Function.Basic

/-!
# Programs of atomic actions and their interleavings

A program is a tree of atomic actions: it performs one action on the shared
store, receives the reply, and continues with it.  The same tree has two
readings.  `eval` runs it alone, from start to end, against a handler.  A `Pool`
runs any number of programs at once: at every step one of them performs its next
action, a program is started, stopped (finished or crashed), or the environment
changes the store.

`Safe` is the program logic of pools: started in `s`, a program keeps
the invariant, makes only the store changes it guarantees, and returns a value
that satisfies the postcondition, whatever the others do in between within the
rely relation.  `reachable_inv` and `reachable_step` lift it to pools.
-/

namespace Interleave

/-- The atomic actions of a language and the replies they receive. -/
structure Signature where
  Op : Type 1
  Reply : Op → Type

/-- A program: return, or perform an action and continue with its reply. -/
inductive Prog (S : Signature) (α : Type) : Type 1
  | ret (a : α)
  | act (o : S.Op) (k : S.Reply o → Prog S α)

namespace Prog

variable {S : Signature} {σ α β γ : Type}

protected def bind : Prog S α → (α → Prog S β) → Prog S β
  | .ret a, f => f a
  | .act o k, f => .act o fun b => (k b).bind f

instance : Monad (Prog S) where
  pure := .ret
  bind := Prog.bind

/-- Perform one action. -/
def perform (o : S.Op) : Prog S (S.Reply o) := .act o .ret

@[simp] theorem pure_eq (a : α) : (pure a : Prog S α) = .ret a := rfl

@[simp] theorem ret_bind (a : α) (f : α → Prog S β) : (Prog.ret a >>= f) = f a := rfl

@[simp] theorem act_bind (o : S.Op) (k : S.Reply o → Prog S α) (f : α → Prog S β) :
    (Prog.act o k >>= f) = .act o fun b => k b >>= f := rfl

theorem bind_assoc (p : Prog S α) (f : α → Prog S β) (g : β → Prog S γ) :
    (p >>= f) >>= g = p >>= fun a => f a >>= g := by
  induction p with
  | ret a => rfl
  | act o k ih => simp only [act_bind, ih]

/-! ### Which actions a program can perform -/

/-- Every action the program can perform satisfies `P`. -/
def Only (P : S.Op → Prop) : Prog S α → Prop
  | .ret _ => True
  | .act o k => P o ∧ ∀ b, (k b).Only P

theorem Only.bind {P : S.Op → Prop} {p : Prog S α} {f : α → Prog S β} (hp : p.Only P)
    (hf : ∀ a, (f a).Only P) : (p >>= f).Only P := by
  induction p with
  | ret a => exact hf a
  | act o k ih => exact ⟨hp.1, fun b => ih b (hp.2 b)⟩

theorem Only.mono {P Q : S.Op → Prop} (h : ∀ o, P o → Q o) {p : Prog S α} (hp : p.Only P) :
    p.Only Q := by
  induction p with
  | ret a => trivial
  | act o k ih => exact ⟨h o hp.1, fun b => ih b (hp.2 b)⟩

theorem Only.and {P Q : S.Op → Prop} {p : Prog S α} (hp : p.Only P) (hq : p.Only Q) :
    p.Only fun o => P o ∧ Q o := by
  induction p with
  | ret a => trivial
  | act o k ih => exact ⟨⟨hp.1, hq.1⟩, fun b => ih b (hp.2 b) (hq.2 b)⟩

theorem Only.all (p : Prog S α) : p.Only fun _ => True := by
  induction p with
  | ret a => trivial
  | act o k ih => exact ⟨trivial, ih⟩

/-! ### Running alone -/

/-- Run a program to its end, every action answered by the handler. -/
def eval (h : (o : S.Op) → σ → S.Reply o × σ) : Prog S α → σ → α × σ
  | .ret a, s => (a, s)
  | .act o k, s => (k (h o s).1).eval h (h o s).2

theorem eval_bind (h : (o : S.Op) → σ → S.Reply o × σ) (p : Prog S α) (f : α → Prog S β) (s : σ) :
    (p >>= f).eval h s = (f (p.eval h s).1).eval h (p.eval h s).2 := by
  induction p generalizing s with
  | ret a => rfl
  | act o k ih => simp only [act_bind, eval, ih]

/-- Perform at most `n` actions of a program, every one answered by the handler. -/
def advance (h : (o : S.Op) → σ → S.Reply o × σ) : Nat → Prog S α × σ → Prog S α × σ
  | 0, c => c
  | _ + 1, (.ret a, s) => (.ret a, s)
  | n + 1, (.act o k, s) => advance h n (k (h o s).1, (h o s).2)

/-- The next `n` actions meet a condition, each in the store it is performed in. -/
def Meets (ok : S.Op → σ → Prop) (h : (o : S.Op) → σ → S.Reply o × σ) : Nat → Prog S α × σ → Prop
  | 0, _ => True
  | _ + 1, (.ret _, _) => True
  | n + 1, (.act o k, s) => ok o s ∧ Meets ok h n (k (h o s).1, (h o s).2)

instance Meets.decidable (ok : S.Op → σ → Prop) [∀ o s, Decidable (ok o s)]
    (h : (o : S.Op) → σ → S.Reply o × σ) : (n : Nat) → (c : Prog S α × σ) → Decidable (Meets ok h n c)
  | 0, _ => .isTrue trivial
  | _ + 1, (.ret _, _) => .isTrue trivial
  | n + 1, (.act o k, s) =>
    @instDecidableAnd (ok o s) (Meets ok h n (k (h o s).1, (h o s).2)) inferInstance
      (Meets.decidable ok h n (k (h o s).1, (h o s).2))

theorem Meets.always (h : (o : S.Op) → σ → S.Reply o × σ) (n : Nat) (c : Prog S α × σ) :
    Meets (fun _ _ => True) h n c := by
  induction n generalizing c with
  | zero => trivial
  | succ n ih =>
    obtain ⟨p, s⟩ := c
    cases p with
    | ret a => trivial
    | act o k => exact ⟨trivial, ih _⟩

/-! ### The program logic -/

section Logic

variable (sem : (o : S.Op) → σ → S.Reply o → σ → Prop) (inv : σ → Prop) (rely guar : σ → σ → Prop)

/-- Started in `s`, the program keeps `inv`, changes the store only within
    `guar`, and returns within `Q`, under interference within `rely`. -/
def Safe : Prog S α → (α → σ → Prop) → σ → Prop
  | .ret a, Q, s => ∀ s', Relation.ReflTransGen rely s s' → Q a s'
  | .act o k, Q, s => ∀ s₁, Relation.ReflTransGen rely s s₁ → inv s₁ →
      ∀ b s₂, sem o s₁ b s₂ → inv s₂ ∧ guar s₁ s₂ ∧ Safe (k b) Q s₂

variable {sem inv rely guar}

/-- Safety is stable under interference. -/
theorem Safe.interfere {p : Prog S α} {Q : α → σ → Prop} {s s' : σ}
    (h : p.Safe sem inv rely guar Q s) (hs : Relation.ReflTransGen rely s s') :
    p.Safe sem inv rely guar Q s' := by
  cases p with
  | ret a => intro s'' hs'; exact h s'' (hs.trans hs')
  | act o k => intro s₁ hs₁; exact h s₁ (hs.trans hs₁)

theorem Safe.mono {p : Prog S α} {Q Q' : α → σ → Prop} {s : σ}
    (h : p.Safe sem inv rely guar Q s) (hQ : ∀ a s, Q a s → Q' a s) :
    p.Safe sem inv rely guar Q' s := by
  induction p generalizing s with
  | ret a => intro s' hs'; exact hQ a s' (h s' hs')
  | act o k ih =>
    intro s₁ hs₁ hi b s₂ hb
    obtain ⟨hi₂, hg, hk⟩ := h s₁ hs₁ hi b s₂ hb
    exact ⟨hi₂, hg, ih b hk⟩

/-- A postcondition also holds after any further interference. -/
theorem Safe.stable {p : Prog S α} {Q : α → σ → Prop} {s : σ}
    (h : p.Safe sem inv rely guar Q s) :
    p.Safe sem inv rely guar (fun a s => ∀ s', Relation.ReflTransGen rely s s' → Q a s') s := by
  induction p generalizing s with
  | ret a => intro s' hs' s'' hs''; exact h s'' (hs'.trans hs'')
  | act o k ih =>
    intro s₁ hs₁ hi b s₂ hb
    obtain ⟨hi₂, hg, hk⟩ := h s₁ hs₁ hi b s₂ hb
    exact ⟨hi₂, hg, ih b hk⟩

theorem Safe.bind {p : Prog S α} {f : α → Prog S β} {Q : β → σ → Prop} {s : σ}
    (h : p.Safe sem inv rely guar (fun a s => (f a).Safe sem inv rely guar Q s) s) :
    (p >>= f).Safe sem inv rely guar Q s := by
  induction p generalizing s with
  | ret a => exact h s .refl
  | act o k ih =>
    intro s₁ hs₁ hi b s₂ hb
    obtain ⟨hi₂, hg, hk⟩ := h s₁ hs₁ hi b s₂ hb
    exact ⟨hi₂, hg, ih b hk⟩

/-- A program all of whose possible actions are within the guarantee is safe,
    whatever it computes. -/
theorem Safe.of_acts
    (h : ∀ o s b s', inv s → sem o s b s' → inv s' ∧ guar s s') (p : Prog S α) (s : σ) :
    p.Safe sem inv rely guar (fun _ _ => True) s := by
  induction p generalizing s with
  | ret a => intro _ _; trivial
  | act o k ih =>
    intro s₁ _ hi b s₂ hb
    exact ⟨(h o s₁ b s₂ hi hb).1, (h o s₁ b s₂ hi hb).2, ih b s₂⟩

/-- A program all of whose actions keep `R` keeps `R`. -/
theorem Safe.of_only {P : S.Op → Prop} {R : σ → Prop} (hR : ∀ s s', rely s s' → R s → R s')
    (hP : ∀ o, P o → ∀ s b s', R s → inv s → sem o s b s' → inv s' ∧ guar s s' ∧ R s')
    {p : Prog S α} (hp : p.Only P) {s : σ} (h : R s) :
    p.Safe sem inv rely guar (fun _ => R) s := by
  have hstable : ∀ {s s' : σ}, Relation.ReflTransGen rely s s' → R s → R s' := by
    intro s s' hs
    induction hs with
    | refl => exact fun h => h
    | tail _ hstep ih => exact fun h => hR _ _ hstep (ih h)
  induction p generalizing s with
  | ret a => exact fun s' hs => hstable hs h
  | act o k ih =>
    intro s₁ hs₁ hi b s₂ hb
    obtain ⟨hi₂, hg, h₂⟩ := hP o hp.1 s₁ b s₂ (hstable hs₁ h) hi hb
    exact ⟨hi₂, hg, ih b (hp.2 b) h₂⟩

end Logic

end Prog

/-! ### Pools -/

/-- The shared store and the programs running on it, by process number. -/
structure Pool (S : Signature) (σ : Type) where
  store : σ
  procs : Nat → Option (Prog S Unit)

/-- What may happen in a pool: the meaning of an action performed by a process,
    the changes the environment makes by itself, the programs that may start. -/
structure System (S : Signature) (σ : Type) where
  sem : Nat → (o : S.Op) → σ → S.Reply o → σ → Prop
  env : σ → σ → Prop
  spawn : Nat → Pool S σ → Prog S Unit → Prop

namespace System

variable {S : Signature} {σ : Type} (sys : System S σ)

inductive Step : Pool S σ → Pool S σ → Prop
  | act {p : Pool S σ} {i : Nat} {o : S.Op} {k : S.Reply o → Prog S Unit} {b : S.Reply o} {s' : σ} :
      p.procs i = some (.act o k) → sys.sem i o p.store b s' →
      Step p ⟨s', Function.update p.procs i (some (k b))⟩
  | start {p : Pool S σ} {i : Nat} {q : Prog S Unit} :
      p.procs i = none → sys.spawn i p q → Step p ⟨p.store, Function.update p.procs i (some q)⟩
  | stop {p : Pool S σ} {i : Nat} : Step p ⟨p.store, Function.update p.procs i none⟩
  | env {p : Pool S σ} {s' : σ} : sys.env p.store s' → Step p ⟨s', p.procs⟩

/-- The pools a run can pass through, from a store and no program running. -/
inductive Reachable (init : σ → Prop) : Pool S σ → Prop
  | init {s : σ} : init s → Reachable init ⟨s, fun _ => none⟩
  | step {p q : Pool S σ} : Reachable init p → sys.Step p q → Reachable init q

/-- The interference process `i` has to expect: the environment, and what the
    other processes guarantee. -/
def rely (inv : σ → Prop) (guar : Nat → σ → σ → Prop) (i : Nat) (s s' : σ) : Prop :=
  inv s ∧ inv s' ∧ (sys.env s s' ∨ ∃ j, j ≠ i ∧ guar j s s')

variable {sys}

section Contract

variable {init inv : σ → Prop} {guar : Nat → σ → σ → Prop}

/-- What the programs of a system owe to one another. -/
structure Contract (sys : System S σ) (init inv : σ → Prop) (guar : Nat → σ → σ → Prop) : Prop where
  init : ∀ s, init s → inv s
  env : ∀ s s', inv s → sys.env s s' → inv s'
  spawn : ∀ i (p : Pool S σ) q, inv p.store → sys.spawn i p q →
    q.Safe (sys.sem i) inv (sys.rely inv guar i) (guar i) (fun _ _ => True) p.store

/-- Along every run the invariant holds and every running program is safe. -/
theorem reachable_safe (c : sys.Contract init inv guar) {p : Pool S σ}
    (h : sys.Reachable init p) :
    inv p.store ∧ ∀ i q, p.procs i = some q →
      q.Safe (sys.sem i) inv (sys.rely inv guar i) (guar i) (fun _ _ => True) p.store := by
  induction h with
  | init hs => exact ⟨c.init _ hs, fun i q hq => by simp at hq⟩
  | @step p r hp hstep ih =>
    obtain ⟨hinv, hsafe⟩ := ih
    cases hstep with
    | @act i o k b s' hi hsem =>
      obtain ⟨hinv', hg, hk⟩ := hsafe i _ hi _ .refl hinv b s' hsem
      refine ⟨hinv', fun j q hq => ?_⟩
      by_cases hji : j = i
      · subst hji
        simp only [Function.update_self, Option.some.injEq] at hq
        subst hq
        exact hk
      · simp only [ne_eq, hji, not_false_eq_true, Function.update_of_ne] at hq
        exact (hsafe j q hq).interfere (.single ⟨hinv, hinv', .inr ⟨i, Ne.symm hji, hg⟩⟩)
    | @start i q hi hspawn =>
      refine ⟨hinv, fun j r hr => ?_⟩
      by_cases hji : j = i
      · subst hji
        simp only [Function.update_self, Option.some.injEq] at hr
        subst hr
        exact c.spawn j p q hinv hspawn
      · simp only [ne_eq, hji, not_false_eq_true, Function.update_of_ne] at hr
        exact hsafe j r hr
    | @stop i =>
      refine ⟨hinv, fun j r hr => ?_⟩
      by_cases hji : j = i
      · subst hji; simp at hr
      · simp only [ne_eq, hji, not_false_eq_true, Function.update_of_ne] at hr
        exact hsafe j r hr
    | @env s' henv =>
      have hinv' := c.env _ _ hinv henv
      exact ⟨hinv', fun j r hr =>
        (hsafe j r hr).interfere (.single ⟨hinv, hinv', .inl henv⟩)⟩

/-- The invariant holds in every store a run passes through. -/
theorem reachable_inv (c : sys.Contract init inv guar) {p : Pool S σ}
    (h : sys.Reachable init p) : inv p.store :=
  (reachable_safe c h).1

/-- Every store change along a run is one of the environment or one that a
    process guarantees. -/
theorem reachable_step (c : sys.Contract init inv guar) {p q : Pool S σ}
    (h : sys.Reachable init p) (hstep : sys.Step p q) :
    q.store = p.store ∨ sys.env p.store q.store ∨ ∃ i, guar i p.store q.store := by
  obtain ⟨hinv, hsafe⟩ := reachable_safe c h
  cases hstep with
  | @act i o k b s' hi hsem =>
    exact .inr (.inr ⟨i, (hsafe i _ hi _ .refl hinv b s' hsem).2.1⟩)
  | start => exact .inl rfl
  | stop => exact .inl rfl
  | env henv => exact .inr (.inl henv)

end Contract

/-! ### The actions of the running programs -/

/-- Every running program performs only actions that its process may perform. -/
def Within (P : Nat → S.Op → Prop) (p : Pool S σ) : Prop := ∀ i q, p.procs i = some q → q.Only (P i)

theorem Within.step {P : Nat → S.Op → Prop}
    (hspawn : ∀ i (p : Pool S σ) q, sys.spawn i p q → q.Only (P i)) {p p' : Pool S σ}
    (h : Within P p) (hstep : sys.Step p p') : Within P p' := by
  have hupdate : ∀ i r, (∀ q, r = some q → q.Only (P i)) →
      ∀ s, Within P (⟨s, Function.update p.procs i r⟩ : Pool S σ) := by
    intro i r hr s j q hq
    by_cases hji : j = i
    · subst hji
      simp only [Function.update_self] at hq
      exact hr q hq
    · simp only [ne_eq, hji, not_false_eq_true, Function.update_of_ne] at hq
      exact h j q hq
  cases hstep with
  | @act i o k b s' hi hsem =>
    refine hupdate i _ ?_ s'
    rintro q ⟨⟩
    exact (h i _ hi).2 b
  | @start i q hi hq =>
    refine hupdate i _ ?_ p.store
    rintro q' ⟨⟩
    exact hspawn i p q hq
  | @stop i => exact hupdate i none nofun p.store
  | env => exact h

theorem reachable_within {init : σ → Prop} {P : Nat → S.Op → Prop}
    (hspawn : ∀ i (p : Pool S σ) q, sys.spawn i p q → q.Only (P i)) {p : Pool S σ}
    (h : sys.Reachable init p) : Within P p := by
  induction h with
  | init => exact nofun
  | step _ hstep ih => exact ih.step hspawn hstep

/-- A predicate that every allowed action and the environment keep holds along a run. -/
theorem steps_keep {P : Nat → S.Op → Prop} {R : σ → Prop}
    (hspawn : ∀ i (p : Pool S σ) q, sys.spawn i p q → q.Only (P i))
    (hact : ∀ i o s b s', P i o → sys.sem i o s b s' → R s → R s')
    (henv : ∀ s s', sys.env s s' → R s → R s') {p q : Pool S σ} (hp : Within P p)
    (hpq : Relation.ReflTransGen sys.Step p q) (h : R p.store) : Within P q ∧ R q.store := by
  induction hpq with
  | refl => exact ⟨hp, h⟩
  | tail _ hstep ih =>
    obtain ⟨hwithin, hR⟩ := ih
    refine ⟨hwithin.step hspawn hstep, ?_⟩
    cases hstep with
    | @act i o k b s' hi hsem => exact hact i o _ b s' (hwithin i _ hi).1 hsem hR
    | start => exact hR
    | stop => exact hR
    | env hs => exact henv _ _ hs hR

/-! ### Replaying a schedule -/

theorem Reachable.steps {init : σ → Prop} {p q : Pool S σ} (h : sys.Reachable init p)
    (hpq : Relation.ReflTransGen sys.Step p q) : sys.Reachable init q := by
  induction hpq with
  | refl => exact h
  | tail _ hstep ih => exact ih.step hstep

section Replay

variable {init : σ → Prop} {i : Nat} {ok : S.Op → σ → Prop} {h : (o : S.Op) → σ → S.Reply o × σ}
  (hh : ∀ o s, ok o s → sys.sem i o s (h o s).1 (h o s).2) (n : Nat)

include hh

/-- Letting one process perform `n` actions is a stretch of a run, when the
    handler answers as the system may. -/
theorem steps_advance {p : Pool S σ} {q : Prog S Unit} (hq : p.procs i = some q)
    (hm : Prog.Meets ok h n (q, p.store)) :
    Relation.ReflTransGen sys.Step p ⟨(Prog.advance h n (q, p.store)).2,
      Function.update p.procs i (some (Prog.advance h n (q, p.store)).1)⟩ := by
  induction n generalizing p q with
  | zero =>
    have hpq : Function.update p.procs i (some q) = p.procs := by
      rw [← hq, Function.update_eq_self]
    simp only [Prog.advance, hpq]
    exact .refl
  | succ n ih =>
    cases q with
    | ret a =>
      have hpq : Function.update p.procs i (some (.ret a)) = p.procs := by
        rw [← hq, Function.update_eq_self]
      simp only [Prog.advance, hpq]
      exact .refl
    | act o k =>
      have hnext : sys.Step p _ := .act hq (hh o p.store hm.1)
      have hrest := ih (p := ⟨(h o p.store).2, Function.update p.procs i (some (k (h o p.store).1))⟩)
        (q := k (h o p.store).1) (by simp) hm.2
      simpa only [Prog.advance, Function.update_idem] using Relation.ReflTransGen.head hnext hrest

/-- The next action of a process, where it changes the store. -/
theorem step_advance {p : Pool S σ} {q : Prog S Unit} (hq : p.procs i = some q)
    (hm : Prog.Meets ok h 1 (q, p.store)) (hchange : (Prog.advance h 1 (q, p.store)).2 ≠ p.store) :
    sys.Step p ⟨(Prog.advance h 1 (q, p.store)).2,
      Function.update p.procs i (some (Prog.advance h 1 (q, p.store)).1)⟩ := by
  cases q with
  | ret a => exact absurd rfl hchange
  | act o k => exact .act hq (hh o p.store hm.1)

/-- Starting a process, letting it perform `n` actions and stopping it. -/
theorem steps_excursion {s : σ} {procs : Nat → Option (Prog S Unit)} {q : Prog S Unit}
    (hi : procs i = none) (hq : sys.spawn i ⟨s, procs⟩ q) (hm : Prog.Meets ok h n (q, s)) :
    Relation.ReflTransGen sys.Step ⟨s, procs⟩ ⟨(Prog.advance h n (q, s)).2, procs⟩ := by
  have hstart : sys.Step ⟨s, procs⟩ ⟨s, Function.update procs i (some q)⟩ := .start hi hq
  have hrun := (Relation.ReflTransGen.head hstart (steps_advance hh n (q := q) (by simp) hm)).tail
    (.stop (i := i))
  have hnone : Function.update procs i none = procs := by
    rw [← hi, Function.update_eq_self]
  simpa only [Function.update_idem, hnone] using hrun

end Replay

end System

end Interleave
