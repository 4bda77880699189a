import AutoTrader.Lib.Interleave

/-!
# Programs that follow an automaton

An automaton watches the actions of one program: which action it may perform next
depends on the actions and replies so far.  `Follows` says that a program keeps to the
automaton whatever the replies are, and ends in a state that fits what it returns.

`reachable_follows` is the rule for pools: a statement about the store and the state of
the automaton holds along every run if the watched process keeps it with every action
the automaton allows, and the other processes and the environment leave it alone.
-/

namespace Interleave

/-- Which actions may come next, and how a reply moves the state on. -/
structure Automaton (S : Signature) (A : Type) where
  allowed : A → S.Op → Prop
  next : A → (o : S.Op) → S.Reply o → A

variable {S : Signature} {A α β σ : Type}

/-- Started in a state, the program performs only allowed actions and returns as
    `done` says. -/
def Prog.Follows (m : Automaton S A) (done : A → α → Prop) : Prog S α → A → Prop
  | .ret x, a => done a x
  | .act o k, a => m.allowed a o ∧ ∀ b, (k b).Follows m done (m.next a o b)

namespace Prog.Follows

variable {m : Automaton S A} {done : A → α → Prop} {a : A}

theorem ret {x : α} (h : done a x) : (Prog.ret x).Follows m done a := h

/-- One action moves the automaton by its reply. -/
theorem single {o : S.Op} (ho : m.allowed a o) :
    (Prog.act o .ret).Follows m (fun a' b => a' = m.next a o b) a := ⟨ho, fun _ => rfl⟩

theorem ite {c : Prop} [Decidable c] {p q : Prog S α} (hp : c → p.Follows m done a)
    (hq : ¬ c → q.Follows m done a) : (if c then p else q).Follows m done a := by
  split
  · exact hp ‹_›
  · exact hq ‹_›

theorem mono {p : Prog S α} {done' : A → α → Prop} (hp : p.Follows m done a)
    (h : ∀ a x, done a x → done' a x) : p.Follows m done' a := by
  induction p generalizing a with
  | ret x => exact h a x hp
  | act o k ih => exact ⟨hp.1, fun b => ih b (hp.2 b)⟩

/-- Sequencing through an intermediate condition. -/
theorem bind {p : Prog S α} {f : α → Prog S β} {done' : A → β → Prop} (hp : p.Follows m done a)
    (hf : ∀ a x, done a x → (f x).Follows m done' a) : (p >>= f).Follows m done' a := by
  induction p generalizing a with
  | ret x => exact hf a x hp
  | act o k ih => exact ⟨hp.1, fun b => ih b (hp.2 b)⟩

end Prog.Follows

namespace System

variable {sys : System S σ} {init : σ → Prop} {m : Automaton S A} {done : A → Unit → Prop}

/-- A statement about the store and the automaton of one process holds along every run. -/
theorem reachable_follows (i : Nat) (K : A → σ → Prop) (start : A)
    (hinit : ∀ s, init s → K start s)
    (hspawn : ∀ (p : Pool S σ) q a, K a p.store → sys.spawn i p q → q.Follows m done start ∧ K start p.store)
    (hown : ∀ a o s b s', K a s → m.allowed a o → sys.sem i o s b s' → K (m.next a o b) s')
    (hothers : ∀ j a o s b s', j ≠ i → K a s → sys.sem j o s b s' → K a s')
    (henv : ∀ a s s', K a s → sys.env s s' → K a s') {p : Pool S σ} (h : sys.Reachable init p) :
    ∃ a, K a p.store ∧ ∀ q, p.procs i = some q → q.Follows m done a := by
  induction h with
  | init hs => exact ⟨start, hinit _ hs, nofun⟩
  | @step p r _ hstep ih =>
    obtain ⟨a, hK, hfollows⟩ := ih
    have hkeep : ∀ j r (s : σ), j ≠ i → ∀ q, (Function.update p.procs j r) i = some q →
        q.Follows m done a := by
      intro j r s hji q hq
      rw [Function.update_of_ne (Ne.symm hji)] at hq
      exact hfollows q hq
    cases hstep with
    | @act j o k b s' hj hsem =>
      by_cases hji : j = i
      · subst hji
        obtain ⟨hallowed, hk⟩ := hfollows _ hj
        refine ⟨m.next a o b, hown a o _ b s' hK hallowed hsem, fun q hq => ?_⟩
        simp only [Function.update_self, Option.some.injEq] at hq
        subst hq
        exact hk b
      · exact ⟨a, hothers j a o _ b s' hji hK hsem, hkeep j _ s' hji⟩
    | @start j q hj hq =>
      by_cases hji : j = i
      · subst hji
        obtain ⟨hstart, hKstart⟩ := hspawn p q a hK hq
        refine ⟨start, hKstart, fun q' hq' => ?_⟩
        simp only [Function.update_self, Option.some.injEq] at hq'
        subst hq'
        exact hstart
      · exact ⟨a, hK, hkeep j _ p.store hji⟩
    | @stop j =>
      by_cases hji : j = i
      · subst hji
        exact ⟨a, hK, by simp⟩
      · exact ⟨a, hK, hkeep j none p.store hji⟩
    | env hs => exact ⟨a, henv a _ _ hK hs, hfollows⟩

end System

end Interleave
