import AutoTrader.Lib.Raising

/-!
# Traces of a program

What a program does in a world it does not control: every action is answered by
something the world may answer, and leaves one entry in the trace.  `label`
says which entries an action may leave with which answers, so that a store that
others write between two actions is a label that admits any store.

The inversion lemmas take the trace of a composed program apart.
-/

namespace Interleave

variable {S : Signature} {E ε α β : Type}

/-- One run of a program: its trace and what it returned. -/
inductive Prog.Trace (label : (o : S.Op) → S.Reply o → E → Prop) : Prog S α → List E → α → Prop
  | ret (a : α) : Trace label (.ret a) [] a
  | act {o : S.Op} {k : S.Reply o → Prog S α} {b : S.Reply o} {e : E} {es : List E} {a : α} :
      label o b e → Trace label (k b) es a → Trace label (.act o k) (e :: es) a

theorem Prog.Trace.bind_inv {label : (o : S.Op) → S.Reply o → E → Prop} {p : Prog S α}
    {f : α → Prog S β} {es : List E} {b : β} (h : Prog.Trace label (p >>= f) es b) :
    ∃ front back a, es = front ++ back ∧ Prog.Trace label p front a ∧ Prog.Trace label (f a) back b := by
  induction p generalizing es with
  | ret a => exact ⟨[], es, a, rfl, .ret a, h⟩
  | act o k ih =>
    cases h with
    | @act _ _ r e rest _ hlabel hrest =>
      obtain ⟨front, back, a, rfl, hp, hf⟩ := ih r hrest
      exact ⟨e :: front, back, a, rfl, .act hlabel hp, hf⟩

/-- The entries a program leaves when every action is answered by a handler. -/
def Prog.log {σ : Type} (h : (o : S.Op) → σ → S.Reply o × σ) (entry : S.Op → σ → E) :
    Prog S α → σ → List E
  | .ret _, _ => []
  | .act o k, s => entry o s :: (k (h o s).1).log h entry (h o s).2

/-- A run alone is one of the runs. -/
theorem Prog.trace_eval {σ : Type} {label : (o : S.Op) → S.Reply o → E → Prop}
    {h : (o : S.Op) → σ → S.Reply o × σ} {entry : S.Op → σ → E}
    (hlabel : ∀ o s, label o (h o s).1 (entry o s)) (p : Prog S α) (s : σ) :
    Prog.Trace label p (p.log h entry s) (p.eval h s).1 := by
  induction p generalizing s with
  | ret a => exact .ret a
  | act o k ih => exact .act (hlabel o s) (ih _ _)

namespace Raising

/-- One run of a program that can raise. -/
abbrev Trace (label : (o : S.Op) → S.Reply o → E → Prop) (p : Raising S ε α) (es : List E)
    (r : Except ε α) : Prop :=
  Prog.Trace label p.run es r

variable {label : (o : S.Op) → S.Reply o → E → Prop} {es : List E}

theorem Trace.pure_inv {a : α} {r : Except ε α} (h : Trace label (pure a : Raising S ε α) es r) :
    es = [] ∧ r = .ok a := by
  cases h
  exact ⟨rfl, rfl⟩

theorem Trace.throw_inv {e : ε} {r : Except ε α} (h : Trace label (throw e : Raising S ε α) es r) :
    es = [] ∧ r = .error e := by
  cases h
  exact ⟨rfl, rfl⟩

theorem Trace.ask_inv {o : S.Op} {r : Except ε (S.Reply o)}
    (h : Trace label (ask o : Raising S ε _) es r) : ∃ b e, label o b e ∧ es = [e] ∧ r = .ok b := by
  cases h with
  | @act _ _ b e rest _ hlabel hrest =>
    cases hrest
    exact ⟨b, e, hlabel, rfl, rfl⟩

/-- A sequence returned from both parts, or its first part raised. -/
theorem Trace.bind_inv {p : Raising S ε α} {f : α → Raising S ε β} {r : Except ε β}
    (h : Trace label (p >>= f) es r) :
    (∃ front back a, es = front ++ back ∧ Trace label p front (.ok a) ∧ Trace label (f a) back r) ∨
    ∃ e, Trace label p es (.error e) ∧ r = .error e := by
  obtain ⟨front, back, r', rfl, hp, hf⟩ := Prog.Trace.bind_inv h
  cases r' with
  | ok a => exact .inl ⟨front, back, a, rfl, hp, hf⟩
  | error e =>
    cases hf
    rw [List.append_nil]
    exact .inr ⟨e, hp, rfl⟩

theorem Trace.attempt_inv {p : Raising S ε α} {r : Except ε (Except ε α)}
    (h : Trace label (attempt p) es r) : ∃ r', Trace label p es r' ∧ r = .ok r' := by
  obtain ⟨front, back, r', rfl, hp, hf⟩ := Prog.Trace.bind_inv h
  cases hf
  rw [List.append_nil]
  exact ⟨r', hp, rfl⟩

end Raising

end Interleave
