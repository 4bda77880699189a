import AutoTrader.Lib.Typestate
import Mathlib.Control.Lawful

/-!
# Programs with variables

`Worker S L ε` adds local variables and exceptions to the programs of `Interleave`.  The variables keep
what was written to them before an exception, as those of a loop do that catches what its body raises.

`Follows` says that such a program keeps to an automaton whatever its actions are answered, and how the
variables and the automaton stand where it returns and where it raises.  `Only` says which actions it can
perform at all; a part that performs none the automaton looks at leaves the automaton where it is.
-/

namespace Interleave

/-- Programs with variables `L` that return an `α` or raise an `ε`. -/
abbrev Worker (S : Signature) (L ε : Type) := ExceptT ε (StateT L (Prog S))

namespace Worker

variable {S : Signature} {A L α β ε : Type}

/-- What the program does from given variables. -/
def start (p : Worker S L ε α) (l : L) : Prog S (Except ε α × L) := (p.run).run l

/-- Perform an action whose reply is a plain value. -/
def ask (o : S.Op) : Worker S L ε (S.Reply o) := fun l => .act o fun b => .ret (.ok b, l)

/-- A value, or an exception. -/
def lift (r : Except ε α) : Worker S L ε α := fun l => .ret (r, l)

/-- What the variables say. -/
def look (f : L → α) : Worker S L ε α := fun l => .ret (.ok (f l), l)

/-- Write to the variables. -/
def change (f : L → L) : Worker S L ε Unit := fun l => .ret (.ok (), f l)

/-- Catch: the outcome becomes a value. -/
def attempt (p : Worker S L ε α) : Worker S L ε (Except ε α) := fun l =>
  p.start l >>= fun r => .ret (.ok r.1, r.2)

/-- One after the other. -/
def each (f : β → Worker S L ε Unit) : List β → Worker S L ε Unit
  | [] => pure ()
  | x :: xs => do
    f x
    each f xs

/-- At most `n` rounds, until one says that it was the last. -/
def rounds (body : Worker S L ε Bool) : Nat → Worker S L ε Unit
  | 0 => pure ()
  | n + 1 => do
    if ← body then rounds body n else pure ()

@[simp] theorem start_pure (x : α) (l : L) : (pure x : Worker S L ε α).start l = .ret (.ok x, l) := rfl

@[simp] theorem start_throw (e : ε) (l : L) : (throw e : Worker S L ε α).start l = .ret (.error e, l) := rfl

@[simp] theorem start_ask (o : S.Op) (l : L) :
    (ask o : Worker S L ε _).start l = .act o fun b => .ret (.ok b, l) := rfl

@[simp] theorem start_lift (r : Except ε α) (l : L) : (lift r : Worker S L ε α).start l = .ret (r, l) := rfl

@[simp] theorem start_look (f : L → α) (l : L) : (look f : Worker S L ε α).start l = .ret (.ok (f l), l) := rfl

@[simp] theorem start_change (f : L → L) (l : L) : (change f : Worker S L ε Unit).start l = .ret (.ok (), f l) := rfl

@[simp] theorem start_attempt (p : Worker S L ε α) (l : L) :
    (attempt p).start l = p.start l >>= fun r => .ret (.ok r.1, r.2) := rfl

theorem start_bind (p : Worker S L ε α) (f : α → Worker S L ε β) (l : L) :
    (p >>= f).start l = p.start l >>= fun r =>
      match r.1 with
      | .ok x => (f x).start r.2
      | .error e => .ret (.error e, r.2) := by
  show Prog.bind _ _ = Prog.bind _ _
  congr 1
  funext r
  obtain ⟨r, l'⟩ := r
  cases r with
  | ok x => rfl
  | error e => rfl

end Worker

end Interleave
