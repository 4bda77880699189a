import Mathlib.Algebra.Order.Group.Defs
import Mathlib.Data.List.Pairwise
import Mathlib.Logic.Function.Basic

/-!
# Paced starts

A gate paces what starts under each of several keys: it keeps when the last one started and
a time before which none may start.  A log of starts and of such deadlines is paced when
every start is an interval after each earlier start of its key and not before an earlier
deadline of it.  A start that the gate admits keeps the log paced (`Paced.start`), since
the tables of the gate bound everything logged (`Bounds`).  What the gate knows of a key
depends on the entries of that key only (`gateOf_filter`).
-/

namespace Pacing

variable {K T : Type}

/-- Something started under a key, or may not start before a time. -/
inductive Entry (K T : Type) where
  | start (key : K) (time : T)
  | deadline (key : K) (time : T)

def Entry.key : Entry K T → K
  | .start key _ => key
  | .deadline key _ => key

/-- The two tables of a gate. -/
structure Gate (K T : Type) where
  lastCallAt : K → Option T
  notBefore : K → Option T

section Paced

variable [AddCommGroup T] [LinearOrder T] {interval : K → T}

/-- What an entry asks of a later one. -/
def Respects (interval : K → T) : Entry K T → Entry K T → Prop
  | .start k t, .start k' t' => k = k' → t + interval k ≤ t'
  | .deadline k d, .start k' t => k = k' → d ≤ t
  | _, .deadline _ _ => True

/-- Every entry asks of the later ones what they respect. -/
def Paced (interval : K → T) (log : List (Entry K T)) : Prop := log.Pairwise (Respects interval)

/-- The tables bound what was logged. -/
structure Bounds (gate : Gate K T) (log : List (Entry K T)) : Prop where
  started : ∀ k t, Entry.start k t ∈ log → ∃ last, gate.lastCallAt k = some last ∧ t ≤ last
  barred : ∀ k d, Entry.deadline k d ∈ log → ∃ bar, gate.notBefore k = some bar ∧ d ≤ bar

/-- The gate lets a start of the key through at the time. -/
structure Admits (interval : K → T) (gate : Gate K T) (k : K) (t : T) : Prop where
  spaced : ∀ last, gate.lastCallAt k = some last → last + interval k ≤ t
  opened : ∀ bar, gate.notBefore k = some bar → bar ≤ t

theorem Paced.nil : Paced interval ([] : List (Entry K T)) := List.Pairwise.nil

/-- An admitted start keeps the log paced. -/
theorem Paced.start [IsOrderedAddMonoid T] {log : List (Entry K T)} {gate : Gate K T} (h : Paced interval log)
    (hbounds : Bounds gate log) {k : K} {t : T} (hadmits : Admits interval gate k t) : Paced interval (log ++ [.start k t]) := by
  rw [Paced, List.pairwise_append]
  refine ⟨h, List.pairwise_singleton _ _, ?_⟩
  intro earlier hmem later hlater
  rw [List.mem_singleton.mp hlater]
  cases earlier with
  | start k' t' =>
    rintro rfl
    obtain ⟨last, hlast, hle⟩ := hbounds.started k' t' hmem
    calc t' + interval k' ≤ last + interval k' := by gcongr
      _ ≤ t := hadmits.spaced last hlast
  | deadline k' d =>
    rintro rfl
    obtain ⟨bar, hbar, hle⟩ := hbounds.barred k' d hmem
    exact hle.trans (hadmits.opened bar hbar)

/-- A deadline asks nothing of what was logged. -/
theorem Paced.deadline {log : List (Entry K T)} (h : Paced interval log) (k : K) (d : T) :
    Paced interval (log ++ [.deadline k d]) := by
  rw [Paced, List.pairwise_append]
  refine ⟨h, List.pairwise_singleton _ _, ?_⟩
  intro earlier _ later hlater
  rw [List.mem_singleton.mp hlater]
  cases earlier <;> trivial

variable [DecidableEq K]

/-- What an entry changes in the tables; a missing deadline counts as zero. -/
def Gate.apply (gate : Gate K T) : Entry K T → Gate K T
  | .start k t => { gate with lastCallAt := Function.update gate.lastCallAt k (some t) }
  | .deadline k d =>
    { gate with notBefore := Function.update gate.notBefore k (some (max ((gate.notBefore k).getD 0) d)) }

/-- The tables after a log. -/
def gateOf (log : List (Entry K T)) : Gate K T := log.foldl Gate.apply ⟨fun _ => none, fun _ => none⟩

theorem gateOf_append (log : List (Entry K T)) (entry : Entry K T) :
    gateOf (log ++ [entry]) = (gateOf log).apply entry := by
  rw [gateOf, List.foldl_append]
  rfl

/-- The tables bound their own log, when the starts of a key never go back in time. -/
theorem Bounds.start [IsOrderedAddMonoid T] {log : List (Entry K T)} {gate : Gate K T} (h : Bounds gate log)
    {k : K} {t : T} (hinterval : 0 ≤ interval k) (hadmits : Admits interval gate k t) :
    Bounds (gate.apply (.start k t)) (log ++ [.start k t]) where
  started := by
    intro k' t' hmem
    by_cases hkey : k' = k
    · subst hkey
      refine ⟨t, Function.update_self _ _ _, ?_⟩
      rcases List.mem_append.mp hmem with hmem | hmem
      · obtain ⟨last, hlast, hle⟩ := h.started k' t' hmem
        calc t' ≤ last := hle
          _ ≤ last + interval k' := le_add_of_nonneg_right hinterval
          _ ≤ t := hadmits.spaced last hlast
      · cases List.mem_singleton.mp hmem
        exact le_rfl
    · rcases List.mem_append.mp hmem with hmem | hmem
      · obtain ⟨last, hlast, hle⟩ := h.started k' t' hmem
        exact ⟨last, (Function.update_of_ne hkey _ _).trans hlast, hle⟩
      · cases List.mem_singleton.mp hmem
        exact absurd rfl hkey
  barred := by
    intro k' d hmem
    rcases List.mem_append.mp hmem with hmem | hmem
    · exact h.barred k' d hmem
    · cases List.mem_singleton.mp hmem

theorem Bounds.deadline {log : List (Entry K T)} {gate : Gate K T} (h : Bounds gate log) (k : K) (d : T) :
    Bounds (gate.apply (.deadline k d)) (log ++ [.deadline k d]) where
  started := by
    intro k' t hmem
    rcases List.mem_append.mp hmem with hmem | hmem
    · exact h.started k' t hmem
    · cases List.mem_singleton.mp hmem
  barred := by
    intro k' d' hmem
    by_cases hkey : k' = k
    · subst hkey
      refine ⟨_, Function.update_self _ _ _, ?_⟩
      rcases List.mem_append.mp hmem with hmem | hmem
      · obtain ⟨bar, hbar, hle⟩ := h.barred k' d' hmem
        rw [hbar, Option.getD_some]
        exact hle.trans (le_max_left _ _)
      · cases List.mem_singleton.mp hmem
        exact le_max_right _ _
    · rcases List.mem_append.mp hmem with hmem | hmem
      · obtain ⟨bar, hbar, hle⟩ := h.barred k' d' hmem
        exact ⟨bar, (Function.update_of_ne hkey _ _).trans hbar, hle⟩
      · cases List.mem_singleton.mp hmem
        exact absurd rfl hkey

/-! ### Each key on its own -/

/-- Two gates know the same of a key. -/
def Gate.Same (gate gate' : Gate K T) (k : K) : Prop :=
  gate.lastCallAt k = gate'.lastCallAt k ∧ gate.notBefore k = gate'.notBefore k

theorem Gate.Same.apply {gate gate' : Gate K T} {k : K} (h : gate.Same gate' k) {entry : Entry K T}
    (hkey : entry.key = k) : (gate.apply entry).Same (gate'.apply entry) k := by
  subst hkey
  cases entry with
  | start key t =>
    refine ⟨?_, h.2⟩
    simp only [Gate.apply, Entry.key, Function.update_self]
  | deadline key d =>
    have hbar : gate.notBefore key = gate'.notBefore key := h.2
    refine ⟨h.1, ?_⟩
    simp only [Gate.apply, Entry.key, Function.update_self, hbar]

/-- An entry of another key changes nothing of this one. -/
theorem Gate.same_apply (gate : Gate K T) {k : K} {entry : Entry K T} (hkey : entry.key ≠ k) :
    (gate.apply entry).Same gate k := by
  cases entry with
  | start key t => exact ⟨Function.update_of_ne (Ne.symm hkey) _ _, rfl⟩
  | deadline key d => exact ⟨rfl, Function.update_of_ne (Ne.symm hkey) _ _⟩

/-- The gate knows of a key what its own entries say. -/
theorem gateOf_filter (log : List (Entry K T)) (k : K) :
    (gateOf log).Same (gateOf (log.filter fun entry => entry.key = k)) k := by
  have hrun : ∀ (log : List (Entry K T)) (gate gate' : Gate K T), gate.Same gate' k →
      (log.foldl Gate.apply gate).Same ((log.filter fun entry => entry.key = k).foldl Gate.apply gate') k := by
    intro log
    induction log with
    | nil => exact fun _ _ h => h
    | cons entry rest ih =>
      intro gate gate' h
      by_cases hkey : entry.key = k
      · rw [List.filter_cons_of_pos (by simpa using hkey)]
        exact ih _ _ (h.apply hkey)
      · rw [List.filter_cons_of_neg (by simpa using hkey)]
        have hsame := gate.same_apply hkey
        exact ih _ _ ⟨hsame.1.trans h.1, hsame.2.trans h.2⟩
  exact hrun log _ _ ⟨rfl, rfl⟩

end Paced

end Pacing
