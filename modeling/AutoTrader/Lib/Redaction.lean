import Mathlib.Data.List.Infix

/-!
# Replacing the occurrences of a word

`replace old new text` goes through the text from the left and puts `new` for every
occurrence of `old` that does not overlap the one before.  A `Marker` is a replacement with
a bracket on either side.  A word without these brackets that occurs in the result lies
inside a marker or occurs in the text as it was (`infix_replace`), and the replaced word
itself no longer does (`not_infix_replace`).  So words that were taken out of a text stay
out, whatever is replaced later and however the words overlap (`not_infix_redact`).
-/

namespace Redaction

variable {α : Type} [DecidableEq α]

/-- The text with `old` replaced, when its first `skip` letters belong to an occurrence. -/
def replaceFrom (old new : List α) : Nat → List α → List α
  | _, [] => []
  | 0, c :: rest =>
    if old <+: c :: rest then new ++ replaceFrom old new (old.length - 1) rest
    else c :: replaceFrom old new 0 rest
  | skip + 1, _ :: rest => replaceFrom old new skip rest

/-- The text with every occurrence of a non-empty `old` replaced. -/
def replace (old new text : List α) : List α := replaceFrom old new 0 text

/-- A replacement between two brackets. -/
structure Marker (α : Type) where
  left : α
  inner : List α
  right : α

/-- The marker as it stands in a text. -/
def Marker.word (m : Marker α) : List α := m.left :: (m.inner ++ [m.right])

/-- A word that no marker contains and that runs across none. -/
structure Marker.Foreign (m : Marker α) (word : List α) : Prop where
  ne_nil : word ≠ []
  left_notMem : m.left ∉ word
  right_notMem : m.right ∉ word
  not_inner : ¬ word <:+: m.inner

section Words

omit [DecidableEq α]

/-- A prefix without the letter in the middle ends before it. -/
theorem prefix_of_middle {word back : List α} {x : α} (hx : x ∉ word) (front : List α)
    (h : word <+: front ++ x :: back) : word <+: front := by
  induction front generalizing word with
  | nil =>
    rcases List.prefix_cons_iff.mp h with rfl | ⟨rest, rfl, -⟩
    · exact List.nil_prefix
    · exact absurd List.mem_cons_self hx
  | cons y front ih =>
    rw [List.cons_append] at h
    rcases List.prefix_cons_iff.mp h with rfl | ⟨rest, rfl, hrest⟩
    · exact List.nil_prefix
    · rw [List.prefix_cons_inj]
      exact ih (fun hmem => hx (List.mem_cons_of_mem y hmem)) hrest

/-- A word without the letter in the middle lies on one side of it. -/
theorem infix_of_middle {word back : List α} {x : α} (hx : x ∉ word) (front : List α)
    (h : word <:+: front ++ x :: back) : word <:+: front ∨ word <:+: back := by
  induction front with
  | nil =>
    rcases List.infix_cons_iff.mp h with h | h
    · exact .inl (prefix_of_middle hx [] h).isInfix
    · exact .inr h
  | cons y front ih =>
    rw [List.cons_append] at h
    rcases List.infix_cons_iff.mp h with h | h
    · exact .inl (prefix_of_middle hx (y :: front) h).isInfix
    · exact (ih h).imp_left fun hfront => List.infix_cons_iff.mpr (.inr hfront)

/-- A foreign word that occurs behind a marker occurs in what follows the marker. -/
theorem Marker.Foreign.of_append {m : Marker α} {word text : List α} (hword : m.Foreign word)
    (h : word <:+: m.word ++ text) : word <:+: text := by
  have hleft : word <:+: [] ++ m.left :: (m.inner ++ m.right :: text) := by
    simpa [Marker.word] using h
  rcases infix_of_middle hword.left_notMem [] hleft with hnil | hrest
  · exact absurd (List.infix_nil.mp hnil) hword.ne_nil
  · exact (infix_of_middle hword.right_notMem m.inner hrest).resolve_left hword.not_inner

end Words

/-! ### Replacing -/

variable {m : Marker α} {old word : List α}

/-- What stands in front of the result without a bracket stands in front of the text. -/
theorem prefix_of_prefix_replace (hleft : m.left ∉ word) {text : List α}
    (h : word <+: replaceFrom old m.word 0 text) : word <+: text := by
  induction text generalizing word with
  | nil => exact h
  | cons c rest ih =>
    rw [replaceFrom] at h
    split at h
    · rcases List.prefix_cons_iff.mp h with rfl | ⟨tail, rfl, -⟩
      · exact List.nil_prefix
      · exact absurd List.mem_cons_self hleft
    · rcases List.prefix_cons_iff.mp h with rfl | ⟨tail, rfl, htail⟩
      · exact List.nil_prefix
      · rw [List.prefix_cons_inj]
        exact ih (fun hmem => hleft (List.mem_cons_of_mem c hmem)) htail

/-- A foreign word of the result occurs in the text, and not where the replaced word begins. -/
theorem infix_replaceFrom (hword : m.Foreign word) (skip : Nat) {text : List α}
    (h : word <:+: replaceFrom old m.word skip text) :
    ∃ front back, text = front ++ back ∧ word <+: back ∧ ¬ old <+: back := by
  have hnil : ¬ word <:+: [] := fun hnil => hword.ne_nil (List.infix_nil.mp hnil)
  -- an occurrence in the rest of the text is one in the text
  have hlater : ∀ {c : α} {rest : List α}, (∃ front back, rest = front ++ back ∧ word <+: back ∧ ¬ old <+: back) →
      ∃ front back, c :: rest = front ++ back ∧ word <+: back ∧ ¬ old <+: back := by
    rintro c _ ⟨front, back, rfl, hback⟩
    exact ⟨c :: front, back, rfl, hback⟩
  induction text generalizing skip with
  | nil => exact absurd h (by cases skip <;> exact hnil)
  | cons c rest ih =>
    cases skip with
    | succ skip => exact hlater (ih skip h)
    | zero =>
      by_cases hold : old <+: c :: rest
      · rw [replaceFrom, if_pos hold] at h
        exact hlater (ih _ (hword.of_append h))
      · rw [replaceFrom, if_neg hold] at h
        rcases List.infix_cons_iff.mp h with hprefix | hinfix
        · refine ⟨[], c :: rest, rfl, ?_, hold⟩
          have hresult : word <+: replaceFrom old m.word 0 (c :: rest) := by
            rw [replaceFrom, if_neg hold]
            exact hprefix
          exact prefix_of_prefix_replace hword.left_notMem hresult
        · exact hlater (ih 0 hinfix)

/-- A foreign word of the result occurs in the text as it was. -/
theorem infix_replace (hword : m.Foreign word) {text : List α} (h : word <:+: replace old m.word text) :
    word <:+: text := by
  obtain ⟨front, back, rfl, ⟨rest, rfl⟩, -⟩ := infix_replaceFrom hword 0 h
  exact ⟨front, rest, by rw [List.append_assoc]⟩

/-- The replaced word does not occur in the result. -/
theorem not_infix_replace (hold : m.Foreign old) (text : List α) : ¬ old <:+: replace old m.word text := by
  intro h
  obtain ⟨front, back, -, hprefix, hnot⟩ := infix_replaceFrom hold 0 h
  exact hnot hprefix

/-- Where a letter of the word does not occur, nothing is replaced. -/
theorem replace_of_notMem {old text : List α} {x : α} (hold : x ∈ old) (htext : x ∉ text) (new : List α) :
    replace old new text = text := by
  rw [replace]
  induction text with
  | nil => rfl
  | cons c rest ih =>
    have hnot : ¬ old <+: c :: rest := fun hstart => htext (List.IsPrefix.subset hstart hold)
    rw [replaceFrom, if_neg hnot, ih fun hmem => htext (List.mem_cons_of_mem c hmem)]

/-! ### One word after the other -/

/-- The text with the non-empty words replaced, one after the other. -/
def redact (m : Marker α) (words : List (List α)) (text : List α) : List α :=
  words.foldl (fun text word => if word = [] then text else replace word m.word text) text

theorem infix_redact (hword : m.Foreign word) (words : List (List α)) {text : List α}
    (h : word <:+: redact m words text) : word <:+: text := by
  induction words generalizing text with
  | nil => exact h
  | cons first rest ih =>
    have hrest : word <:+: if first = [] then text else replace first m.word text := ih h
    split at hrest
    · exact hrest
    · exact infix_replace hword hrest

/-- **A foreign word among the replaced ones does not occur in the result.** -/
theorem not_infix_redact (hword : m.Foreign word) {words : List (List α)} (hmem : word ∈ words)
    (text : List α) : ¬ word <:+: redact m words text := by
  obtain ⟨front, back, rfl⟩ := List.append_of_mem hmem
  rw [redact, List.foldl_append, List.foldl_cons, if_neg hword.ne_nil]
  exact fun h => not_infix_replace hword _ (infix_redact hword back h)

end Redaction
