import Mathlib.Data.List.Chain
import Mathlib.Data.List.Nodup

/-!
# Listings read page by page

A listing comes in pages; a page that announces another one is followed by the answer to a
request made from it.  `readPages` asks for at most a bounded number of pages, and a check
with a memory looks at every page that announces another one.  The pages it returns are a
whole listing: each is the answer to the request made from the page before it, all but the
last announce another page, and the last announces none (`complete_of_readPages`,
`Complete.whole`).
The check ran over every page but the last (`checked_of_readPages`), so a check that
refuses a used cursor leaves no cursor twice (`nodup_of_checkUsed`), and one that refuses
the cursor just used leaves no cursor twice in a row (`isChain_of_checkLast`).
-/

namespace Paging

variable {P M E : Type} {ask : Nat → Option P → Except E P} {continues : P → Bool}
  {check : M → P → Except E M} {exhausted : E}

/-- Ask for the pages from the `n`-th on, after the page `previous`. -/
def readPages (ask : Nat → Option P → Except E P) (continues : P → Bool) (check : M → P → Except E M)
    (exhausted : E) : Nat → Nat → Option P → M → Except E (List P)
  | 0, _, _, _ => .error exhausted
  | left + 1, n, previous, memory => do
    let page ← ask n previous
    if continues page then do
      let memory' ← check memory page
      let rest ← readPages ask continues check exhausted left (n + 1) (some page) memory'
      pure (page :: rest)
    else pure [page]

/-! ### The listing is complete -/

/-- The pages of a whole listing, the first of them the answer to the `n`-th request. -/
inductive Complete (ask : Nat → Option P → Except E P) (continues : P → Bool) :
    Nat → Option P → List P → Prop where
  | last {n : Nat} {previous : Option P} {page : P} : ask n previous = .ok page → continues page = false →
      Complete ask continues n previous [page]
  | more {n : Nat} {previous : Option P} {page : P} {rest : List P} : ask n previous = .ok page →
      continues page = true → Complete ask continues (n + 1) (some page) rest →
      Complete ask continues n previous (page :: rest)

/-- What one request and the requests after it return. -/
theorem readPages_succ_ok {left n : Nat} {previous : Option P} {memory : M} {pages : List P}
    (h : readPages ask continues check exhausted (left + 1) n previous memory = .ok pages) :
    ∃ page, ask n previous = .ok page ∧
      ((continues page = false ∧ pages = [page]) ∨
       (continues page = true ∧ ∃ memory' rest, check memory page = .ok memory' ∧
          readPages ask continues check exhausted left (n + 1) (some page) memory' = .ok rest ∧
          pages = page :: rest)) := by
  rw [readPages] at h
  cases hask : ask n previous with
  | error e =>
    rw [hask] at h
    cases h
  | ok page =>
    rw [hask] at h
    refine ⟨page, rfl, ?_⟩
    simp only [Bind.bind, Except.bind] at h
    cases hcontinues : continues page with
    | false =>
      rw [hcontinues] at h
      cases h
      exact .inl ⟨rfl, rfl⟩
    | true =>
      rw [hcontinues] at h
      refine .inr ⟨rfl, ?_⟩
      cases hcheck : check memory page with
      | error e =>
        rw [hcheck] at h
        cases h
      | ok memory' =>
        rw [hcheck] at h
        cases hrest : readPages ask continues check exhausted left (n + 1) (some page) memory' with
        | error e =>
          simp only [if_true, hrest] at h
          cases h
        | ok rest =>
          simp only [if_true, hrest] at h
          cases h
          exact ⟨memory', rest, rfl, hrest, rfl⟩

/-- What `readPages` returns is a complete listing. -/
theorem complete_of_readPages {left n : Nat} {previous : Option P} {memory : M} {pages : List P}
    (h : readPages ask continues check exhausted left n previous memory = .ok pages) :
    Complete ask continues n previous pages := by
  induction left generalizing n previous memory pages with
  | zero => cases h
  | succ left ih =>
    obtain ⟨page, hask, ⟨hlast, rfl⟩ | ⟨hmore, memory', rest, -, hrest, rfl⟩⟩ := readPages_succ_ok h
    · exact .last hask hlast
    · exact .more hask hmore (ih hrest)

namespace Complete

variable {n : Nat} {previous : Option P} {pages : List P}

theorem ne_nil (h : Complete ask continues n previous pages) : pages ≠ [] := by
  cases h <;> exact List.cons_ne_nil _ _

/-- Each page is the answer to the request made from the page before it. -/
theorem asked (h : Complete ask continues n previous pages) {i : Nat} {page : P}
    (hpage : pages[i]? = some page) :
    ask (n + i) (if i = 0 then previous else pages[i - 1]?) = .ok page := by
  induction h generalizing i with
  | last hask hlast =>
    cases i with
    | zero =>
      cases hpage
      exact hask
    | succ i => cases hpage
  | @more n previous first rest hask hmore hrest ih =>
    cases i with
    | zero =>
      cases hpage
      exact hask
    | succ i =>
      have hnext := ih hpage
      rw [Nat.add_right_comm, Nat.add_assoc] at hnext
      rw [if_neg (Nat.succ_ne_zero i), Nat.add_sub_cancel]
      cases i with
      | zero => exact hnext
      | succ i => exact hnext

/-- All pages but the last announce another one. -/
theorem announced (h : Complete ask continues n previous pages) :
    ∀ page ∈ pages.dropLast, continues page = true := by
  induction h with
  | last hask hlast =>
    intro page hpage
    exact absurd hpage List.not_mem_nil
  | more hask hmore hrest ih =>
    intro page hpage
    rw [List.dropLast_cons_of_ne_nil hrest.ne_nil] at hpage
    rcases List.mem_cons.mp hpage with rfl | hpage
    · exact hmore
    · exact ih page hpage

/-- The last page announces none. -/
theorem ended (h : Complete ask continues n previous pages) :
    ∀ page ∈ pages.getLast?, continues page = false := by
  induction h with
  | last hask hlast =>
    intro page hpage
    cases hpage
    exact hlast
  | more hask hmore hrest ih =>
    intro page hpage
    rw [List.getLast?_cons_of_ne_nil hrest.ne_nil] at hpage
    exact ih page hpage

end Complete

/-- A whole listing: each page is the answer to the request made from the page before it, all but
    the last announce another page, and the last announces none. -/
structure Whole (ask : Nat → Option P → Except E P) (continues : P → Bool) (pages : List P) : Prop where
  nonempty : pages ≠ []
  asked : ∀ i page, pages[i]? = some page → ask i (if i = 0 then none else pages[i - 1]?) = .ok page
  announced : ∀ page ∈ pages.dropLast, continues page = true
  ended : ∀ page ∈ pages.getLast?, continues page = false

theorem Complete.whole {pages : List P} (h : Complete ask continues 0 none pages) : Whole ask continues pages where
  nonempty := h.ne_nil
  asked := by
    intro i page hpage
    have hasked := h.asked hpage
    rw [Nat.zero_add] at hasked
    exact hasked
  announced := h.announced
  ended := h.ended

/-! ### The check ran over every page that announced another one -/

theorem checked_of_readPages {left n : Nat} {previous : Option P} {memory : M} {pages : List P}
    (h : readPages ask continues check exhausted left n previous memory = .ok pages) :
    ∃ final, pages.dropLast.foldlM check memory = .ok final := by
  induction left generalizing n previous memory pages with
  | zero => cases h
  | succ left ih =>
    obtain ⟨page, -, ⟨-, rfl⟩ | ⟨-, memory', rest, hcheck, hrest, rfl⟩⟩ := readPages_succ_ok h
    · exact ⟨memory, rfl⟩
    · obtain ⟨final, hfinal⟩ := ih hrest
      refine ⟨final, ?_⟩
      rw [List.dropLast_cons_of_ne_nil (complete_of_readPages hrest).ne_nil, List.foldlM_cons, hcheck]
      exact hfinal

section Cursors

variable {C : Type} [DecidableEq C] {cursor : P → C} {refused : E}

/-- Refuse a cursor that was used. -/
def checkUsed (cursor : P → C) (refused : E) (used : List C) (page : P) : Except E (List C) :=
  if cursor page ∈ used then .error refused else .ok (cursor page :: used)

/-- Refuse the cursor that was just used. -/
def checkLast (cursor : P → C) (refused : E) (last : Option C) (page : P) : Except E (Option C) :=
  if last = some (cursor page) then .error refused else .ok (some (cursor page))

theorem nodup_of_checkUsed {pages : List P} {used final : List C}
    (h : pages.foldlM (checkUsed cursor refused) used = .ok final) :
    (pages.map cursor).Nodup ∧ ∀ c ∈ pages.map cursor, c ∉ used := by
  induction pages generalizing used with
  | nil => exact ⟨List.nodup_nil, fun c hc => absurd hc List.not_mem_nil⟩
  | cons page rest ih =>
    rw [List.foldlM_cons, checkUsed] at h
    split at h
    · cases h
    · rename_i hnew
      obtain ⟨hnodup, hused⟩ := ih h
      rw [List.map_cons]
      refine ⟨List.nodup_cons.mpr ⟨?_, hnodup⟩, ?_⟩
      · intro hmem
        exact hused _ hmem List.mem_cons_self
      · intro c hc
        rcases List.mem_cons.mp hc with rfl | hc
        · exact hnew
        · exact fun hmem => hused c hc (List.mem_cons_of_mem _ hmem)

theorem isChain_of_checkLast {pages : List P} {last final : Option C}
    (h : pages.foldlM (checkLast cursor refused) last = .ok final) :
    (pages.map cursor).IsChain (· ≠ ·) ∧ ∀ c ∈ (pages.map cursor).head?, last ≠ some c := by
  induction pages generalizing last with
  | nil => exact ⟨List.IsChain.nil, fun c hc => nomatch hc⟩
  | cons page rest ih =>
    rw [List.foldlM_cons, checkLast] at h
    split at h
    · cases h
    · rename_i hnew
      obtain ⟨hchain, hhead⟩ := ih h
      refine ⟨?_, ?_⟩
      · cases rest with
        | nil => exact List.IsChain.singleton _
        | cons next rest =>
          refine List.IsChain.cons_cons ?_ hchain
          intro heq
          exact hhead (cursor next) rfl (congrArg some heq)
      · intro c hc
        cases hc
        exact hnew

end Cursors

end Paging
