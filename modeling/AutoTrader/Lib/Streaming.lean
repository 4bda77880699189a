import Mathlib.Data.List.Induction
import Mathlib.Data.List.Nodup

/-!
# Streams that are read in batches and filed under keys

A cursor hands its rows out in batches until none are left, and a loop keeps one summary
for each key in a dictionary, which lists its keys in the order they came in.  Neither the
size of the batches nor the rows of other keys show in the result: the summary of a key is
that of its own rows.
-/

namespace Streaming

variable {K A R : Type}

/-! ### Batches -/

/-- The batches of at most `size` rows, until one is empty or `fuel` are read. -/
def batches (size : Nat) : Nat → List R → List (List R)
  | 0, _ => []
  | fuel + 1, rows =>
    match rows.take size with
    | [] => []
    | row :: more => (row :: more) :: batches size fuel (rows.drop size)

/-- As many batches as there are rows are enough, and together they are the rows. -/
theorem flatten_batches {size fuel : Nat} {rows : List R} (hsize : 0 < size) (hfuel : rows.length ≤ fuel) :
    (batches size fuel rows).flatten = rows := by
  induction fuel generalizing rows with
  | zero =>
    rw [List.length_eq_zero_iff.mp (Nat.le_zero.mp hfuel)]
    rfl
  | succ fuel ih =>
    rw [batches]
    rcases htake : rows.take size with _ | ⟨row, more⟩
    · have hnil : rows = [] := by
        rcases List.take_eq_nil_iff.mp htake with hzero | hnil
        · omega
        · exact hnil
      rw [hnil]
      rfl
    · have hlength : (rows.drop size).length ≤ fuel := by
        rw [List.length_drop]
        omega
      rw [List.flatten_cons, ih hlength, ← htake, List.take_append_drop]

/-- Folding batch by batch is folding the rows. -/
theorem foldlM_flatten {m : Type → Type} [Monad m] [LawfulMonad m] (f : A → R → m A) (rows : List (List R))
    (a : A) : rows.foldlM (fun a batch => batch.foldlM f a) a = rows.flatten.foldlM f a := by
  induction rows generalizing a with
  | nil => rfl
  | cons batch rest ih =>
    rw [List.foldlM_cons, List.flatten_cons, List.foldlM_append]
    exact bind_congr fun a' => ih a'

/-- A fold that can fail, and that skips the rows without a property. -/
theorem foldlM_eq_ok {E : Type} {f : A → R → Except E A} {g : A → R → A} {p : R → Prop} [DecidablePred p]
    (hstep : ∀ {a a' row}, f a row = .ok a' → a' = if p row then g a row else a) {rows : List R} {a a' : A}
    (h : rows.foldlM f a = .ok a') : a' = (rows.filter p).foldl g a := by
  induction rows generalizing a with
  | nil =>
    cases h
    rfl
  | cons row rest ih =>
    rw [List.foldlM_cons] at h
    rcases hrow : f a row with e | b
    · rw [hrow] at h
      cases h
    · rw [hrow] at h
      have hb := hstep hrow
      rw [ih h, List.filter_cons]
      by_cases hp : p row
      · rw [if_pos hp] at hb
        rw [if_pos (decide_eq_true hp), List.foldl_cons, hb]
      · rw [if_neg hp] at hb
        rw [if_neg (by simpa using hp), hb]

theorem foldlM_total {E : Type} {f : A → R → Except E A} {rows : List R}
    (hstep : ∀ a, ∀ row ∈ rows, ∃ a', f a row = .ok a') (a : A) : ∃ a', rows.foldlM f a = .ok a' := by
  induction rows generalizing a with
  | nil => exact ⟨a, rfl⟩
  | cons row rest ih =>
    obtain ⟨b, hb⟩ := hstep a row List.mem_cons_self
    obtain ⟨a', ha'⟩ := ih (fun a r hr => hstep a r (List.mem_cons_of_mem _ hr)) b
    refine ⟨a', ?_⟩
    rw [List.foldlM_cons, hb]
    exact ha'

/-! ### Dictionaries -/

variable [DecidableEq K]

/-- The value of a key is changed, or the key comes in last with its first value. -/
def alter (key : K) (first : A) (change : A → A) : List (K × A) → List (K × A)
  | [] => [(key, first)]
  | item :: rest =>
    if item.1 = key then (item.1, change item.2) :: rest else item :: alter key first change rest

def get? (key : K) (items : List (K × A)) : Option A :=
  (items.find? fun item => item.1 = key).map Prod.snd

theorem get?_cons (key : K) (item : K × A) (rest : List (K × A)) :
    get? key (item :: rest) = if item.1 = key then some item.2 else get? key rest := by
  rw [get?, List.find?_cons]
  split_ifs with h
  · simp [h]
  · simp [h, get?]

theorem get?_alter (key key' : K) (first : A) (change : A → A) (items : List (K × A)) :
    get? key' (alter key first change items) =
      if key' = key then some ((get? key items).elim first change) else get? key' items := by
  induction items with
  | nil =>
    rw [alter, get?_cons]
    simp [get?, eq_comm]
  | cons item rest ih =>
    rw [alter]
    by_cases hitem : item.1 = key
    · rw [if_pos hitem, get?_cons, get?_cons, get?_cons, if_pos hitem]
      by_cases hkey : key' = key
      · simp [hitem, hkey]
      · simp [hitem, hkey, Ne.symm hkey]
    · rw [if_neg hitem, get?_cons, ih, get?_cons, get?_cons, if_neg hitem]
      by_cases hkey : key' = key
      · simp [hkey, hitem]
      · simp [hkey]

theorem keys_alter (key : K) (first : A) (change : A → A) (items : List (K × A)) :
    (alter key first change items).map Prod.fst =
      if key ∈ items.map Prod.fst then items.map Prod.fst else items.map Prod.fst ++ [key] := by
  induction items with
  | nil => rfl
  | cons item rest ih =>
    rw [alter]
    rcases eq_or_ne item.1 key with heq | hne
    · simp [heq]
    · rw [if_neg hne, List.map_cons, ih]
      simp only [List.map_cons, List.mem_cons, hne.symm, false_or]
      split_ifs <;> rfl

theorem nodup_alter {items : List (K × A)} (h : (items.map Prod.fst).Nodup) (key : K) (first : A)
    (change : A → A) : ((alter key first change items).map Prod.fst).Nodup := by
  rw [keys_alter]
  split_ifs with hmem
  · exact h
  · exact List.nodup_append.mpr ⟨h, List.nodup_singleton _, fun a ha b hb hab =>
      hmem (List.mem_singleton.mp hb ▸ hab ▸ ha)⟩

theorem mem_iff_get? {items : List (K × A)} (h : (items.map Prod.fst).Nodup) {key : K} {a : A} :
    (key, a) ∈ items ↔ get? key items = some a := by
  induction items with
  | nil => simp [get?]
  | cons item rest ih =>
    obtain ⟨hnot, hrest⟩ := List.nodup_cons.mp h
    rw [get?_cons, List.mem_cons]
    by_cases hitem : item.1 = key
    · rw [if_pos hitem]
      have habsent : (key, a) ∉ rest := fun hmem =>
        hnot (List.mem_map.mpr ⟨(key, a), hmem, hitem.symm⟩)
      constructor
      · rintro (rfl | hmem)
        · rfl
        · exact absurd hmem habsent
      · rintro heq
        exact .inl (Prod.ext hitem.symm (Option.some.inj heq).symm)
    · rw [if_neg hitem, ← ih hrest]
      constructor
      · rintro (rfl | hmem)
        · exact absurd rfl hitem
        · exact hmem
      · exact .inr

/-! ### One summary for each key -/

/-- The summary of a list of rows, which are added one after another. -/
def summarize (single : R → A) (add : A → R → A) : List R → Option A
  | [] => none
  | row :: rest => some (rest.foldl add (single row))

/-- One pass of the loop: the row is filed under its key. -/
def file (keyOf : R → K) (single : R → A) (add : A → R → A) (items : List (K × A)) (row : R) :
    List (K × A) :=
  alter (keyOf row) (single row) (fun a => add a row) items

section File

variable (keyOf : R → K) (single : R → A) (add : A → R → A)

omit [DecidableEq K] in
theorem summarize_append (rows : List R) (row : R) :
    summarize single add (rows ++ [row]) =
      some ((summarize single add rows).elim (single row) fun a => add a row) := by
  cases rows with
  | nil => rfl
  | cons first rest => simp [summarize]

/-- **The summary of a key is that of its own rows.** -/
theorem get?_file (rows : List R) (key : K) :
    get? key (rows.foldl (file keyOf single add) []) =
      summarize single add (rows.filter fun row => keyOf row = key) := by
  induction rows using List.reverseRecOn with
  | nil => rfl
  | append_singleton rows row ih =>
    rw [List.foldl_append, List.foldl_cons, List.foldl_nil, file, get?_alter, List.filter_append]
    by_cases hkey : keyOf row = key
    · subst hkey
      rw [if_pos rfl, ih, List.filter_singleton]
      simp [summarize_append]
    · rw [if_neg (Ne.symm hkey), ih]
      simp [hkey]

theorem nodup_file (rows : List R) : ((rows.foldl (file keyOf single add) []).map Prod.fst).Nodup := by
  induction rows using List.reverseRecOn with
  | nil => exact List.nodup_nil
  | append_singleton rows row ih =>
    rw [List.foldl_append, List.foldl_cons, List.foldl_nil]
    exact nodup_alter ih _ _ _

end File

end Streaming
