import Mathlib.Data.List.Chain
import Mathlib.Data.List.Infix

/-!
# The latest unbroken run of a list

The items at the end of a list of which each is joined to the one after it.  The run is the
longest such suffix (`suffix_latestRun`), so a list that is cut where the run does not reach
keeps it (`latestRun_of_suffix`).
-/

namespace AutoTrader.Runs

variable {α : Type*} (joined : α → α → Prop) [DecidableRel joined]

/-- Going back from an item: the older items, newest first, up to the first gap. -/
def runFrom (newer : α) : List α → List α
  | [] => []
  | older :: rest => if joined older newer then older :: runFrom older rest else []

/-- The run at the end of a list. -/
def latestRun (items : List α) : List α :=
  match items.reverse with
  | [] => []
  | newest :: rest => (newest :: runFrom joined newest rest).reverse

variable {joined}

theorem runFrom_prefix (newer : α) (items : List α) : runFrom joined newer items <+: items := by
  induction items generalizing newer with
  | nil => exact List.prefix_rfl
  | cons older rest ih =>
    rw [runFrom]
    split
    · exact List.cons_prefix_cons.mpr ⟨rfl, ih older⟩
    · exact List.nil_prefix

theorem isChain_runFrom (newer : α) (items : List α) :
    (newer :: runFrom joined newer items).IsChain (flip joined) := by
  induction items generalizing newer with
  | nil => exact List.isChain_singleton newer
  | cons older rest ih =>
    rw [runFrom]
    split
    · rename_i hjoined
      exact List.isChain_cons_cons.mpr ⟨hjoined, ih older⟩
    · exact List.isChain_singleton newer

/-- A chain at the front stops at the first gap. -/
theorem prefix_runFrom {part items : List α} {newer : α} (hpart : part <+: items)
    (hchain : (newer :: part).IsChain (flip joined)) : part <+: runFrom joined newer items := by
  induction items generalizing newer part with
  | nil => rwa [runFrom]
  | cons older rest ih =>
    cases part with
    | nil => exact List.nil_prefix
    | cons first others =>
      obtain ⟨rfl, hothers⟩ := List.cons_prefix_cons.mp hpart
      obtain ⟨hjoined, hrest⟩ := List.isChain_cons_cons.mp hchain
      rw [runFrom, if_pos (show joined first newer from hjoined)]
      exact List.cons_prefix_cons.mpr ⟨rfl, ih hothers hrest⟩

theorem latestRun_suffix (items : List α) : latestRun joined items <:+ items := by
  unfold latestRun
  split
  · exact List.nil_suffix
  · rename_i newest rest hreverse
    rw [← List.reverse_prefix, List.reverse_reverse, hreverse]
    exact List.cons_prefix_cons.mpr ⟨rfl, runFrom_prefix newest rest⟩

theorem isChain_latestRun (items : List α) : (latestRun joined items).IsChain joined := by
  unfold latestRun
  split
  · exact List.isChain_nil
  · rename_i newest rest hreverse
    rw [List.isChain_reverse]
    exact isChain_runFrom newest rest

/-- The run is the longest suffix whose items are joined. -/
theorem suffix_latestRun {part items : List α} (hpart : part <:+ items) (hchain : part.IsChain joined) :
    part <:+ latestRun joined items := by
  rw [← List.reverse_prefix] at hpart ⊢
  have hflip : part.reverse.IsChain (flip joined) := List.isChain_reverse.mpr hchain
  unfold latestRun
  cases hreverse : items.reverse with
  | nil =>
    rw [hreverse] at hpart
    simpa using hpart
  | cons newest rest =>
    rw [hreverse] at hpart
    dsimp only
    rw [List.reverse_reverse]
    cases hparts : part.reverse with
    | nil => exact List.nil_prefix
    | cons first others =>
      rw [hparts] at hpart hflip
      obtain ⟨rfl, hothers⟩ := List.cons_prefix_cons.mp hpart
      exact List.cons_prefix_cons.mpr ⟨rfl, prefix_runFrom hothers hflip⟩

/-- A list that is cut where the run does not reach keeps its run. -/
theorem latestRun_of_suffix {part items : List α} (hpart : part <:+ items)
    (hrun : latestRun joined items <:+ part) : latestRun joined part = latestRun joined items := by
  have hle : latestRun joined part <:+ latestRun joined items :=
    suffix_latestRun ((latestRun_suffix part).trans hpart) (isChain_latestRun part)
  have hge : latestRun joined items <:+ latestRun joined part := suffix_latestRun hrun (isChain_latestRun items)
  exact hle.eq_of_length_le hge.length_le

end AutoTrader.Runs
