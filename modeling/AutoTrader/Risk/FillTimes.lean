/-
  AutoTrader/Risk/FillTimes.lean
  ==============================
  **When fills are read in the order they happened.**

  The fill notices store their times with +09:00 and the reconciliation stores them with
  +00:00, and every reader of the fills orders them by the text.  First-in-first-out in
  order of instant is what the readers compute exactly when the texts sort like the
  instants; texts written at one offset do.
-/
import AutoTrader.Risk.PortfolioSnapshot
import AutoTrader.Python.IsoOrder

namespace AutoTrader

open Performance PortfolioSnapshot

namespace FillTimes

/-- The stored time of a fill, and its id. -/
abbrev Stamp := DateTime × String

/-- `ORDER BY filled_at, fill_id` on the texts. -/
def textLe (a b : Stamp) : Prop := toLex (a.1.isoformat, a.2) ≤ toLex (b.1.isoformat, b.2)

/-- The order in which the fills happened, by id where they happened at once. -/
def instantLe (a b : Stamp) : Prop := toLex (a.1.instant, a.2) ≤ toLex (b.1.instant, b.2)

def rowInstant (row : FillRow) : Int :=
  match row.filledAt with
  | .iso t => t.instant
  | .unreadable _ => 0

/-- The fills in the order they happened. -/
def instantOrder (rows : List FillRow) : List FillRow :=
  rows.insertionSort fun a b =>
    rowInstant a < rowInstant b ∨ (rowInstant a = rowInstant b ∧ a.fillId ≤ b.fillId)

/-- The rows carry these times and ids. -/
def StampedWith (rows : List FillRow) (stamps : List Stamp) : Prop :=
  rows.map (fun row => (row.filledAt, row.fillId)) = stamps.map fun s => (.iso s.1, s.2)

/-- The texts of the times sort like the times. -/
def SortLikeInstants (stamps : List Stamp) : Prop :=
  ∀ a ∈ stamps, ∀ b ∈ stamps, textLe a b ↔ instantLe a b

/-- Both readers see the fills first-in-first-out in the order they happened. -/
def ReadAsHappened (rows : List FillRow) : Prop :=
  (∀ bps, buildPerformanceReport bps rows = reportInOrder bps (instantOrder rows)) ∧
    ∀ bps metadata now, calculateLocalDailyRealizedPnl bps metadata rows now =
      dailyPnlInOrder bps metadata (instantOrder rows) now

theorem StampedWith.exists_stamp {rows : List FillRow} {stamps : List Stamp} (h : StampedWith rows stamps)
    {row : FillRow} (hrow : row ∈ rows) : ∃ s ∈ stamps, row.filledAt = .iso s.1 ∧ row.fillId = s.2 := by
  have hmem : (row.filledAt, row.fillId) ∈ stamps.map fun s => (TimeText.iso s.1, s.2) :=
    h ▸ List.mem_map.mpr ⟨row, hrow, rfl⟩
  obtain ⟨s, hs, heq⟩ := List.mem_map.mp hmem
  injection heq with htime hid
  exact ⟨s, hs, htime.symm, hid.symm⟩

/-- Where the two orders agree on the stamps, they agree on the rows. -/
theorem fillOrder_eq {rows : List FillRow} {stamps : List Stamp} (hstamps : StampedWith rows stamps)
    (hsort : SortLikeInstants stamps) : fillOrder rows = instantOrder rows := by
  have hsame : ∀ a ∈ rows, ∀ b ∈ rows,
      (a.filledAt.text < b.filledAt.text ∨ (a.filledAt.text = b.filledAt.text ∧ a.fillId ≤ b.fillId)) ↔
        (rowInstant a < rowInstant b ∨ (rowInstant a = rowInstant b ∧ a.fillId ≤ b.fillId)) := by
    intro a ha b hb
    obtain ⟨s, hs, hatime, haid⟩ := hstamps.exists_stamp ha
    obtain ⟨s', hs', hbtime, hbid⟩ := hstamps.exists_stamp hb
    have hiff := hsort s hs s' hs'
    rw [textLe, instantLe, Prod.Lex.toLex_le_toLex, Prod.Lex.toLex_le_toLex] at hiff
    simp only [rowInstant, hatime, hbtime, haid, hbid, TimeText.text]
    exact hiff
  have hmap := List.map_insertionSort
    (fun a b : FillRow => a.filledAt.text < b.filledAt.text ∨
      (a.filledAt.text = b.filledAt.text ∧ a.fillId ≤ b.fillId))
    (fun a b : FillRow => rowInstant a < rowInstant b ∨ (rowInstant a = rowInstant b ∧ a.fillId ≤ b.fillId))
    id rows hsame
  rwa [List.map_id, List.map_id] at hmap

/-! ### The orders -/

theorem id_eq_of_textLe {a b : Stamp} (hab : textLe a b) (hba : textLe b a) : a.2 = b.2 := by
  have heq : toLex (a.1.isoformat, a.2) = toLex (b.1.isoformat, b.2) := le_antisymm hab hba
  have hpair : (a.1.isoformat, a.2) = (b.1.isoformat, b.2) := toLex.injective heq
  exact (Prod.mk.inj hpair).2

theorem id_eq_of_instantLe {a b : Stamp} (hab : instantLe a b) (hba : instantLe b a) : a.2 = b.2 := by
  have heq : toLex (a.1.instant, a.2) = toLex (b.1.instant, b.2) := le_antisymm hab hba
  have hpair : (a.1.instant, a.2) = (b.1.instant, b.2) := toLex.injective heq
  exact (Prod.mk.inj hpair).2

instance : DecidableRel textLe := fun a b =>
  inferInstanceAs (Decidable (toLex (a.1.isoformat, a.2) ≤ toLex (b.1.isoformat, b.2)))

instance : DecidableRel instantLe := fun a b =>
  inferInstanceAs (Decidable (toLex (a.1.instant, a.2) ≤ toLex (b.1.instant, b.2)))

instance : Std.Total textLe := ⟨fun a b => le_total (toLex (a.1.isoformat, a.2)) (toLex (b.1.isoformat, b.2))⟩

instance : Std.Total instantLe := ⟨fun a b => le_total (toLex (a.1.instant, a.2)) (toLex (b.1.instant, b.2))⟩

instance : IsTrans Stamp textLe := ⟨fun _ _ _ hab hbc => le_trans hab hbc⟩

instance : IsTrans Stamp instantLe := ⟨fun _ _ _ hab hbc => le_trans hab hbc⟩

/-! ### A sale whose text comes before its purchase -/

/-- Fills that sell one share at `sale`, buy it at `purchase`, and buy another symbol at all
    other times. -/
def conflictRow (sale purchase s : Stamp) : FillRow where
  fillId := s.2
  symbol := if s = sale ∨ s = purchase then "A" else "B"
  side := if s = sale then "SELL" else "BUY"
  quantity := 1
  price := 1
  filledAt := .iso s.1
  strategy := "UNKNOWN"

section Conflict

variable {sale purchase : Stamp}

theorem parse_buy : Side.parse? "BUY" = some .buy := by decide

theorem parse_sell : Side.parse? "SELL" = some .sell := by decide

theorem conflictRow_valid (s : Stamp) : Valid (conflictRow sale purchase s) := by
  refine ⟨?_, ?_, Int.one_pos, one_pos⟩
  · simp only [conflictRow]
    split_ifs <;> decide
  · simp only [conflictRow]
    split_ifs <;> decide

theorem stampedWith_conflict (stamps : List Stamp) :
    StampedWith (stamps.map (conflictRow sale purchase)) stamps := by
  rw [StampedWith, List.map_map]
  rfl

theorem sold_conflict {front : List Stamp} (h : sale ∉ front) (symbol : String) :
    soldQuantity (front.map (conflictRow sale purchase)) symbol = 0 := by
  induction front with
  | nil => rfl
  | cons s rest ih =>
    rw [List.mem_cons, not_or] at h
    have hside : (conflictRow sale purchase s).side = "BUY" := if_neg (Ne.symm h.1)
    have hrest := ih h.2
    rw [soldQuantity] at hrest ⊢
    rw [List.map_cons, List.map_cons, List.sum_cons, hrest, hside, parse_buy]
    simp

theorem sold_append (front back : List FillRow) (symbol : String) :
    soldQuantity (front ++ back) symbol = soldQuantity front symbol + soldQuantity back symbol := by
  rw [soldQuantity, List.map_append, List.sum_append, soldQuantity, soldQuantity]

theorem sold_sale (symbol : String) :
    soldQuantity [conflictRow sale purchase sale] symbol = if symbol = "A" then 1 else 0 := by
  have hside : (conflictRow sale purchase sale).side = "SELL" := if_pos rfl
  have hsymbol : (conflictRow sale purchase sale).symbol = "A" := if_pos (.inl rfl)
  simp only [soldQuantity, List.map_cons, List.map_nil, List.sum_singleton, hside, parse_sell, hsymbol,
    true_and, eq_comm]
  rfl

/-- Whatever comes without the purchase buys no share of the symbol. -/
theorem bought_conflict {front : List Stamp} (h : purchase ∉ front) :
    boughtQuantity (front.map (conflictRow sale purchase)) "A" = 0 := by
  induction front with
  | nil => rfl
  | cons s rest ih =>
    rw [List.mem_cons, not_or] at h
    have hrest := ih h.2
    rw [boughtQuantity] at hrest ⊢
    rw [List.map_cons, boughtPrices, List.flatMap_cons, List.length_append]
    have hnot : ¬ (Side.parse? (conflictRow sale purchase s).side = some .buy ∧
        (conflictRow sale purchase s).symbol = "A") := by
      simp only [conflictRow, Ne.symm h.1, or_false]
      split_ifs <;> decide
    rw [if_neg hnot]
    simpa [boughtPrices] using hrest

theorem bought_purchase {front : List Stamp} (h : purchase ∈ front) (hne : purchase ≠ sale) :
    0 < boughtQuantity (front.map (conflictRow sale purchase)) "A" := by
  rw [boughtQuantity, boughtPrices, List.length_pos_iff_exists_mem]
  refine ⟨1, List.mem_flatMap.mpr ⟨_, List.mem_map.mpr ⟨purchase, h, rfl⟩, ?_⟩⟩
  have hside : (conflictRow sale purchase purchase).side = "BUY" := if_neg hne
  have hsymbol : (conflictRow sale purchase purchase).symbol = "A" := if_pos (.inr rfl)
  rw [hside, hsymbol, parse_buy, if_pos ⟨rfl, rfl⟩]
  exact List.mem_replicate.mpr ⟨Nat.one_ne_zero, rfl⟩

/-- Read before its purchase, the sale oversells. -/
theorem oversells_of_before {before after : List Stamp} (hpurchase : purchase ∉ before)
    (hne : purchase ≠ sale) :
    ¬ NeverOversells ((before ++ sale :: after).map (conflictRow sale purchase)) := by
  intro hnever
  have hprefix : (before ++ [sale]).map (conflictRow sale purchase) <+:
      (before ++ sale :: after).map (conflictRow sale purchase) := by
    refine List.IsPrefix.map _ ⟨after, ?_⟩
    rw [← List.append_cons]
  have hle := hnever _ hprefix "A"
  have hbought : purchase ∉ before ++ [sale] := by
    simp only [List.mem_append, List.mem_singleton, not_or]
    exact ⟨hpurchase, hne⟩
  rw [bought_conflict hbought, List.map_append, sold_append, List.map_singleton, sold_sale, if_pos rfl] at hle
  omega

/-- Read after its purchase, the sale is covered. -/
theorem neverOversells_of_after {before after : List Stamp} (hpurchase : purchase ∈ before)
    (hne : purchase ≠ sale) (hbefore : sale ∉ before) (hafter : sale ∉ after) :
    NeverOversells ((before ++ sale :: after).map (conflictRow sale purchase)) := by
  intro front hfront symbol
  obtain ⟨front, hstamps, rfl⟩ := List.prefix_map_iff.mp hfront
  rcases List.prefix_or_prefix_of_prefix hstamps (List.prefix_append before _) with hearly | hlate
  · rw [sold_conflict fun hmem => hbefore (hearly.subset hmem)]
    exact Nat.zero_le _
  · obtain ⟨rest, rfl⟩ := hlate
    have hrest : rest <+: sale :: after := (List.prefix_append_right_inj before).mp hstamps
    rcases rest with _ | ⟨s, rest⟩
    · rw [List.append_nil, sold_conflict hbefore]
      exact Nat.zero_le _
    · obtain ⟨rfl, htail⟩ := List.cons_prefix_cons.mp hrest
      rw [List.map_append, sold_append, sold_conflict hbefore, zero_add, List.map_cons,
        ← List.singleton_append, sold_append, sold_sale,
        sold_conflict fun hmem => hafter (htail.subset hmem), add_zero]
      split_ifs with hsymbol
      · have hpos : 0 < boughtQuantity (before.map (conflictRow s purchase) ++
            ([conflictRow s purchase s] ++ rest.map (conflictRow s purchase))) symbol := by
          have hmem : purchase ∈ before ++ s :: rest := List.mem_append_left _ hpurchase
          have hpos := bought_purchase hmem hne
          rw [List.map_append, List.map_cons] at hpos
          rw [hsymbol]
          exact hpos
        exact hpos
      · exact Nat.zero_le _

end Conflict

/-! ### Exactly when the text order is the order of the fills -/

/-- Where the orders differ there is a sale that is read before its purchase. -/
theorem exists_conflict {stamps : List Stamp} (hids : (stamps.map Prod.snd).Nodup)
    (h : ¬ SortLikeInstants stamps) :
    ∃ sale ∈ stamps, ∃ purchase ∈ stamps, textLe sale purchase ∧ ¬ instantLe sale purchase := by
  simp only [SortLikeInstants, not_forall] at h
  obtain ⟨a, ha, b, hb, hdiffer⟩ := h
  by_cases htext : textLe a b
  · exact ⟨a, ha, b, hb, htext, fun hinstant => hdiffer (iff_of_true htext hinstant)⟩
  · have hinstant : instantLe a b := by
      by_contra hnot
      exact hdiffer (iff_of_false htext hnot)
    refine ⟨b, hb, a, ha, (total_of textLe a b).resolve_left htext, fun hback => ?_⟩
    obtain rfl := List.inj_on_of_nodup_map hids ha hb (id_eq_of_instantLe hinstant hback)
    exact htext ((total_of textLe a a).elim id id)

theorem fillOrder_conflict (sale purchase : Stamp) (stamps : List Stamp) :
    fillOrder (stamps.map (conflictRow sale purchase)) =
      (stamps.insertionSort textLe).map (conflictRow sale purchase) := by
  refine (List.map_insertionSort textLe _ _ stamps fun a _ b _ => ?_).symm
  rw [textLe, Prod.Lex.toLex_le_toLex]
  exact Iff.rfl

theorem instantOrder_conflict (sale purchase : Stamp) (stamps : List Stamp) :
    instantOrder (stamps.map (conflictRow sale purchase)) =
      (stamps.insertionSort instantLe).map (conflictRow sale purchase) := by
  refine (List.map_insertionSort instantLe _ _ stamps fun a _ b _ => ?_).symm
  rw [instantLe, Prod.Lex.toLex_le_toLex]
  exact Iff.rfl

/-- **The fills are read as they happened, whatever they are, exactly when the texts of
    their times sort like the times.** -/
theorem readAsHappened_iff {stamps : List Stamp} (hids : (stamps.map Prod.snd).Nodup) :
    (∀ rows, StampedWith rows stamps → ReadAsHappened rows) ↔ SortLikeInstants stamps := by
  constructor
  · intro hread
    by_contra hdiffer
    obtain ⟨sale, hsale, purchase, hpurchase, htext, hinstant⟩ := exists_conflict hids hdiffer
    have hnodup : stamps.Nodup := hids.of_map _
    have hne : purchase ≠ sale := by
      rintro rfl
      exact hinstant ((total_of instantLe purchase purchase).elim id id)
    -- In the order of the texts the sale comes first.
    have hover : ¬ NeverOversells (fillOrder (stamps.map (conflictRow sale purchase))) := by
      have hperm : (stamps.insertionSort textLe).Perm stamps := List.perm_insertionSort _ _
      have hsorted : (stamps.insertionSort textLe).Pairwise textLe := List.pairwise_insertionSort _ _
      obtain ⟨before, after, hsplit⟩ := List.append_of_mem (hperm.mem_iff.mpr hsale)
      rw [fillOrder_conflict, hsplit]
      refine oversells_of_before (fun hbefore => ?_) hne
      rw [hsplit] at hsorted
      have hle := (List.pairwise_append.mp hsorted).2.2 purchase hbefore sale List.mem_cons_self
      exact hne (List.inj_on_of_nodup_map hids hpurchase hsale (id_eq_of_textLe hle htext))
    -- In the order of the instants the purchase does.
    have hcovered : NeverOversells (instantOrder (stamps.map (conflictRow sale purchase))) := by
      have hperm : (stamps.insertionSort instantLe).Perm stamps := List.perm_insertionSort _ _
      have hsorted : (stamps.insertionSort instantLe).Pairwise instantLe := List.pairwise_insertionSort _ _
      obtain ⟨before, after, hsplit⟩ := List.append_of_mem (hperm.mem_iff.mpr hsale)
      have hmem : purchase ∈ before ++ sale :: after := hsplit ▸ hperm.mem_iff.mpr hpurchase
      have hnodup' : (before ++ sale :: after).Nodup := hsplit ▸ hperm.nodup_iff.mpr hnodup
      rw [hsplit] at hsorted
      rw [instantOrder_conflict, hsplit]
      obtain ⟨-, hback, hdisjoint⟩ := List.nodup_append.mp hnodup'
      refine neverOversells_of_after ?_ hne (fun h => hdisjoint sale h sale List.mem_cons_self rfl)
        (List.nodup_cons.mp hback).1
      rcases List.mem_append.mp hmem with hbefore | hafter
      · exact hbefore
      · rcases List.mem_cons.mp hafter with heq | hafter
        · exact absurd heq hne
        · have hrest := (List.pairwise_cons.mp (List.pairwise_append.mp hsorted).2.1).1
          exact absurd (hrest purchase hafter) hinstant
    have hvalid : ∀ row ∈ stamps.map (conflictRow sale purchase), Valid row := by
      intro row hrow
      obtain ⟨s, -, rfl⟩ := List.mem_map.mp hrow
      exact conflictRow_valid s
    have hvalidText : ∀ row ∈ fillOrder (stamps.map (conflictRow sale purchase)), Valid row :=
      fun row hrow => hvalid row (mem_fillOrder.mp hrow)
    have hvalidInstant : ∀ row ∈ instantOrder (stamps.map (conflictRow sale purchase)), Valid row :=
      fun row hrow => hvalid row ((List.mem_insertionSort _).mp hrow)
    have hsame := (hread _ (@stampedWith_conflict sale purchase stamps)).1 ⟨0, 0⟩
    have hok : ∃ report, reportInOrder ⟨0, 0⟩ (instantOrder (stamps.map (conflictRow sale purchase))) =
        .ok report :=
      reportInOrder_ok_iff.mpr ⟨⟨le_rfl, le_rfl⟩, (bookFills_ok_iff _ hvalidInstant).mpr hcovered⟩
    rw [← hsame, buildPerformanceReport, reportInOrder_ok_iff, bookFills_ok_iff _ hvalidText] at hok
    exact hover hok.2
  · intro hsort rows hstamps
    have horder := fillOrder_eq hstamps hsort
    constructor
    · intro bps
      rw [buildPerformanceReport, horder]
    · intro bps metadata now
      rw [calculateLocalDailyRealizedPnl, horder]

/-- Times that were all written at one offset sort like the times. -/
theorem sortLikeInstants_of_offset {stamps : List Stamp} {o : Int}
    (h : ∀ s ∈ stamps, s.1.InRange ∧ s.1.offset = some o) : SortLikeInstants stamps := by
  have hle : ∀ a ∈ stamps, ∀ b ∈ stamps, a.1.isoformat ≤ b.1.isoformat ↔ a.1.instant ≤ b.1.instant := by
    intro a ha b hb
    obtain ⟨harange, haoffset⟩ := h a ha
    obtain ⟨hbrange, hboffset⟩ := h b hb
    rw [DateTime.isoformat_le_iff_of_offset harange hbrange haoffset hboffset, DateTime.instant,
      DateTime.instant, haoffset, hboffset]
    simp
  intro a ha b hb
  rw [textLe, instantLe, Prod.Lex.toLex_le_toLex', Prod.Lex.toLex_le_toLex']
  have heq : a.1.isoformat = b.1.isoformat ↔ a.1.instant = b.1.instant := by
    rw [le_antisymm_iff, le_antisymm_iff, hle a ha b hb, hle b hb a ha]
  simp only [hle a ha b hb, heq]

/-! A purchase that a notice stored with +09:00, and its sale ten minutes later, which the
reconciliation stored with +00:00. -/
namespace MixedOffsets

open PortfolioSnapshot.OneDay

/-- 2026-07-20 00:40 in UTC is 09:40 in Korea. -/
def saleInUtc : DateTime := .combine 20654 0 40 0 (some 0)

def mixed : List FillRow := [fill "buy" "BUY" 1 100 (korean 30), fill "sell" "SELL" 1 110 saleInUtc]

/-- The same fills with their times written at one offset change the profit and the report
    from none to some. -/
theorem offsets_change_results :
    mixed.map rowInstant = rows.map rowInstant ∧
      buildPerformanceReport ⟨15, 15⟩ mixed =
        .error (.valueError "sell exceeds FIFO inventory for 005930") ∧
      (buildPerformanceReport ⟨15, 15⟩ rows).toOption.isSome = true ∧
      calculateLocalDailyRealizedPnl ⟨15, 15⟩ metadata mixed (korean 55) = none ∧
      (calculateLocalDailyRealizedPnl ⟨15, 15⟩ metadata rows (korean 55)).isSome = true :=
  ⟨by decide, Except.eq_error_of_exn? (by decide +kernel), by decide +kernel, by decide +kernel,
    by decide +kernel⟩

def stamps : List Stamp := [(korean 30, "buy"), (saleInUtc, "sell")]

theorem mixed_read_iff :
    (∀ rows, StampedWith rows stamps → ReadAsHappened rows) ↔ SortLikeInstants stamps :=
  readAsHappened_iff (by decide)

end MixedOffsets

end FillTimes

end AutoTrader
