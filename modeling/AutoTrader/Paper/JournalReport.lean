/-
  AutoTrader/Paper/JournalReport.lean
  ===================================
  **When the report and the positions of the journal agree.**

  The replay covers every sale, in the order of times and ids, or raises; what it leaves of a
  symbol is the stock of the symbol at average cost (`replay_shows`).  The aggregates of
  `paper_positions` give the shares left and the average over all purchases, also for a
  symbol that is sold out.
-/
import AutoTrader.Paper.Journal
import Mathlib.Data.List.Induction

namespace AutoTrader.PaperJournal

open Relational AverageCost

/-! ### The history of a symbol -/

/-- The price of a fill, as a number. -/
def paidPrice (fill : PaperFillRow) : ℚ :=
  match fill.price with
  | .fin p => p
  | _ => 0

/-- What a fill does to the stock of its symbol. -/
def tradeOf (fill : PaperFillRow) : Trade ℚ :=
  if fill.side = "BUY" then .buy fill.quantity (paidPrice fill) else .sell fill.quantity

/-- The history of a symbol, in the order of the rows. -/
def tradesOf (symbol : String) (rows : List PaperFillRow) : List (Trade ℚ) :=
  (rows.filter fun fill => fill.symbol = symbol).map tradeOf

/-- A fill of the journal whose price is a number. -/
structure Priced (fill : PaperFillRow) : Prop extends Recorded fill where
  finite : fill.price = .fin (paidPrice fill)

/-- No sale, in the order of the rows, is of more shares than were bought and not yet sold. -/
def Covered (rows : List PaperFillRow) : Prop :=
  ∀ front fill back, rows = front ++ fill :: back → fill.side = "SELL" →
    fill.quantity + sold (tradesOf fill.symbol front) ≤ bought (tradesOf fill.symbol front)

theorem tradesOf_append (symbol : String) (rows : List PaperFillRow) (fill : PaperFillRow) :
    tradesOf symbol (rows ++ [fill]) =
      if fill.symbol = symbol then tradesOf symbol rows ++ [tradeOf fill] else tradesOf symbol rows := by
  unfold tradesOf
  rw [List.filter_append, List.map_append]
  split
  · rename_i hsymbol
    rw [List.filter_cons_of_pos (by simpa using hsymbol)]
    rfl
  · rename_i hsymbol
    rw [List.filter_cons_of_neg (by simpa using hsymbol), List.filter_nil, List.map_nil, List.append_nil]

/-- One more row is covered when the rows before it are and it sells no more than is left. -/
theorem covered_snoc {rows : List PaperFillRow} {fill : PaperFillRow} :
    Covered (rows ++ [fill]) ↔ Covered rows ∧ (fill.side = "SELL" →
      fill.quantity + sold (tradesOf fill.symbol rows) ≤ bought (tradesOf fill.symbol rows)) := by
  constructor
  · intro h
    refine ⟨?_, h rows fill [] rfl⟩
    intro front sale back hrows
    exact h front sale (back ++ [fill]) (by rw [hrows, List.append_assoc, List.cons_append])
  · rintro ⟨hrows, hlast⟩ front sale back heq
    rcases List.eq_nil_or_concat back with rfl | ⟨back', last, rfl⟩
    · obtain ⟨rfl, hsale⟩ := List.append_inj' heq rfl
      cases hsale
      exact hlast
    · have hsplit : rows ++ [fill] = (front ++ sale :: back') ++ [last] := by
        rw [heq, List.concat_eq_append, List.append_assoc, List.cons_append]
      obtain ⟨rfl, -⟩ := List.append_inj' hsplit rfl
      exact hrows front sale back' rfl

/-! ### The replay -/

/-- The replay holds the stock of every symbol. -/
structure Shows (rows : List PaperFillRow) (acc : Replay) : Prop where
  symbol : ∀ symbol, (acc.position symbol).symbol = symbol
  quantity : ∀ symbol, ((acc.position symbol).quantity : ℚ) = (stockOf (tradesOf symbol rows)).quantity
  cost : ∀ symbol, (acc.position symbol).cost = .fin (stockOf (tradesOf symbol rows)).cost

theorem shows_init : Shows [] .init where
  symbol := fun _ => rfl
  quantity := fun _ => Int.cast_zero
  cost := fun _ => rfl

/-- A position after a row of its symbol, which has left the others alone. -/
theorem Shows.snoc {rows : List PaperFillRow} {acc acc' : Replay} (h : Shows rows acc) {fill : PaperFillRow}
    {quantity : Int} {cost : ℚ}
    (hposition : ∀ symbol, acc'.position symbol =
      if symbol = fill.symbol then ⟨fill.symbol, quantity, .fin cost⟩ else acc.position symbol)
    (hstock : (quantity : ℚ) = ((stockOf (tradesOf fill.symbol rows)).trade (tradeOf fill)).quantity ∧
      cost = ((stockOf (tradesOf fill.symbol rows)).trade (tradeOf fill)).cost) :
    Shows (rows ++ [fill]) acc' := by
  have hown : stockOf (tradesOf fill.symbol (rows ++ [fill])) =
      (stockOf (tradesOf fill.symbol rows)).trade (tradeOf fill) := by
    rw [tradesOf_append, if_pos rfl, stockOf_append]
  have hother : ∀ symbol, symbol ≠ fill.symbol → tradesOf symbol (rows ++ [fill]) = tradesOf symbol rows := by
    intro symbol hne
    rw [tradesOf_append, if_neg (Ne.symm hne)]
  refine ⟨?_, ?_, ?_⟩
  · intro symbol
    rw [hposition symbol]
    split
    · rename_i hsymbol
      exact hsymbol.symm
    · exact h.symbol symbol
  · intro symbol
    rw [hposition symbol]
    split
    · rename_i hsymbol
      rw [hsymbol, hown]
      exact hstock.1
    · rename_i hne
      rw [hother symbol hne]
      exact h.quantity symbol
  · intro symbol
    rw [hposition symbol]
    split
    · rename_i hsymbol
      rw [hsymbol, hown, hstock.2]
    · rename_i hne
      rw [hother symbol hne]
      exact h.cost symbol

/-- A row of the replay: it shows the history with the row, or the row is a sale of too many shares. -/
theorem Shows.row {rows : List PaperFillRow} {acc : Replay} (h : Shows rows acc) {fill : PaperFillRow}
    (hfill : Priced fill) :
    (∃ acc', acc.row fill = .ok acc' ∧ Shows (rows ++ [fill]) acc' ∧ (fill.side = "SELL" →
      fill.quantity + sold (tradesOf fill.symbol rows) ≤ bought (tradesOf fill.symbol rows))) ∨
    (fill.side = "SELL" ∧ (∃ e, acc.row fill = .error e) ∧
      ¬ (fill.quantity : ℚ) + sold (tradesOf fill.symbol rows) ≤ bought (tradesOf fill.symbol rows)) := by
  have hquantity := h.quantity fill.symbol
  have hcost := h.cost fill.symbol
  have hleft := (stockOf_eq (tradesOf fill.symbol rows)).1
  rcases hfill.side with hside | hside
  · have hupper : fill.sideUpper = "BUY" := by
      rw [PaperFillRow.sideUpper, hside]
      decide
    have htrade : tradeOf fill = .buy fill.quantity (paidPrice fill) := if_pos hside
    obtain ⟨acc', hacc, -, -, hposition⟩ := Replay.row_buy hupper hfill.finite hcost
    refine .inl ⟨acc', hacc, h.snoc hposition ?_, ?_⟩
    · rw [htrade, Int.cast_add, hquantity]
      exact ⟨rfl, rfl⟩
    · intro hsell
      rw [hside] at hsell
      exact absurd hsell (by decide)
  · have hupper : fill.sideUpper = "SELL" := by
      rw [PaperFillRow.sideUpper, hside]
      decide
    have htrade : tradeOf fill = .sell fill.quantity := if_neg (by rw [hside]; decide)
    have hfew : (fill.quantity : ℚ) + sold (tradesOf fill.symbol rows) ≤ bought (tradesOf fill.symbol rows) ↔
        fill.quantity ≤ (acc.position fill.symbol).quantity := by
      rw [← le_sub_iff_add_le, ← hleft, ← hquantity, Int.cast_le]
    rcases Replay.row_sell hupper hfill.finite hcost with ⟨hlt, hraise⟩ | ⟨hle, acc', hacc, -, -, hposition⟩
    · exact .inr ⟨hside, hraise, fun hcovered => absurd (hfew.mp hcovered) (not_le.mpr hlt)⟩
    · refine .inl ⟨acc', hacc, h.snoc hposition ?_, fun _ => hfew.mpr hle⟩
      rw [htrade, Int.cast_sub, hquantity]
      exact ⟨rfl, rfl⟩

/-- The replay raises nothing exactly when every sale is covered, and then shows every stock. -/
theorem replay_shows {rows : List PaperFillRow} (hrows : ∀ fill ∈ rows, Priced fill) :
    (∃ acc, Replay.rows rows = .ok acc ∧ Covered rows ∧ Shows rows acc) ∨
      ((∃ e, Replay.rows rows = .error e) ∧ ¬ Covered rows) := by
  induction rows using List.reverseRecOn with
  | nil =>
    refine .inl ⟨.init, rfl, ?_, shows_init⟩
    intro front fill back hnil
    cases front <;> cases hnil
  | append_singleton rows fill ih =>
    have hfront := ih fun other hother => hrows other (List.mem_append_left _ hother)
    have hfill := hrows fill (List.mem_append_right _ (List.mem_singleton_self fill))
    have hsplit : Replay.rows (rows ++ [fill]) = Replay.rows rows >>= fun acc => acc.row fill := by
      rw [Replay.rows, List.foldlM_append, Replay.rows]
      congr 1
      funext acc
      rw [List.foldlM_cons]
      cases acc.row fill <;> rfl
    rw [hsplit, covered_snoc]
    rcases hfront with ⟨acc, hacc, hcovered, hshows⟩ | ⟨⟨e, he⟩, hnot⟩
    · rw [hacc]
      rcases hshows.row hfill with ⟨acc', hacc', hshows', hlast⟩ | ⟨hside, ⟨e, he⟩, hfew⟩
      · exact .inl ⟨acc', hacc', ⟨hcovered, hlast⟩, hshows'⟩
      · exact .inr ⟨⟨e, he⟩, fun hboth => hfew (hboth.2 hside)⟩
    · rw [he]
      exact .inr ⟨⟨e, rfl⟩, fun hboth => hnot hboth.1⟩

/-! ### The aggregates -/

theorem signedQuantity_eq {fills : List PaperFillRow} :
    (signedQuantity fills : ℚ) = bought (fills.map tradeOf) - sold (fills.map tradeOf) := by
  induction fills with
  | nil => simp [signedQuantity, bought, sold]
  | cons fill rest ih =>
    have hcons : signedQuantity (fill :: rest) =
        (if fill.side = "BUY" then fill.quantity else -fill.quantity) + signedQuantity rest := List.sum_cons
    rw [hcons, Int.cast_add, ih, List.map_cons]
    by_cases hside : fill.side = "BUY"
    · rw [if_pos hside, tradeOf, if_pos hside]
      simp only [bought, sold]
      ring
    · rw [if_neg hside, tradeOf, if_neg hside]
      simp only [bought, sold]
      push_cast
      ring

theorem buyQuantity_eq {fills : List PaperFillRow} :
    (buyQuantity fills : ℚ) = bought (fills.map tradeOf) := by
  induction fills with
  | nil => simp [buyQuantity, bought]
  | cons fill rest ih =>
    have hcons : buyQuantity (fill :: rest) =
        (if fill.side = "BUY" then fill.quantity else 0) + buyQuantity rest := List.sum_cons
    rw [hcons, Int.cast_add, ih, List.map_cons]
    by_cases hside : fill.side = "BUY"
    · rw [if_pos hside, tradeOf, if_pos hside]
      rfl
    · rw [if_neg hside, tradeOf, if_neg hside, Int.cast_zero, zero_add]
      rfl

theorem buyValue_eq {fills : List PaperFillRow} (hfills : ∀ fill ∈ fills, Priced fill) :
    buyValue fills = .fin (paid (fills.map tradeOf)) := by
  have hfold : ∀ (fills : List PaperFillRow) (start : ℚ), (∀ fill ∈ fills, Priced fill) →
      fills.foldl addBuyValue (.fin start) = .fin (start + paid (fills.map tradeOf)) := by
    intro fills
    induction fills with
    | nil => simp [paid]
    | cons fill rest ih =>
      intro start hfills
      have hfill := hfills fill List.mem_cons_self
      have hrest : ∀ other ∈ rest, Priced other := fun other hother => hfills other (List.mem_cons_of_mem _ hother)
      rw [List.foldl_cons, List.map_cons, addBuyValue]
      by_cases hside : fill.side = "BUY"
      · rw [if_pos hside, hfill.finite, PyFloat.times_fin, PyFloat.plus_fin, ih _ hrest, tradeOf, if_pos hside, paid]
        congr 1
        ring
      · rw [if_neg hside, PyFloat.plus_fin, add_zero, ih _ hrest, tradeOf, if_neg hside, paid]
  have hall := hfold fills 0 hfills
  rw [zero_add] at hall
  exact hall

/-! ### Positions and report -/

variable {journal : PaperJournal}

/-- The rows in the order of the replay. -/
def replayOrder (journal : PaperJournal) : List PaperFillRow := journal.fills.rows.insertionSort PaperFillRow.before

/-- In the order of the rows every sale is covered, no symbol is sold out, and what was sold of a symbol
    cost, at the average when it was sold, what it costs at the average of all purchases. -/
structure Reportable (rows : List PaperFillRow) : Prop where
  covered : Covered rows
  left : ∀ fill ∈ rows, sold (tradesOf fill.symbol rows) < bought (tradesOf fill.symbol rows)
  atAverage : ∀ fill ∈ rows, soldCost .empty (tradesOf fill.symbol rows) * bought (tradesOf fill.symbol rows) =
    sold (tradesOf fill.symbol rows) * paid (tradesOf fill.symbol rows)

theorem mem_replayOrder {fill : PaperFillRow} : fill ∈ journal.replayOrder ↔ fill ∈ journal.fills.rows :=
  List.mem_insertionSort _

/-- The aggregates of a symbol, on its history in the order of the replay. -/
theorem positionOf_eq (hpriced : ∀ fill ∈ journal.fills.rows, Priced fill) (symbol : String) :
    (journal.positionOf symbol).symbol = symbol ∧
    ((journal.positionOf symbol).quantity : ℚ) = (stockOf (tradesOf symbol journal.replayOrder)).quantity ∧
    (journal.positionOf symbol).avgPrice =
      .fin (paid (tradesOf symbol journal.replayOrder) / bought (tradesOf symbol journal.replayOrder)) := by
  have hperm : (tradesOf symbol journal.replayOrder).Perm ((journal.fillsOf symbol).map tradeOf) :=
    ((List.perm_insertionSort PaperFillRow.before journal.fills.rows).filter _).map tradeOf
  obtain ⟨hbought, hpaid, hsold⟩ := totals_perm hperm
  have hfills : ∀ fill ∈ journal.fillsOf symbol, Priced fill :=
    fun fill hfill => hpriced fill (List.mem_of_mem_filter hfill)
  refine ⟨rfl, ?_, ?_⟩
  · rw [(stockOf_eq _).1, hbought, hsold]
    exact signedQuantity_eq
  · rw [hbought, hpaid, ← buyQuantity_eq]
    unfold positionOf
    dsimp only
    rw [buyValue_eq hfills]
    split
    · rename_i hzero
      rw [hzero, Int.cast_zero, div_zero]
    · rfl

/-- A symbol is listed as soon as it has a fill: `HAVING` reads a quantity of a row. -/
theorem mem_paperPositions (hpriced : ∀ fill ∈ journal.fills.rows, Priced fill) {position : PaperPositionState} :
    position ∈ journal.paperPositions ↔
      (∃ fill ∈ journal.fills.rows, fill.symbol = position.symbol) ∧ position = journal.positionOf position.symbol := by
  unfold paperPositions
  rw [List.mem_map]
  constructor
  · rintro ⟨symbol, hmem, rfl⟩
    obtain ⟨hlisted, -⟩ := List.mem_filter.mp hmem
    rw [List.mem_insertionSort, List.mem_dedup, List.mem_map] at hlisted
    exact ⟨hlisted, rfl⟩
  · rintro ⟨⟨fill, hfill, hsymbol⟩, hposition⟩
    refine ⟨position.symbol, List.mem_filter.mpr ⟨?_, ?_⟩, hposition.symm⟩
    · rw [List.mem_insertionSort, List.mem_dedup]
      exact List.mem_map.mpr ⟨fill, hfill, hsymbol⟩
    · have hown : fill ∈ journal.fillsOf position.symbol :=
        List.mem_filter.mpr ⟨hfill, decide_eq_true hsymbol⟩
      cases hrows : journal.fillsOf position.symbol with
      | nil =>
        rw [hrows] at hown
        exact absurd hown List.not_mem_nil
      | cons first rest =>
        have hfirst : first ∈ journal.fillsOf position.symbol := by
          rw [hrows]
          exact List.mem_cons_self
        have hpositive := (hpriced first (List.mem_of_mem_filter hfirst)).positive
        simpa using hpositive

theorem sold_nonneg {rows : List PaperFillRow} (hrows : ∀ fill ∈ rows, Priced fill) (symbol : String) :
    0 ≤ sold (tradesOf symbol rows) := by
  unfold tradesOf
  have hown : ∀ fill ∈ rows.filter fun fill => fill.symbol = symbol, Priced fill :=
    fun fill hfill => hrows fill (List.mem_of_mem_filter hfill)
  generalize rows.filter (fun fill => fill.symbol = symbol) = own at hown
  induction own with
  | nil => exact le_rfl
  | cons fill rest ih =>
    have hrest := ih fun other hother => hown other (List.mem_cons_of_mem _ hother)
    have hpositive : (0 : ℚ) < fill.quantity := by exact_mod_cast (hown fill List.mem_cons_self).positive
    rw [List.map_cons, tradeOf]
    split
    · exact hrest
    · exact add_nonneg hpositive.le hrest

/-- A symbol without fills is held by no one. -/
theorem tradesOf_eq_nil {rows : List PaperFillRow} {symbol : String} (h : ∀ fill ∈ rows, fill.symbol ≠ symbol) :
    tradesOf symbol rows = [] := by
  unfold tradesOf
  rw [List.filter_eq_nil_iff.mpr fun fill hfill => by simpa using h fill hfill, List.map_nil]

theorem pairwise_paperPositions (journal : PaperJournal) :
    journal.paperPositions.Pairwise fun a b => a.symbol < b.symbol := by
  unfold paperPositions
  rw [List.pairwise_map]
  have hnodup : ((journal.fills.rows.map (·.symbol)).dedup.map id).Nodup := by
    rw [List.map_id]
    exact List.nodup_dedup _
  exact (SortedRows.pairwise_sorted hnodup).filter _

/-- What the replay and the aggregates say of a symbol that is left. -/
theorem averages_iff {acc : Replay} {symbol : String} (hpriced : ∀ fill ∈ journal.fills.rows, Priced fill)
    (hshows : Shows journal.replayOrder acc)
    (hleft : sold (tradesOf symbol journal.replayOrder) < bought (tradesOf symbol journal.replayOrder)) :
    (acc.position symbol).quantity = (journal.positionOf symbol).quantity ∧ 0 < (acc.position symbol).quantity ∧
    ((acc.position symbol).averageCost = (journal.positionOf symbol).avgPrice ↔
      soldCost .empty (tradesOf symbol journal.replayOrder) * bought (tradesOf symbol journal.replayOrder) =
        sold (tradesOf symbol journal.replayOrder) * paid (tradesOf symbol journal.replayOrder)) := by
  obtain ⟨-, hquantity, havg⟩ := positionOf_eq hpriced symbol
  have hown := hshows.quantity symbol
  have hstock : 0 < (stockOf (tradesOf symbol journal.replayOrder)).quantity := by
    rw [(stockOf_eq _).1]
    exact sub_pos.mpr hleft
  have hbought : bought (tradesOf symbol journal.replayOrder) ≠ 0 := by
    have hsold := sold_nonneg (fun fill hfill => hpriced fill (mem_replayOrder.mp hfill)) symbol
    exact (hsold.trans_lt hleft).ne'
  refine ⟨?_, ?_, ?_⟩
  · exact_mod_cast hown.trans hquantity.symm
  · exact_mod_cast hown.symm ▸ hstock
  · rw [Replay.averageCost_fin (hshows.cost symbol), havg, hown, PyFloat.fin.injEq]
    exact average_eq_iff hbought hstock.ne'

/-- Positions as the report shows them. -/
def shownPosition (position : PaperPositionState) : PaperPositionReport :=
  ⟨position.symbol, position.quantity, position.avgPrice⟩

/-- A replay that shows the positions of the journal has left some of every symbol, at the average of
    all purchases. -/
theorem reportable_of_positions {acc : Replay} (hpriced : ∀ fill ∈ journal.fills.rows, Priced fill)
    (hcovered : Covered journal.replayOrder) (hshows : Shows journal.replayOrder acc)
    (hsame : acc.openPositions = journal.paperPositions.map shownPosition) : Reportable journal.replayOrder := by
  have hlisted : ∀ fill ∈ journal.replayOrder, 0 < (journal.positionOf fill.symbol).quantity ∧
      (acc.position fill.symbol).averageCost = (journal.positionOf fill.symbol).avgPrice := by
    intro fill hfill
    have hmem : journal.positionOf fill.symbol ∈ journal.paperPositions :=
      (mem_paperPositions hpriced).mpr ⟨⟨fill, mem_replayOrder.mp hfill, rfl⟩, rfl⟩
    have hshown := List.mem_map_of_mem (f := shownPosition) hmem
    rw [← hsame, Replay.mem_openPositions] at hshown
    exact ⟨hshown.1, hshown.2.2.symm⟩
  have hleft : ∀ fill ∈ journal.replayOrder,
      sold (tradesOf fill.symbol journal.replayOrder) < bought (tradesOf fill.symbol journal.replayOrder) := by
    intro fill hfill
    have hpositive : (0 : ℚ) < (journal.positionOf fill.symbol).quantity := by
      exact_mod_cast (hlisted fill hfill).1
    rw [(positionOf_eq hpriced fill.symbol).2.1, (stockOf_eq _).1] at hpositive
    exact sub_pos.mp hpositive
  refine ⟨hcovered, hleft, ?_⟩
  intro fill hfill
  exact (averages_iff hpriced hshows (hleft fill hfill)).2.2.mp (hlisted fill hfill).2

/-- The replay of a reportable journal shows its positions. -/
theorem positions_of_reportable {acc : Replay} (hpriced : ∀ fill ∈ journal.fills.rows, Priced fill)
    (hshows : Shows journal.replayOrder acc) (h : Reportable journal.replayOrder) :
    acc.openPositions = journal.paperPositions.map shownPosition := by
  -- a symbol with a fill is held by both, at the same average
  have hboth : ∀ symbol, (∃ fill ∈ journal.fills.rows, fill.symbol = symbol) →
      (acc.position symbol).quantity = (journal.positionOf symbol).quantity ∧ 0 < (acc.position symbol).quantity ∧
        (acc.position symbol).averageCost = (journal.positionOf symbol).avgPrice := by
    rintro _ ⟨fill, hfill, rfl⟩
    have hfill' := mem_replayOrder.mpr hfill
    obtain ⟨hquantity, hpositive, haverage⟩ := averages_iff hpriced hshows (h.left fill hfill')
    exact ⟨hquantity, hpositive, haverage.mpr (h.atAverage fill hfill')⟩
  refine Replay.openPositions_eq ?_ ?_
  · rw [List.pairwise_map]
    exact journal.pairwise_paperPositions
  · intro shown
    rw [List.mem_map]
    constructor
    · rintro ⟨position, hmem, rfl⟩
      obtain ⟨htraded, hposition⟩ := (mem_paperPositions hpriced).mp hmem
      obtain ⟨hquantity, hpositive, haverage⟩ := hboth position.symbol htraded
      rw [hquantity, ← hposition] at hpositive
      dsimp only [shownPosition]
      rw [hquantity, haverage, ← hposition]
      exact ⟨hpositive, rfl, rfl⟩
    · rintro ⟨hpositive, hquantity, haverage⟩
      by_cases htraded : ∃ fill ∈ journal.fills.rows, fill.symbol = shown.symbol
      · obtain ⟨hquantity', -, haverage'⟩ := hboth shown.symbol htraded
        refine ⟨journal.positionOf shown.symbol, (mem_paperPositions hpriced).mpr ⟨htraded, rfl⟩, ?_⟩
        rw [shownPosition, ← hquantity', ← haverage', ← hquantity, ← haverage]
        rfl
      · have hnone := tradesOf_eq_nil fun fill hfill hsymbol =>
          htraded ⟨fill, mem_replayOrder.mp hfill, hsymbol⟩
        have hempty : (stockOf ([] : List (Trade ℚ))).quantity = 0 := rfl
        have hzero := hshows.quantity shown.symbol
        rw [hnone, hempty, Int.cast_eq_zero] at hzero
        rw [hquantity, hzero] at hpositive
        exact absurd hpositive (lt_irrefl 0)

/-- The report is built, and its open positions are those of `paper_positions`. -/
def Agrees (journal : PaperJournal) : Prop :=
  ∃ report, buildPaperReport journal.orders.rows journal.fills.rows = .ok report ∧
    report.openPositions = journal.paperPositions.map shownPosition

/-- What the report shows, where it is built. -/
def reported (journal : PaperJournal) : Option (List PaperPositionReport) :=
  (buildPaperReport journal.orders.rows journal.fills.rows).toOption.map (·.openPositions)

theorem agrees_iff (journal : PaperJournal) :
    journal.Agrees ↔ journal.reported = some (journal.paperPositions.map shownPosition) := by
  unfold Agrees reported
  cases buildPaperReport journal.orders.rows journal.fills.rows with
  | error e => simp [Except.toOption]
  | ok report => simp [Except.toOption]

namespace FourJournals

/-- A minute of a trading day. -/
def at' (minute : Nat) : DateTime := .combine 20455 9 minute 0 (some 0)

def buy (id : String) (minute : Nat) (quantity price : Int) : JournalCall :=
  .buy (at' minute) ⟨id, id, id, "005930", quantity, .int price, some (at' minute)⟩

def sell (id : String) (minute : Nat) (quantity price : Int) : JournalCall :=
  .sell (at' minute) ⟨id, id, id, "005930", quantity, .int price, some (at' minute)⟩

/-- Bought twice, then sold in part. -/
def kept : List JournalCall := [buy "1" 0 10 100, buy "2" 1 10 110, sell "3" 2 5 120]

/-- Bought and sold out. -/
def soldOut : List JournalCall := [buy "1" 0 10 100, sell "2" 1 10 110]

/-- Bought and sold in the same minute, the sale under the smaller id. -/
def sameMinute : List JournalCall := [buy "2" 0 10 100, sell "1" 0 5 110]

/-- Sold in part, then bought at another price. -/
def boughtMore : List JournalCall := [buy "1" 0 2 100, sell "2" 1 1 110, buy "3" 2 1 200]

end FourJournals

end AutoTrader.PaperJournal
