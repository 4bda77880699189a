/-
  AutoTrader/Risk/PortfolioSnapshot.lean
  ======================================
  **Realized profit and losing runs from the broker fills.**

  `calculate_local_daily_realized_pnl` matches lots on its own, with its own lots, and
  adds up the day's sales; `_consecutive_losses` counts the losses at the end of the
  performance report.  Both read the fills in the order of the text of their time.

  The two loops consume the same inventory.  That the text orders the fills as their
  times do is a property of the offsets they were written with, and no loop checks it.
-/
import AutoTrader.Ops.Performance
import Mathlib.Data.List.TakeWhile
import Mathlib.Tactic.Ring

namespace AutoTrader

open Performance

/-- The rows of the query over the fills, before they are ordered: the fills that have an
    order, with the strategy of the order's decision. -/
def Database.joinedFills (db : Database) (strategies : String → Option String) : List FillRow :=
  db.brokerFills.rows.filterMap fun fill =>
    (db.brokerOrders.find? fill.clientOrderId).map fun order =>
      { fillId := fill.fillId
        symbol := fill.symbol
        side := fill.side.name
        quantity := fill.quantity
        price := fill.price.val
        filledAt := .iso fill.filledAt
        strategy := (order.signalId.bind strategies).getD "UNKNOWN" }

namespace PortfolioSnapshot

/-- When a review flag was cleared, if that was today and not after `now`. -/
def clearedAt (metadata : Relational.Table MetadataRow MetadataRow.key) (now : DateTime) (key : String) :
    Option Int :=
  match metadata.find? key with
  | none => none
  | some row =>
    match row.value with
    | .object _ => none
    | .text value =>
      if String.ofList (value.toList.map Char.toLower) ≠ "false" then none
      else if row.updatedAt.toKst.date ≠ now.toKst.date then none
      else if now.instant < row.updatedAt.instant then none
      else some row.updatedAt.instant

/-- `min(reconciliation_times)`. -/
def reconciledThrough (metadata : Relational.Table MetadataRow MetadataRow.key) (now : DateTime) :
    Option Int := do
  let review ← clearedAt metadata now "operator_review"
  let block ← clearedAt metadata now "block_new_entries"
  some (min review block)

/-- The state of the loop: the lots, as pairs, and what was realized today. -/
structure Realizing where
  lots : String → List (Nat × ℚ)
  realized : ℚ

/-- `while remaining:` over the lots of one symbol, with the profit of the sale so far.  A lot
    that is not used up has met all that remained. -/
def realizeLots (bps : CostBps) (price : ℚ) : Nat → List (Nat × ℚ) → ℚ → Option (List (Nat × ℚ) × ℚ)
  | 0, lots, sellRealized => some (lots, sellRealized)
  | _ + 1, [], _ => none
  | remaining + 1, (lotQuantity, lotPrice) :: rest, sellRealized =>
    let matched := min (remaining + 1) lotQuantity
    let buyNotional := lotPrice * matched
    let sellNotional := price * matched
    let sellRealized := sellRealized + (sellNotional - buyNotional - buyNotional * bps.buy / 10000 -
      sellNotional * bps.sell / 10000)
    if matched = lotQuantity then realizeLots bps price (remaining + 1 - matched) rest sellRealized
    else some ((lotQuantity - matched, lotPrice) :: rest, sellRealized)

/-- One pass of the loop over the fills. -/
def realizeFill (bps : CostBps) (now : DateTime) (through : Int) (s : Realizing) (row : FillRow) :
    Option Realizing :=
  match row.filledAt with
  | .unreadable _ => none
  | .iso filledAt =>
    match Side.parse? row.side with
    | none => none
    | some side =>
      if row.symbol = "" ∨ row.quantity ≤ 0 ∨ row.price ≤ 0 then none
      else if now.instant < filledAt.instant then none
      else if through < filledAt.instant then none
      else
        let lots := s.lots row.symbol
        match side with
        | .buy =>
          some { s with
            lots := Function.update s.lots row.symbol (lots ++ [(row.quantity.toNat, row.price)]) }
        | .sell => do
          let (left, sellRealized) ← realizeLots bps row.price row.quantity.toNat lots 0
          some
            { lots := Function.update s.lots row.symbol left
              realized := if filledAt.toKst.date = now.toKst.date then s.realized + sellRealized
                else s.realized }

/-- The day's profit on the fills in the order they come in. -/
def dailyPnlInOrder (bps : CostBps) (metadata : Relational.Table MetadataRow MetadataRow.key)
    (rows : List FillRow) (now : DateTime) : Option ℚ := do
  let through ← reconciledThrough metadata now
  let s ← rows.foldlM (realizeFill bps now through) ⟨fun _ => [], 0⟩
  some (round10 s.realized)

/-- The losses at the end: `for outcome in reversed(outcomes)` until one is no loss. -/
def lossesAtEnd (outcomes : List ℚ) : Nat := (outcomes.reverse.takeWhile (· < 0)).length

end PortfolioSnapshot

open PortfolioSnapshot

def calculateLocalDailyRealizedPnl (bps : CostBps)
    (metadata : Relational.Table MetadataRow MetadataRow.key) (rows : List FillRow) (now : DateTime) :
    Option ℚ :=
  dailyPnlInOrder bps metadata (fillOrder rows) now

/-- `_consecutive_losses`; whatever the report raises is a `ValueError`. -/
def consecutiveLosses (bps : CostBps) (rows : List FillRow) : Option Nat :=
  match buildPerformanceReport bps (fillOrder rows) with
  | .error _ => none
  | .ok report => some (lossesAtEnd report.outcomes)

namespace PortfolioSnapshot

/-! ### The two loops side by side -/

/-- The profit of taking so many units of a lot at a price. -/
def lotNet (bps : CostBps) (price : ℚ) (lot : Nat × ℚ) : ℚ :=
  grossOf price lot.2 lot.1 - costsOf bps price lot.2 lot.1

theorem realizeLots_eq (bps : CostBps) (price : ℚ) (n : Nat) (lots : List (Nat × ℚ)) (sum : ℚ) :
    realizeLots bps price n lots sum =
      (Fifo.take n lots).map fun (taken, left) => (left, sum + (taken.map (lotNet bps price)).sum) := by
  induction lots generalizing n sum with
  | nil =>
    cases n with
    | zero => simp [realizeLots]
    | succ n => rfl
  | cons lot rest ih =>
    obtain ⟨q, a⟩ := lot
    cases n with
    | zero => simp [realizeLots]
    | succ n =>
      rcases Nat.lt_or_ge (n + 1) q with hlt | hle
      · rw [realizeLots, Fifo.take_of_lt _ _ n.succ_pos hlt]
        simp only [Nat.min_eq_left hlt.le, if_neg hlt.ne, Option.map_some, List.map_cons, List.map_nil,
          List.sum_singleton, lotNet, grossOf, costsOf, sub_add_eq_sub_sub]
      · rw [realizeLots, Fifo.take_of_le _ _ n.succ_pos hle]
        simp only [Nat.min_eq_right hle, if_true]
        rw [ih, Option.map_map]
        refine congrArg (Option.map · _) (funext fun taking => ?_)
        obtain ⟨taken, left⟩ := taking
        simp only [Function.comp, List.map_cons, List.sum_cons, lotNet, grossOf, costsOf,
          sub_add_eq_sub_sub, add_assoc]

/-- The outcomes that each row adds to the report, with the row. -/
def outcomesByFill (bps : CostBps) : Accounts → List FillRow → List (FillRow × List ℚ)
  | _, [] => []
  | accounts, row :: rest =>
    match bookFill bps accounts row with
    | .error _ => []
    | .ok accounts' =>
      (row, accounts'.totals.outcomes.drop accounts.totals.outcomes.length) ::
        outcomesByFill bps accounts' rest

/-- The row is dated on the Korean day of `now`. -/
def onDay (now : DateTime) (row : FillRow) : Bool :=
  match row.filledAt with
  | .iso filledAt => filledAt.toKst.date = now.toKst.date
  | .unreadable _ => false

/-- What the rows of the day added. -/
def daysOutcomes (now : DateTime) (entries : List (FillRow × List ℚ)) : List ℚ :=
  (entries.filter fun entry => onDay now entry.1).flatMap (·.2)

/-- Both loops hold the same lots; only the report remembers strategies. -/
def SameLots (s : Realizing) (accounts : Accounts) : Prop :=
  ∀ symbol, s.lots symbol = (accounts.lots symbol).map fun lot => (lot.quantity, lot.price)

/-- A fill that the day's profit can use: valid, and read no later than `through`. -/
def Usable (through : Int) (row : FillRow) : Prop :=
  Valid row ∧ ∃ t, row.filledAt = .iso t ∧ t.instant ≤ through

/-- The outcomes of a booked row follow the earlier ones. -/
theorem outcomes_bookFill {bps : CostBps} {accounts accounts' : Accounts} {row : FillRow}
    (h : bookFill bps accounts row = .ok accounts') :
    accounts'.totals.outcomes = accounts.totals.outcomes ++
      accounts'.totals.outcomes.drop accounts.totals.outcomes.length := by
  by_cases hvalid : Valid row
  · rw [bookFill_eq bps accounts hvalid] at h
    rcases happly : (trade row).apply (stockOf accounts.lots) with _ | ⟨stock, matched⟩
    · rw [happly] at h
      cases h
    · rw [happly] at h
      cases h
      rw [outcomes_bookPieces, List.drop_left]
  · rw [bookFill_invalid hvalid] at h
    cases h

theorem outcomes_bookFills {bps : CostBps} {accounts final : Accounts} {rows : List FillRow}
    (h : bookFills bps accounts rows = .ok final) :
    final.totals.outcomes = accounts.totals.outcomes ++ (outcomesByFill bps accounts rows).flatMap (·.2) := by
  induction rows generalizing accounts with
  | nil =>
    cases h
    simp [outcomesByFill]
  | cons row rest ih =>
    have hfold : bookFills bps accounts (row :: rest) =
        (bookFill bps accounts row).bind fun accounts' => bookFills bps accounts' rest :=
      List.foldlM_cons
    rw [hfold] at h
    obtain ⟨accounts', hrow, hrest⟩ := Except.bind_eq_ok h
    rw [ih hrest, outcomesByFill, hrow, List.flatMap_cons, ← List.append_assoc, ← outcomes_bookFill hrow]

/-- Taking units from the same lots yields the same profit. -/
theorem realizeLots_sim (bps : CostBps) (symbol : String) (price : ℚ) (n : Nat) (lots : List Lot) :
    realizeLots bps price n (lots.map fun lot => (lot.quantity, lot.price)) 0 =
      (Fifo.take n (lots.map Lot.entry)).map fun (taken, left) =>
        (left.map fun lot => (lot.1, lot.2.1),
          ((Fifo.pieces symbol price taken).map (pieceNet bps)).sum) := by
  have hlots : (lots.map fun lot => (lot.quantity, lot.price)) =
      (lots.map Lot.entry).map fun lot => (lot.1, lot.2.1) := by
    rw [List.map_map]
    rfl
  rw [hlots, realizeLots_eq, Fifo.take_map Prod.fst, Option.map_map]
  refine congrArg (Option.map · _) (funext fun ⟨taken, left⟩ => ?_)
  simp only [Function.comp, zero_add, List.map_map, Fifo.pieces]
  rfl

/-- One row does the same to both loops, and what it adds to the day is its outcomes. -/
theorem realizeFill_sim (bps : CostBps) {now : DateTime} {through : Int} {s : Realizing}
    {accounts : Accounts} {row : FillRow} (hnow : through ≤ now.instant) (hrow : Usable through row)
    (hsame : SameLots s accounts) :
    match bookFill bps accounts row with
    | .error _ => realizeFill bps now through s row = none
    | .ok accounts' => ∃ s', realizeFill bps now through s row = some s' ∧ SameLots s' accounts' ∧
        s'.realized = s.realized +
          if onDay now row then (accounts'.totals.outcomes.drop accounts.totals.outcomes.length).sum
          else 0 := by
  obtain ⟨hvalid, t, ht, hthrough⟩ := hrow
  have hchecks : ¬ (row.symbol = "" ∨ row.quantity ≤ 0 ∨ row.price ≤ 0) := by
    simp only [not_or, not_le]
    exact ⟨hvalid.1, hvalid.2.2⟩
  have hlater : ¬ now.instant < t.instant := by omega
  have hbeyond : ¬ through < t.instant := by omega
  rw [bookFill_eq bps accounts hvalid]
  rcases trade_cases hvalid with ⟨hside, htrade⟩ | ⟨hside, htrade⟩
  · rw [htrade]
    simp only [Fifo.Trade.apply, realizeFill, ht, hside, if_neg hchecks, if_neg hlater, if_neg hbeyond,
      bookPieces_nil, List.drop_length, List.sum_nil, ite_self, add_zero]
    refine ⟨_, rfl, ?_, rfl⟩
    intro symbol
    simp only [lotsOf_update, lotsOf_stockOf]
    rcases eq_or_ne symbol row.symbol with rfl | hne
    · simp only [Function.update_self, hsame row.symbol, List.map_append, stockOf, map_entry_ofEntry]
      rfl
    · simp only [Function.update_of_ne hne, hsame symbol]
  · rw [htrade]
    simp only [Fifo.Trade.apply, realizeFill, ht, hside, if_neg hchecks, if_neg hlater, if_neg hbeyond,
      hsame row.symbol, realizeLots_sim bps row.symbol]
    have hqueue : stockOf accounts.lots row.symbol = (accounts.lots row.symbol).map Lot.entry := rfl
    rw [hqueue]
    rcases Fifo.take row.quantity.toNat ((accounts.lots row.symbol).map Lot.entry) with _ | ⟨taken, left⟩
    · rfl
    · refine ⟨_, rfl, ?_, ?_⟩
      · intro symbol
        simp only [lotsOf_update, lotsOf_stockOf]
        rcases eq_or_ne symbol row.symbol with rfl | hne
        · simp only [Function.update_self, List.map_map]
          rfl
        · simp only [Function.update_of_ne hne, hsame symbol]
      · simp only [outcomes_bookPieces, List.drop_left, onDay, ht, decide_eq_true_eq]
        split_ifs <;> simp

/-- The two loops over a history: they get through together, and the day's profit is the
    sum of what the day's rows added to the report. -/
theorem realizeFills_sim (bps : CostBps) {now : DateTime} {through : Int} (hnow : through ≤ now.instant)
    {s : Realizing} {accounts : Accounts} {rows : List FillRow} (hrows : ∀ row ∈ rows, Usable through row)
    (hsame : SameLots s accounts) :
    match bookFills bps accounts rows with
    | .error _ => rows.foldlM (realizeFill bps now through) s = none
    | .ok _ => ∃ s', rows.foldlM (realizeFill bps now through) s = some s' ∧
        s'.realized = s.realized + (daysOutcomes now (outcomesByFill bps accounts rows)).sum := by
  induction rows generalizing s accounts with
  | nil =>
    refine ⟨s, rfl, ?_⟩
    simp [outcomesByFill, daysOutcomes]
  | cons row rest ih =>
    obtain ⟨hrow, hrest⟩ := List.forall_mem_cons.mp hrows
    have hstep := realizeFill_sim bps hnow hrow hsame
    have hfold : bookFills bps accounts (row :: rest) =
        (bookFill bps accounts row).bind fun accounts' => bookFills bps accounts' rest :=
      List.foldlM_cons
    rw [hfold, List.foldlM_cons, outcomesByFill]
    rcases hbook : bookFill bps accounts row with e | accounts'
    · rw [hbook] at hstep
      simp only [Except.bind, hstep]
      rfl
    · rw [hbook] at hstep
      obtain ⟨s', hs', hsame', hrealized⟩ := hstep
      have hlast := ih hrest hsame'
      simp only [Except.bind, hs', Option.bind_eq_bind, Option.bind_some]
      rcases hfinal : bookFills bps accounts' rest with e | final
      · rw [hfinal] at hlast
        exact hlast
      · rw [hfinal] at hlast
        obtain ⟨last, hrun, hsum⟩ := hlast
        refine ⟨last, hrun, ?_⟩
        rw [hsum, hrealized, add_assoc]
        congr 1
        rcases hday : onDay now row with _ | _
        · simp [daysOutcomes, hday]
        · simp [daysOutcomes, hday]

/-- The review flag is false, and was cleared at this time, today and not after `now`. -/
def Cleared (metadata : Relational.Table MetadataRow MetadataRow.key) (now : DateTime) (key : String)
    (time : Int) : Prop :=
  ∃ row value, metadata.find? key = some row ∧ row.value = .text value ∧
    String.ofList (value.toList.map Char.toLower) = "false" ∧
    row.updatedAt.toKst.date = now.toKst.date ∧ row.updatedAt.instant ≤ now.instant ∧
    time = row.updatedAt.instant

theorem clearedAt_of_cleared {metadata : Relational.Table MetadataRow MetadataRow.key} {now : DateTime}
    {key : String} {time : Int} (h : Cleared metadata now key time) :
    clearedAt metadata now key = some time ∧ time ≤ now.instant := by
  obtain ⟨row, value, hrow, hvalue, hfalse, hdate, hle, rfl⟩ := h
  refine ⟨?_, hle⟩
  simp only [clearedAt, hrow, hvalue, hfalse, hdate, ne_eq, not_true_eq_false, if_false]
  exact if_neg (not_lt.mpr hle)

theorem dailyPnlInOrder_of_cleared {bps : CostBps}
    {metadata : Relational.Table MetadataRow MetadataRow.key} {rows : List FillRow} {now : DateTime}
    {review block : Int} (hreview : Cleared metadata now "operator_review" review)
    (hblock : Cleared metadata now "block_new_entries" block) :
    dailyPnlInOrder bps metadata rows now =
      (rows.foldlM (realizeFill bps now (min review block)) ⟨fun _ => [], 0⟩).map
        fun s => round10 s.realized := by
  have hthrough : reconciledThrough metadata now = some (min review block) := by
    simp [reconciledThrough, (clearedAt_of_cleared hreview).1, (clearedAt_of_cleared hblock).1]
  simp only [dailyPnlInOrder, hthrough, Option.bind_eq_bind, Option.bind_some]
  rw [Option.map_eq_bind]
  rfl

/-- The day's profit and the report of the same fills. -/
structure EnginesAgree (bps : CostBps) (metadata : Relational.Table MetadataRow MetadataRow.key)
    (rows : List FillRow) (now : DateTime) : Prop where
  together : (calculateLocalDailyRealizedPnl bps metadata rows now).isSome ↔
    ∃ report, buildPerformanceReport bps rows = .ok report
  covered : (∃ report, buildPerformanceReport bps rows = .ok report) ↔ NeverOversells (fillOrder rows)
  value : ∀ report, buildPerformanceReport bps rows = .ok report →
    report.outcomes = ((outcomesByFill bps .start (fillOrder rows)).flatMap (·.2)).map round10 ∧
    calculateLocalDailyRealizedPnl bps metadata rows now =
      some (round10 (daysOutcomes now (outcomesByFill bps .start (fillOrder rows))).sum)

section Agreement

variable {bps : CostBps} {metadata : Relational.Table MetadataRow MetadataRow.key} {rows : List FillRow}
  {now : DateTime} {review block : Int}

/-- The day's profit does not look at the rates; it is there unless the history oversells. -/
theorem calculate_isSome_iff (bps : CostBps) (hreview : Cleared metadata now "operator_review" review)
    (hblock : Cleared metadata now "block_new_entries" block)
    (hrows : ∀ row ∈ rows, Usable (min review block) row) :
    (calculateLocalDailyRealizedPnl bps metadata rows now).isSome ↔ NeverOversells (fillOrder rows) := by
  have hnow : min review block ≤ now.instant :=
    (min_le_left _ _).trans (clearedAt_of_cleared hreview).2
  have hordered : ∀ row ∈ fillOrder rows, Usable (min review block) row :=
    fun row hrow => hrows row (mem_fillOrder.mp hrow)
  have hstart : SameLots ⟨fun _ => [], 0⟩ .start := fun _ => rfl
  have hsim := realizeFills_sim bps hnow hordered hstart
  rw [calculateLocalDailyRealizedPnl, dailyPnlInOrder_of_cleared hreview hblock, Option.isSome_map,
    ← bookFills_ok_iff bps fun row hrow => (hordered row hrow).1]
  rcases hbook : bookFills bps .start (fillOrder rows) with e | final
  · rw [hbook] at hsim
    simp [hsim]
  · rw [hbook] at hsim
    obtain ⟨s, hs, -⟩ := hsim
    simp [hs]

theorem calculate_eq {final : Accounts} (hreview : Cleared metadata now "operator_review" review)
    (hblock : Cleared metadata now "block_new_entries" block)
    (hrows : ∀ row ∈ rows, Usable (min review block) row)
    (hbook : bookFills bps .start (fillOrder rows) = .ok final) :
    calculateLocalDailyRealizedPnl bps metadata rows now =
      some (round10 (daysOutcomes now (outcomesByFill bps .start (fillOrder rows))).sum) := by
  have hnow : min review block ≤ now.instant :=
    (min_le_left _ _).trans (clearedAt_of_cleared hreview).2
  have hordered : ∀ row ∈ fillOrder rows, Usable (min review block) row :=
    fun row hrow => hrows row (mem_fillOrder.mp hrow)
  have hstart : SameLots ⟨fun _ => [], 0⟩ .start := fun _ => rfl
  have hsim := realizeFills_sim bps hnow hordered hstart
  rw [hbook] at hsim
  obtain ⟨s, hs, hsum⟩ := hsim
  rw [calculateLocalDailyRealizedPnl, dailyPnlInOrder_of_cleared hreview hblock, hs, Option.map_some,
    hsum, zero_add]

theorem reportInOrder_ok_iff {rows : List FillRow} :
    (∃ report, reportInOrder bps rows = .ok report) ↔
      (0 ≤ bps.buy ∧ 0 ≤ bps.sell) ∧ ∃ final, bookFills bps .start rows = .ok final := by
  rw [reportInOrder]
  split_ifs with hnegative
  · constructor
    · rintro ⟨_, ⟨⟩⟩
    · rintro ⟨⟨hbuy, hsell⟩, -⟩
      rcases hnegative with hbuy' | hsell'
      · exact absurd hbuy (not_le.mpr hbuy')
      · exact absurd hsell (not_le.mpr hsell')
  · simp only [not_or, not_lt] at hnegative
    rw [and_iff_right hnegative]
    constructor
    · rintro ⟨report, h⟩
      obtain ⟨final, hfinal, -⟩ := Except.bind_eq_ok h
      exact ⟨final, hfinal⟩
    · rintro ⟨final, hfinal⟩
      exact ⟨_, by rw [hfinal]; rfl⟩

/-- **The two FIFO engines agree exactly when no rate is negative**, histories apart that
    oversell: the report refuses a negative rate, and the day's profit does not. -/
theorem engines_agree_iff (hreview : Cleared metadata now "operator_review" review)
    (hblock : Cleared metadata now "block_new_entries" block)
    (hrows : ∀ row ∈ rows, Usable (min review block) row) :
    EnginesAgree bps metadata rows now ↔
      (0 ≤ bps.buy ∧ 0 ≤ bps.sell) ∨ ¬ NeverOversells (fillOrder rows) := by
  have hvalid : ∀ row ∈ fillOrder rows, Valid row := fun row hrow => (hrows row (mem_fillOrder.mp hrow)).1
  have hsome := calculate_isSome_iff bps hreview hblock hrows
  have hreport : (∃ report, buildPerformanceReport bps rows = .ok report) ↔
      (0 ≤ bps.buy ∧ 0 ≤ bps.sell) ∧ NeverOversells (fillOrder rows) := by
    rw [buildPerformanceReport, reportInOrder_ok_iff, bookFills_ok_iff bps hvalid]
  constructor
  · intro h
    by_cases hnever : NeverOversells (fillOrder rows)
    · exact .inl (hreport.mp (h.covered.mpr hnever)).1
    · exact .inr hnever
  · intro h
    have hcovered : (∃ report, buildPerformanceReport bps rows = .ok report) ↔
        NeverOversells (fillOrder rows) := by
      rw [hreport]
      rcases h with hrates | hover
      · exact and_iff_right hrates
      · exact ⟨fun h => h.2, fun h => absurd h hover⟩
    refine ⟨hsome.trans hcovered.symm, hcovered, ?_⟩
    intro report hok
    obtain ⟨final, hbook, rfl⟩ := buildPerformanceReport_eq_ok hok
    refine ⟨?_, calculate_eq hreview hblock hrows hbook⟩
    have houtcomes := outcomes_bookFills hbook
    simp only [Totals.report, houtcomes]
    rfl

end Agreement

/-! ### Splitting a fill -/

/-- A fill that the broker reported in two parts: of one order, at one price and time. -/
structure SplitFill (row first second : FillRow) : Prop where
  symbol : first.symbol = row.symbol ∧ second.symbol = row.symbol
  side : first.side = row.side ∧ second.side = row.side
  price : first.price = row.price ∧ second.price = row.price
  filledAt : first.filledAt = row.filledAt ∧ second.filledAt = row.filledAt
  strategy : first.strategy = row.strategy ∧ second.strategy = row.strategy
  quantity : row.quantity = first.quantity + second.quantity
  first_pos : 0 < first.quantity
  second_pos : 0 < second.quantity

/-- An outcome cut in two: so many shares each, at one profit a share. -/
def OutcomeParts (x y z : ℚ) : Prop :=
  ∃ (i j : Nat) (each : ℚ), 0 < i ∧ 0 < j ∧ x = (i + j : Nat) * each ∧ y = i * each ∧ z = j * each

/-- What becomes of the number of losses at the end when an outcome is cut in two. -/
def SplitCount (outcomes outcomes' : List ℚ) (n n' : Nat) : Prop :=
  n' = n ∨ ∃ front x y z back, OutcomeParts x y z ∧ outcomes = front ++ x :: back ∧
    outcomes' = front ++ y :: z :: back ∧ (∀ later ∈ back, round10 later < 0) ∧ round10 x < 0 ∧
    ((round10 y < 0 ∧ round10 z < 0 ∧ n' = n + 1) ∨ ((round10 y = 0 ∨ round10 z = 0) ∧ n' ≤ n))

theorem SplitFill.valid_iff {row first second : FillRow} (h : SplitFill row first second) :
    (Valid first ↔ Valid row) ∧ (Valid second ↔ Valid row) := by
  have hpos : 0 < row.quantity := h.quantity ▸ add_pos h.first_pos h.second_pos
  constructor
  · simp [Valid, h.symbol.1, h.side.1, h.price.1, h.first_pos, hpos]
  · simp [Valid, h.symbol.2, h.side.2, h.price.2, h.second_pos, hpos]

/-- A fill in two parts is a trade in two parts. -/
theorem SplitFill.trade {row first second : FillRow} (h : SplitFill row first second) :
    Fifo.TradeParts (trade row) (trade first) (trade second) := by
  have hquantity : row.quantity.toNat = first.quantity.toNat + second.quantity.toNat := by
    rw [h.quantity, Int.toNat_add h.first_pos.le h.second_pos.le]
  have hfirst : 0 < first.quantity.toNat := Int.pos_iff_toNat_pos.mp h.first_pos
  have hsecond : 0 < second.quantity.toNat := Int.pos_iff_toNat_pos.mp h.second_pos
  unfold Performance.trade
  rw [h.side.1, h.side.2, h.symbol.1, h.symbol.2, h.price.1, h.price.2, h.strategy.1, h.strategy.2,
    hquantity]
  split
  · exact .sell _ _ hfirst hsecond
  · exact .buy _ _ hfirst hsecond

/-- The profit on one share of a piece. -/
def shareNet (bps : CostBps) (p : Piece) : ℚ :=
  p.sold - p.bought.1 - (p.bought.1 * bps.buy / 10000 + p.sold * bps.sell / 10000)

theorem pieceNet_eq (bps : CostBps) (p : Piece) : pieceNet bps p = p.quantity * shareNet bps p := by
  simp only [pieceNet, pieceGross, pieceCosts, grossOf, costsOf, shareNet]
  ring

theorem outcomeParts_of_pieceParts (bps : CostBps) {x y z : Piece} (h : Fifo.PieceParts x y z) :
    OutcomeParts (pieceNet bps x) (pieceNet bps y) (pieceNet bps z) := by
  obtain ⟨hsum, hy, hz, ⟨-, hybought, hysold⟩, ⟨-, hzbought, hzsold⟩⟩ := h
  have hyshare : shareNet bps y = shareNet bps x := by rw [shareNet, hybought, hysold, shareNet]
  have hzshare : shareNet bps z = shareNet bps x := by rw [shareNet, hzbought, hzsold, shareNet]
  refine ⟨y.quantity, z.quantity, shareNet bps x, hy, hz, ?_, ?_, ?_⟩
  · rw [pieceNet_eq, hsum]
  · rw [pieceNet_eq, hyshare]
  · rw [pieceNet_eq, hzshare]

theorem lossesAtEnd_append (front back : List ℚ) :
    lossesAtEnd (front ++ back) =
      if ∀ outcome ∈ back, outcome < 0 then back.length + lossesAtEnd front else lossesAtEnd back := by
  have hself : (back.reverse.takeWhile fun outcome => decide (outcome < 0)) = back.reverse ↔
      ∀ outcome ∈ back, outcome < 0 := by
    rw [List.takeWhile_eq_self_iff]
    simp only [List.mem_reverse, decide_eq_true_eq]
  rw [lossesAtEnd, List.reverse_append, List.takeWhile_append]
  split_ifs with hlength hneg hneg
  · simp [lossesAtEnd]
  · exact absurd (hself.mp ((List.takeWhile_prefix _).eq_of_length hlength)) hneg
  · rw [hself.mpr hneg] at hlength
    exact absurd rfl hlength
  · rfl

theorem lossesAtEnd_cons_append (front back : List ℚ) (x : ℚ) (hback : ∀ outcome ∈ back, outcome < 0) :
    lossesAtEnd (front ++ x :: back) = back.length + if x < 0 then 1 + lossesAtEnd front else 0 := by
  rw [List.append_cons, lossesAtEnd_append, if_pos hback, lossesAtEnd_append]
  simp only [List.mem_singleton, forall_eq, List.length_singleton]
  split_ifs with hx
  · rfl
  · simp [lossesAtEnd, hx]

/-- A part of a loss is a loss or rounds to nothing, and a part of a gain is no loss. -/
theorem OutcomeParts.signs {x y z : ℚ} (h : OutcomeParts x y z) :
    (round10 x < 0 → round10 y ≤ 0 ∧ round10 z ≤ 0) ∧ (¬ round10 x < 0 → ¬ round10 z < 0) := by
  obtain ⟨i, j, each, hi, hj, rfl, rfl, rfl⟩ := h
  have hi' : (0 : ℚ) < i := by exact_mod_cast hi
  have hj' : (0 : ℚ) < j := by exact_mod_cast hj
  rcases lt_or_ge each 0 with hneg | hpos
  · have hnonpos : ∀ n : ℚ, 0 < n → round10 (n * each) ≤ 0 := by
      intro n hn
      rw [← round10_zero]
      exact round10_mono (mul_nonpos_of_nonneg_of_nonpos hn.le hneg.le)
    refine ⟨fun _ => ⟨hnonpos i hi', hnonpos j hj'⟩, fun hx hz => hx (lt_of_le_of_lt ?_ hz)⟩
    refine round10_mono ?_
    push_cast
    nlinarith
  · have hnonneg : ∀ n : ℚ, 0 ≤ n → ¬ round10 (n * each) < 0 := by
      intro n hn
      rw [not_lt, ← round10_zero]
      exact round10_mono (mul_nonneg hn hpos)
    exact ⟨fun hx => absurd hx (hnonneg _ (Nat.cast_nonneg _)), fun _ => hnonneg j hj'.le⟩

/-- Cutting one outcome changes the number only inside the losses at the end. -/
theorem splitCount_of_cut {outcomes outcomes' : List ℚ} (h : Fifo.Cut OutcomeParts outcomes outcomes') :
    SplitCount outcomes outcomes' (lossesAtEnd (outcomes.map round10))
      (lossesAtEnd (outcomes'.map round10)) := by
  obtain rfl | ⟨front, x, y, z, back, hparts, rfl, rfl⟩ := h.exists_split
  · exact .inl rfl
  obtain ⟨hloss, hgain⟩ := hparts.signs
  have hmap : ∀ rest : List ℚ, (front ++ rest).map round10 = front.map round10 ++ rest.map round10 :=
    fun rest => List.map_append
  by_cases hback : ∀ later ∈ back, round10 later < 0
  · have hback' : ∀ outcome ∈ back.map round10, outcome < 0 := by simpa using hback
    have hwhole : lossesAtEnd ((front ++ x :: back).map round10) =
        back.length + if round10 x < 0 then 1 + lossesAtEnd (front.map round10) else 0 := by
      rw [hmap, List.map_cons, lossesAtEnd_cons_append _ _ _ hback', List.length_map]
    have hcut : lossesAtEnd ((front ++ y :: z :: back).map round10) =
        back.length + if round10 z < 0 then
          1 + (if round10 y < 0 then 1 + lossesAtEnd (front.map round10) else 0) else 0 := by
      rw [hmap, List.map_cons, List.map_cons, List.append_cons, lossesAtEnd_cons_append _ _ _ hback',
        List.length_map, lossesAtEnd_cons_append _ [] _ (by simp)]
      simp
    by_cases hx : round10 x < 0
    · refine .inr ⟨front, x, y, z, back, hparts, rfl, rfl, hback, hx, ?_⟩
      rw [hwhole, hcut, if_pos hx]
      rcases (hloss hx).1.lt_or_eq with hy | hy
      · rcases (hloss hx).2.lt_or_eq with hz | hz
        · refine .inl ⟨hy, hz, ?_⟩
          rw [if_pos hz, if_pos hy]
          omega
        · refine .inr ⟨.inr hz, ?_⟩
          rw [if_neg hz.not_lt]
          omega
      · refine .inr ⟨.inl hy, ?_⟩
        rw [if_neg hy.not_lt]
        split_ifs <;> omega
    · left
      rw [hwhole, hcut, if_neg hx, if_neg (hgain hx)]
  · left
    have hback' : ¬ ∀ outcome ∈ back.map round10, outcome < 0 := by simpa using hback
    have hend : ∀ before, lossesAtEnd (before ++ back.map round10) = lossesAtEnd (back.map round10) := by
      intro before
      rw [lossesAtEnd_append, if_neg hback']
    rw [hmap, hmap, List.map_cons, List.map_cons, List.map_cons, List.append_cons _ (round10 x),
      List.append_cons _ (round10 y), List.append_cons _ (round10 z), hend, hend]

section Split

variable {bps : CostBps} {rows rows' front back : List FillRow} {row first second : FillRow}

theorem consecutiveLosses_eq_none (h : ¬ ∃ report, reportInOrder bps (fillOrder rows) = .ok report) :
    consecutiveLosses bps rows = none := by
  rw [consecutiveLosses, buildPerformanceReport, fillOrder_fillOrder]
  rcases hreport : reportInOrder bps (fillOrder rows) with e | report
  · rfl
  · exact absurd ⟨report, hreport⟩ h

theorem consecutiveLosses_of_run {stock : String → Fifo.Lots Terms} {matched : List Piece}
    (hrates : 0 ≤ bps.buy ∧ 0 ≤ bps.sell) (hvalid : ∀ row ∈ fillOrder rows, Valid row)
    (hrun : Fifo.run (fun _ => []) ((fillOrder rows).map trade) = some (stock, matched)) :
    consecutiveLosses bps rows = some (lossesAtEnd ((matched.map (pieceNet bps)).map round10)) := by
  have hbook : bookFills bps .start (fillOrder rows) =
      .ok ⟨lotsOf stock, Accounts.start.totals.bookPieces bps matched⟩ :=
    bookFills_eq_ok_iff.mpr ⟨hvalid, stock, matched, hrun, rfl⟩
  have hrates' : ¬ (bps.buy < 0 ∨ bps.sell < 0) := by
    simp only [not_or, not_lt]
    exact hrates
  rw [consecutiveLosses, buildPerformanceReport, fillOrder_fillOrder, reportInOrder, if_neg hrates', hbook]
  simp only [Except.bind, bind, Totals.report, outcomes_bookPieces]
  rfl

/-- The trades of a history with a split fill are the trades of the history, one of them cut. -/
theorem cut_of_split (hrows : fillOrder rows = front ++ row :: back)
    (hrows' : fillOrder rows' = front ++ first :: second :: back) (hsplit : SplitFill row first second) :
    Fifo.Cut Fifo.TradeParts ((fillOrder rows).map trade) ((fillOrder rows').map trade) := by
  rw [hrows, hrows', List.map_append, List.map_append]
  exact .append_left _ (.head _ hsplit.trade)

theorem valid_of_split (hrows : fillOrder rows = front ++ row :: back)
    (hrows' : fillOrder rows' = front ++ first :: second :: back) (hsplit : SplitFill row first second) :
    (∀ row ∈ fillOrder rows', Valid row) ↔ ∀ row ∈ fillOrder rows, Valid row := by
  obtain ⟨hfirst, hsecond⟩ := hsplit.valid_iff
  rw [hrows, hrows']
  simp only [List.forall_mem_append, List.forall_mem_cons, hfirst, hsecond]
  tauto

end Split

/-! One share bought and sold on one day, which was reconciled afterwards. -/
namespace OneDay

/-- 2026-07-20 at so many minutes past nine, Korean time, written with +09:00. -/
def korean (minute : Nat) : DateTime := .combine 20654 9 minute 0 (some DateTime.kstOffset)

def fill (fillId side : String) (quantity : Int) (price : ℚ) (filledAt : DateTime) : FillRow :=
  ⟨fillId, "005930", side, quantity, price, .iso filledAt, "UNKNOWN"⟩

def rows : List FillRow := [fill "buy" "BUY" 1 100 (korean 30), fill "sell" "SELL" 1 110 (korean 40)]

def metadata : Relational.Table MetadataRow MetadataRow.key where
  rows := [⟨"operator_review", .text "false", korean 50⟩, ⟨"block_new_entries", .text "false", korean 50⟩]
  nodup := by decide

theorem cleared (key : String) (h : key = "operator_review" ∨ key = "block_new_entries") :
    Cleared metadata (korean 55) key (korean 50).instant := by
  rcases h with rfl | rfl
  · exact ⟨⟨"operator_review", .text "false", korean 50⟩, "false", by decide, rfl, by decide, by decide,
      by decide, rfl⟩
  · exact ⟨⟨"block_new_entries", .text "false", korean 50⟩, "false", by decide, rfl, by decide, by decide,
      by decide, rfl⟩

theorem usable : ∀ row ∈ rows, Usable (min (korean 50).instant (korean 50).instant) row := by
  intro row hrow
  have hcases : row = fill "buy" "BUY" 1 100 (korean 30) ∨ row = fill "sell" "SELL" 1 110 (korean 40) := by
    simpa [rows] using hrow
  rcases hcases with rfl | rfl
  · exact ⟨⟨by decide, by decide, by decide, by decide⟩, korean 30, rfl, by decide⟩
  · exact ⟨⟨by decide, by decide, by decide, by decide⟩, korean 40, rfl, by decide⟩

theorem agree_iff_of_rates :
    EnginesAgree ⟨15, 15⟩ metadata rows (korean 55) ↔
      ((0 : ℚ) ≤ 15 ∧ (0 : ℚ) ≤ 15) ∨ ¬ NeverOversells (fillOrder rows) :=
  engines_agree_iff (cleared _ (.inl rfl)) (cleared _ (.inr rfl)) usable

/-- With a rate below zero the day has a profit and the report raises. -/
theorem negative_rate_splits_engines :
    (calculateLocalDailyRealizedPnl ⟨-1, 15⟩ metadata rows (korean 55)).isSome = true ∧
      (buildPerformanceReport ⟨-1, 15⟩ rows).toOption = none ∧
      (buildPerformanceReport ⟨0, 15⟩ rows).toOption.isSome = true := by
  decide +kernel

end OneDay

/-! Ten shares sold at a loss, in one execution or in two. -/
namespace TwoExecutions

def bought : FillRow := OneDay.fill "a" "BUY" 10 100 (OneDay.korean 30)

def sold : FillRow := OneDay.fill "b" "SELL" 10 90 (OneDay.korean 40)

def soldFirst : FillRow := OneDay.fill "b1" "SELL" 5 90 (OneDay.korean 40)

def soldSecond : FillRow := OneDay.fill "b2" "SELL" 5 90 (OneDay.korean 40)

theorem split : SplitFill sold soldFirst soldSecond where
  symbol := ⟨rfl, rfl⟩
  side := ⟨rfl, rfl⟩
  price := ⟨rfl, rfl⟩
  filledAt := ⟨rfl, rfl⟩
  strategy := ⟨rfl, rfl⟩
  quantity := by decide
  first_pos := by decide
  second_pos := by decide

end TwoExecutions

end PortfolioSnapshot

end AutoTrader
