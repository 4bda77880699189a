/-
  AutoTrader/Safety/Holdings.lean
  ===============================
  **Which holdings a pass reports.**

  A pass compares the OPEN quantity of a symbol with the quantity of the account.  The
  local side is a sum; the account side is a mapping from the rows, in which the last
  row of a symbol stands.  A symbol is reported when its last row differs from the sum of
  its positions, which is what the totals ask for unless the earlier rows make the
  difference.
-/
import AutoTrader.Safety.Reconciliation
import Mathlib.Data.List.Induction

namespace AutoTrader

open Relational Interleave

/-! ### The reason of a symbol -/

/-- `f"position_mismatch:{symbol}:local={local_qty}:broker={broker_qty}"`. -/
def mismatchReason (symbol : String) (localQty : Nat) (brokerQty : Int) : String :=
  "position_mismatch:" ++ symbol ++ ":local=" ++ toString localQty ++ ":broker=" ++ toString brokerQty

/-- The report names the symbol, with whatever quantities. -/
def ReconciliationReport.mismatches (report : ReconciliationReport) (symbol : String) : Prop :=
  ∃ localQty brokerQty, mismatchReason symbol localQty brokerQty ∈ report.reasons

/-- The rows of a symbol in the account, by their quantities. -/
def rowsOf (account : List AccountPosition) (symbol : String) : List Int :=
  (account.filter fun p => p.symbol = symbol).map (·.quantity)

theorem append_inj_of_colon (label : String) {front front' back back' : String} (hlabel : ':' ∉ label.toList)
    (hb : ':' ∉ back.toList) (hb' : ':' ∉ back'.toList)
    (h : front ++ (":" ++ label) ++ back = front' ++ (":" ++ label) ++ back') :
    front = front' ∧ back = back' := by
  have hnone : ∀ {b : String}, ':' ∉ b.toList → ':' ∉ (label ++ b).toList := by
    intro b hb hmem
    rw [String.toList_append, List.mem_append] at hmem
    exact hmem.elim hlabel hb
  have hcut : front ++ ":" ++ (label ++ back) = front' ++ ":" ++ (label ++ back') := by
    simpa only [String.append_assoc] using h
  obtain ⟨hfront, hback⟩ := Text.append_colon_inj (hnone hb) (hnone hb') hcut
  exact ⟨hfront, (String.append_right_inj label).mp hback⟩

/-- The text of a reason names one symbol. -/
theorem mismatchReason_symbol {symbol symbol' : String} {l l' : Nat} {b b' : Int}
    (h : mismatchReason symbol l b = mismatchReason symbol' l' b') : symbol = symbol' := by
  obtain ⟨hfront, -⟩ := append_inj_of_colon "broker=" (by decide) (Text.colon_notMem_int b)
    (Text.colon_notMem_int b') h
  obtain ⟨hsymbol, -⟩ := append_inj_of_colon "local=" (by decide)
    (Text.colon_notMem_int l) (Text.colon_notMem_int l') hfront
  exact (String.append_right_inj "position_mismatch:").mp hsymbol

/-! ### The reasons of the loop -/

/-- The reasons of the orders; none of them is that of a symbol. -/
def OfOrders (reasons : List String) : Prop := ∀ reason ∈ reasons, reason.toList.head? ≠ some 'p'

theorem head_append {front : String} {c : Char} (h : front.toList.head? = some c) (back : String) :
    (front ++ back).toList.head? = some c := by
  rw [String.toList_append, List.head?_append, h]
  rfl

theorem mismatchReason_head (symbol : String) (l : Nat) (b : Int) :
    (mismatchReason symbol l b).toList.head? = some 'p' := by
  have hkind : "position_mismatch:".toList.head? = some 'p' := by decide
  exact head_append (head_append (head_append (head_append (head_append hkind _) _) _) _) _

theorem OfOrders.addReason {acc : PassState} (h : OfOrders acc.reasons) {reason : String} {c : Char}
    (hreason : reason.toList.head? = some c) (hc : c ≠ 'p') : OfOrders (acc.addReason reason).reasons := by
  intro r hr
  rcases List.mem_append.mp hr with hr | hr
  · exact h r hr
  · rw [List.mem_singleton.mp hr, hreason]
    exact fun heq => hc (Option.some.inj heq)

section Loop

variable (broker : BrokerReplies) (now : DateTime)

theorem settleOrder_reasons (o : BrokerOrder) (record : OrderRecord) {acc : PassState}
    (hacc : OfOrders acc.reasons) (db : Database) :
    Raising.Ends (dbHandler broker) (settleOrder now o record acc) (fun acc' _ => OfOrders acc'.reasons)
      (fun _ _ => True) db := by
  have hunknown : "broker_status_unknown:".toList.head? = some 'b' := by decide
  have hfailed : "materialize_failed:".toList.head? = some 'm' := by decide
  unfold settleOrder
  cases localStatusForBroker record.status with
  | none => exact hacc.addReason (head_append hunknown _) (by decide)
  | some status =>
    refine Raising.Ends.seq Raising.Ends.trivial fun updated db₁ _ => ?_
    have hcounted : OfOrders
        (if updated = true then { acc with updatedOrders := acc.updatedOrders + 1 } else acc).reasons := by
      split
      · exact hacc
      · exact hacc
    refine Raising.Ends.seq Raising.Ends.trivial fun materialized db₂ _ => ?_
    cases materialized with
    | ok n => exact hcounted
    | error e => exact hcounted.addReason (head_append (head_append (head_append hfailed _) _) _) (by decide)

theorem bookDifference_reasons (o : BrokerOrder) (record : OrderRecord) {acc : PassState}
    (hacc : OfOrders acc.reasons) (db : Database) :
    Raising.Ends (dbHandler broker) (bookDifference now o record acc) (fun acc' _ => OfOrders acc'.reasons)
      (fun _ _ => True) db := by
  have hfailed : "fill_apply_failed:".toList.head? = some 'f' := by decide
  unfold bookDifference
  refine Raising.Ends.ite (fun _ => settleOrder_reasons broker now o record hacc db) fun _ => ?_
  refine Raising.Ends.seq Raising.Ends.trivial fun price db₁ _ => ?_
  refine Raising.Ends.seq Raising.Ends.trivial fun booked db₂ _ => ?_
  cases booked with
  | error e => exact hacc.addReason (head_append (head_append (head_append hfailed _) _) _) (by decide)
  | ok inserted =>
    refine settleOrder_reasons broker now o record ?_ db₂
    split
    · exact hacc
    · exact hacc

theorem reconcileOrder_reasons (records : List OrderRecord) (o : BrokerOrder) {acc : PassState}
    (hacc : OfOrders acc.reasons) (db : Database) :
    Raising.Ends (dbHandler broker) (reconcileOrder now records acc o) (fun acc' _ => OfOrders acc'.reasons)
      (fun _ _ => True) db := by
  have hlocal : "local_unknown:".toList.head? = some 'l' := by decide
  have hunconfirmed : "local_order_unconfirmed:".toList.head? = some 'l' := by decide
  have hmissing : "broker_order_missing:".toList.head? = some 'b' := by decide
  have hidentity : "order_identity_mismatch:".toList.head? = some 'o' := by decide
  have hregression : "fill_regression:".toList.head? = some 'f' := by decide
  have hquantity : "order_quantity_mismatch:".toList.head? = some 'o' := by decide
  unfold reconcileOrder
  dsimp only
  have hknown : OfOrders
      (if o.status = .unknown then acc.addReason ("local_unknown:" ++ o.clientOrderId) else acc).reasons := by
    split
    · exact hacc.addReason (head_append hlocal _) (by decide)
    · exact hacc
  refine Raising.Ends.ite (fun _ => hknown.addReason (head_append hunconfirmed _) (by decide)) fun _ => ?_
  cases byBrokerId records o.brokerIdText with
  | none => exact hknown.addReason (head_append (head_append (head_append hmissing _) _) _) (by decide)
  | some record =>
    refine Raising.Ends.ite (fun _ => ?_) fun _ => ?_
    · exact OfOrders.addReason hknown (head_append (head_append (head_append hidentity _) _) _) (by decide)
    refine Raising.Ends.ite (fun _ => ?_) fun _ => ?_
    · exact OfOrders.addReason hknown (head_append hregression _) (by decide)
    refine Raising.Ends.ite (fun _ => ?_) fun _ => ?_
    · exact OfOrders.addReason hknown (head_append hquantity _) (by decide)
    refine bookDifference_reasons broker now o record ?_ db
    exact hknown

theorem loop_reasons (records : List OrderRecord) (rows : List BrokerOrder) {acc : PassState}
    (hacc : OfOrders acc.reasons) (db : Database) :
    Raising.Ends (dbHandler broker) (rows.foldlM (reconcileOrder now records) acc)
      (fun acc' _ => OfOrders acc'.reasons) (fun _ _ => True) db :=
  Raising.Ends.foldlM (I := fun _ (acc' : PassState) _ => OfOrders acc'.reasons)
    (fun o _ _ db' h => reconcileOrder_reasons broker now records o h db') rows hacc

theorem brokerOnlyReasons_ofOrders (records : List OrderRecord) (matched : List String) :
    OfOrders (brokerOnlyReasons records matched) := by
  have honly : "broker_only_open_order:".toList.head? = some 'b' := by decide
  intro reason hreason
  obtain ⟨record, -, rfl⟩ := List.mem_map.mp hreason
  rw [head_append honly]
  decide

end Loop

/-! ### The comparison -/

/-- A symbol is reported if its two quantities differ. -/
theorem mismatch_iff (db : Database) (account : List AccountPosition) (symbol : String) :
    (∃ l b, mismatchReason symbol l b ∈ (comparedSymbols db account).filterMap (positionMismatch db account)) ↔
      (db.openQuantity symbol : Int) ≠ brokerQuantity account symbol := by
  constructor
  · rintro ⟨l, b, hmem⟩
    obtain ⟨compared, -, hreason⟩ := List.mem_filterMap.mp hmem
    unfold positionMismatch at hreason
    dsimp only at hreason
    split at hreason
    · rename_i hne
      obtain rfl := mismatchReason_symbol (Option.some.inj hreason)
      exact hne
    · cases hreason
  · intro hne
    refine ⟨db.openQuantity symbol, brokerQuantity account symbol, ?_⟩
    by_cases hcompared : symbol ∈ comparedSymbols db account
    · exact List.mem_filterMap.mpr ⟨symbol, hcompared, if_pos hne⟩
    · obtain ⟨hlocal, hbroker⟩ := quantities_of_not_compared hcompared
      rw [hlocal, hbroker] at hne
      exact absurd rfl hne

section Report

variable (broker : BrokerReplies) (now : DateTime)

/-- A pass that returns names the symbols whose last row differs from their positions. -/
theorem reconcile_mismatches (db : Database) (records : List OrderRecord) (account : List AccountPosition) :
    Raising.Ends (dbHandler broker) (reconcileBrokerState now (.ok records) (.ok account))
      (fun report db' => ∀ symbol, report.mismatches symbol ↔
        (db'.openQuantity symbol : Int) ≠ brokerQuantity account symbol)
      (fun _ _ => True) db := by
  apply ends_selectOrders
  refine Raising.Ends.seq (loop_reasons broker now records _ ?_ db) fun acc db₁ hacc => ?_
  · intro reason hreason
    cases hreason
  apply ends_select
  refine Raising.Ends.mono (finishPass_ends broker now db₁ _) ?_ fun _ _ _ => trivial
  rintro report db' ⟨hsame, hall, -⟩ symbol
  have hopen : db'.openQuantity symbol = db₁.openQuantity symbol := by
    simp only [Database.openQuantity, Database.openPositions, hsame.positions]
  rw [hopen, ← mismatch_iff db₁ account symbol]
  refine exists_congr fun l => exists_congr fun b => ?_
  rw [hall, List.mem_eraseDups, List.mem_append, List.mem_append]
  constructor
  · rintro ((hreason | hreason) | hreason)
    · exact absurd (mismatchReason_head symbol l b) (hacc _ hreason)
    · exact absurd (mismatchReason_head symbol l b) (brokerOnlyReasons_ofOrders records acc.matched _ hreason)
    · exact hreason
  · exact .inr

end Report

/-! ### Totals -/

/-- The rows of the symbol before the last come to nothing, or the OPEN quantity is
    neither the last row nor the sum of the rows. -/
def LastRowStands (localQty : Nat) (rows : List Int) : Prop :=
  rows.dropLast.sum = 0 ∨ ((localQty : Int) ≠ rows.getLastD 0 ∧ (localQty : Int) ≠ rows.sum)

theorem brokerQuantity_eq (account : List AccountPosition) (symbol : String) :
    brokerQuantity account symbol = (rowsOf account symbol).getLastD 0 := by
  unfold brokerQuantity rowsOf
  induction account using List.reverseRecOn with
  | nil => rfl
  | append_singleton account p ih =>
    rw [List.reverse_append, List.reverse_singleton, List.singleton_append, List.find?_cons,
      List.filter_append, List.filter_singleton]
    by_cases hsymbol : p.symbol = symbol
    · simp [hsymbol]
    · simp only [hsymbol, decide_false, cond_false, List.append_nil]
      exact ih

theorem sum_dropLast (rows : List Int) : rows.dropLast.sum + rows.getLastD 0 = rows.sum := by
  induction rows using List.reverseRecOn with
  | nil => rfl
  | append_singleton rows row _ => simp

/-- **Holdings are compared by the last row of a symbol.**  A pass that returns reports a
    symbol exactly when the totals differ, if and only if the last row of the symbol
    stands for its rows. -/
theorem mismatch_of_totals_iff (broker : BrokerReplies) (now : DateTime) (db : Database)
    (records : List OrderRecord) (account : List AccountPosition) {report : ReconciliationReport}
    (hreport : (Raising.eval (dbHandler broker) (reconcileBrokerState now (.ok records) (.ok account)) db).1 =
      .ok report) (symbol : String) :
    let db' := (Raising.eval (dbHandler broker) (reconcileBrokerState now (.ok records) (.ok account)) db).2
    (report.mismatches symbol ↔ (db'.openQuantity symbol : Int) ≠ (rowsOf account symbol).sum) ↔
      LastRowStands (db'.openQuantity symbol) (rowsOf account symbol) := by
  intro db'
  have hmismatch := (reconcile_mismatches broker now db records account).returned (Prod.ext hreport rfl) symbol
  have hsum := sum_dropLast (rowsOf account symbol)
  rw [hmismatch, brokerQuantity_eq, LastRowStands]
  change ((db'.openQuantity symbol : Int) ≠ _ ↔ _) ↔ _
  generalize (rowsOf account symbol).dropLast.sum = earlier at hsum ⊢
  generalize (rowsOf account symbol).getLastD 0 = last at hsum ⊢
  omega

/-! ### An account with two rows of a symbol -/

namespace TwoRows

open ExplainedPass

/-- The pass after which four shares are held. -/
def pass (account : List AccountPosition) : Except Exn ReconciliationReport × Database :=
  Raising.eval (dbHandler broker) (reconcileBrokerState opening (.ok [record]) (.ok account)) submitted

/-- One row of five shares is compared as the claim asks for. -/
theorem one_row_reported :
    ∃ report, (pass [⟨"005930", 5⟩]).1 = .ok report ∧
      ((report.mismatches "005930" ↔
          ((pass [⟨"005930", 5⟩]).2.openQuantity "005930" : Int) ≠ (rowsOf [⟨"005930", 5⟩] "005930").sum) ↔
        LastRowStands ((pass [⟨"005930", 5⟩]).2.openQuantity "005930") (rowsOf [⟨"005930", 5⟩] "005930")) ∧
      LastRowStands ((pass [⟨"005930", 5⟩]).2.openQuantity "005930") (rowsOf [⟨"005930", 5⟩] "005930") := by
  have hreasons : ((pass [⟨"005930", 5⟩]).1.toOption.map (·.reasons)) =
      some ["position_mismatch:005930:local=4:broker=5"] := by decide +kernel
  obtain ⟨report, hsome, -⟩ := Option.map_eq_some_iff.mp hreasons
  have hreport := Except.eq_ok_of_toOption hsome
  exact ⟨report, hreport, mismatch_of_totals_iff broker opening submitted [record] [⟨"005930", 5⟩] hreport "005930",
    .inl (by decide)⟩

/-- Of three and four shares the pass sees the four, and unblocks. -/
theorem second_row_hides_first :
    ∃ report, (pass [⟨"005930", 3⟩, ⟨"005930", 4⟩]).1 = .ok report ∧ report.blockNewEntries = false ∧
      (pass [⟨"005930", 3⟩, ⟨"005930", 4⟩]).2.openQuantity "005930" = 4 ∧
      (rowsOf [⟨"005930", 3⟩, ⟨"005930", 4⟩] "005930").sum = 7 ∧
      ¬ report.mismatches "005930" := by
  have hverdict : ((pass [⟨"005930", 3⟩, ⟨"005930", 4⟩]).1.toOption.map fun report =>
      (report.blockNewEntries, report.reasons)) = some (false, []) := by decide +kernel
  obtain ⟨report, hsome, hfields⟩ := Option.map_eq_some_iff.mp hverdict
  rw [Prod.mk.injEq] at hfields
  refine ⟨report, Except.eq_ok_of_toOption hsome, hfields.1, by decide +kernel, by decide, ?_⟩
  rintro ⟨l, b, hmem⟩
  rw [hfields.2] at hmem
  exact absurd hmem List.not_mem_nil

end TwoRows

end AutoTrader
