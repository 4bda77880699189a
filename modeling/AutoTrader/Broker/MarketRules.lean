/-
  AutoTrader/Broker/MarketRules.lean
  ==================================
  **The prices an order may have.**

  `krx_tick_size` is a tick table, and `is_valid_krx_limit_price` accepts the prices on
  its grid.  So `normalize_krx_limit_price` is the rounding of the grid: a BUY price is
  the largest valid one that is not above, a SELL price the smallest that is not below.
-/
import AutoTrader.Lib.TickGrid
import AutoTrader.Pipeline.EntryRules

namespace AutoTrader

open TickGrid

/-- `is_valid_krx_limit_price`. -/
def isValidKrxLimitPrice (price : PyFloat) : Bool :=
  match price with
  | .fin q => 0 < q && (q.floor = q && q.floor % krxTickSize q = 0)
  | _ => false

/-- The bands of `krx_tick_size`. -/
def krxTickTable : TickTable :=
  ⟨[(2000, 1), (5000, 5), (20000, 10), (50000, 50), (200000, 100), (500000, 500)], 1000⟩

theorem krxTickTable_aligned : krxTickTable.Aligned := by decide

theorem krxTickSize_eq_step (price : ℚ) : krxTickSize price = krxTickTable.step price := by
  simp only [krxTickSize, krxTickTable, TickTable.step, TickTable.stepOf, Nat.cast_ofNat]
  split_ifs <;> rfl

/-- A price is valid when it is a positive multiple of the tick of its band. -/
theorem isValidKrxLimitPrice_iff (price : ℚ) :
    isValidKrxLimitPrice (.fin price) = true ↔ 0 < price ∧ krxTickTable.OnGrid price := by
  simp only [isValidKrxLimitPrice, Bool.and_eq_true, decide_eq_true_eq, krxTickSize_eq_step]
  refine and_congr_right fun _ => ⟨fun ⟨hint, hmod⟩ => ?_, fun ⟨n, hn⟩ => ?_⟩
  · obtain ⟨n, hn⟩ := Int.dvd_of_emod_eq_zero hmod
    refine ⟨n, ?_⟩
    rw [hn] at hint
    push_cast at hint
    rw [mul_comm]
    exact hint.symm
  · have hfloor : price.floor = n * krxTickTable.step price := by
      have hcast : price = ((n * krxTickTable.step price : ℤ) : ℚ) := by
        push_cast
        exact hn
      exact Int.floor_eq_iff.mpr ⟨hcast.ge, by rw [← hcast]; exact lt_add_one price⟩
    refine ⟨?_, ?_⟩
    · rw [hfloor]
      push_cast
      exact hn.symm
    · rw [hfloor]
      exact Int.mul_emod_left _ _

/-! ### Normalization -/

/-- The rounding of a positive price. -/
theorem normalizeKrxLimitPrice_eq {price : ℚ} (hprice : 0 < price) (side : Side) :
    normalizeKrxLimitPrice (.fin price) side =
      let rounded := match side with
        | .buy => krxTickTable.down price
        | .sell => krxTickTable.up price
      if rounded ≤ 0 then .error (.valueError "normalized price must be positive") else .ok rounded := by
  cases side with
  | buy =>
    simp only [normalizeKrxLimitPrice, not_le.mpr hprice, if_false, krxTickSize_eq_step]
    rfl
  | sell =>
    have hceil : (price / krxTickTable.step price).ceil = ⌈price / krxTickTable.step price⌉ :=
      Rat.ceil_eq_neg_floor_neg _
    simp only [normalizeKrxLimitPrice, not_le.mpr hprice, if_false, krxTickSize_eq_step,
      Int.cast_natCast, hceil]
    rfl

/-- From 1 on, rounding down leaves a positive price: 1 is on the grid. -/
theorem one_le_down {price : ℚ} (hprice : 1 ≤ price) : 1 ≤ krxTickTable.down price := by
  have hone : krxTickTable.OnGrid 1 := ⟨1, by norm_num [krxTickTable, TickTable.step, TickTable.stepOf]⟩
  have hle : (1 : ℚ) ≤ krxTickTable.down price :=
    (TickTable.down_isGreatest krxTickTable_aligned (zero_le_one.trans hprice)).2
      ⟨hone, zero_le_one, hprice⟩
  exact_mod_cast hle

theorem normalize_buy {price : ℚ} (hprice : 1 ≤ price) :
    normalizeKrxLimitPrice (.fin price) .buy = .ok (krxTickTable.down price) := by
  rw [normalizeKrxLimitPrice_eq (zero_lt_one.trans_le hprice)]
  exact if_neg (not_le.mpr (one_le_down hprice))

theorem normalize_sell {price : ℚ} (hprice : 0 < price) :
    normalizeKrxLimitPrice (.fin price) .sell = .ok (krxTickTable.up price) := by
  have hle := TickTable.le_up krxTickTable_aligned hprice.le
  have hpos : 0 < krxTickTable.up price := by exact_mod_cast hprice.trans_le hle
  rw [normalizeKrxLimitPrice_eq hprice]
  exact if_neg (not_le.mpr hpos)

/-- Rounding down finds the largest valid price that is not above. -/
theorem down_isGreatest_valid {price : ℚ} (hprice : 1 ≤ price) :
    IsGreatest {q : ℚ | isValidKrxLimitPrice (.fin q) = true ∧ q ≤ price} (krxTickTable.down price) := by
  have hgreatest := TickTable.down_isGreatest krxTickTable_aligned (zero_le_one.trans hprice)
  have hpos : (0 : ℚ) < krxTickTable.down price := by exact_mod_cast one_le_down hprice
  refine ⟨⟨(isValidKrxLimitPrice_iff _).mpr ⟨hpos, hgreatest.1.1⟩, hgreatest.1.2.2⟩, ?_⟩
  rintro q ⟨hvalid, hq⟩
  obtain ⟨hq0, hgrid⟩ := (isValidKrxLimitPrice_iff q).mp hvalid
  exact hgreatest.2 ⟨hgrid, hq0.le, hq⟩

/-- Rounding up finds the smallest valid price that is not below. -/
theorem up_isLeast_valid {price : ℚ} (hprice : 0 < price) :
    IsLeast {q : ℚ | isValidKrxLimitPrice (.fin q) = true ∧ price ≤ q} (krxTickTable.up price) := by
  have hleast := TickTable.up_isLeast krxTickTable_aligned hprice.le
  refine ⟨⟨(isValidKrxLimitPrice_iff _).mpr ⟨hprice.trans_le hleast.1.2, hleast.1.1⟩, hleast.1.2⟩, ?_⟩
  rintro q ⟨hvalid, hq⟩
  exact hleast.2 ⟨((isValidKrxLimitPrice_iff q).mp hvalid).2, hq⟩

/-- A valid price is whole. -/
theorem one_le_of_valid {price : ℚ} (h : isValidKrxLimitPrice (.fin price) = true) : 1 ≤ price := by
  obtain ⟨hpos, n, hn⟩ := (isValidKrxLimitPrice_iff price).mp h
  have hint : price = ((n * krxTickTable.step price : ℤ) : ℚ) := by push_cast; exact hn
  rw [hint] at hpos ⊢
  exact_mod_cast hpos

end AutoTrader
