/-
  AutoTrader/Broker/ReceivedNotices.lean
  ======================================
  **The notices that reach `apply_fill_notice`.**

  The websocket hands over what the parser of its frames returns.  Such a notice has a
  printable order number, a six-digit symbol, a time `HHMMSS`, and a quantity and a price if
  and only if it reports an execution.  `apply_fill_notice` checks most of this again; what it
  adds is that an order number is at most 64 characters long and that the notice is not dated
  after its receipt.
-/
import AutoTrader.Broker.FillNoticeFrames
import AutoTrader.Python.Floats

namespace AutoTrader

open FillNotices

/-- A notice as the parser of the frames makes it. -/
def FillNotice.Parsed (n : FillNotice) : Prop :=
  ∃ fields received, parseFields fields = .ok received ∧ received.toFillNotice = n

/-- What the fields of such a notice look like. -/
structure FillNotice.WellFormed (n : FillNotice) : Prop where
  numbered : Text.blank n.orderNo = false
  printable : ∀ c ∈ n.orderNo.toList, 32 ≤ c.toNat ∧ c.toNat ≠ 127
  symbol : validateSymbol n.symbol = .ok ()
  fillTime : ClockText n.fillTime
  executed : n.kind = .filled → 0 < n.fillQty ∧ 0 < n.fillPrice
  unexecuted : n.kind ≠ .filled → n.fillQty = 0

theorem FillNotice.Parsed.wellFormed {n : FillNotice} (h : n.Parsed) : n.WellFormed := by
  obtain ⟨fields, received, hparse, rfl⟩ := h
  have hrules : RecordRules fields := by
    by_contra hnot
    obtain ⟨e, he, -⟩ := (parseFields_spec fields).rejects hnot
    rw [hparse] at he
    cases he
  obtain rfl : noticeOf fields = received := by
    have hok := (parseFields_spec fields).accepts hrules
    rw [hparse] at hok
    exact (Except.ok.inj hok).symm
  have hkind : noticeKind fields = .filled ↔ eventOf fields = "2" := by
    unfold noticeKind
    split
    · exact iff_of_true rfl ‹_›
    · split
      · exact iff_of_false nofun ‹_›
      · exact iff_of_false nofun ‹_›
  refine ⟨Text.blank_strip hrules.orderNo.1, hrules.orderNo.2, ?_, hrules.fillTime, fun hfilled => ?_, fun hother => ?_⟩
  · obtain ⟨hlength, hdigits⟩ := hrules.symbol
    simp only [validateSymbol, noticeOf, notice, Text.blank_of_isdigit hdigits, hdigits, hlength]
    rfl
  · obtain ⟨-, hqty, hprice⟩ := hrules.status.fill (hkind.mp hfilled)
    exact ⟨Int.natCast_pos.mpr hqty, Int.natCast_pos.mpr hprice⟩
  · exact congrArg Nat.cast (hrules.status.noFill fun hevent => hother (hkind.mpr hevent))

/-- An order number of the feed is looked up as it stands, unless it is too long. -/
theorem FillNotice.WellFormed.publicIdentifier {n : FillNotice} (h : n.WellFormed) :
    publicIdentifier n.orderNo = if 64 < n.orderNo.length then none else some n.orderNo := by
  have hne : n.orderNo ≠ "" := by
    intro hempty
    have hnumbered := h.numbered
    rw [hempty] at hnumbered
    exact absurd hnumbered (by decide)
  have hprintable : (n.orderNo.toList.any fun c => c.toNat < 32 || c.toNat == 127) = false := by
    rw [List.any_eq_false]
    intro c hc
    obtain ⟨hlow, hdel⟩ := h.printable c hc
    simp only [Bool.or_eq_true, decide_eq_true_eq, beq_iff_eq, not_or, not_lt]
    exact ⟨hlow, hdel⟩
  unfold AutoTrader.publicIdentifier
  by_cases hlong : 64 < n.orderNo.length
  · rw [if_pos (.inr hlong), if_pos hlong]
  · rw [if_neg (not_or.mpr ⟨hne, hlong⟩), hprintable, if_neg hlong]
    rfl

/-! ### Dates -/

/-- The time of a notice on a day. -/
def clockTime (fillTime : String) (date : Int) : DateTime :=
  .combine date (number (pair fillTime 0)) (number (pair fillTime 2)) (number (pair fillTime 4))
    (some DateTime.kstOffset)

/-- The day that a notice is dated to. -/
def noticeDate (tradingDate : Option Int) (received : DateTime) : Int := tradingDate.getD received.toKst.date

/-- The notice is not dated after its receipt. -/
structure NotAhead (fillTime : String) (tradingDate : Option Int) (received : DateTime) : Prop where
  date : noticeDate tradingDate received ≤ received.toKst.date
  time : (clockTime fillTime (noticeDate tradingDate received)).instant ≤ received.toKst.instant

theorem intOfDigits_number {text : String} (h : (Text.toNat? text).isSome = true) :
    intOfDigits text = .ok (number text) := (intOfDigits_spec text).accepts h

theorem filledAt_of_notAhead {fillTime : String} {tradingDate : Option Int} {received : DateTime}
    (hclock : ClockText fillTime) (h : NotAhead fillTime tradingDate received) :
    filledAt fillTime tradingDate received = .ok (.ok (clockTime fillTime (noticeDate tradingDate received))) := by
  have hdecimal := fun start hstart => intOfDigits_number (hclock.decimal start hstart)
  have hhour : intOfDigits (String.ofList (fillTime.toList.take 2)) = .ok (number (pair fillTime 0)) :=
    hdecimal 0 (by decide)
  have hminute : intOfDigits (String.ofList ((fillTime.toList.drop 2).take 2)) = .ok (number (pair fillTime 2)) :=
    hdecimal 2 (by decide)
  have hsecond : intOfDigits (String.ofList (fillTime.toList.drop 4)) = .ok (number (pair fillTime 4)) := by
    have hshort : (fillTime.toList.drop 4).length ≤ 2 := by
      rw [List.length_drop, String.length_toList, hclock.length]
    rw [← List.take_of_length_le hshort]
    exact hdecimal 4 (by decide)
  have hvalid : number (pair fillTime 0) < 24 ∧ number (pair fillTime 2) < 60 ∧ number (pair fillTime 4) < 60 :=
    ⟨Nat.lt_succ_of_le hclock.hour, Nat.lt_succ_of_le hclock.minute, Nat.lt_succ_of_le hclock.second⟩
  have hshape : ¬ (fillTime.length ≠ 6 ∨ Text.isdigit fillTime = false) := by
    simp [hclock.length, hclock.digits]
  have hdate : tradingDate.getD received.toKst.date ≤ received.toKst.date := h.date
  unfold filledAt
  dsimp only
  rw [if_neg (not_lt.mpr hdate), if_neg hshape, hhour, hminute, hsecond]
  simp only [bind, Except.bind, if_pos hvalid]
  exact if_neg (not_lt.mpr h.time)

end AutoTrader
