/-
  AutoTrader/Execution/PositionManager.lean
  =========================================
  **The life cycle of a managed position.**

  `evaluate_position` validates a position and decides, `apply_position_decision` makes
  the position the decision leaves.  The first take-profit moves the stop to the entry
  price or above, and the validator wants the stop below the entry: after a partial exit
  no evaluation is accepted any more, and `position_closed_iff` says that this is the
  only way out of the cycle.
-/
import AutoTrader.Python.Time
import Mathlib.Data.Rat.Floor
import Mathlib.Tactic.Linarith

namespace AutoTrader

inductive PositionAction where
  | hold
  | partialExit
  | exit
deriving DecidableEq

structure ManagedPosition where
  symbol : String
  quantity : Int
  entryPrice : PyFloat
  stopLoss : PyFloat
  tp1Price : PyFloat
  tp2Price : PyFloat
  openedAt : DateTime
  tp1Ratio : PyFloat
  tp1Filled : Bool
  highestPrice : Option PyFloat
  trailingActive : Bool
  maxHoldingSeconds : Option Int
deriving DecidableEq

structure PositionDecision where
  action : PositionAction
  reason : String
  quantity : Int
  newStopLoss : Option PyFloat := none
  trailingActive : Option Bool := none
  highestPrice : Option PyFloat := none
deriving DecidableEq

/-- The percentages of `evaluate_position`. -/
structure TrailingRules where
  trailingStartPct : PyFloat := .fin (1 / 2)
  trailingDropPct : PyFloat := .fin (1 / 4)
  breakEvenBufferPct : PyFloat := .fin 0

/-! ### Prices -/

/-- `price * (1 + pct / 100)`. -/
def raisedBy (price : PosRat) : PyFloat → PyFloat
  | .fin pct => .fin (price.val * (1 + pct / 100))
  | other => other

/-- `price * (1 - pct / 100)`. -/
def loweredBy (price : PosRat) : PyFloat → PyFloat
  | .fin pct => .fin (price.val * (1 - pct / 100))
  | .posInf => .negInf
  | .negInf => .posInf
  | .nan => .nan

/-- The numbers of a position and of the market that the validator lets through. -/
structure PricedPosition where
  current : PosRat
  entry : PosRat
  stop : PosRat
  tp1 : PosRat
  tp2 : PosRat
  ratio : ℚ
  highest : Option PosRat

def ManagedPosition.prices (position : ManagedPosition) (currentPrice : PyFloat) :
    Option (PosRat × PosRat × PosRat × PosRat × PosRat) := do
  some (← currentPrice.price?, ← position.entryPrice.price?, ← position.stopLoss.price?,
    ← position.tp1Price.price?, ← position.tp2Price.price?)

/-- `0 < tp1_ratio < 1`. -/
def ManagedPosition.ratio? (position : ManagedPosition) : Option ℚ :=
  match position.tp1Ratio with
  | .fin ratio => if 0 < ratio ∧ ratio < 1 then some ratio else none
  | _ => none

/-- The highest price, where there is none or a valid one. -/
def ManagedPosition.highest? (position : ManagedPosition) : Option (Option PosRat) :=
  match position.highestPrice with
  | none => some none
  | some highest => highest.price?.map some

/-- `now < opened_at`. -/
def precedes (now openedAt : DateTime) : Except Exn Bool :=
  if now.offset.isNone = openedAt.offset.isNone then .ok (now.instant < openedAt.instant)
  else .error (.typeError "can't compare offset-naive and offset-aware datetimes")

/-- `_validate`, with the numbers it lets through.  Its last check, on time zones, is
    behind a comparison that raises where they differ. -/
def validatePosition (position : ManagedPosition) (currentPrice : PyFloat) (now : DateTime) :
    Except Exn PricedPosition :=
  if Text.blank position.symbol then .error (.valueError "symbol must not be empty")
  else if position.quantity < 1 then .error (.valueError "quantity must be positive")
  else
    match position.prices currentPrice with
    | none => .error (.valueError "prices must be finite and positive")
    | some (current, entry, stop, tp1, tp2) =>
      match position.ratio? with
      | none => .error (.valueError "tp1_ratio must be greater than 0 and less than 1")
      | some ratio =>
        if ¬ (stop.val < entry.val ∧ entry.val < tp1.val ∧ tp1.val ≤ tp2.val) then
          .error (.valueError "price ladder must satisfy stop_loss < entry_price < tp1_price <= tp2_price")
        else if position.maxHoldingSeconds.any (· < 0) then
          .error (.valueError "max_holding_seconds must not be negative")
        else
          match position.highest? with
          | none => .error (.valueError "highest_price must be finite and positive")
          | some highest =>
            match precedes now position.openedAt with
            | .error e => .error e
            | .ok true => .error (.valueError "now must not precede opened_at")
            | .ok false => .ok ⟨current, entry, stop, tp1, tp2, ratio, highest⟩

/-! ### Decisions -/

namespace PricedPosition

variable (prices : PricedPosition)

/-- `max(current_price, position.highest_price or current_price)`. -/
def newHighest : PosRat :=
  match prices.highest with
  | none => prices.current
  | some highest => if highest.val ≤ prices.current.val then prices.current else highest

/-- `position.trailing_active or current_price >= entry_price * (1 + trailing_start_pct / 100)`. -/
def newTrailing (active : Bool) (rules : TrailingRules) : Bool :=
  active || (raisedBy prices.entry rules.trailingStartPct).le (.fin prices.current.val)

end PricedPosition

/-- The holding time is over before the first take-profit. -/
def timeStopped (position : ManagedPosition) (prices : PricedPosition) (now : DateTime) : Bool :=
  match position.maxHoldingSeconds with
  | none => false
  | some seconds =>
    seconds * DateTime.microsPerSecond ≤ now.instant - position.openedAt.instant &&
      (!position.tp1Filled && prices.current.val < prices.tp1.val)

/-- `min(quantity - 1, max(1, floor(quantity * tp1_ratio + 0.5)))`. -/
def partialQuantity (quantity : Int) (ratio : ℚ) : Int :=
  min (quantity - 1) (max 1 ⌊quantity * ratio + 1 / 2⌋)

/-- `evaluate_position`, once validated. -/
def decidePosition (position : ManagedPosition) (prices : PricedPosition) (now : DateTime)
    (rules : TrailingRules) : PositionDecision :=
  let highest := prices.newHighest
  let trailing := prices.newTrailing position.trailingActive rules
  let decision (action : PositionAction) (reason : String) (quantity : Int)
      (newStopLoss : Option PyFloat) : PositionDecision :=
    ⟨action, reason, quantity, newStopLoss, some trailing, some (.fin highest.val)⟩
  if prices.current.val ≤ prices.stop.val then decision .exit "stop_loss" position.quantity none
  else if timeStopped position prices now then decision .exit "time_stop" position.quantity none
  else if prices.tp2.val ≤ prices.current.val then decision .exit "take_profit_2" position.quantity none
  else if position.tp1Filled = false ∧ prices.tp1.val ≤ prices.current.val then
    if position.quantity = 1 then decision .exit "take_profit_1_single_share" 1 none
    else decision .partialExit "take_profit_1"
      (min (partialQuantity position.quantity prices.ratio) position.quantity)
      (some (raisedBy prices.entry rules.breakEvenBufferPct))
  else if trailing && (PyFloat.fin prices.current.val).le (loweredBy highest rules.trailingDropPct) then
    decision .exit "trailing_stop" position.quantity none
  else decision .hold "hold" 0 none

/-- `evaluate_position`. -/
def evaluatePosition (position : ManagedPosition) (currentPrice : PyFloat) (now : DateTime)
    (rules : TrailingRules) : Except Exn PositionDecision := do
  let prices ← validatePosition position currentPrice now
  if rules.trailingStartPct.lt (.fin 0) || rules.trailingDropPct.lt (.fin 0) ||
      rules.breakEvenBufferPct.lt (.fin 0) then
    .error (.valueError "trailing and break-even percentages must not be negative")
  else .ok (decidePosition position prices now rules)

/-- `value or fallback` on an optional `float`. -/
def floatOr (value : Option PyFloat) (fallback : Option PyFloat) : Option PyFloat :=
  match value with
  | some x => if x.truthy then some x else fallback
  | none => fallback

/-- `apply_position_decision`. -/
def applyPositionDecision (position : ManagedPosition) (decision : PositionDecision) :
    Except Exn ManagedPosition :=
  let marked : ManagedPosition :=
    { position with
      highestPrice := floatOr decision.highestPrice position.highestPrice
      trailingActive := decision.trailingActive.getD position.trailingActive }
  match decision.action with
  | .partialExit =>
    let remaining := position.quantity - decision.quantity
    if remaining < 1 then .error (.valueError "partial exit must leave at least one share")
    else .ok { marked with
      quantity := remaining
      tp1Filled := true
      stopLoss := (floatOr decision.newStopLoss (some position.stopLoss)).getD position.stopLoss }
  | .exit => .ok { marked with quantity := 0 }
  | .hold => .ok marked

/-! ### Accepted positions -/

/-- What the validator asks of a position, a price and a time. -/
structure Accepts (position : ManagedPosition) (currentPrice : PyFloat) (now : DateTime)
    (prices : PricedPosition) : Prop where
  symbol : Text.blank position.symbol = false
  quantity : 1 ≤ position.quantity
  priced : position.prices currentPrice =
    some (prices.current, prices.entry, prices.stop, prices.tp1, prices.tp2)
  ratio : position.ratio? = some prices.ratio
  stop_lt : prices.stop.val < prices.entry.val
  entry_lt : prices.entry.val < prices.tp1.val
  tp1_le : prices.tp1.val ≤ prices.tp2.val
  holding : position.maxHoldingSeconds.any (· < 0) = false
  highest : position.highest? = some prices.highest
  now : precedes now position.openedAt = .ok false

theorem validatePosition_ok_iff {position : ManagedPosition} {currentPrice : PyFloat} {now : DateTime}
    {prices : PricedPosition} :
    validatePosition position currentPrice now = .ok prices ↔ Accepts position currentPrice now prices := by
  constructor
  · intro h
    unfold validatePosition at h
    split at h
    · cases h
    rename_i hsymbol
    split at h
    · cases h
    rename_i hquantity
    split at h
    · cases h
    rename_i hprices
    split at h
    · cases h
    rename_i hratio
    split at h
    · cases h
    rename_i hladder
    split at h
    · cases h
    rename_i hholding
    split at h
    · cases h
    rename_i hhighest
    split at h
    · cases h
    · cases h
    rename_i hnow
    cases h
    obtain ⟨hstop, hentry, htp1⟩ := not_not.mp hladder
    exact ⟨by simpa using hsymbol, not_lt.mp hquantity, hprices, hratio, hstop, hentry, htp1,
      by simpa using hholding, hhighest, hnow⟩
  · intro h
    unfold validatePosition
    rw [if_neg (by simp [h.symbol]), if_neg (not_lt.mpr h.quantity), h.priced]
    simp only
    rw [h.ratio]
    simp only
    rw [if_neg (not_not.mpr ⟨h.stop_lt, h.entry_lt, h.tp1_le⟩), if_neg (by simp [h.holding]), h.highest]
    simp only
    rw [h.now]

/-- Percentages that are not negative. -/
def TrailingRules.NonNeg (rules : TrailingRules) : Prop :=
  (PyFloat.fin 0).le rules.trailingStartPct = true ∧ (PyFloat.fin 0).le rules.trailingDropPct = true ∧
    (PyFloat.fin 0).le rules.breakEvenBufferPct = true

theorem not_lt_of_nonneg {pct : PyFloat} (h : (PyFloat.fin 0).le pct = true) : pct.lt (.fin 0) = false := by
  cases pct with
  | fin q => simpa [PyFloat.le, PyFloat.lt] using h
  | nan => rfl
  | posInf => rfl
  | negInf => cases h

theorem evaluatePosition_ok_iff {position : ManagedPosition} {currentPrice : PyFloat} {now : DateTime}
    {rules : TrailingRules} (hrules : rules.NonNeg) {decision : PositionDecision} :
    evaluatePosition position currentPrice now rules = .ok decision ↔
      ∃ prices, Accepts position currentPrice now prices ∧ decision = decidePosition position prices now rules := by
  obtain ⟨hstart, hdrop, hbuffer⟩ := hrules
  have hcheck : (rules.trailingStartPct.lt (.fin 0) || rules.trailingDropPct.lt (.fin 0) ||
      rules.breakEvenBufferPct.lt (.fin 0)) = false := by
    rw [not_lt_of_nonneg hstart, not_lt_of_nonneg hdrop, not_lt_of_nonneg hbuffer]
    rfl
  unfold evaluatePosition
  rw [hcheck]
  constructor
  · intro h
    obtain ⟨prices, hprices, h⟩ := Except.bind_eq_ok h
    cases h
    exact ⟨prices, validatePosition_ok_iff.mp hprices, rfl⟩
  · rintro ⟨prices, haccepts, rfl⟩
    rw [validatePosition_ok_iff.mpr haccepts]
    rfl

/-! ### The life cycle -/

/-- What the life cycle promises of the position that a decision leaves. -/
structure StaysManaged (position position' : ManagedPosition) (decision : PositionDecision)
    (currentPrice : PyFloat) (now : DateTime) : Prop where
  accepted : ∀ price later rules, price.price?.isSome = true → precedes later now = .ok false →
    TrailingRules.NonNeg rules → ∃ next, evaluatePosition position' price later rules = .ok next
  quantity : position'.quantity = position.quantity - decision.quantity
  positive : 1 ≤ position'.quantity
  highest : ∃ highest, position'.highestPrice = some highest ∧ currentPrice.le highest = true ∧
    ∀ old, position.highestPrice = some old → old.le highest = true
  trailing : position.trailingActive = true → position'.trailingActive = true

section Decided

variable {position : ManagedPosition} {currentPrice : PyFloat} {now : DateTime} {prices : PricedPosition}
  {rules : TrailingRules}

theorem precedes_ok_false {now openedAt : DateTime} :
    precedes now openedAt = .ok false ↔
      now.offset.isNone = openedAt.offset.isNone ∧ openedAt.instant ≤ now.instant := by
  unfold precedes
  split
  · rename_i hsame
    simp [hsame]
  · rename_i hother
    simp [hother]

theorem precedes_trans {openedAt now later : DateTime} (hnow : precedes now openedAt = .ok false)
    (hlater : precedes later now = .ok false) : precedes later openedAt = .ok false := by
  rw [precedes_ok_false] at hnow hlater ⊢
  exact ⟨hlater.1.trans hnow.1, hnow.2.trans hlater.2⟩

/-- The five prices an accepted position shows. -/
theorem Accepts.floats (h : Accepts position currentPrice now prices) :
    currentPrice = .fin prices.current.val ∧ position.entryPrice = .fin prices.entry.val ∧
      position.stopLoss = .fin prices.stop.val ∧ position.tp1Price = .fin prices.tp1.val ∧
      position.tp2Price = .fin prices.tp2.val := by
  have hpriced := h.priced
  simp only [ManagedPosition.prices, Option.bind_eq_bind, Option.bind_eq_some_iff, Option.some.injEq,
    Prod.mk.injEq] at hpriced
  obtain ⟨_, hcurrent, _, hentry, _, hstop, _, htp1, _, htp2, rfl, rfl, rfl, rfl, rfl⟩ := hpriced
  exact ⟨PyFloat.price?_eq_some hcurrent, PyFloat.price?_eq_some hentry, PyFloat.price?_eq_some hstop, PyFloat.price?_eq_some htp1,
    PyFloat.price?_eq_some htp2⟩

theorem Accepts.newHighest_ge (h : Accepts position currentPrice now prices) :
    prices.current.val ≤ prices.newHighest.val ∧
      ∀ old, position.highestPrice = some old → old.le (.fin prices.newHighest.val) = true := by
  have hhighest := h.highest
  unfold ManagedPosition.highest? at hhighest
  unfold PricedPosition.newHighest
  cases hprior : position.highestPrice with
  | none =>
    rw [hprior] at hhighest
    rw [← Option.some.inj hhighest]
    exact ⟨le_refl _, fun _ hsome => (Option.some_ne_none _ hsome.symm).elim⟩
  | some prior =>
    rw [hprior] at hhighest
    obtain ⟨p, hp, hsome⟩ := Option.map_eq_some_iff.mp hhighest
    rw [← hsome, PyFloat.price?_eq_some hp]
    simp only [Option.some.injEq, forall_eq']
    split
    · rename_i hle
      exact ⟨le_refl _, by simpa [PyFloat.le, PyFloat.lt] using hle⟩
    · rename_i hlt
      exact ⟨(not_le.mp hlt).le, by simp [PyFloat.le, PyFloat.lt]⟩

/-- A new highest price, a trailing flag and a smaller quantity keep a position acceptable. -/
theorem Accepts.follow (h : Accepts position currentPrice now prices) {later : DateTime} {price : PyFloat}
    (hprice : price.price?.isSome = true) (hlater : precedes later now = .ok false) (highest : PosRat)
    (trailing : Bool) : ∃ prices', Accepts { position with
      highestPrice := some (.fin highest.val), trailingActive := trailing } price later prices' := by
  obtain ⟨current, hcurrent⟩ := Option.isSome_iff_exists.mp hprice
  obtain ⟨-, hentry, hstop, htp1, htp2⟩ := h.floats
  refine ⟨⟨current, prices.entry, prices.stop, prices.tp1, prices.tp2, prices.ratio, some highest⟩, h.symbol,
    h.quantity, ?_, h.ratio, h.stop_lt, h.entry_lt, h.tp1_le, h.holding, ?_,
    precedes_trans h.now hlater⟩
  · simp [ManagedPosition.prices, hcurrent, hentry, hstop, htp1, htp2, PyFloat.price?_fin]
  · simp [ManagedPosition.highest?, PyFloat.price?_fin]

variable (position currentPrice) in
/-- The first take-profit is due and leaves shares over. -/
def TakesFirstProfit : Prop :=
  position.tp1Filled = false ∧ 1 < position.quantity ∧ position.tp1Price.le currentPrice = true ∧
    currentPrice.lt position.tp2Price = true

variable (position prices rules) in
/-- The decision at the first take-profit. -/
def firstProfit : PositionDecision :=
  ⟨.partialExit, "take_profit_1", min (partialQuantity position.quantity prices.ratio) position.quantity,
    some (raisedBy prices.entry rules.breakEvenBufferPct),
    some (prices.newTrailing position.trailingActive rules), some (.fin prices.newHighest.val)⟩

variable (position prices rules) in
/-- The decision to hold. -/
def holdDecision : PositionDecision :=
  ⟨.hold, "hold", 0, none, some (prices.newTrailing position.trailingActive rules),
    some (.fin prices.newHighest.val)⟩

theorem takesFirstProfit_iff (h : Accepts position currentPrice now prices) :
    TakesFirstProfit position currentPrice ↔ position.tp1Filled = false ∧ 1 < position.quantity ∧
      prices.tp1.val ≤ prices.current.val ∧ prices.current.val < prices.tp2.val := by
  obtain ⟨hcurrent, -, -, htp1, htp2⟩ := h.floats
  simp [TakesFirstProfit, hcurrent, htp1, htp2, PyFloat.le, PyFloat.lt]

variable (rules) in
/-- What an accepted evaluation decides. -/
theorem Accepts.decision_cases (h : Accepts position currentPrice now prices) :
    (TakesFirstProfit position currentPrice ∧
      decidePosition position prices now rules = firstProfit position prices rules) ∨
    (¬ TakesFirstProfit position currentPrice ∧
      ((decidePosition position prices now rules).action = .exit ∨
        decidePosition position prices now rules = holdDecision position prices rules)) := by
  have hquantity := h.quantity
  have hladder := h.stop_lt.trans h.entry_lt
  rw [takesFirstProfit_iff h]
  simp only [decidePosition]
  split_ifs with hstop htime htp2 htp1 hone htrailing
  · exact .inr ⟨fun htakes => absurd (hladder.trans_le htakes.2.2.1) (not_lt.mpr hstop), .inl rfl⟩
  · refine .inr ⟨fun htakes => ?_, .inl rfl⟩
    unfold timeStopped at htime
    split at htime
    · cases htime
    · simp only [Bool.and_eq_true, decide_eq_true_eq] at htime
      exact absurd htime.2.2 (not_lt.mpr htakes.2.2.1)
  · exact .inr ⟨fun htakes => absurd htakes.2.2.2 (not_lt.mpr htp2), .inl rfl⟩
  · exact .inr ⟨fun htakes => absurd htakes.2.1 (by omega), .inl rfl⟩
  · exact .inl ⟨⟨htp1.1, by omega, htp1.2, not_le.mp htp2⟩, rfl⟩
  · exact .inr ⟨fun htakes => htp1 ⟨htakes.1, htakes.2.2.1⟩, .inl rfl⟩
  · exact .inr ⟨fun htakes => htp1 ⟨htakes.1, htakes.2.2.1⟩, .inr rfl⟩

/-- Holding keeps the position in the cycle. -/
theorem Accepts.hold_stays (h : Accepts position currentPrice now prices) :
    ∃ position', applyPositionDecision position (holdDecision position prices rules) = .ok position' ∧
      StaysManaged position position' (holdDecision position prices rules) currentPrice now := by
  obtain ⟨hcurrent, hold⟩ := h.newHighest_ge
  have hne : prices.newHighest.val ≠ 0 := prices.newHighest.pos.ne'
  refine ⟨{ position with
      highestPrice := some (.fin prices.newHighest.val)
      trailingActive := prices.newTrailing position.trailingActive rules }, ?_, ?_⟩
  · simp [holdDecision, applyPositionDecision, floatOr, PyFloat.truthy, hne]
  · refine ⟨?_, ?_, h.quantity, ⟨_, rfl, ?_, hold⟩, ?_⟩
    · intro price later rules' hprice hlater hrules
      obtain ⟨prices', haccepts⟩ := h.follow hprice hlater prices.newHighest
        (prices.newTrailing position.trailingActive rules)
      exact ⟨_, (evaluatePosition_ok_iff hrules).mpr ⟨prices', haccepts, rfl⟩⟩
    · simp [holdDecision]
    · rw [h.floats.1]
      simpa [PyFloat.le, PyFloat.lt] using hcurrent
    · intro htrailing
      simp [PricedPosition.newTrailing, htrailing]

/-- The break-even stop is not below the entry price, so it is a number other than zero. -/
theorem raisedBy_truthy (entry : PosRat) {pct : PyFloat} (h : (PyFloat.fin 0).le pct = true) :
    (raisedBy entry pct).truthy = true ∧
      ∀ stop : PosRat, (raisedBy entry pct).price? = some stop → entry.val ≤ stop.val := by
  cases pct with
  | fin q =>
    have hq : 0 ≤ q := by simpa [PyFloat.le, PyFloat.lt] using h
    have hraised : entry.val ≤ entry.val * (1 + q / 100) := by
      have := mul_nonneg entry.pos.le (div_nonneg hq (by norm_num : (0 : ℚ) ≤ 100))
      linarith
    refine ⟨?_, fun stop hstop => ?_⟩
    · simpa [raisedBy, PyFloat.truthy] using (entry.pos.trans_le hraised).ne'
    · have hvalue : entry.val * (1 + q / 100) = stop.val := by
        simpa [raisedBy] using PyFloat.price?_eq_some hstop
      exact hvalue ▸ hraised
  | posInf => exact ⟨rfl, fun stop hstop => by cases hstop⟩
  | nan => cases h
  | negInf => cases h

/-- A partial exit sells at least one share and leaves at least one. -/
theorem partialQuantity_bounds {quantity : Int} (hquantity : 1 < quantity) (ratio : ℚ) :
    1 ≤ partialQuantity quantity ratio ∧ partialQuantity quantity ratio < quantity := by
  unfold partialQuantity
  generalize ⌊(quantity : ℚ) * ratio + 1 / 2⌋ = rounded
  omega

/-- The position after the first take-profit. -/
theorem firstProfit_applies (hquantity : 1 < position.quantity) (hrules : rules.NonNeg) :
    applyPositionDecision position (firstProfit position prices rules) = .ok { position with
      quantity := position.quantity - partialQuantity position.quantity prices.ratio
      tp1Filled := true
      stopLoss := raisedBy prices.entry rules.breakEvenBufferPct
      highestPrice := some (.fin prices.newHighest.val)
      trailingActive := prices.newTrailing position.trailingActive rules } := by
  obtain ⟨-, hlt⟩ := partialQuantity_bounds hquantity prices.ratio
  have hmin : min (partialQuantity position.quantity prices.ratio) position.quantity =
      partialQuantity position.quantity prices.ratio := min_eq_left hlt.le
  have hhighest : (PyFloat.fin prices.newHighest.val).truthy = true := by
    simpa [PyFloat.truthy] using prices.newHighest.pos.ne'
  obtain ⟨hstop, -⟩ := raisedBy_truthy prices.entry hrules.2.2
  simp only [applyPositionDecision, firstProfit, hmin]
  rw [if_neg (by omega)]
  simp [floatOr, hstop, hhighest]

/-- The first take-profit leaves a stop that no evaluation accepts. -/
theorem Accepts.firstProfit_leaves (h : Accepts position currentPrice now prices) (hrules : rules.NonNeg)
    (hquantity : 1 < position.quantity) (position' : ManagedPosition)
    (happly : applyPositionDecision position (firstProfit position prices rules) = .ok position') :
    ¬ StaysManaged position position' (firstProfit position prices rules) currentPrice now := by
  intro hstays
  rw [firstProfit_applies hquantity hrules] at happly
  cases happly
  obtain ⟨-, habove⟩ := raisedBy_truthy prices.entry hrules.2.2
  have hprice : currentPrice.price?.isSome = true := by rw [h.floats.1, PyFloat.price?_fin]; rfl
  have hnow : precedes now now = .ok false := precedes_ok_false.mpr ⟨rfl, le_refl _⟩
  obtain ⟨next, hnext⟩ := hstays.accepted currentPrice now rules hprice hnow hrules
  obtain ⟨prices', haccepts, -⟩ := (evaluatePosition_ok_iff hrules).mp hnext
  obtain ⟨-, hentry, hstop, -, -⟩ := haccepts.floats
  have hsame : prices.entry.val = prices'.entry.val := PyFloat.fin.inj (h.floats.2.1.symm.trans hentry)
  have hle : prices.entry.val ≤ prices'.stop.val := by
    apply habove prices'.stop
    rw [show raisedBy prices.entry rules.breakEvenBufferPct = _ from hstop, PyFloat.price?_fin]
  exact absurd haccepts.stop_lt (not_lt.mpr (hsame ▸ hle))

/-- **The life cycle goes on exactly where the first take-profit is not due.**  A held
    position is accepted again at every price and time, and a partial exit leaves a stop
    at the entry price or above, which the validator refuses from then on. -/
theorem position_closed_iff (hrules : rules.NonNeg) {decision : PositionDecision}
    (hevaluate : evaluatePosition position currentPrice now rules = .ok decision) :
    (decision.action ≠ .exit → ∃ position', applyPositionDecision position decision = .ok position' ∧
      StaysManaged position position' decision currentPrice now) ↔
    ¬ TakesFirstProfit position currentPrice := by
  obtain ⟨prices, h, rfl⟩ := (evaluatePosition_ok_iff hrules).mp hevaluate
  obtain ⟨htakes, hdecision⟩ | ⟨htakes, hexit | hdecision⟩ := h.decision_cases rules
  · rw [hdecision]
    constructor
    · intro hstays
      obtain ⟨position', happly, hmanaged⟩ := hstays nofun
      exact absurd hmanaged (h.firstProfit_leaves hrules htakes.2.1 position' happly)
    · exact fun hno => absurd htakes hno
  · exact ⟨fun _ => htakes, fun _ hno => absurd hexit hno⟩
  · rw [hdecision]
    exact ⟨fun _ => htakes, fun _ _ => h.hold_stays⟩

end Decided

/-- Nine shares at 100, with take-profits at 101 and 103. -/
def nineShares : ManagedPosition :=
  { symbol := "005930", quantity := 9, entryPrice := .fin 100, stopLoss := .fin 98, tp1Price := .fin 101,
    tp2Price := .fin 103, openedAt := ⟨1786784400000000, none⟩, tp1Ratio := .fin (1 / 2), tp1Filled := false,
    highestPrice := none, trailingActive := false, maxHoldingSeconds := none }

/-- The rules at their defaults are not negative. -/
theorem nonNeg_default : TrailingRules.NonNeg {} :=
  ⟨by decide +kernel, by decide +kernel, by decide +kernel⟩

/-- At 100 the nine shares are held, and stay managed. -/
theorem nine_shares_held :
    ∃ decision, evaluatePosition nineShares (.fin 100) ⟨1786784460000000, none⟩ {} = .ok decision ∧
      ((decision.action ≠ .exit → ∃ position', applyPositionDecision nineShares decision = .ok position' ∧
        StaysManaged nineShares position' decision (.fin 100) ⟨1786784460000000, none⟩) ↔
      ¬ TakesFirstProfit nineShares (.fin 100)) :=
  ⟨⟨.hold, "hold", 0, none, some false, some (.fin 100)⟩, Except.eq_ok_of_toOption (by decide +kernel),
    position_closed_iff nonNeg_default (Except.eq_ok_of_toOption (by decide +kernel))⟩

/-- At 101 five of the nine shares are sold, and no price and time is accepted any more. -/
theorem nine_shares_stuck :
    ∃ decision position',
      evaluatePosition nineShares (.fin 101) ⟨1786784460000000, none⟩ {} = .ok decision ∧
      decision.action ≠ .exit ∧ applyPositionDecision nineShares decision = .ok position' ∧
      ¬ StaysManaged nineShares position' decision (.fin 101) ⟨1786784460000000, none⟩ := by
  refine ⟨⟨.partialExit, "take_profit_1", 5, some (.fin 100), some true, some (.fin 101)⟩,
    { nineShares with
      quantity := 4, tp1Filled := true, stopLoss := .fin 100, highestPrice := some (.fin 101),
      trailingActive := true },
    Except.eq_ok_of_toOption (by decide +kernel), nofun, Except.eq_ok_of_toOption (by decide +kernel), ?_⟩
  intro hstays
  obtain ⟨next, hnext⟩ := hstays.accepted (.fin 101) ⟨1786784460000000, none⟩ {} (by decide +kernel)
    (Except.eq_ok_of_toOption (by decide +kernel)) nonNeg_default
  have hrefused : (evaluatePosition { nineShares with
      quantity := 4, tp1Filled := true, stopLoss := .fin 100, highestPrice := some (.fin 101),
      trailingActive := true } (.fin 101) ⟨1786784460000000, none⟩ {}).toOption = none := by decide +kernel
  rw [hnext] at hrefused
  cases hrefused

end AutoTrader
