/-
  AutoTrader/Python/IsoOrder.lean
  ===============================
  **ISO texts sort like wall clocks.**

  SQLite compares the texts of two timestamps character by character.  The date is
  four, two and two digits, the time two, two and two, and the fraction of a second
  appears only when it is not zero; the offset comes last.  So two texts sort like
  the wall clocks they show, and the offset matters for equal clocks only.

  `civil` numbers the days of an era of 400 years from 1 March; that it is monotone
  is proved from the first day of each of these years.
-/
import AutoTrader.Lib.Digits
import AutoTrader.Python.Time
import Mathlib.Tactic.Linarith

namespace AutoTrader

namespace DateTime

/-! ### Years of an era -/

/-- The days of an era without the leap days before them. -/
def withoutLeaps (doe : Int) : Int := doe - doe / 1460 + doe / 36524 - doe / 146096

/-- The first day of a year of an era. -/
def yearStart (y : Int) : Int := 365 * y + y / 4 - y / 100

/-- The day after the last one of a year of an era. -/
def yearStop (y : Int) : Int := if y = 399 then 146097 else yearStart (y + 1)

theorem withoutLeaps_succ (doe : Int) : withoutLeaps doe ≤ withoutLeaps (doe + 1) := by
  unfold withoutLeaps
  omega

theorem withoutLeaps_mono {a b : Int} (h : a ≤ b) : withoutLeaps a ≤ withoutLeaps b := by
  obtain ⟨n, rfl⟩ : ∃ n : Nat, b = a + n := ⟨(b - a).toNat, by omega⟩
  clear h
  induction n with
  | zero => simp
  | succ n ih =>
    have hstep := withoutLeaps_succ (a + n)
    rw [Nat.cast_succ, ← add_assoc]
    exact le_trans ih hstep

theorem withoutLeaps_year : ∀ y : Fin 400,
    365 * (y.val : Int) ≤ withoutLeaps (yearStart y.val) ∧
    withoutLeaps (yearStop y.val - 1) ≤ 365 * y.val + 364 := by
  decide +kernel

/-- The year of a day of an era. -/
theorem year_of_day {y doe : Int} (h0 : 0 ≤ y) (h1 : y ≤ 399) (hstart : yearStart y ≤ doe)
    (hstop : doe < yearStop y) : withoutLeaps doe / 365 = y := by
  obtain ⟨n, rfl⟩ := Int.eq_ofNat_of_zero_le h0
  obtain ⟨hlow, hhigh⟩ := withoutLeaps_year ⟨n, by omega⟩
  have hfrom := withoutLeaps_mono hstart
  have hto := withoutLeaps_mono (show doe ≤ yearStop n - 1 by omega)
  simp only at hlow hhigh
  omega

theorem year_length : ∀ y : Fin 400,
    yearStart y.val + 365 ≤ yearStop y.val ∧ yearStop y.val ≤ yearStart y.val + 366 := by
  decide +kernel

theorem yearStart_le_stop {y : Int} (h0 : 0 ≤ y) (h1 : y ≤ 399) :
    yearStart y + 365 ≤ yearStop y ∧ yearStop y ≤ yearStart y + 366 := by
  obtain ⟨n, rfl⟩ := Int.eq_ofNat_of_zero_le h0
  exact year_length ⟨n, by omega⟩

/-- Every day of an era belongs to a year. -/
theorem exists_year {doe : Int} (h0 : 0 ≤ doe) (h1 : doe < 146097) :
    ∃ y, 0 ≤ y ∧ y ≤ 399 ∧ yearStart y ≤ doe ∧ doe < yearStop y := by
  have hsearch : ∀ n : Nat, n ≤ 399 → doe < yearStart n →
      ∃ y, 0 ≤ y ∧ y ≤ 399 ∧ yearStart y ≤ doe ∧ doe < yearStop y := by
    intro n
    induction n with
    | zero => intro _ hlt; simp [yearStart] at hlt; omega
    | succ n ih =>
      intro hn hlt
      by_cases hbefore : doe < yearStart n
      · exact ih (by omega) hbefore
      · refine ⟨n, by omega, by omega, by omega, ?_⟩
        rw [yearStop, if_neg (by omega)]
        exact hlt
  by_cases hlast : doe < yearStart 399
  · exact hsearch 399 (by omega) hlast
  · exact ⟨399, by omega, by omega, by omega, by rw [yearStop, if_pos rfl]; exact h1⟩

/-! ### Days of a year -/

/-- The month and the day of a day of a year that starts on 1 March. -/
def monthOf (doy : Int) : Int :=
  if (5 * doy + 2) / 153 < 10 then (5 * doy + 2) / 153 + 3 else (5 * doy + 2) / 153 - 9

def dayOf (doy : Int) : Int := doy - (153 * ((5 * doy + 2) / 153) + 2) / 5 + 1

theorem monthOf_dayOf {doy : Int} (h0 : 0 ≤ doy) (h1 : doy ≤ 365) :
    1 ≤ monthOf doy ∧ monthOf doy ≤ 12 ∧ 1 ≤ dayOf doy ∧ dayOf doy ≤ 31 := by
  unfold monthOf dayOf
  split <;> omega

/-- The month and the day as one number; January and February belong to the next
    civil year. -/
def seasonNumber (doy : Int) : Int :=
  (if monthOf doy ≤ 2 then 10000 else 0) + monthOf doy * 100 + dayOf doy

theorem seasonNumber_succ : ∀ doy : Fin 365, seasonNumber doy.val < seasonNumber (doy.val + 1) := by
  decide +kernel

/-- A date as one number: four, two and two digits. -/
def dateNumber (days : Int) : Int :=
  (civil days).1 * 10000 + (civil days).2.1 * 100 + (civil days).2.2

section Day

variable {days y : Int} (h0 : 0 ≤ y) (h1 : y ≤ 399)
  (hstart : yearStart y ≤ (days + 719468) % 146097) (hstop : (days + 719468) % 146097 < yearStop y)

include h0 h1 hstart hstop

theorem civil_eq :
    civil days =
      (y + (days + 719468) / 146097 * 400 +
          (if monthOf ((days + 719468) % 146097 - yearStart y) ≤ 2 then 1 else 0),
        monthOf ((days + 719468) % 146097 - yearStart y),
        dayOf ((days + 719468) % 146097 - yearStart y)) := by
  have hyear := year_of_day h0 h1 hstart hstop
  unfold withoutLeaps at hyear
  simp only [civil, hyear]
  rfl

theorem dateNumber_eq :
    dateNumber days = (y + (days + 719468) / 146097 * 400) * 10000 +
      seasonNumber ((days + 719468) % 146097 - yearStart y) := by
  rw [dateNumber, civil_eq h0 h1 hstart hstop, seasonNumber]
  simp only
  split <;> omega

theorem civil_range : 1 ≤ (civil days).2.1 ∧ (civil days).2.1 ≤ 12 ∧ 1 ≤ (civil days).2.2 ∧
    (civil days).2.2 ≤ 31 := by
  rw [civil_eq h0 h1 hstart hstop]
  obtain ⟨-, hlength⟩ := yearStart_le_stop h0 h1
  exact monthOf_dayOf (by omega) (by omega)

end Day

theorem exists_yearOf (days : Int) : ∃ y, 0 ≤ y ∧ y ≤ 399 ∧
    yearStart y ≤ (days + 719468) % 146097 ∧ (days + 719468) % 146097 < yearStop y :=
  exists_year (Int.emod_nonneg _ (by omega)) (Int.emod_lt_of_pos _ (by omega))

/-- The next day has the next date. -/
theorem dateNumber_succ (days : Int) : dateNumber days < dateNumber (days + 1) := by
  obtain ⟨y, h0, h1, hstart, hstop⟩ := exists_yearOf days
  obtain ⟨y', h0', h1', hstart', hstop'⟩ := exists_yearOf (days + 1)
  rw [dateNumber_eq h0 h1 hstart hstop, dateNumber_eq h0' h1' hstart' hstop']
  obtain ⟨hshort, hlength⟩ := yearStart_le_stop h0 h1
  have hzero : seasonNumber 0 = 301 := by decide
  have h364 : seasonNumber 364 = 10228 := by decide
  have h365 : seasonNumber 365 = 10229 := by decide
  by_cases hnext : (days + 719468) % 146097 + 1 < yearStop y
  · -- the same year of the same era
    have hera : (days + 1 + 719468) % 146097 = (days + 719468) % 146097 + 1 ∧
        (days + 1 + 719468) / 146097 = (days + 719468) / 146097 := by
      have hbound : yearStop y ≤ 146097 := by
        unfold yearStop yearStart
        split <;> omega
      omega
    have hyear : y' = y := by
      rw [← year_of_day h0' h1' hstart' hstop', hera.1]
      exact year_of_day h0 h1 (by omega) hnext
    subst hyear
    rw [hera.1, hera.2]
    obtain ⟨n, hn⟩ := Int.eq_ofNat_of_zero_le
      (show 0 ≤ (days + 719468) % 146097 - yearStart y' by omega)
    have hseason := seasonNumber_succ ⟨n, by omega⟩
    simp only at hseason
    rw [show (days + 719468) % 146097 + 1 - yearStart y' = (n : Int) + 1 by omega, hn]
    exact add_lt_add_of_le_of_lt le_rfl hseason
  · -- the last day of February, and 1 March
    have hlast : seasonNumber ((days + 719468) % 146097 - yearStart y) ≤ 10229 := by
      have hdoy : (days + 719468) % 146097 - yearStart y = 364 ∨
          (days + 719468) % 146097 - yearStart y = 365 := by
        omega
      rcases hdoy with hdoy | hdoy
      · rw [hdoy, h364]; omega
      · rw [hdoy, h365]
    by_cases hlastYear : y = 399
    · subst hlastYear
      have hera : (days + 1 + 719468) % 146097 = 0 ∧
          (days + 1 + 719468) / 146097 = (days + 719468) / 146097 + 1 := by
        rw [yearStop, if_pos rfl] at hnext hstop
        omega
      have hyear : y' = 0 := by
        rw [← year_of_day h0' h1' hstart' hstop', hera.1]
        decide
      subst hyear
      rw [hera.1, hera.2, show (0 : Int) - yearStart 0 = 0 by decide, hzero]
      omega
    · have hera : (days + 1 + 719468) % 146097 = yearStart (y + 1) ∧
          (days + 1 + 719468) / 146097 = (days + 719468) / 146097 := by
        rw [yearStop, if_neg hlastYear] at hnext hstop
        have hbound : yearStart (y + 1) < 146097 := by
          unfold yearStart
          omega
        omega
      have hyear : y' = y + 1 := by
        rw [← year_of_day h0' h1' hstart' hstop', hera.1]
        have hlong := (yearStart_le_stop (y := y + 1) (by omega) (by omega)).1
        exact year_of_day (by omega) (by omega) le_rfl (by omega)
      subst hyear
      rw [hera.1, hera.2, sub_self, hzero]
      omega

theorem dateNumber_lt {a b : Int} (h : a < b) : dateNumber a < dateNumber b := by
  obtain ⟨n, rfl⟩ : ∃ n : Nat, b = a + 1 + n := ⟨(b - a - 1).toNat, by omega⟩
  clear h
  induction n with
  | zero => simpa using dateNumber_succ a
  | succ n ih =>
    have hstep := dateNumber_succ (a + 1 + n)
    rw [Nat.cast_succ, ← add_assoc]
    exact lt_trans ih hstep

/-! ### The first nineteen characters -/

theorem padded_toList {width : Nat} {n : Int} (hwidth : 0 < width) (hn : n.toNat < 10 ^ width) :
    (padded width n).toList = Digits.fixed width n.toNat := by
  have hdigits : (toString n.toNat).toList = Nat.toDigits 10 n.toNat := Nat.toList_repr
  rw [padded, String.toList_append, String.toList_ofList, ← String.length_toList, hdigits,
    Digits.zeros_toDigits hn hwidth]

/-- Three numbers with separators between them sort by the first that differs. -/
theorem fields_precede {width a b c a' b' c' : Nat} (separator : List Char)
    (ha : a' < 10 ^ width) (hb : b' < 10 ^ 2) (hc : c' < 10 ^ 2)
    (h : a < a' ∨ a = a' ∧ (b < b' ∨ b = b' ∧ c < c')) :
    Digits.Precedes
      (Digits.fixed width a ++ separator ++ Digits.fixed 2 b ++ separator ++ Digits.fixed 2 c)
      (Digits.fixed width a' ++ separator ++ Digits.fixed 2 b' ++ separator ++ Digits.fixed 2 c') := by
  simp only [List.append_assoc]
  rcases h with hlt | ⟨rfl, hlt | ⟨rfl, hlt⟩⟩
  · exact (Digits.fixed_precedes hlt ha).extended (by simp)
  · exact Digits.Precedes.prefixed _ (.prefixed _ ((Digits.fixed_precedes hlt hb).extended (by simp)))
  · exact .prefixed _ (.prefixed _ (.prefixed _ (.prefixed _ (Digits.fixed_precedes hlt hc))))

/-- The wall clock can be written. -/
def InRange (t : DateTime) : Prop := minWall ≤ t.wall ∧ t.wall ≤ maxWall

instance (t : DateTime) : Decidable t.InRange :=
  inferInstanceAs (Decidable (minWall ≤ t.wall ∧ t.wall ≤ maxWall))

/-- Whole seconds of the wall clock. -/
def seconds (t : DateTime) : Int := t.wall / microsPerSecond

/-- `isoformat(timespec='seconds')` without the offset. -/
def secondText (t : DateTime) : String := t.minuteText ++ ":" ++ padded 2 (t.time / microsPerSecond % 60)

def dateChars (t : DateTime) : List Char :=
  Digits.fixed 4 (civil t.date).1.toNat ++ ['-'] ++ Digits.fixed 2 (civil t.date).2.1.toNat ++ ['-'] ++
    Digits.fixed 2 (civil t.date).2.2.toNat

def timeChars (t : DateTime) : List Char :=
  Digits.fixed 2 (t.time / microsPerSecond / 3600).toNat ++ [':'] ++
    Digits.fixed 2 (t.time / microsPerSecond / 60 % 60).toNat ++ [':'] ++
    Digits.fixed 2 (t.time / microsPerSecond % 60).toNat

theorem civil_bounds {t : DateTime} (h : t.InRange) :
    0 ≤ (civil t.date).1 ∧ (civil t.date).1 < 10000 ∧ 1 ≤ (civil t.date).2.1 ∧
    (civil t.date).2.1 ≤ 12 ∧ 1 ≤ (civil t.date).2.2 ∧ (civil t.date).2.2 ≤ 31 := by
  obtain ⟨y, h0, h1, hstart, hstop⟩ := exists_yearOf t.date
  obtain ⟨hm, hm', hd, hd'⟩ := civil_range h0 h1 hstart hstop
  have hfirst : dateNumber (-719162) = 10101 := by decide
  have hlast : dateNumber 2932896 = 99991231 := by decide
  have hdate : -719162 ≤ t.date ∧ t.date ≤ 2932896 := by
    obtain ⟨hlow, hhigh⟩ := h
    simp only [minWall, maxWall, date, secondsPerDay, microsPerSecond] at *
    omega
  have hlow : dateNumber (-719162) ≤ dateNumber t.date := by
    rcases hdate.1.lt_or_eq with hlt | heq
    · exact (dateNumber_lt hlt).le
    · rw [heq]
  have hhigh : dateNumber t.date ≤ dateNumber 2932896 := by
    rcases hdate.2.lt_or_eq with hlt | heq
    · exact (dateNumber_lt hlt).le
    · rw [heq]
  rw [hfirst] at hlow
  rw [hlast] at hhigh
  unfold dateNumber at hlow hhigh
  omega

theorem time_bounds (t : DateTime) :
    0 ≤ t.time / microsPerSecond ∧ t.time / microsPerSecond < 86400 := by
  simp only [time, secondsPerDay, microsPerSecond]
  omega

theorem secondText_toList {t : DateTime} (h : t.InRange) :
    t.secondText.toList = t.dateChars ++ ['T'] ++ t.timeChars := by
  obtain ⟨hy, hy', hm, hm', hd, hd'⟩ := civil_bounds h
  obtain ⟨hs, hs'⟩ := t.time_bounds
  rw [secondText, minuteText]
  simp only [String.toList_append]
  rw [padded_toList (by omega) (show (civil t.date).1.toNat < 10 ^ 4 by omega),
    padded_toList (by omega) (show (civil t.date).2.1.toNat < 10 ^ 2 by omega),
    padded_toList (by omega) (show (civil t.date).2.2.toNat < 10 ^ 2 by omega),
    padded_toList (by omega) (show (t.time / microsPerSecond / 3600).toNat < 10 ^ 2 by omega),
    padded_toList (by omega) (show (t.time / microsPerSecond / 60 % 60).toNat < 10 ^ 2 by omega),
    padded_toList (by omega) (show (t.time / microsPerSecond % 60).toNat < 10 ^ 2 by omega)]
  simp only [dateChars, timeChars, List.append_assoc]
  rfl

theorem dateChars_precede {t t' : DateTime} (h : t.InRange) (h' : t'.InRange) (hlt : t.date < t'.date) :
    Digits.Precedes t.dateChars t'.dateChars := by
  have hb := civil_bounds h
  have hb' := civil_bounds h'
  have hnumber := dateNumber_lt hlt
  unfold dateNumber at hnumber
  refine fields_precede ['-'] (by omega) (by omega) (by omega) ?_
  omega

theorem timeChars_precede {t t' : DateTime}
    (hlt : t.time / microsPerSecond < t'.time / microsPerSecond) :
    Digits.Precedes t.timeChars t'.timeChars := by
  have hb := t.time_bounds
  have hb' := t'.time_bounds
  refine fields_precede [':'] (by omega) (by omega) (by omega) ?_
  omega

theorem secondText_precedes {t t' : DateTime} (h : t.InRange) (h' : t'.InRange)
    (hlt : t.seconds < t'.seconds) : Digits.Precedes t.secondText.toList t'.secondText.toList := by
  rw [secondText_toList h, secondText_toList h', List.append_assoc, List.append_assoc]
  rcases lt_trichotomy t.date t'.date with hdate | hdate | hdate
  · exact (dateChars_precede h h' hdate).extended (by simp [timeChars])
  · have hsame : t.dateChars = t'.dateChars := by rw [dateChars, dateChars, hdate]
    rw [hsame]
    refine .prefixed _ (.prefixed _ (timeChars_precede ?_))
    simp only [seconds, date, time, secondsPerDay, microsPerSecond] at *
    omega
  · simp only [seconds, date, secondsPerDay, microsPerSecond] at *
    omega

theorem secondText_eq {t t' : DateTime} (heq : t.seconds = t'.seconds) : t.secondText = t'.secondText := by
  have hdate : t.date = t'.date := by
    simp only [seconds, date, secondsPerDay, microsPerSecond] at *
    omega
  have htime : t.time / microsPerSecond = t'.time / microsPerSecond := by
    simp only [seconds, time, secondsPerDay, microsPerSecond] at *
    omega
  rw [secondText, secondText, minuteText, minuteText, hdate, htime]

/-! ### The fraction and the offset -/

def fractionChars (t : DateTime) : List Char :=
  if t.time % microsPerSecond = 0 then [] else '.' :: Digits.fixed 6 (t.time % microsPerSecond).toNat

theorem isoformat_toList (t : DateTime) :
    t.isoformat.toList = t.secondText.toList ++ (t.fractionChars ++ (offsetText t.offset).toList) := by
  have hmicros : (t.time % microsPerSecond).toNat < 10 ^ 6 := by
    simp only [microsPerSecond]
    omega
  rw [isoformat, secondText, fractionChars]
  simp only [String.toList_append, List.append_assoc]
  split
  · rfl
  · rw [String.toList_append, padded_toList (by omega) hmicros]
    rfl

/-- In one second the fraction decides, and then the text without an offset comes
    first. -/
theorem fraction_le_iff {t t' : DateTime} (suffix : List Char)
    (hsuffix : suffix = [] ∨ ∃ rest, suffix = '+' :: rest) :
    t.fractionChars ≤ t'.fractionChars ++ suffix ↔ t.time % microsPerSecond ≤ t'.time % microsPerSecond := by
  have hm : 0 ≤ t.time % microsPerSecond ∧ t.time % microsPerSecond < 1000000 := by
    simp only [microsPerSecond]
    omega
  have hm' : 0 ≤ t'.time % microsPerSecond ∧ t'.time % microsPerSecond < 1000000 := by
    simp only [microsPerSecond]
    omega
  unfold fractionChars
  generalize t.time % microsPerSecond = m at *
  generalize t'.time % microsPerSecond = m' at *
  rcases lt_trichotomy m m' with hlt | rfl | hgt
  · refine iff_of_true (le_of_lt ?_) hlt.le
    rw [if_neg (show m' ≠ 0 by omega)]
    split
    · exact List.nil_lt_cons _ _
    · have hdigits := Digits.fixed_precedes (w := 6) (show m.toNat < m'.toNat by omega) (by omega)
      exact List.cons_lt_cons_iff.mpr (.inr ⟨rfl, by simpa using hdigits.lt_append [] suffix⟩)
  · exact iff_of_true (not_lt.mp List.le_append_left) le_rfl
  · refine iff_of_false (not_le.mpr ?_) (by omega)
    rw [if_neg (show m ≠ 0 by omega)]
    split
    · rcases hsuffix with rfl | ⟨rest, rfl⟩
      · exact List.nil_lt_cons _ _
      · exact List.cons_lt_cons_iff.mpr (.inl (by decide))
    · have hdigits := Digits.fixed_precedes (w := 6) (show m'.toNat < m.toNat by omega) (by omega)
      exact List.cons_lt_cons_iff.mpr (.inr ⟨rfl, by simpa using hdigits.lt_append suffix []⟩)

theorem append_le_append_iff (front a b : List Char) : front ++ a ≤ front ++ b ↔ a ≤ b := by
  constructor
  · intro h
    by_contra hlt
    exact not_le.mpr (List.append_left_lt (not_le.mp hlt)) h
  · intro h
    rcases h.lt_or_eq with hlt | rfl
    · exact (List.append_left_lt hlt).le
    · exact le_rfl

/-- **ISO texts sort like wall clocks**, when the first has no offset and the second
    none or that of UTC. -/
theorem isoformat_le_iff {t t' : DateTime} (h : t.InRange) (h' : t'.InRange) (hnaive : t.offset = none)
    (hutc : t'.offset = none ∨ t'.offset = some 0) : t.isoformat ≤ t'.isoformat ↔ t.wall ≤ t'.wall := by
  rw [String.le_iff_toList_le, isoformat_toList, isoformat_toList, hnaive]
  rw [show (offsetText none).toList = [] from rfl, List.append_nil]
  rcases lt_trichotomy t.seconds t'.seconds with hlt | heq | hgt
  · refine iff_of_true (le_of_lt ((secondText_precedes h h' hlt).lt_append _ _)) ?_
    simp only [seconds, microsPerSecond] at hlt
    omega
  · -- the same second: what is left is the fraction, and the offset of the second
    have hsuffix : (offsetText t'.offset).toList = [] ∨
        ∃ rest, (offsetText t'.offset).toList = '+' :: rest := by
      rcases hutc with hnone | hzero
      · rw [hnone]; exact .inl rfl
      · rw [hzero]; exact .inr ⟨"00:00".toList, by decide⟩
    rw [secondText_eq heq, append_le_append_iff, fraction_le_iff _ hsuffix]
    simp only [seconds, time, secondsPerDay, microsPerSecond] at *
    omega
  · refine iff_of_false (not_le.mpr ((secondText_precedes h' h hgt).lt_append _ _)) ?_
    simp only [seconds, microsPerSecond] at hgt
    omega

/-- In one second and at one offset the fraction decides. -/
theorem fraction_suffix_le_iff {t t' : DateTime} {sign : Char} (rest : List Char) (hsign : sign < '.') :
    t.fractionChars ++ sign :: rest ≤ t'.fractionChars ++ sign :: rest ↔
      t.time % microsPerSecond ≤ t'.time % microsPerSecond := by
  have hprecedes : ∀ {t t' : DateTime}, t.time % microsPerSecond < t'.time % microsPerSecond →
      t.fractionChars ++ sign :: rest < t'.fractionChars ++ sign :: rest := by
    intro t t' hlt
    have hm : 0 ≤ t.time % microsPerSecond := Int.emod_nonneg _ (by decide)
    have hm' : t'.time % microsPerSecond < 1000000 := Int.emod_lt_of_pos _ (by decide)
    unfold fractionChars
    generalize t.time % microsPerSecond = m at *
    generalize t'.time % microsPerSecond = m' at *
    rw [if_neg (show m' ≠ 0 by omega)]
    split
    · exact List.cons_lt_cons_iff.mpr (.inl hsign)
    · have hdigits := Digits.fixed_precedes (w := 6) (show m.toNat < m'.toNat by omega) (by omega)
      exact List.cons_lt_cons_iff.mpr (.inr ⟨rfl, hdigits.lt_append _ _⟩)
  rcases lt_trichotomy (t.time % microsPerSecond) (t'.time % microsPerSecond) with hlt | heq | hgt
  · exact iff_of_true (hprecedes hlt).le hlt.le
  · refine iff_of_true (le_of_eq ?_) heq.le
    rw [fractionChars, heq, fractionChars]
  · exact iff_of_false (not_le.mpr (hprecedes hgt)) (not_le.mpr hgt)

/-- **ISO texts written at one offset sort like wall clocks.** -/
theorem isoformat_le_iff_of_offset {t t' : DateTime} {o : Int} (h : t.InRange) (h' : t'.InRange)
    (ho : t.offset = some o) (ho' : t'.offset = some o) : t.isoformat ≤ t'.isoformat ↔ t.wall ≤ t'.wall := by
  rw [String.le_iff_toList_le, isoformat_toList, isoformat_toList, ho, ho']
  rcases lt_trichotomy t.seconds t'.seconds with hlt | heq | hgt
  · refine iff_of_true (le_of_lt ((secondText_precedes h h' hlt).lt_append _ _)) ?_
    simp only [seconds, microsPerSecond] at hlt
    omega
  · obtain ⟨sign, rest, hsuffix, hsign⟩ : ∃ sign rest, (offsetText (some o)).toList = sign :: rest ∧
        sign < '.' := by
      simp only [offsetText, String.toList_append]
      split
      · exact ⟨'-', _, rfl, by decide⟩
      · exact ⟨'+', _, rfl, by decide⟩
    rw [secondText_eq heq, append_le_append_iff, hsuffix, fraction_suffix_le_iff rest hsign]
    simp only [seconds, time, secondsPerDay, microsPerSecond] at *
    omega
  · refine iff_of_false (not_le.mpr ((secondText_precedes h' h hgt).lt_append _ _)) ?_
    simp only [seconds, microsPerSecond] at hgt
    omega

/-! ### Dates among timestamps -/

/-- `date.isoformat()`. -/
def dateText (days : Int) : String :=
  let (y, m, d) := civil days
  padded 4 y ++ "-" ++ padded 2 m ++ "-" ++ padded 2 d

/-- The midnight a date begins with. -/
def midnight (days : Int) : DateTime := ⟨days * (secondsPerDay * microsPerSecond), none⟩

theorem date_midnight (days : Int) : (midnight days).date = days := by
  simp only [midnight, date, secondsPerDay, microsPerSecond]
  omega

theorem dateText_toList {days : Int} (h : (midnight days).InRange) :
    (dateText days).toList = (midnight days).dateChars := by
  obtain ⟨hy, hy', hm, hm', hd, hd'⟩ := civil_bounds h
  rw [date_midnight] at hy hy' hm hm' hd hd'
  rw [dateText, dateChars, date_midnight]
  simp only [String.toList_append]
  rw [padded_toList (by omega) (show (civil days).1.toNat < 10 ^ 4 by omega),
    padded_toList (by omega) (show (civil days).2.1.toNat < 10 ^ 2 by omega),
    padded_toList (by omega) (show (civil days).2.2.toNat < 10 ^ 2 by omega)]
  rfl

/-- **A timestamp sorts after the dates that are not later than its own.** -/
theorem dateText_le_iff {days : Int} {t : DateTime} (h : (midnight days).InRange) (ht : t.InRange) :
    dateText days ≤ t.isoformat ↔ days ≤ t.date := by
  have hchars : t.isoformat.toList =
      t.dateChars ++ (['T'] ++ t.timeChars ++ (t.fractionChars ++ (offsetText t.offset).toList)) := by
    rw [isoformat_toList, secondText_toList ht]
    simp only [List.append_assoc]
  have hdays := date_midnight days
  rw [String.le_iff_toList_le, dateText_toList h, hchars]
  rcases lt_trichotomy days t.date with hlt | heq | hgt
  · refine iff_of_true ?_ hlt.le
    have hprecedes := dateChars_precede h ht (hdays.symm ▸ hlt)
    rw [← List.append_nil (midnight days).dateChars]
    exact (hprecedes.lt_append _ _).le
  · refine iff_of_true ?_ heq.le
    have hsame : (midnight days).dateChars = t.dateChars := by rw [dateChars, dateChars, hdays, heq]
    rw [hsame]
    exact not_lt.mp List.le_append_left
  · refine iff_of_false ?_ (not_le.mpr hgt)
    have hprecedes := dateChars_precede ht h (hdays.symm ▸ hgt)
    rw [not_le, ← List.append_nil (midnight days).dateChars]
    exact hprecedes.lt_append _ _

theorem lt_dateText_iff {days : Int} {t : DateTime} (h : (midnight days).InRange) (ht : t.InRange) :
    t.isoformat < dateText days ↔ t.date < days := by
  rw [← not_le, dateText_le_iff h ht, not_le]

end DateTime

end AutoTrader
