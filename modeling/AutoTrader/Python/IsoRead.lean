/-
  AutoTrader/Python/IsoRead.lean
  ==============================
  **What `isoformat` writes, `fromisoformat` reads back.**

  The fields of a text stand at fixed positions, so each is read by its digits.  A date
  is found again from its year, month and day (`dayNumber_civil`), and so is the whole
  `datetime`, with its fraction of a second and its offset (`fromisoformat?_isoformat`).

  `fromisoformat` itself reads more texts than these (other separators, shorter times,
  basic formats).  What it makes of them is a parameter of `readIso`.
-/
import AutoTrader.Python.IsoOrder

namespace AutoTrader

namespace DateTime

/-! ### Dates -/

/-- The day of the year and the month decide each other. -/
theorem month_day {doy : Int} (h0 : 0 ≤ doy) (h1 : doy ≤ 365) :
    (monthOf doy + 9) % 12 = (5 * doy + 2) / 153 ∧
    (153 * ((5 * doy + 2) / 153) + 2) / 5 + dayOf doy - 1 = doy := by
  unfold monthOf dayOf
  split <;> omega

theorem dayNumber_civil (days : Int) :
    dayNumber (civil days).1 (civil days).2.1 (civil days).2.2 = days := by
  obtain ⟨y, h0, h1, hstart, hstop⟩ := exists_yearOf days
  obtain ⟨-, hlength⟩ := yearStart_le_stop h0 h1
  rw [civil_eq h0 h1 hstart hstop]
  obtain ⟨doy, hdoy⟩ : ∃ doy, doy = (days + 719468) % 146097 - yearStart y := ⟨_, rfl⟩
  rw [← hdoy]
  obtain ⟨hmonth, hday⟩ := month_day (show 0 ≤ doy by omega) (show doy ≤ 365 by omega)
  have hyear : (if monthOf doy ≤ 2 then
      y + (days + 719468) / 146097 * 400 + (if monthOf doy ≤ 2 then 1 else 0) - 1
      else y + (days + 719468) / 146097 * 400 + (if monthOf doy ≤ 2 then 1 else 0)) =
      y + (days + 719468) / 146097 * 400 := by
    split <;> omega
  have hera : (y + (days + 719468) / 146097 * 400) / 400 = (days + 719468) / 146097 ∧
      (y + (days + 719468) / 146097 * 400) % 400 = y := by
    omega
  unfold dayNumber
  dsimp only
  rw [hyear, hmonth, hday, hera.1, hera.2, hdoy, yearStart]
  omega

/-! ### Digits at their positions -/

theorem digitsAt_eq {text : List Char} {start width n : Nat} (front back : List Char)
    (htext : text = front ++ (Digits.fixed width n ++ back)) (hn : n < 10 ^ width)
    (hstart : front.length = start) : digitsAt text start width = n := by
  subst htext hstart
  rw [digitsAt, List.drop_left, List.take_left' (Digits.length_fixed width n), Digits.foldl_fixed hn]
  simp

theorem digitsAt_of_length_le {text : List Char} {start : Nat} (h : text.length ≤ start) (width : Nat) :
    digitsAt text start width = 0 := by
  rw [digitsAt, List.drop_eq_nil_of_le h, List.take_nil]
  rfl

/-- A clock or an offset as one number. -/
theorem clock_eq {n : Int} (h : 0 ≤ n) :
    ((n / 3600).toNat : Int) * 3600 + ((n / 60 % 60).toNat : Int) * 60 + ((n % 60).toNat : Int) = n := by
  omega

/-! ### The whole text -/

/-- An offset that `timezone` accepts: less than a day. -/
def OffsetInRange (t : DateTime) : Prop := ∀ o ∈ t.offset, -secondsPerDay < o ∧ o < secondsPerDay

instance (t : DateTime) : Decidable t.OffsetInRange :=
  inferInstanceAs (Decidable (∀ o ∈ t.offset, -secondsPerDay < o ∧ o < secondsPerDay))

/-- The offset of a text is read back. -/
theorem offset_read {o : Int} (h : -secondsPerDay < o ∧ o < secondsPerDay) :
    ∃ sign rest, (offsetText (some o)).toList = sign :: rest ∧ sign ≠ '.' ∧
      (if sign = '-' then
        -(digitsAt (sign :: rest) 1 2 * 3600 + digitsAt (sign :: rest) 4 2 * 60 + digitsAt (sign :: rest) 7 2)
      else digitsAt (sign :: rest) 1 2 * 3600 + digitsAt (sign :: rest) 4 2 * 60 +
        digitsAt (sign :: rest) 7 2) = o := by
  simp only [secondsPerDay] at h
  obtain ⟨a, ha⟩ : ∃ a : Int, a = if o < 0 then -o else o := ⟨_, rfl⟩
  obtain ⟨sign, hsign⟩ : ∃ sign : Char, sign = if o < 0 then '-' else '+' := ⟨_, rfl⟩
  obtain ⟨tail, htail⟩ : ∃ tail : List Char, tail =
      if a % 60 = 0 then [] else ':' :: Digits.fixed 2 (a % 60).toNat := ⟨_, rfl⟩
  have ha0 : 0 ≤ a := by rw [ha]; split <;> omega
  have hadd : a < 86400 := by rw [ha]; split <;> omega
  have htext : (offsetText (some o)).toList = sign :: (Digits.fixed 2 (a / 3600).toNat ++ ':' ::
      (Digits.fixed 2 (a / 60 % 60).toNat ++ tail)) := by
    simp only [offsetText, ← ha, String.toList_append, List.append_assoc]
    rw [padded_toList (by omega) (show (a / 3600).toNat < 10 ^ 2 by omega),
      padded_toList (by omega) (show (a / 60 % 60).toNat < 10 ^ 2 by omega)]
    have hfirst : (if o < 0 then "-" else "+").toList = [sign] := by
      rw [hsign]
      split <;> rfl
    have hlast : (if a % 60 = 0 then "" else ":" ++ padded 2 (a % 60)).toList = tail := by
      rw [htail]
      split
      · rfl
      · rw [String.toList_append, padded_toList (by omega) (show (a % 60).toNat < 10 ^ 2 by omega)]
        rfl
    rw [hfirst, hlast]
    rfl
  have hhours : digitsAt (offsetText (some o)).toList 1 2 = (a / 3600).toNat :=
    digitsAt_eq [sign] _ htext (by omega) rfl
  have hminutes : digitsAt (offsetText (some o)).toList 4 2 = (a / 60 % 60).toNat :=
    digitsAt_eq (sign :: (Digits.fixed 2 (a / 3600).toNat ++ [':'])) tail (by rw [htext]; simp) (by omega) (by simp)
  have hseconds : digitsAt (offsetText (some o)).toList 7 2 = (a % 60).toNat := by
    rw [htext, htail]
    split
    next hwhole =>
      rw [digitsAt_of_length_le (by simp), hwhole]
      rfl
    next =>
      exact digitsAt_eq (sign :: (Digits.fixed 2 (a / 3600).toNat ++ ':' ::
        (Digits.fixed 2 (a / 60 % 60).toNat ++ [':']))) [] (by simp) (by omega) (by simp)
  refine ⟨sign, _, htext, ?_, ?_⟩
  · rw [hsign]
    split <;> decide
  · rw [← htext, hhours, hminutes, hseconds, clock_eq ha0, hsign, ha]
    split <;> simp

/-- The first nineteen letters, one field after the other. -/
def fieldChars (year month day hour minute second : Nat) (back : List Char) : List Char :=
  Digits.fixed 4 year ++ '-' :: (Digits.fixed 2 month ++ '-' :: (Digits.fixed 2 day ++ 'T' ::
    (Digits.fixed 2 hour ++ ':' :: (Digits.fixed 2 minute ++ ':' :: (Digits.fixed 2 second ++ back)))))

theorem isoformat_fields {t : DateTime} (h : t.InRange) :
    t.isoformat.toList = fieldChars (civil t.date).1.toNat (civil t.date).2.1.toNat (civil t.date).2.2.toNat
      (t.time / microsPerSecond / 3600).toNat (t.time / microsPerSecond / 60 % 60).toNat
      (t.time / microsPerSecond % 60).toNat (t.fractionChars ++ (offsetText t.offset).toList) := by
  rw [isoformat_toList, secondText_toList h, dateChars, timeChars, fieldChars]
  simp only [List.append_assoc, List.cons_append, List.nil_append]

section Fields

variable {year month day hour minute second : Nat} (back : List Char)

theorem drop_fieldChars : (fieldChars year month day hour minute second back).drop 19 = back := by
  have hsplit : fieldChars year month day hour minute second back =
      (fieldChars year month day hour minute second []) ++ back := by
    simp [fieldChars]
  rw [hsplit]
  exact List.drop_left' (by simp [fieldChars])

theorem date_read (hyear : year < 10000) (hmonth : month < 100) (hday : day < 100) :
    digitsAt (fieldChars year month day hour minute second back) 0 4 = year ∧
    digitsAt (fieldChars year month day hour minute second back) 5 2 = month ∧
    digitsAt (fieldChars year month day hour minute second back) 8 2 = day := by
  refine ⟨digitsAt_eq [] _ rfl hyear rfl, ?_, ?_⟩
  · exact digitsAt_eq (Digits.fixed 4 year ++ ['-']) _ (by simp only [fieldChars, List.append_assoc]; rfl) hmonth
      (by simp)
  · exact digitsAt_eq (Digits.fixed 4 year ++ '-' :: (Digits.fixed 2 month ++ ['-'])) _
      (by simp only [fieldChars, List.append_assoc, List.cons_append]; rfl) hday (by simp)

theorem clock_read (hhour : hour < 100) (hminute : minute < 100) (hsecond : second < 100) :
    digitsAt (fieldChars year month day hour minute second back) 11 2 = hour ∧
    digitsAt (fieldChars year month day hour minute second back) 14 2 = minute ∧
    digitsAt (fieldChars year month day hour minute second back) 17 2 = second := by
  refine ⟨?_, ?_, ?_⟩
  · exact digitsAt_eq (Digits.fixed 4 year ++ '-' :: (Digits.fixed 2 month ++ '-' :: (Digits.fixed 2 day ++ ['T']))) _
      (by simp only [fieldChars, List.append_assoc, List.cons_append]; rfl) hhour (by simp)
  · exact digitsAt_eq (Digits.fixed 4 year ++ '-' :: (Digits.fixed 2 month ++ '-' :: (Digits.fixed 2 day ++ 'T' ::
      (Digits.fixed 2 hour ++ [':'])))) _
      (by simp only [fieldChars, List.append_assoc, List.cons_append]; rfl) hminute (by simp)
  · exact digitsAt_eq (Digits.fixed 4 year ++ '-' :: (Digits.fixed 2 month ++ '-' :: (Digits.fixed 2 day ++ 'T' ::
      (Digits.fixed 2 hour ++ ':' :: (Digits.fixed 2 minute ++ [':']))))) _
      (by simp only [fieldChars, List.append_assoc, List.cons_append]; rfl) hsecond (by simp)

end Fields

/-- The fraction of a second, and what follows it. -/
def fractionOf (rest : List Char) : Int × List Char :=
  match rest with
  | '.' :: _ => (digitsAt rest 1 6, rest.drop 7)
  | _ => (0, rest)

theorem fractionOf_append (t : DateTime) {zone : List Char} (hzone : ∀ rest, zone ≠ '.' :: rest) :
    fractionOf (t.fractionChars ++ zone) = (t.time % microsPerSecond, zone) := by
  have hmicros : 0 ≤ t.time % microsPerSecond ∧ t.time % microsPerSecond < 1000000 := by
    simp only [microsPerSecond]
    omega
  by_cases hwhole : t.time % microsPerSecond = 0
  · rw [fractionChars, if_pos hwhole, hwhole, List.nil_append]
    unfold fractionOf
    split
    next rest => exact absurd rfl (hzone rest)
    next => rfl
  · have hdigits : digitsAt ('.' :: (Digits.fixed 6 (t.time % microsPerSecond).toNat ++ zone)) 1 6 =
        (t.time % microsPerSecond).toNat :=
      digitsAt_eq ['.'] zone rfl (by omega) rfl
    have hdrop : ('.' :: (Digits.fixed 6 (t.time % microsPerSecond).toNat ++ zone)).drop 7 = zone :=
      List.drop_left' (Digits.length_fixed 6 _)
    have hread : fractionOf ('.' :: (Digits.fixed 6 (t.time % microsPerSecond).toNat ++ zone)) =
        (digitsAt ('.' :: (Digits.fixed 6 (t.time % microsPerSecond).toNat ++ zone)) 1 6,
          ('.' :: (Digits.fixed 6 (t.time % microsPerSecond).toNat ++ zone)).drop 7) := rfl
    rw [fractionChars, if_neg hwhole, List.cons_append, hread, hdigits, hdrop, Int.toNat_of_nonneg hmicros.1]

/-- The offset of a text that ends after the fraction, or goes on with a sign. -/
def offsetOf (zone : List Char) : Option Int :=
  match zone with
  | [] => none
  | sign :: _ =>
    let seconds := digitsAt zone 1 2 * 3600 + digitsAt zone 4 2 * 60 + digitsAt zone 7 2
    some (if sign = '-' then -seconds else seconds)

theorem readFields_eq (text : List Char) :
    readFields text =
      ⟨(dayNumber (digitsAt text 0 4) (digitsAt text 5 2) (digitsAt text 8 2) * secondsPerDay +
          (digitsAt text 11 2 * 3600 + digitsAt text 14 2 * 60 + digitsAt text 17 2)) * microsPerSecond +
          (fractionOf (text.drop 19)).1,
        offsetOf (fractionOf (text.drop 19)).2⟩ := rfl

theorem offsetOf_offsetText {t : DateTime} (h : t.OffsetInRange) :
    offsetOf (offsetText t.offset).toList = t.offset ∧ ∀ rest, (offsetText t.offset).toList ≠ '.' :: rest := by
  cases hoffset : t.offset with
  | none => exact ⟨rfl, by simp [offsetText]⟩
  | some o =>
    obtain ⟨sign, back, hsign, hdot, hvalue⟩ := offset_read (h o hoffset)
    rw [hsign]
    exact ⟨congrArg some hvalue, by simp [hdot]⟩

theorem readFields_isoformat {t : DateTime} (h : t.InRange) (ho : t.OffsetInRange) :
    readFields t.isoformat.toList = t := by
  obtain ⟨hy, hy', hm, hm', hd, hd'⟩ := civil_bounds h
  obtain ⟨hs, hs'⟩ := t.time_bounds
  obtain ⟨hoffset, hnot⟩ := offsetOf_offsetText ho
  obtain ⟨back, hback⟩ : ∃ back, back = t.fractionChars ++ (offsetText t.offset).toList := ⟨_, rfl⟩
  have htext := isoformat_fields h
  rw [← hback] at htext
  obtain ⟨hyear, hmonth, hday⟩ : digitsAt t.isoformat.toList 0 4 = (civil t.date).1.toNat ∧
      digitsAt t.isoformat.toList 5 2 = (civil t.date).2.1.toNat ∧
      digitsAt t.isoformat.toList 8 2 = (civil t.date).2.2.toNat := by
    rw [htext]
    exact date_read back (by omega) (by omega) (by omega)
  obtain ⟨hhour, hminute, hsecond⟩ : digitsAt t.isoformat.toList 11 2 = (t.time / microsPerSecond / 3600).toNat ∧
      digitsAt t.isoformat.toList 14 2 = (t.time / microsPerSecond / 60 % 60).toNat ∧
      digitsAt t.isoformat.toList 17 2 = (t.time / microsPerSecond % 60).toNat := by
    rw [htext]
    exact clock_read back (by omega) (by omega) (by omega)
  have hwall : (t.date * secondsPerDay + t.time / microsPerSecond) * microsPerSecond +
      t.time % microsPerSecond = t.wall := by
    simp only [date, time, secondsPerDay, microsPerSecond]
    omega
  have hdrop : t.isoformat.toList.drop 19 = t.fractionChars ++ (offsetText t.offset).toList := by
    rw [htext, drop_fieldChars, hback]
  rw [readFields_eq, hdrop, fractionOf_append t hnot, hyear, hmonth, hday, hhour, hminute, hsecond, clock_eq hs,
    Int.toNat_of_nonneg hy, Int.toNat_of_nonneg (by omega), Int.toNat_of_nonneg (by omega), dayNumber_civil,
    hwall, hoffset]

/-- **`isoformat` is read back**, naive or aware. -/
theorem fromisoformat?_isoformat {t : DateTime} (h : t.InRange) (ho : t.OffsetInRange) :
    fromisoformat? t.isoformat = some t := by
  unfold fromisoformat?
  rw [readFields_isoformat h ho]
  exact if_pos rfl

/-- `fromisoformat(text)`: the texts of `isoformat` are read exactly, and `otherFormats`
    says what becomes of any other; `none` is the `ValueError`. -/
def readIso (otherFormats : String → Option DateTime) (text : String) : Option DateTime :=
  match fromisoformat? text with
  | some t => if t.InRange ∧ t.OffsetInRange then some t else otherFormats text
  | none => otherFormats text

theorem readIso_isoformat (otherFormats : String → Option DateTime) {t : DateTime} (h : t.InRange)
    (ho : t.OffsetInRange) : readIso otherFormats t.isoformat = some t := by
  rw [readIso, fromisoformat?_isoformat h ho]
  exact if_pos ⟨h, ho⟩

/-- No letter of a text in UTC is the `Z` that other formats write for it. -/
theorem z_notMem_isoformat {t : DateTime} (h : t.InRange) (hutc : t.offset = some 0) :
    'Z' ∉ t.isoformat.toList := by
  have hdigit : ∀ width n, 'Z' ∉ Digits.fixed width n := by
    intro width n hmem
    obtain ⟨d, hd, heq⟩ := Digits.mem_fixed hmem
    have hall : ∀ d < 10, 'Z' ≠ d.digitChar := by decide
    exact hall d hd heq
  have hfraction : 'Z' ∉ t.fractionChars := by
    unfold fractionChars
    split
    · simp
    · simp [hdigit]
  have hoffset : 'Z' ∉ (offsetText (some 0)).toList := by decide
  rw [isoformat_fields h, hutc]
  simp [fieldChars, hdigit, hfraction, hoffset]

end DateTime

end AutoTrader
