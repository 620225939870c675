/-
**Moments that can be read back.**

A moment is written in columns: every number of it has a width of its own, with zeros in front, and
the fraction of a second has as many places as it takes to lose nothing.  So every field is read
back as the number it was written from, and with them the moment.  That holds of the years from 0 to
9999; a leap second is written as the second 60.

Main definitions:

* `Testbench.Moment.Fits` — a time of the calendar in one of these years.

Main results:

* `Testbench.Decimal.length_padded`, `Testbench.Decimal.value_padded` — numbers of a fixed width;
* `Testbench.Moment.readFraction_fractionText` — no place of a fraction is lost;
* `Testbench.Moment.parse?_text` — **a moment is read back from its text**.
-/

import Mathlib.Algebra.Group.Nat.Defs
import Testbench.Time.Moment

set_option relaxedAutoImplicit false
set_option autoImplicit false

/-! ### Numbers of a fixed width -/

namespace Testbench.Decimal

/-- A number below a power of ten has no more digits than the power. -/
theorem length_digits_le {width n : Nat} (hwidth : 0 < width) (hn : n < 10 ^ width) :
    (digits n).length ≤ width := by
  induction n using digits.induct generalizing width with
  | case1 n h =>
      rw [digits, if_pos h]
      exact hwidth
  | case2 n h ih =>
      obtain ⟨width, rfl⟩ : ∃ w, width = w + 1 := ⟨width - 1, by omega⟩
      have hshort : n / 10 < 10 ^ width := by
        rw [Nat.pow_succ] at hn
        omega
      have hpositive : 0 < width := by
        rcases Nat.eq_zero_or_pos width with rfl | hpos
        · omega
        · exact hpos
      rw [digits, if_neg h, List.length_append]
      exact Nat.succ_le_succ (ih hpositive hshort)

/-- Zeros fill the width. -/
theorem length_padded {width n : Nat} (hwidth : 0 < width) (hn : n < 10 ^ width) :
    (padded width n).length = width := by
  have hle := length_digits_le hwidth hn
  rw [padded, List.length_append, List.length_replicate]
  omega

theorem all_isDigit_padded (width n : Nat) : (padded width n).all isDigit = true := by
  rw [padded, List.all_append, all_isDigit_digits, Bool.and_true, List.all_replicate]
  simp [isDigit]

/-- Zeros in front do not count. -/
theorem value_padded (width n : Nat) : value (padded width n) = n := by
  have hzeros : ∀ k : Nat, value (List.replicate k '0' ++ digits n) = value (digits n) := by
    intro k
    induction k with
    | zero => rfl
    | succ k ih =>
        rw [List.replicate_succ, List.cons_append]
        exact ih
  rw [padded, hzeros, value_digits]

/-- Something is written, and it starts with a digit. -/
theorem padded_eq_cons (width n : Nat) :
    ∃ c cs, padded width n = c :: cs ∧ isDigit c = true := by
  have hall := all_isDigit_padded width n
  cases hpadded : padded width n with
  | nil => exact absurd (List.append_eq_nil_iff.1 hpadded).2 (digits_ne_nil n)
  | cons c cs =>
      rw [hpadded, List.all_cons, Bool.and_eq_true] at hall
      exact ⟨c, cs, rfl, hall.1⟩

theorem isEmpty_padded (width n : Nat) : (padded width n).isEmpty = false := by
  obtain ⟨c, cs, hcs, -⟩ := padded_eq_cons width n
  rw [hcs, List.isEmpty_cons]

/-- Of the first `k` characters the digits are those of the number, if no more follow. -/
theorem takeWhile_take_padded {width n k : Nat} (hwidth : 0 < width) (hn : n < 10 ^ width)
    (hk : width ≤ k) {rest : List Char} (hrest : (rest.take (k - width)).takeWhile isDigit = []) :
    ((padded width n ++ rest).take k).takeWhile isDigit = padded width n := by
  have hlength := length_padded hwidth hn
  have hall := List.all_eq_true.1 (all_isDigit_padded width n)
  rw [List.take_append, List.take_of_length_le (by omega), hlength,
    List.takeWhile_append_of_pos hall, hrest, List.append_nil]

end Testbench.Decimal

namespace Testbench.Moment

/-! ### Fields -/

/-- A digit is not blank. -/
theorem isBlankChar_of_isDigit {c : Char} (h : Decimal.isDigit c = true) :
    Text.isBlankChar c = false := by
  simp only [Decimal.isDigit, Bool.and_eq_true, decide_eq_true_eq] at h
  simp only [Text.isBlankChar, Text.blankRanges, List.any_cons, List.any_nil, Bool.or_false,
    Bool.or_eq_false_iff, Bool.and_eq_false_iff, decide_eq_false_iff_not]
  omega

theorem skipBlanks_cons {c : Char} (h : Text.isBlankChar c = false) (cs : List Char) :
    skipBlanks (c :: cs) = c :: cs :=
  List.dropWhile_cons_of_neg (by simp [h])

/-- There is no blank in front of a number. -/
theorem skipBlanks_padded (width n : Nat) (rest : List Char) :
    skipBlanks (Decimal.padded width n ++ rest) = Decimal.padded width n ++ rest := by
  obtain ⟨c, cs, hcs, hc⟩ := Decimal.padded_eq_cons width n
  rw [hcs, List.cons_append, skipBlanks_cons (isBlankChar_of_isDigit hc)]

/-- The digits of a number of a fixed width, whatever follows them. -/
theorem readNumber_padded {width n : Nat} (hwidth : 0 < width) (hn : n < 10 ^ width)
    (rest : List Char) : readNumber width (Decimal.padded width n ++ rest) = some (n, rest) := by
  have htake : ((Decimal.padded width n ++ rest).take width).takeWhile Decimal.isDigit =
      Decimal.padded width n :=
    Decimal.takeWhile_take_padded hwidth hn (Nat.le_refl width) (by rw [Nat.sub_self]; rfl)
  simp only [readNumber, htake, Decimal.isEmpty_padded, Decimal.value_padded, Bool.false_eq_true,
    if_false, List.drop_left]

theorem readField_padded {width n : Nat} (hwidth : 0 < width) (hn : n < 10 ^ width)
    (rest : List Char) : readField width (Decimal.padded width n ++ rest) = some (n, rest) := by
  rw [readField, skipBlanks_padded, readNumber_padded hwidth hn]

/-- A number of two digits. -/
theorem readField_pair {n : Nat} (h : n < 100) (rest : List Char) :
    readField 2 (Decimal.padded 2 n ++ rest) = some (n, rest) :=
  readField_padded (by decide) h rest

/-- A year of up to four digits has no sign. -/
theorem readYear_yearText {year : Int} (h0 : 0 ≤ year) (h9 : year ≤ 9999) (rest : List Char) :
    readYear (Date.yearText year ++ rest) = some (year, rest) := by
  have hbelow : year.toNat < 10 ^ 4 := by omega
  have hback : (year.toNat : Int) = year := Int.toNat_of_nonneg h0
  have hnumber := readNumber_padded (by decide) hbelow rest
  obtain ⟨c, cs, hcs, hc⟩ := Decimal.padded_eq_cons 4 year.toNat
  rw [Date.yearText, if_pos ⟨h0, h9⟩, readYear, skipBlanks_padded]
  rw [hcs, List.cons_append] at hnumber ⊢
  split
  · next heq =>
      cases heq
      exact absurd hc (by decide)
  · next heq =>
      cases heq
      exact absurd hc (by decide)
  · rw [hnumber]
    exact congrArg (fun y => some (y, rest)) hback

/-- A mark that is no blank. -/
theorem readMark_cons {mark : Char} (h : Text.isBlankChar mark = false) (rest : List Char) :
    readMark mark (mark :: rest) = some rest := by
  rw [readMark, skipBlanks_cons h]
  exact if_pos rfl

/-! ### Fractions -/

/-- Places up to the ninth count as nanoseconds. -/
theorem readFraction_padded {width n : Nat} (hwidth : 0 < width) (hnine : width ≤ 9)
    (hn : n < 10 ^ width) :
    readFraction ('.' :: (Decimal.padded width n ++ ['Z'])) =
      some (n * 10 ^ (9 - width), ['Z']) := by
  have htake : ((Decimal.padded width n ++ ['Z']).take 9).takeWhile Decimal.isDigit =
      Decimal.padded width n :=
    Decimal.takeWhile_take_padded hwidth hn hnine (by cases 9 - width <;> rfl)
  have hdrop : (Decimal.padded width n ++ ['Z']).dropWhile Decimal.isDigit = ['Z'] :=
    List.dropWhile_append_of_pos (List.all_eq_true.1 (Decimal.all_isDigit_padded width n))
  simp only [readFraction, htake, hdrop, Decimal.isEmpty_padded, Decimal.value_padded,
    Decimal.length_padded hwidth hn, Bool.false_eq_true, if_false, Nat.pow_eq]

/-- **No place of a fraction is lost.** -/
theorem readFraction_fractionText {ns : Nat} (h : ns < 1000000000) :
    readFraction (fractionText ns ++ ['Z']) = some (ns, ['Z']) := by
  unfold fractionText
  split
  · next hzero =>
      subst hzero
      rfl
  split
  · next hmillis =>
      rw [List.cons_append, readFraction_padded (by decide) (by decide) (by omega)]
      exact congrArg (fun n => some (n, ['Z'])) (by omega)
  split
  · next hmicros =>
      rw [List.cons_append, readFraction_padded (by decide) (by decide) (by omega)]
      exact congrArg (fun n => some (n, ['Z'])) (by omega)
  · rw [List.cons_append, readFraction_padded (by decide) (by decide) h]
    exact congrArg (fun n => some (n, ['Z'])) (by omega)

/-! ### Moments -/

/-- A time of the calendar in a year of up to four digits.  Only the last second of a minute can be
a leap second. -/
structure Fits (m : Moment) : Prop where
  date : m.date.isValid = true
  year : 0 ≤ m.date.year ∧ m.date.year ≤ 9999
  hour : m.hour ≤ 23
  minute : m.minute ≤ 59
  second : m.second ≤ 59
  nanosecond : m.nanosecond < 1000000000 ∨ (m.second = 59 ∧ m.nanosecond < 2000000000)

/-- The clock of universal time is neither ahead nor behind. -/
theorem ofLocal_zero {m : Moment} (h : m.Fits) :
    ofLocal m.date m.hour m.minute m.second m.nanosecond 0 = m := by
  obtain ⟨date, hour, minute, second, nanosecond⟩ := m
  obtain ⟨-, -, hhour, hminute, hsecond, -⟩ := h
  simp only at hhour hminute hsecond
  have hpositive : ¬ ((hour : Int) * 3600 + minute * 60 + second - 0 < 0) := by omega
  have hday : ¬ (86400 ≤ (hour : Int) * 3600 + minute * 60 + second - 0) := by omega
  simp only [ofLocal, if_neg hpositive, if_neg hday, Moment.mk.injEq, true_and, and_true]
  omega

theorem Fits.isInRange {m : Moment} (h : m.Fits) : m.date.isInRange = true := by
  have hyear := h.year
  have hfirst : Date.firstYear ≤ m.date.year := Int.le_trans (by decide) hyear.1
  have hlast : m.date.year ≤ Date.lastYear := Int.le_trans hyear.2 (by decide)
  rw [Date.isInRange, decide_eq_true hfirst, decide_eq_true hlast]
  rfl

/-- The number of a month and that of a day have two digits. -/
theorem Fits.month_day_lt {m : Moment} (h : m.Fits) : m.date.month < 100 ∧ m.date.day < 100 := by
  have hvalid := h.date
  simp only [Date.isValid, Bool.and_eq_true, decide_eq_true_eq] at hvalid
  have hdays : Date.daysIn m.date.year m.date.month ≤ 31 := by
    unfold Date.daysIn
    split
    · split <;> decide
    · split <;> decide
  omega

/-- The columns of a text.  The second and the fraction as they are written tell a leap second from
any other. -/
theorem Fits.columns {m : Moment} (h : m.Fits) : ∃ second fraction,
    m.text.toList = Date.yearText m.date.year ++ '-' ::
      (Decimal.padded 2 m.date.month ++ '-' :: (Decimal.padded 2 m.date.day ++ 'T' ::
        (Decimal.padded 2 m.hour ++ ':' :: (Decimal.padded 2 m.minute ++ ':' ::
          (Decimal.padded 2 second ++ (fractionText fraction ++ ['Z'])))))) ∧
      second ≤ 60 ∧ fraction < 1000000000 ∧ (if second = 60 then 59 else second) = m.second ∧
      (if second = 60 then fraction + 1000000000 else fraction) = m.nanosecond := by
  refine ⟨if 1000000000 ≤ m.nanosecond then m.second + 1 else m.second,
    if 1000000000 ≤ m.nanosecond then m.nanosecond - 1000000000 else m.nanosecond, ?_, ?_⟩
  · rw [text, String.toList_ofList, timeText, Date.text]
    simp only [List.append_assoc, List.cons_append]
  · have hsecond := h.second
    by_cases hleap : 1000000000 ≤ m.nanosecond
    · obtain ⟨hlast, hhigh⟩ : m.second = 59 ∧ m.nanosecond < 2000000000 :=
        h.nanosecond.resolve_left (by omega)
      simp only [if_pos hleap, hlast, if_true]
      exact ⟨by decide, by omega, trivial, by omega⟩
    · have hordinary : m.second ≠ 60 := by omega
      simp only [if_neg hleap, if_neg hordinary]
      exact ⟨by omega, by omega, trivial, trivial⟩

/-- **A moment is read back from its text.** -/
theorem parse?_text {m : Moment} (h : m.Fits) : parse? m.text = some m := by
  obtain ⟨second, fraction, htext, hsecond, hfraction, hback, hnanosecond⟩ := h.columns
  obtain ⟨hmonth, hday⟩ := h.month_day_lt
  have hhour := h.hour
  have hminute := h.minute
  have hdash : Text.isBlankChar '-' = false := by decide
  have hcolon : Text.isBlankChar ':' = false := by decide
  have hoffset : readOffset (skipBlanks ['Z']) = some (0, []) := by decide
  have hcalendar : ¬ (!(skipBlanks []).isEmpty || !m.date.isValid || !m.date.isInRange) = true := by
    rw [h.date, h.isInRange]
    exact Bool.false_ne_true
  have hclock : ¬ (decide (23 < m.hour) || decide (59 < m.minute) || decide (60 < second)) =
      true := by
    simp only [Bool.or_eq_true, decide_eq_true_eq]
    omega
  have hlocal : ofLocal m.date m.hour m.minute (if second = 60 then 59 else second)
      (if second = 60 then fraction + 1000000000 else fraction) 0 = m := by
    rw [hback, hnanosecond]
    exact ofLocal_zero h
  -- one step for each column
  rw [parse?, htext]
  refine Option.bind_eq_some_iff.2 ⟨_, readYear_yearText h.year.1 h.year.2 _, ?_⟩
  refine Option.bind_eq_some_iff.2 ⟨_, readMark_cons hdash _, ?_⟩
  refine Option.bind_eq_some_iff.2 ⟨_, readField_pair hmonth _, ?_⟩
  refine Option.bind_eq_some_iff.2 ⟨_, readMark_cons hdash _, ?_⟩
  refine Option.bind_eq_some_iff.2 ⟨_, readField_pair hday _, ?_⟩
  refine Option.bind_eq_some_iff.2 ⟨_, rfl, ?_⟩
  refine Option.bind_eq_some_iff.2 ⟨_, readField_pair (show m.hour < 100 by omega) _, ?_⟩
  refine Option.bind_eq_some_iff.2 ⟨_, readMark_cons hcolon _, ?_⟩
  refine Option.bind_eq_some_iff.2 ⟨_, readField_pair (show m.minute < 100 by omega) _, ?_⟩
  refine Option.bind_eq_some_iff.2 ⟨_, readMark_cons hcolon _, ?_⟩
  refine Option.bind_eq_some_iff.2 ⟨_, readField_pair (show second < 100 by omega) _, ?_⟩
  refine Option.bind_eq_some_iff.2 ⟨_, readFraction_fractionText hfraction, ?_⟩
  refine Option.bind_eq_some_iff.2 ⟨_, hoffset, ?_⟩
  -- the day is one of the calendar, the time one of the clock, and there is no offset
  refine (if_neg hcalendar).trans ?_
  refine (if_neg hclock).trans ?_
  refine (if_neg (by decide)).trans ?_
  refine Eq.trans (if_pos ?_) (congrArg some hlocal)
  rw [hlocal]
  exact h.isInRange

end Testbench.Moment
