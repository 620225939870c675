/-
**Single values in JSON that can be read back.**

A text is written between quotes with its escapes, and a whole number by its numeral.  Both are read
back as they were, up to what follows them: behind a text the closing quote says where it ends,
behind a number the first character that no number can go on with.

Main definitions:

* `Testbench.Json.escaped` — a text up to its closing quote and beyond;
* `Testbench.Json.Stops` — what follows does not belong to a number.

Main results:

* `Testbench.Json.readQuoted_escaped` — **what is put between quotes is read back**;
* `Testbench.Json.readNumber_ofInt` — and so is a whole number.
-/

import Testbench.Json.Printer
import Testbench.Json.Reader

set_option relaxedAutoImplicit false
set_option autoImplicit false

namespace Testbench.Json

/-! ### Texts -/

theorem hexValue?_hexDigit : ∀ n < 16, Text.hexValue? (hexDigit n) = some n := by decide

/-- The four digits of a control character. -/
theorem hex4?_control {n : Nat} (h : n < 32) :
    hex4? '0' '0' (hexDigit (n / 16)) (hexDigit (n % 16)) = some n := by
  have hzero : Text.hexValue? '0' = some 0 := by decide
  have hhigh := hexValue?_hexDigit (n / 16) (by omega)
  have hlow := hexValue?_hexDigit (n % 16) (by omega)
  have hsum : 16 * (n / 16) + n % 16 = n := by omega
  simp [hex4?, Text.hexNumber?, hzero, hhigh, hlow, hsum]

/-- A character that is no control character is no part of an escape. -/
theorem escapeChar_eq (c : Char) :
    (∃ letter, escapeChar c = ['\\', letter] ∧ letter ≠ 'u' ∧ escapeLetter? letter = some c) ∨
      (c.toNat < 32 ∧ escapeChar c =
        ['\\', 'u', '0', '0', hexDigit (c.toNat / 16), hexDigit (c.toNat % 16)]) ∨
      (escapeChar c = [c] ∧ c ≠ '"' ∧ c ≠ '\\' ∧ 32 ≤ c.toNat) := by
  unfold escapeChar
  split
  · next h => exact Or.inl ⟨'"', rfl, by decide, by subst h; decide⟩
  split
  · next h => exact Or.inl ⟨'\\', rfl, by decide, by subst h; decide⟩
  split
  · next h => exact Or.inl ⟨'b', rfl, by decide, by subst h; decide⟩
  split
  · next h => exact Or.inl ⟨'f', rfl, by decide, by subst h; decide⟩
  split
  · next h => exact Or.inl ⟨'n', rfl, by decide, by subst h; decide⟩
  split
  · next h => exact Or.inl ⟨'r', rfl, by decide, by subst h; decide⟩
  split
  · next h => exact Or.inl ⟨'t', rfl, by decide, by subst h; decide⟩
  split
  · next h => exact Or.inr (Or.inl ⟨h, rfl⟩)
  · next hquote hslash _ _ _ _ _ hcontrol =>
      exact Or.inr (Or.inr ⟨rfl, hquote, hslash, by omega⟩)

/-- A text with its escapes, up to the closing quote and beyond. -/
def escaped (cs rest : List Char) : List Char := cs.flatMap escapeChar ++ '"' :: rest

theorem escaped_cons (c : Char) (cs rest : List Char) :
    escaped (c :: cs) rest = escapeChar c ++ escaped cs rest := by
  rw [escaped, List.flatMap_cons, List.append_assoc, escaped]

/-- A plain character is read as it is. -/
theorem readQuoted_plain {c : Char} (hquote : c ≠ '"') (hslash : c ≠ '\\') (hc : 32 ≤ c.toNat)
    (done rest : List Char) : readQuoted done (c :: rest) = readQuoted (c :: done) rest := by
  have hplain : ¬ c.toNat < 32 := by omega
  have hkept : (decide (c.toNat < 32) || decide (c = '\\')) = false := by simp [hplain, hslash]
  rw [readQuoted, hkept]
  · rfl
  all_goals simp_all

/-- An escape of one letter. -/
theorem readQuoted_letter {letter c : Char} (hu : letter ≠ 'u')
    (hletter : escapeLetter? letter = some c) (done rest : List Char) :
    readQuoted done ('\\' :: letter :: rest) = readQuoted (c :: done) rest := by
  rw [readQuoted] <;> simp_all

/-- What follows is no half of a character that cannot be read. -/
def HalvesReadable (cs : List Char) : Prop :=
  ∀ e f g h rest, cs = '\\' :: 'u' :: e :: f :: g :: h :: rest → (hex4? e f g h).isSome = true

/-- The escape of a control character.  It is no half of another character, so that it does not
matter whether one more such escape follows. -/
theorem readQuoted_control {c : Char} (hc : c.toNat < 32) {rest : List Char}
    (hrest : HalvesReadable rest) (done : List Char) :
    readQuoted done ('\\' :: 'u' :: '0' :: '0' ::
      hexDigit (c.toNat / 16) :: hexDigit (c.toNat % 16) :: rest) =
        readQuoted (c :: done) rest := by
  have hhex := hex4?_control hc
  have hscalar : Text.scalar? c.toNat = some c := by
    have hvalid : c.toNat.isValidChar := c.valid
    rw [Text.scalar?, if_pos hvalid, Char.ofNat_toNat]
  -- two escapes in a row are looked at together, since they may be the halves of one character
  by_cases hnext : ∃ e f g h more, rest = '\\' :: 'u' :: e :: f :: g :: h :: more
  · obtain ⟨e, f, g, h, more, rfl⟩ := hnext
    obtain ⟨low, hlow⟩ := Option.isSome_iff_exists.1 (hrest e f g h more rfl)
    have hpair : pair? c.toNat low = none := by
      rw [pair?, if_neg]
      omega
    rw [readQuoted, hhex, hlow]
    simp only [hpair, hscalar]
  · rw [readQuoted, hhex]
    · simp only [Option.bind_some, hscalar]
    · intro e f g h more hsame
      exact hnext ⟨e, f, g, h, more, hsame⟩

theorem halvesReadable_escaped (cs rest : List Char) : HalvesReadable (escaped cs rest) := by
  intro e f g h more hsame
  cases cs with
  | nil => cases hsame
  | cons c cs =>
      rw [escaped_cons] at hsame
      rcases escapeChar_eq c with ⟨letter, heq, hu, -⟩ | ⟨hc, heq⟩ | ⟨heq, -, hslash, -⟩
      · rw [heq] at hsame
        exact absurd (List.cons.inj (List.cons.inj hsame).2).1 hu
      · rw [heq] at hsame
        cases hsame
        rw [hex4?_control hc]
        rfl
      · rw [heq] at hsame
        exact absurd (List.cons.inj hsame).1 hslash

/-- **What is put between quotes is read back**, whatever it is. -/
theorem readQuoted_escaped (cs done rest : List Char) :
    readQuoted done (escaped cs rest) = some (done.reverse ++ cs, rest) := by
  induction cs generalizing done with
  | nil => exact congrArg (fun read => some (read, rest)) (List.append_nil _).symm
  | cons c cs ih =>
      have hstep : readQuoted done (escaped (c :: cs) rest) =
          readQuoted (c :: done) (escaped cs rest) := by
        rw [escaped_cons]
        rcases escapeChar_eq c with ⟨letter, heq, hu, hletter⟩ | ⟨hc, heq⟩ |
          ⟨heq, hquote, hslash, hc⟩
        · rw [heq]
          exact readQuoted_letter hu hletter done _
        · rw [heq]
          exact readQuoted_control hc (halvesReadable_escaped cs rest) done
        · rw [heq]
          exact readQuoted_plain hquote hslash hc done _
      rw [hstep, ih, List.reverse_cons, List.append_assoc]
      rfl

theorem quote_append (s : String) (rest : List Char) :
    quote s ++ rest = '"' :: escaped s.toList rest := by
  rw [quote, escaped, List.cons_append, List.append_assoc]
  rfl

/-! ### Numbers -/

/-- The character can stand in a number after its digits. -/
def continuesNumber (c : Char) : Bool := Decimal.isDigit c || c = '.' || c = 'e' || c = 'E'

/-- What follows a value does not belong to a number. -/
def Stops (rest : List Char) : Prop := ∀ c more, rest = c :: more → continuesNumber c = false

theorem stops_nil : Stops [] := nofun

theorem stops_cons {c : Char} (h : continuesNumber c = false) (more : List Char) :
    Stops (c :: more) := by
  rintro _ _ ⟨⟩
  exact h

theorem takeWhile_digits {ds rest : List Char} (hds : ds.all Decimal.isDigit = true)
    (hrest : Stops rest) : (ds ++ rest).takeWhile Decimal.isDigit = ds ∧
      (ds ++ rest).dropWhile Decimal.isDigit = rest := by
  have hall : ∀ c ∈ ds, Decimal.isDigit c = true := List.all_eq_true.1 hds
  have hnone : rest.takeWhile Decimal.isDigit = [] ∧ rest.dropWhile Decimal.isDigit = rest := by
    cases rest with
    | nil => exact ⟨rfl, rfl⟩
    | cons c more =>
        have hc := hrest c more rfl
        simp only [continuesNumber, Bool.or_eq_false_iff] at hc
        simp [hc.1.1.1]
  rw [List.takeWhile_append_of_pos hall, List.dropWhile_append_of_pos hall, hnone.1, hnone.2,
    List.append_nil]
  exact ⟨rfl, rfl⟩

/-- The digits of a number start with a zero only for zero itself. -/
theorem eq_zero_of_head?_digits {n : Nat} (h : (Decimal.digits n).head? = some '0') : n = 0 := by
  induction n using Decimal.digits.induct with
  | case1 n hn =>
      rw [Decimal.digits, if_pos hn] at h
      have hdigit : Decimal.digit n = '0' := Option.some.inj h
      have hvalue := Decimal.digit_toNat n
      rw [hdigit] at hvalue
      change 48 = _ at hvalue
      omega
  | case2 n hn ih =>
      rw [Decimal.digits, if_neg hn, List.head?_append] at h
      have hsome : (Decimal.digits (n / 10)).head?.isSome = true :=
        List.isSome_head?.2 (Decimal.digits_ne_nil _)
      rw [Option.or_of_isSome hsome] at h
      have hzero := ih h
      omega

/-- Without a point and without an exponent nothing follows the digits. -/
theorem readFraction_of_stops {rest : List Char} (h : Stops rest) :
    readFraction rest = some ([], rest) := by
  cases rest with
  | nil => rfl
  | cons c more =>
      have hc := h c more rfl
      simp only [continuesNumber, Bool.or_eq_false_iff, decide_eq_false_iff_not] at hc
      rw [readFraction]
      rintro _ ⟨⟩
      exact hc.1.1.2 rfl

theorem readExponent_of_stops {rest : List Char} (h : Stops rest) :
    readExponent rest = some ([], rest) := by
  cases rest with
  | nil => rfl
  | cons c more =>
      have hc := h c more rfl
      simp only [continuesNumber, Bool.or_eq_false_iff] at hc
      have hnone : (decide (c = 'e') || decide (c = 'E')) = false := by
        rw [hc.1.2, hc.2]
        rfl
      rw [readExponent, hnone]
      rfl

/-- The digits of a number are read as that number; a zero may have no minus sign. -/
theorem readUnsigned_digits (negative : Bool) {n : Nat} (hn : negative = true → n ≠ 0)
    {rest : List Char} (hrest : Stops rest) :
    readUnsigned negative (Decimal.digits n ++ rest) =
      some (.int (if negative then -(n : Int) else n), rest) := by
  obtain ⟨htake, hdrop⟩ := takeWhile_digits (Decimal.all_isDigit_digits n) hrest
  have hleading : ((Decimal.digits n).isEmpty || ((Decimal.digits n).head? = some '0' &&
      1 < (Decimal.digits n).length)) = false := by
    have hne : (Decimal.digits n).isEmpty = false := by
      simpa using Decimal.digits_ne_nil n
    rw [hne, Bool.false_or, Bool.and_eq_false_iff]
    by_cases hzero : n = 0
    · subst hzero
      have hone : Decimal.digits 0 = ['0'] := by
        rw [Decimal.digits, if_pos (by decide)]
        rfl
      rw [hone]
      exact Or.inr rfl
    · refine Or.inl (decide_eq_false fun hhead => hzero (eq_zero_of_head?_digits hhead))
  have hsign : (negative && decide (n = 0)) = false := by
    cases negative with
    | false => rfl
    | true => exact decide_eq_false (hn rfl)
  simp only [readUnsigned, htake, hdrop, hleading, readFraction_of_stops hrest,
    Decimal.value_digits, hsign, Bool.false_eq_true, if_false, Option.bind_eq_bind,
    Option.bind_some, readExponent_of_stops hrest]
  rfl

theorem digits_eq_cons (n : Nat) :
    ∃ c cs, Decimal.digits n = c :: cs ∧ Decimal.isDigit c = true := by
  have hall := Decimal.all_isDigit_digits n
  cases hds : Decimal.digits n with
  | nil => exact absurd hds (Decimal.digits_ne_nil n)
  | cons c cs =>
      rw [hds, List.all_cons, Bool.and_eq_true] at hall
      exact ⟨c, cs, rfl, hall.1⟩

/-- A numeral starts with a digit or a minus sign. -/
theorem toList_ofInt (n : Int) : ∃ c cs, (Decimal.ofInt n).toList = c :: cs ∧
    (Decimal.isDigit c = true ∨ c = '-') := by
  cases n with
  | ofNat n =>
      obtain ⟨c, cs, hds, hc⟩ := digits_eq_cons n
      exact ⟨c, cs, String.toList_ofList.trans hds, Or.inl hc⟩
  | negSucc n =>
      rw [Decimal.ofInt, String.toList_append]
      exact ⟨'-', _, rfl, Or.inr rfl⟩

/-- **A whole number is read back.** -/
theorem readNumber_ofInt (n : Int) {rest : List Char} (hrest : Stops rest) :
    readNumber ((Decimal.ofInt n).toList ++ rest) = some (.int n, rest) := by
  cases n with
  | ofNat n =>
      have htext : (Decimal.ofInt (.ofNat n)).toList = Decimal.digits n := String.toList_ofList
      obtain ⟨c, cs, hds, hc⟩ := digits_eq_cons n
      have hunsigned := readUnsigned_digits false (n := n) nofun hrest
      rw [htext]
      rw [hds, List.cons_append] at hunsigned ⊢
      rw [readNumber, hunsigned]
      · rfl
      · rintro _ ⟨⟩
        exact absurd hc (by decide)
  | negSucc n =>
      have htext : (Decimal.ofInt (.negSucc n)).toList = '-' :: Decimal.digits (n + 1) := by
        rw [Decimal.ofInt, String.toList_append, Decimal.ofNat]
        exact congrArg ('-' :: ·) String.toList_ofList
      rw [htext, List.cons_append, readNumber, readUnsigned_digits true (by omega) hrest]
      rfl

end Testbench.Json
