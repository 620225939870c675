/-
**Decimal numerals.**

Counters and exit codes are written in base ten, and numbers are read back from the digits alone:
a numeral is a nonempty run of ASCII digits, of any length and with any number of leading zeros.

Main definitions:

* `Testbench.Decimal.digits`, `Testbench.Decimal.ofNat`, `Testbench.Decimal.ofInt` — writing;
* `Testbench.Decimal.value`, `Testbench.Decimal.value?` — reading;
* `Testbench.Decimal.padded` — writing on a fixed width with zeros in front.

Main results:

* `Testbench.Decimal.value_digits` — reading what was written gives the number back.
-/

set_option relaxedAutoImplicit false
set_option autoImplicit false

namespace Testbench.Decimal

/-! ### Digits -/

/-- The decimal digit with the value `n % 10`. -/
def digit (n : Nat) : Char := Char.ofNat (48 + n % 10)

/-- The value of a decimal digit. -/
def digitValue (c : Char) : Nat := c.toNat - 48

/-- The characters `0` to `9`. -/
def isDigit (c : Char) : Bool := 48 ≤ c.toNat && c.toNat ≤ 57

theorem digit_toNat (n : Nat) : (digit n).toNat = 48 + n % 10 := by
  have h : n % 10 < 10 := Nat.mod_lt _ (by decide)
  have hv : (48 + n % 10).isValidChar := Or.inl (by omega)
  rw [digit, Char.ofNat, dif_pos hv]
  rfl

theorem digitValue_digit (n : Nat) : digitValue (digit n) = n % 10 := by
  rw [digitValue, digit_toNat]; omega

theorem isDigit_digit (n : Nat) : isDigit (digit n) = true := by
  have h := digit_toNat n
  simp only [isDigit, Bool.and_eq_true, decide_eq_true_eq]
  omega

/-! ### Writing -/

/-- The digits of a number, most significant first, with no leading zero. -/
def digits (n : Nat) : List Char :=
  if n < 10 then [digit n] else digits (n / 10) ++ [digit n]

/-- The decimal numeral of a number. -/
def ofNat (n : Nat) : String := String.ofList (digits n)

/-- The decimal numeral of an integer, a minus sign in front of a negative one. -/
def ofInt : Int → String
  | .ofNat n => ofNat n
  | .negSucc n => "-" ++ ofNat (n + 1)

/-- The digits of a number with zeros in front up to the given width. -/
def padded (width n : Nat) : List Char :=
  List.replicate (width - (digits n).length) '0' ++ digits n

/-! ### Reading -/

/-- The number that a run of digits stands for. -/
def value (cs : List Char) : Nat := cs.foldl (fun n c => 10 * n + digitValue c) 0

/-- The number that a numeral stands for, if the text is one. -/
def value? (cs : List Char) : Option Nat :=
  if cs.isEmpty || !cs.all isDigit then none else some (value cs)

theorem value_append_digit (cs : List Char) (n : Nat) :
    value (cs ++ [digit n]) = 10 * value cs + n % 10 := by
  simp [value, List.foldl_append, digitValue_digit]

/-- Reading what was written gives the number back. -/
theorem value_digits (n : Nat) : value (digits n) = n := by
  induction n using digits.induct with
  | case1 n h =>
      rw [digits, if_pos h]
      simp [value, digitValue_digit]; omega
  | case2 n h ih =>
      rw [digits, if_neg h, value_append_digit, ih]; omega

theorem all_isDigit_digits (n : Nat) : (digits n).all isDigit = true := by
  induction n using digits.induct with
  | case1 n h => rw [digits, if_pos h]; simp [isDigit_digit]
  | case2 n h ih => rw [digits, if_neg h]; simp [ih, isDigit_digit]

theorem digits_ne_nil (n : Nat) : digits n ≠ [] := by
  rw [digits]; split <;> simp

@[simp] theorem value?_digits (n : Nat) : value? (digits n) = some n := by
  simp [value?, all_isDigit_digits, digits_ne_nil, value_digits]

end Testbench.Decimal
