/-
**Spans of time.**

A span is a number of nanoseconds.  Its text has the largest unit that is not zero and the exact
fraction of it.  Spans in a report are milliseconds below one second, and else seconds with two
places: the seconds are held in a number of 53 binary digits before they are rounded, so that it is
that number, not the decimal fraction, which decides the last place.

Main definitions:

* `Testbench.Span`, `Testbench.Span.text` — exact spans;
* `Testbench.Span.roundHalfEven` — a quotient rounded to a whole number;
* `Testbench.Span.nearest` — a quotient rounded to 53 binary digits;
* `Testbench.Span.reportText` — spans in a report.
-/

import Testbench.Text.Decimal

set_option relaxedAutoImplicit false
set_option autoImplicit false

namespace Testbench

/-- A span of time in nanoseconds. -/
structure Span where
  nanoseconds : Nat
deriving DecidableEq, Repr, Inhabited

namespace Span

/-- A number of seconds. -/
def seconds (n : Nat) : Span := ⟨n * 1000000000⟩

/-- A number of milliseconds. -/
def milliseconds (n : Nat) : Span := ⟨n * 1000000⟩

/-- The whole milliseconds of a span. -/
def inMilliseconds (s : Span) : Nat := s.nanoseconds / 1000000

/-! ### Exact text -/

/-- A list of digits without the zeros at its end. -/
def dropTrailingZeros (ds : List Char) : List Char := (ds.reverse.dropWhile (· = '0')).reverse

/-- A whole number with a fraction of so many places, without zeros at its end. -/
def withFraction (whole fraction places : Nat) : String :=
  let ds := dropTrailingZeros (Decimal.padded places fraction)
  Decimal.ofNat whole ++ if ds.isEmpty then "" else "." ++ String.ofList ds

/-- The **exact text of a span**. -/
def text (s : Span) : String :=
  let n := s.nanoseconds
  if 1000000000 ≤ n then withFraction (n / 1000000000) (n % 1000000000) 9 ++ "s"
  else if 1000000 ≤ n then withFraction (n / 1000000) (n % 1000000) 6 ++ "ms"
  else if 1000 ≤ n then withFraction (n / 1000) (n % 1000) 3 ++ "µs"
  else Decimal.ofNat n ++ "ns"

/-! ### Rounding -/

/-- The whole number nearest to a quotient; a half goes to the even neighbour. -/
def roundHalfEven (num den : Nat) : Nat :=
  let q := num / den
  let r := num % den
  if 2 * r < den then q
  else if den < 2 * r then q + 1
  else if q % 2 = 0 then q else q + 1

/-- The quotient `num / (den * 2 ^ e)` rounded to a whole number. -/
def roundAt (num den : Nat) (e : Int) : Nat :=
  match e with
  | .ofNat k => roundHalfEven num (den <<< k)
  | .negSucc k => roundHalfEven (num <<< (k + 1)) den

/-- The quotient `num / (den * 2 ^ e)` is below `2 ^ 52`. -/
def isBelow52 (num den : Nat) (e : Int) : Bool :=
  match e with
  | .ofNat k => num < den <<< (k + 52)
  | .negSucc k => num <<< (k + 1) < den <<< 52

/-- The number of 53 binary digits that is nearest to a quotient, as a quotient itself. -/
def nearest (num den : Nat) : Nat × Nat :=
  if num = 0 then (0, 1)
  else
    let e : Int := (num.log2 : Int) - den.log2 - 52
    let e := if isBelow52 num den e then e - 1 else e
    let m := roundAt num den e
    match e with
    | .ofNat k => (m <<< k, 1)
    | .negSucc k => (m, 1 <<< (k + 1))

/-! ### Report text -/

/-- The hundredths of a second in a number of milliseconds. -/
def hundredths (ms : Nat) : Nat :=
  let (n, d) := nearest ms 1
  let (n, d) := nearest n (d * 1000)
  roundHalfEven (n * 100) d

/-- The **text of a number of milliseconds in a report**. -/
def reportText (ms : Nat) : String :=
  if ms < 1000 then Decimal.ofNat ms ++ "ms"
  else
    let h := hundredths ms
    Decimal.ofNat (h / 100) ++ "." ++ String.ofList (Decimal.padded 2 (h % 100)) ++ "s"

end Span

end Testbench
