/-
**Hexadecimal digits.**

Main definitions:

* `Testbench.Text.hexValue?` — the value of a digit, in either case;
* `Testbench.Text.hexNumber?` — the value of several digits;
* `Testbench.Text.scalar?` — the character of a number that is one.
-/

set_option relaxedAutoImplicit false
set_option autoImplicit false

namespace Testbench.Text

/-- The value of a hexadecimal digit. -/
def hexValue? (c : Char) : Option Nat :=
  if '0' ≤ c && c ≤ '9' then some (c.toNat - 48)
  else if 'a' ≤ c && c ≤ 'f' then some (c.toNat - 87)
  else if 'A' ≤ c && c ≤ 'F' then some (c.toNat - 55)
  else none

/-- The value of hexadecimal digits, the most significant first. -/
def hexNumber? (cs : List Char) : Option Nat :=
  cs.foldlM (fun n c => (hexValue? c).map fun d => 16 * n + d) 0

/-- The character of a number that is one. -/
def scalar? (n : Nat) : Option Char := if n.isValidChar then some (Char.ofNat n) else none

end Testbench.Text
