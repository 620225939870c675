/-
**Blank text.**

A name that shows nothing is no name.  Blank characters are those with the Unicode property
`White_Space`; a text is blank when it holds no others.

Main definitions:

* `Testbench.Text.isBlankChar` — the characters with the property;
* `Testbench.Text.isBlank` — texts of such characters only.
-/

set_option relaxedAutoImplicit false
set_option autoImplicit false

namespace Testbench.Text

/-- The code points with the property `White_Space`, as closed ranges. -/
def blankRanges : List (Nat × Nat) :=
  [(0x9, 0xD), (0x20, 0x20), (0x85, 0x85), (0xA0, 0xA0), (0x1680, 0x1680), (0x2000, 0x200A),
    (0x2028, 0x2029), (0x202F, 0x202F), (0x205F, 0x205F), (0x3000, 0x3000)]

/-- The character has the property `White_Space`. -/
def isBlankChar (c : Char) : Bool :=
  blankRanges.any fun (lo, hi) => lo ≤ c.toNat && c.toNat ≤ hi

/-- The text is empty or holds blank characters only. -/
def isBlank (s : String) : Bool := s.toList.all isBlankChar

@[simp] theorem isBlank_empty : isBlank "" = true := rfl

end Testbench.Text
