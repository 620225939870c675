/-
**Writing JSON.**

Data is written in two layouts: on one line without blanks, or with every item on a line of its own
and two blanks for each level.  A text is put between quotes; quotes, backslashes and control
characters are written as escapes, everything else as it is.

Main definitions:

* `Testbench.Json.escapeChar`, `Testbench.Json.quote` — texts;
* `Testbench.Json.compact` — the layout on one line;
* `Testbench.Json.pretty` — the layout over several lines.
-/

import Testbench.Data
import Testbench.Text.Decimal

set_option relaxedAutoImplicit false
set_option autoImplicit false

namespace Testbench.Json

/-! ### Texts -/

/-- The hexadecimal digit of a value below sixteen. -/
def hexDigit (n : Nat) : Char := if n < 10 then Char.ofNat (48 + n) else Char.ofNat (87 + n)

/-- A character inside quotes. -/
def escapeChar (c : Char) : List Char :=
  if c = '"' then ['\\', '"']
  else if c = '\\' then ['\\', '\\']
  else if c = '\x08' then ['\\', 'b']
  else if c = '\x0c' then ['\\', 'f']
  else if c = '\n' then ['\\', 'n']
  else if c = '\r' then ['\\', 'r']
  else if c = '\t' then ['\\', 't']
  else if c.toNat < 32 then
    ['\\', 'u', '0', '0', hexDigit (c.toNat / 16), hexDigit (c.toNat % 16)]
  else [c]

/-- A text between quotes. -/
def quote (s : String) : List Char := '"' :: (s.toList.flatMap escapeChar ++ ['"'])

/-! ### One line -/

mutual

/-- Data on one line. -/
def compact : Data → List Char
  | .null => ['n', 'u', 'l', 'l']
  | .bool true => ['t', 'r', 'u', 'e']
  | .bool false => ['f', 'a', 'l', 's', 'e']
  | .int n => (Decimal.ofInt n).toList
  | .real numeral => numeral.toList
  | .text s => quote s
  | .list items => '[' :: (compactItems items ++ [']'])
  | .record fields => '{' :: (compactFields fields ++ ['}'])

/-- Items with commas between them. -/
def compactItems : List Data → List Char
  | [] => []
  | [d] => compact d
  | d :: e :: ds => compact d ++ ',' :: compactItems (e :: ds)

/-- Fields with commas between them. -/
def compactFields : List (String × Data) → List Char
  | [] => []
  | [(name, d)] => quote name ++ ':' :: compact d
  | (name, d) :: e :: ds => quote name ++ ':' :: (compact d ++ ',' :: compactFields (e :: ds))

end

/-! ### Several lines -/

/-- A new line at some level. -/
def newLine (level : Nat) : List Char := '\n' :: List.replicate (2 * level) ' '

mutual

/-- Data over several lines, its own items one level down. -/
def prettyAt (level : Nat) : Data → List Char
  | .null => ['n', 'u', 'l', 'l']
  | .bool true => ['t', 'r', 'u', 'e']
  | .bool false => ['f', 'a', 'l', 's', 'e']
  | .int n => (Decimal.ofInt n).toList
  | .real numeral => numeral.toList
  | .text s => quote s
  | .list [] => ['[', ']']
  | .list (d :: ds) => '[' :: (prettyItems (level + 1) (d :: ds) ++ (newLine level ++ [']']))
  | .record [] => ['{', '}']
  | .record (f :: fs) => '{' :: (prettyFields (level + 1) (f :: fs) ++ (newLine level ++ ['}']))

/-- Items on lines of their own with commas between them. -/
def prettyItems (level : Nat) : List Data → List Char
  | [] => []
  | [d] => newLine level ++ prettyAt level d
  | d :: e :: ds => newLine level ++ (prettyAt level d ++ ',' :: prettyItems level (e :: ds))

/-- Fields on lines of their own with commas between them. -/
def prettyFields (level : Nat) : List (String × Data) → List Char
  | [] => []
  | [(name, d)] => newLine level ++ (quote name ++ ':' :: ' ' :: prettyAt level d)
  | (name, d) :: e :: ds =>
      newLine level ++
        (quote name ++ ':' :: ' ' :: (prettyAt level d ++ ',' :: prettyFields level (e :: ds)))

end

/-- Data over several lines. -/
def pretty (d : Data) : List Char := prettyAt 0 d

end Testbench.Json
