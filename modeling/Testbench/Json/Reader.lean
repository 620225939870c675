/-
**Reading JSON.**

A text is one value with blanks around it, and nothing else.  Numbers without a point and without an
exponent are whole numbers, except a zero with a minus sign; all others are kept as numerals.

Main definitions:

* `Testbench.Json.readQuoted` — the inside of a quoted text;
* `Testbench.Json.readNumber` — a number;
* `Testbench.Json.readValue` — a value and the characters after it;
* `Testbench.Json.parse?` — a whole text.
-/

import Testbench.Data
import Testbench.Text.Decimal
import Testbench.Text.Hex

set_option relaxedAutoImplicit false
set_option autoImplicit false

namespace Testbench.Json

/-- A blank between values. -/
def isBlank (c : Char) : Bool := c = ' ' || c = '\n' || c = '\t' || c = '\r'

/-- The characters after leading blanks. -/
def skipBlanks (cs : List Char) : List Char := cs.dropWhile isBlank

/-! ### Texts -/

/-- The value of four hexadecimal digits. -/
def hex4? (a b c d : Char) : Option Nat := Text.hexNumber? [a, b, c, d]

/-- The character that a letter after a backslash stands for. -/
def escapeLetter? (c : Char) : Option Char :=
  if c = '"' then some '"'
  else if c = '\\' then some '\\'
  else if c = '/' then some '/'
  else if c = 'b' then some '\x08'
  else if c = 'f' then some '\x0c'
  else if c = 'n' then some '\n'
  else if c = 'r' then some '\r'
  else if c = 't' then some '\t'
  else none

/-- The character of two halves, each of sixteen bits. -/
def pair? (high low : Nat) : Option Char :=
  if 0xD800 ≤ high ∧ high < 0xDC00 ∧ 0xDC00 ≤ low ∧ low < 0xE000 then
    some (Char.ofNat (0x10000 + (high - 0xD800) * 0x400 + (low - 0xDC00)))
  else none

/-- The characters up to the closing quote, after those in `done`, the latest of which comes
first; and the characters after the quote. -/
def readQuoted (done : List Char) : List Char → Option (List Char × List Char)
  | [] => none
  | '"' :: cs => some (done.reverse, cs)
  | '\\' :: 'u' :: a :: b :: c :: d :: '\\' :: 'u' :: e :: f :: g :: h :: cs =>
      match hex4? a b c d, hex4? e f g h with
      | some high, some low =>
          match pair? high low with
          | some ch => readQuoted (ch :: done) cs
          | none =>
              match Text.scalar? high with
              | some ch => readQuoted (ch :: done) ('\\' :: 'u' :: e :: f :: g :: h :: cs)
              | none => none
      | _, _ => none
  | '\\' :: 'u' :: a :: b :: c :: d :: cs =>
      match (hex4? a b c d).bind Text.scalar? with
      | some ch => readQuoted (ch :: done) cs
      | none => none
  | '\\' :: c :: cs =>
      match escapeLetter? c with
      | some ch => readQuoted (ch :: done) cs
      | none => none
  | c :: cs => if c.toNat < 32 || c = '\\' then none else readQuoted (c :: done) cs

/-! ### Numbers -/

/-- A point and the digits after it, if there is a point. -/
def readFraction (cs : List Char) : Option (List Char × List Char) :=
  match cs with
  | '.' :: rest =>
      let ds := rest.takeWhile Decimal.isDigit
      if ds.isEmpty then none else some ('.' :: ds, rest.dropWhile Decimal.isDigit)
  | _ => some ([], cs)

/-- The sign in front of the digits of an exponent. -/
def exponentSign : List Char → List Char × List Char
  | '+' :: cs => (['+'], cs)
  | '-' :: cs => (['-'], cs)
  | cs => ([], cs)

/-- An exponent, if there is one. -/
def readExponent (cs : List Char) : Option (List Char × List Char) :=
  match cs with
  | [] => some ([], cs)
  | c :: rest =>
      if c = 'e' || c = 'E' then
        let (sign, rest) := exponentSign rest
        let ds := rest.takeWhile Decimal.isDigit
        if ds.isEmpty then none else some (c :: (sign ++ ds), rest.dropWhile Decimal.isDigit)
      else some ([], cs)

/-- A number with its sign known. -/
def readUnsigned (negative : Bool) (cs : List Char) : Option (Data × List Char) := do
  let ds := cs.takeWhile Decimal.isDigit
  if ds.isEmpty || (ds.head? = some '0' && 1 < ds.length) then none
  let (fraction, rest) ← readFraction (cs.dropWhile Decimal.isDigit)
  let (exponent, rest) ← readExponent rest
  let n := Decimal.value ds
  if fraction.isEmpty && exponent.isEmpty && !(negative && n = 0) then
    return (.int (if negative then -(n : Int) else n), rest)
  else
    return (.real (String.ofList ((if negative then ['-'] else []) ++ ds ++ fraction ++ exponent)),
      rest)

/-- A number and the characters after it. -/
def readNumber : List Char → Option (Data × List Char)
  | '-' :: cs => readUnsigned true cs
  | cs => readUnsigned false cs

/-! ### Values -/

mutual

/-- A value and the characters after it. -/
def readValue (fuel : Nat) (cs : List Char) : Option (Data × List Char) :=
  match fuel with
  | 0 => none
  | fuel + 1 =>
      match skipBlanks cs with
      | 'n' :: 'u' :: 'l' :: 'l' :: cs => some (.null, cs)
      | 't' :: 'r' :: 'u' :: 'e' :: cs => some (.bool true, cs)
      | 'f' :: 'a' :: 'l' :: 's' :: 'e' :: cs => some (.bool false, cs)
      | '"' :: cs => (readQuoted [] cs).map fun (s, rest) => (.text (String.ofList s), rest)
      | '[' :: cs =>
          match skipBlanks cs with
          | ']' :: rest => some (.list [], rest)
          | cs => (readItems fuel cs).map fun (ds, rest) => (.list ds, rest)
      | '{' :: cs =>
          match skipBlanks cs with
          | '}' :: rest => some (.record [], rest)
          | cs => (readFields fuel cs).map fun (fs, rest) => (.record fs, rest)
      | cs => readNumber cs

/-- The items of a list, at least one, and the characters after the list. -/
def readItems (fuel : Nat) (cs : List Char) : Option (List Data × List Char) :=
  match fuel with
  | 0 => none
  | fuel + 1 =>
      match readValue fuel cs with
      | none => none
      | some (d, rest) =>
          match skipBlanks rest with
          | ',' :: rest => (readItems fuel rest).map fun (ds, rest) => (d :: ds, rest)
          | ']' :: rest => some ([d], rest)
          | _ => none

/-- The fields of a record, at least one, and the characters after the record. -/
def readFields (fuel : Nat) (cs : List Char) : Option (List (String × Data) × List Char) :=
  match fuel with
  | 0 => none
  | fuel + 1 =>
      match skipBlanks cs with
      | '"' :: cs =>
          match readQuoted [] cs with
          | none => none
          | some (name, rest) =>
              match skipBlanks rest with
              | ':' :: rest =>
                  match readValue fuel rest with
                  | none => none
                  | some (d, rest) =>
                      match skipBlanks rest with
                      | ',' :: rest =>
                          (readFields fuel rest).map fun (fs, rest) =>
                            ((String.ofList name, d) :: fs, rest)
                      | '}' :: rest => some ([(String.ofList name, d)], rest)
                      | _ => none
              | _ => none
      | _ => none

end

/-- The **value that a text spells**, if it spells one. -/
def parseChars? (cs : List Char) : Option Data :=
  match readValue (2 * cs.length + 2) cs with
  | some (d, rest) => if (skipBlanks rest).isEmpty then some d else none
  | none => none

/-- The value that a text spells, if it spells one. -/
def parse? (s : String) : Option Data := parseChars? s.toList

/-- How this format reads records: a list may not be longer than the record, and a choice without
content is followed by nothing. -/
def convention : Data.Convention where
  refusesExtraItems := true
  isNoContent := fun
    | .null => true
    | _ => false

end Testbench.Json
