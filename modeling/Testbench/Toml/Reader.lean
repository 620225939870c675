/-
**Reading TOML.**

A document is read line by line: headers of tables, keys with their values, and blank lines, with
comments at the end of any of them.  The rules are those of version 1.0 of the format; inline tables
hold no line breaks and no comma after the last value, whole numbers fit in 64 bits with a sign, and
values nest less than eighty levels deep.

Main definitions:

* `Testbench.Toml.readString`, `Testbench.Toml.readNumber`, `Testbench.Toml.readDateTime` — simple
  values;
* `Testbench.Toml.readKey` — dotted keys;
* `Testbench.Toml.readValue` — any value and the characters after it;
* `Testbench.Toml.parse?` — a whole document.
-/

import Testbench.Text.Hex
import Testbench.Time.Moment
import Testbench.Toml.Document

set_option relaxedAutoImplicit false
set_option autoImplicit false

namespace Testbench.Toml

/-! ### Blanks, comments, line ends -/

/-- A blank inside a line. -/
def isBlank (c : Char) : Bool := c = ' ' || c = '\t'

/-- A character that comments may hold: no control character but the tab. -/
def isPlain (c : Char) : Bool := c = '\t' || (32 ≤ c.toNat && c.toNat ≠ 127)

/-- The characters after leading blanks. -/
def skipBlanks (cs : List Char) : List Char := cs.dropWhile isBlank

/-- The characters after a line break, if one comes next. -/
def lineBreak? : List Char → Option (List Char)
  | '\n' :: cs => some cs
  | '\r' :: '\n' :: cs => some cs
  | _ => none

/-- The characters after a comment, if one comes next. -/
def skipComment : List Char → List Char
  | '#' :: cs => cs.dropWhile isPlain
  | cs => cs

/-- The characters after the rest of a line that has nothing more to say. -/
def lineEnd? (cs : List Char) : Option (List Char) :=
  match skipComment (skipBlanks cs) with
  | [] => some []
  | cs => lineBreak? cs

/-- The characters after blanks, line breaks and comments. -/
def skipFiller (inComment : Bool) : List Char → List Char
  | [] => []
  | '\r' :: '\n' :: cs => skipFiller false cs
  | c :: cs =>
      if c = '\n' then skipFiller false cs
      else if inComment then if isPlain c then skipFiller true cs else c :: cs
      else if isBlank c then skipFiller false cs
      else if c = '#' then skipFiller true cs
      else c :: cs

/-! ### Strings -/

/-- The character that a letter after a backslash stands for. -/
def escapeLetter? (c : Char) : Option Char :=
  if c = '"' then some '"'
  else if c = '\\' then some '\\'
  else if c = 'b' then some '\x08'
  else if c = 'f' then some '\x0c'
  else if c = 'n' then some '\n'
  else if c = 'r' then some '\r'
  else if c = 't' then some '\t'
  else none

/-- The character of hexadecimal digits. -/
def hexChar? (digits : List Char) : Option Char := (Text.hexNumber? digits).bind Text.scalar?

/-- A string between single quotation marks, after its first characters in `done`, latest first. -/
def readLiteral (done : List Char) : List Char → Option (List Char × List Char)
  | [] => none
  | c :: cs =>
      if c = '\'' then some (done.reverse, cs)
      else if isPlain c then readLiteral (c :: done) cs else none

/-- A string between quotation marks. -/
def readBasic (done : List Char) : List Char → Option (List Char × List Char)
  | [] => none
  | '"' :: cs => some (done.reverse, cs)
  | '\\' :: 'u' :: a :: b :: c :: d :: cs =>
      match hexChar? [a, b, c, d] with
      | some ch => readBasic (ch :: done) cs
      | none => none
  | '\\' :: 'U' :: a :: b :: c :: d :: e :: f :: g :: h :: cs =>
      match hexChar? [a, b, c, d, e, f, g, h] with
      | some ch => readBasic (ch :: done) cs
      | none => none
  | '\\' :: c :: cs =>
      match escapeLetter? c with
      | some ch => readBasic (ch :: done) cs
      | none => none
  | c :: cs => if isPlain c && c ≠ '\\' then readBasic (c :: done) cs else none

/-- Up to two quotation marks that still belong to a string whose three closing marks follow or were
read, and the characters after them. -/
def closingMarks (mark : Char) (done cs : List Char) : List Char × List Char :=
  match cs with
  | a :: b :: rest =>
      if a = mark then
        if b = mark then ((mark :: mark :: done).reverse, rest)
        else ((mark :: done).reverse, b :: rest)
      else (done.reverse, cs)
  | [a] => if a = mark then ((mark :: done).reverse, []) else (done.reverse, cs)
  | [] => (done.reverse, [])

/-- A string of several lines between single quotation marks. -/
def readLongLiteral (done : List Char) : List Char → Option (List Char × List Char)
  | [] => none
  | '\'' :: '\'' :: '\'' :: cs => some (closingMarks '\'' done cs)
  | '\r' :: '\n' :: cs => readLongLiteral ('\n' :: done) cs
  | c :: cs => if c = '\n' || isPlain c then readLongLiteral (c :: done) cs else none

/-- A string of several lines between quotation marks.  While `skipping`, blanks and line breaks are
left out, as after a backslash at the end of a line. -/
def readLongBasic (skipping : Bool) (done : List Char) : List Char → Option (List Char × List Char)
  | [] => none
  | '"' :: '"' :: '"' :: cs => some (closingMarks '"' done cs)
  | '\r' :: '\n' :: cs =>
      if skipping then readLongBasic true done cs else readLongBasic false ('\n' :: done) cs
  | '\\' :: 'u' :: a :: b :: c :: d :: cs =>
      match hexChar? [a, b, c, d] with
      | some ch => readLongBasic false (ch :: done) cs
      | none => none
  | '\\' :: 'U' :: a :: b :: c :: d :: e :: f :: g :: h :: cs =>
      match hexChar? [a, b, c, d, e, f, g, h] with
      | some ch => readLongBasic false (ch :: done) cs
      | none => none
  | '\\' :: c :: cs =>
      match escapeLetter? c with
      | some ch => readLongBasic false (ch :: done) cs
      | none =>
          if (lineBreak? (skipBlanks (c :: cs))).isSome then readLongBasic true done (c :: cs)
          else none
  | c :: cs =>
      if skipping && (isBlank c || c = '\n') then readLongBasic true done cs
      else if c = '\n' || (isPlain c && c ≠ '\\') then readLongBasic false (c :: done) cs
      else none

/-- The inside of a string of several lines without a line break at its very start. -/
def dropFirstBreak (cs : List Char) : List Char := (lineBreak? cs).getD cs

/-- A string of any kind. -/
def readString : List Char → Option (List Char × List Char)
  | '"' :: '"' :: '"' :: cs => readLongBasic false [] (dropFirstBreak cs)
  | '"' :: cs => readBasic [] cs
  | '\'' :: '\'' :: '\'' :: cs => readLongLiteral [] (dropFirstBreak cs)
  | '\'' :: cs => readLiteral [] cs
  | _ => none

/-! ### Numbers -/

/-- The digits that go on a run, with single underscores between digits left out. -/
def moreDigits (isDigit : Char → Bool) : List Char → List Char × List Char
  | [] => ([], [])
  | '_' :: c :: cs =>
      if isDigit c then
        let (ds, rest) := moreDigits isDigit cs
        (c :: ds, rest)
      else ([], '_' :: c :: cs)
  | c :: cs =>
      if isDigit c then
        let (ds, rest) := moreDigits isDigit cs
        (c :: ds, rest)
      else ([], c :: cs)

/-- A run of digits of some base, at least one. -/
def readDigits (isDigit : Char → Bool) : List Char → Option (List Char × List Char)
  | [] => none
  | c :: cs =>
      if isDigit c then
        let (ds, rest) := moreDigits isDigit cs
        some (c :: ds, rest)
      else none

/-- The sign in front of a number. -/
def readSign : List Char → Bool × List Char
  | '+' :: cs => (false, cs)
  | '-' :: cs => (true, cs)
  | cs => (false, cs)

/-- Digits that start with a zero only if they are a single one. -/
def readWhole : List Char → Option (List Char × List Char)
  | '0' :: cs => some (['0'], cs)
  | cs => readDigits Decimal.isDigit cs

/-- The whole number fits in 64 bits with a sign. -/
def bounded? (n : Int) : Option Data :=
  if -9223372036854775808 ≤ n ∧ n ≤ 9223372036854775807 then some (.int n) else none

/-- A whole number without a sign in a base of its own. -/
def readBased (isDigit : Char → Bool) (base : Nat) (cs : List Char) :
    Option (Data × List Char) := do
  let (ds, rest) ← readDigits isDigit cs
  let n ← ds.foldlM (fun n c => (Text.hexValue? c).map fun d => base * n + d) 0
  let d ← bounded? n
  return (d, rest)

/-- A whole number. -/
def readInteger : List Char → Option (Data × List Char)
  | '0' :: 'x' :: cs => readBased (fun c => (Text.hexValue? c).isSome) 16 cs
  | '0' :: 'o' :: cs => readBased (fun c => '0' ≤ c && c ≤ '7') 8 cs
  | '0' :: 'b' :: cs => readBased (fun c => c = '0' || c = '1') 2 cs
  | cs => do
      let (negative, cs) := readSign cs
      let (ds, rest) ← readWhole cs
      let n := Decimal.value ds
      let d ← bounded? (if negative then -(n : Int) else n)
      return (d, rest)

/-- An exponent. -/
def readExponent : List Char → Option (Int × List Char)
  | [] => none
  | c :: cs =>
      if c = 'e' || c = 'E' then
        let (negative, cs) := readSign cs
        (readDigits Decimal.isDigit cs).map fun (ds, rest) =>
          let n := Decimal.value ds
          (if negative then -(n : Int) else n, rest)
      else none

/-- The least number that is nearer to `2 ^ 1024` than to any number of 53 bits below it, or as
near. -/
def leastInfinite : Nat := (1 <<< 1024) - (1 <<< 970)

/-- The number `n * 10 ^ exponent` is finite with 64 bits.  The number of its digits before the
point decides, unless it is 309. -/
def isFinite (n : Nat) (exponent : Int) : Bool :=
  let places := (Decimal.digits n).length + exponent
  if n = 0 || places < 309 then true
  else if 309 < places then false
  else n * Nat.pow 10 exponent.toNat < leastInfinite * Nat.pow 10 (-exponent).toNat

/-- A number with a point or an exponent, or one that is infinite or none at all.  One above zero
that is too large is refused; below zero it counts as infinite. -/
def readReal (cs : List Char) : Option (Data × List Char) :=
  let all := cs
  let numeral (rest : List Char) : Data × List Char :=
    (.real (String.ofList (all.take (all.length - rest.length))), rest)
  let (negative, cs) := readSign cs
  let bounded (ds : List Char) (exponent : Int) (rest : List Char) : Option (Data × List Char) :=
    if negative || isFinite (Decimal.value ds) exponent then some (numeral rest) else none
  match cs with
  | 'i' :: 'n' :: 'f' :: rest => some (numeral rest)
  | 'n' :: 'a' :: 'n' :: rest => some (numeral rest)
  | cs =>
      match readWhole cs with
      | none => none
      | some (whole, '.' :: rest) =>
          match readDigits Decimal.isDigit rest with
          | none => none
          | some (part, rest) =>
              let (exponent, rest) := (readExponent rest).getD (0, rest)
              bounded (whole ++ part) (exponent - part.length) rest
      | some (whole, rest) =>
          (readExponent rest).bind fun (exponent, rest) => bounded whole exponent rest

/-! ### Days and times -/

/-- A number of exactly so many digits. -/
def readFixed (width : Nat) (cs : List Char) : Option (Nat × List Char) :=
  let ds := cs.take width
  if ds.length = width && ds.all Decimal.isDigit then some (Decimal.value ds, cs.drop width)
  else none

/-- A mark that has to come next. -/
def expect (mark : Char) : List Char → Option (List Char)
  | c :: cs => if c = mark then some cs else none
  | [] => none

/-- A day of the calendar. -/
def readDate (cs : List Char) : Option (List Char) := do
  let (year, cs) ← readFixed 4 cs
  let cs ← expect '-' cs
  let (month, cs) ← readFixed 2 cs
  let cs ← expect '-' cs
  let (day, cs) ← readFixed 2 cs
  if (Date.mk year month day).isValid then some cs else none

/-- A fraction of a second, if there is one. -/
def skipFraction : List Char → List Char
  | '.' :: c :: cs => if Decimal.isDigit c then cs.dropWhile Decimal.isDigit else '.' :: c :: cs
  | cs => cs

/-- Hours and minutes. -/
def readClock (cs : List Char) : Option (List Char) := do
  let (hour, cs) ← readFixed 2 cs
  let cs ← expect ':' cs
  let (minute, cs) ← readFixed 2 cs
  if hour < 24 && minute < 60 then some cs else none

/-- A time of day. -/
def readTime (cs : List Char) : Option (List Char) := do
  let cs ← readClock cs
  let cs ← expect ':' cs
  let (second, cs) ← readFixed 2 cs
  if second ≤ 60 then some (skipFraction cs) else none

/-- An offset, if there is one. -/
def skipOffset : List Char → List Char
  | [] => []
  | c :: cs =>
      if c = 'Z' || c = 'z' then cs
      else if c = '+' || c = '-' then (readClock cs).getD (c :: cs)
      else c :: cs

/-- A time of day with an offset, after a day. -/
def readTimeOfDay : List Char → Option (List Char)
  | [] => none
  | c :: cs =>
      if c = 'T' || c = 't' || c = ' ' then (readTime cs).map skipOffset else none

/-- A day, a time, or both; as data it is a record that nothing else looks like. -/
def readDateTime (cs : List Char) : Option (Data × List Char) :=
  let moment (rest : List Char) : Data × List Char :=
    (.record [("moment", .text (String.ofList (cs.take (cs.length - rest.length))))], rest)
  match readDate cs with
  | some rest => some (moment ((readTimeOfDay rest).getD rest))
  | none => (readTime cs).map moment

/-- A number, a day or a time. -/
def readNumber (cs : List Char) : Option (Data × List Char) :=
  readDateTime cs <|> readReal cs <|> readInteger cs

/-! ### Keys -/

/-- A character of a key without quotation marks. -/
def isKeyChar (c : Char) : Bool := c.isAlphanum || c = '_' || c = '-'

/-- One key, with blanks around it. -/
def readSimpleKey (cs : List Char) : Option (String × List Char) :=
  let key (found : List Char × List Char) := (String.ofList found.1, skipBlanks found.2)
  match skipBlanks cs with
  | '"' :: cs => (readBasic [] cs).map key
  | '\'' :: cs => (readLiteral [] cs).map key
  | cs =>
      let name := cs.takeWhile isKeyChar
      if name.isEmpty then none else some (key (name, cs.dropWhile isKeyChar))

/-- Paths have fewer keys than this, and values fewer levels. -/
def deepest : Nat := 80

/-- Keys with dots between them: those before the last, and the last. -/
def readKey (fuel : Nat) (cs : List Char) : Option (List String × String × List Char) :=
  match fuel with
  | 0 => none
  | fuel + 1 =>
      match readSimpleKey cs with
      | none => none
      | some (key, '.' :: rest) =>
          (readKey fuel rest).map fun (path, last, rest) => (key :: path, last, rest)
      | some (key, rest) => some ([], key, rest)

/-! ### Values -/

mutual

/-- A value and the characters after it.  `depth` is the number of levels that are left. -/
def readValue (fuel depth : Nat) (cs : List Char) : Option (Data × List Char) :=
  match fuel with
  | 0 => none
  | fuel + 1 =>
      match cs with
      | [] => none
      | '[' :: cs =>
          if depth ≤ 1 then none
          else (readItems fuel (depth - 1) cs).map fun (ds, rest) => (.list ds, rest)
      | '{' :: cs =>
          if depth ≤ 1 then none
          else
            match skipBlanks cs with
            | '}' :: rest => some (.record [], rest)
            | _ =>
                (readInline fuel (depth - 1) [] cs).map fun (entries, rest) =>
                  (.record (entriesToData entries), rest)
      | 't' :: 'r' :: 'u' :: 'e' :: cs => some (.bool true, cs)
      | 'f' :: 'a' :: 'l' :: 's' :: 'e' :: cs => some (.bool false, cs)
      | c :: rest =>
          if c = '"' || c = '\'' then
            (readString (c :: rest)).map fun (s, rest) => (.text (String.ofList s), rest)
          else readNumber (c :: rest)

/-- The items of an array and the characters after it. -/
def readItems (fuel depth : Nat) (cs : List Char) : Option (List Data × List Char) :=
  match fuel with
  | 0 => none
  | fuel + 1 =>
      match skipFiller false cs with
      | ']' :: rest => some ([], rest)
      | cs =>
          match readValue fuel depth cs with
          | none => none
          | some (d, rest) =>
              match skipFiller false rest with
              | ',' :: rest => (readItems fuel depth rest).map fun (ds, rest) => (d :: ds, rest)
              | ']' :: rest => some ([d], rest)
              | _ => none

/-- The values of an inline table, at least one, and the characters after it. -/
def readInline (fuel depth : Nat) (entries : Entries) (cs : List Char) :
    Option (Entries × List Char) :=
  match fuel with
  | 0 => none
  | fuel + 1 =>
      match readKey (deepest - 1) cs with
      | some (path, key, '=' :: rest) =>
          match readValue fuel depth (skipBlanks rest) with
          | none => none
          | some (d, rest) =>
              match assign path key (.value d) entries with
              | none => none
              | some entries =>
                  match skipBlanks rest with
                  | ',' :: rest => readInline fuel depth entries rest
                  | '}' :: rest => some (entries, rest)
                  | _ => none
      | _ => none

end

/-! ### Documents -/

/-- The keys of a header and the characters after them. -/
def readHeader (cs : List Char) : Option (List String × List Char) :=
  (readKey (deepest - 1) cs).map fun (path, key, rest) => (path ++ [key], rest)

/-- The line of a key with its value. -/
def readAssignment (doc : Document) (cs : List Char) : Option (Document × List Char) :=
  match readKey (deepest - 1) cs with
  | some (path, key, '=' :: rest) => do
      let (d, rest) ← readValue (2 * rest.length + 2) deepest (skipBlanks rest)
      let doc ← doc.assign path key d
      return (doc, rest)
  | _ => none

/-- What stands on a line, up to its comment. -/
def readLine (doc : Document) (cs : List Char) : Option (Document × List Char) :=
  match skipBlanks cs with
  | '[' :: '[' :: cs =>
      match readHeader cs with
      | some (header, ']' :: ']' :: rest) => (doc.openElement header).map (·, rest)
      | _ => none
  | '[' :: cs =>
      match readHeader cs with
      | some (header, ']' :: rest) => (doc.openTable header).map (·, rest)
      | _ => none
  | [] => some (doc, [])
  | c :: cs =>
      if c = '#' || c = '\n' || c = '\r' then some (doc, c :: cs) else readAssignment doc (c :: cs)

/-- The lines of a document; `fuel` bounds their number. -/
def readLines (fuel : Nat) (doc : Document) (cs : List Char) : Option Document :=
  match fuel with
  | 0 => none
  | fuel + 1 =>
      if cs.isEmpty then some doc
      else
        match readLine doc cs with
        | none => none
        | some (doc, rest) =>
            match lineEnd? rest with
            | none => none
            | some rest => readLines fuel doc rest

/-- The text without a byte order mark at its start. -/
def dropMark : List Char → List Char
  | c :: cs => if c.toNat = 0xFEFF then cs else c :: cs
  | [] => []

/-- The **table that a document describes**, if it keeps the rules. -/
def parse? (text : String) : Option Data := do
  let cs := dropMark text.toList
  let doc ← readLines (cs.length + 1) {} cs
  let entries ← doc.close
  return .record (entriesToData entries)

/-- How this format reads records: a list may be longer than the record, and a choice without
content is followed by an empty table or an empty array. -/
def convention : Data.Convention where
  refusesExtraItems := false
  isNoContent := fun
    | .record [] | .list [] => true
    | _ => false

end Testbench.Toml
