/-
**Moments.**

A moment is a day of the calendar and a time of that day, both in universal time, down to the
nanosecond.  A leap second is the second before it with a thousand million nanoseconds more.
Moments are written as in `2024-05-06T07:08:09.012Z` with the fewest groups of three places that
lose nothing; they are read with blanks between the fields and with any offset below a day.

Main definitions:

* `Testbench.Date`, `Testbench.Date.next`, `Testbench.Date.previous` — days;
* `Testbench.Moment`, `Testbench.Moment.text` — moments and their texts;
* `Testbench.Moment.parse?` — reading.
-/

import Testbench.Text.Blank
import Testbench.Text.Decimal

set_option relaxedAutoImplicit false
set_option autoImplicit false

namespace Testbench

/-! ### Days -/

/-- A day of the calendar. -/
structure Date where
  year : Int
  month : Nat
  day : Nat
deriving DecidableEq, Repr, Inhabited

namespace Date

/-- The year has a day more than others. -/
def isLeapYear (year : Int) : Bool :=
  year.emod 4 = 0 && (year.emod 100 ≠ 0 || year.emod 400 = 0)

/-- The number of days of a month. -/
def daysIn (year : Int) (month : Nat) : Nat :=
  if month = 2 then if isLeapYear year then 29 else 28
  else if month = 4 || month = 6 || month = 9 || month = 11 then 30
  else 31

/-- The first and the last year of the calendar. -/
def firstYear : Int := -262143
def lastYear : Int := 262142

/-- The calendar has this day. -/
def isValid (d : Date) : Bool :=
  1 ≤ d.month && d.month ≤ 12 && 1 ≤ d.day && d.day ≤ daysIn d.year d.month

/-- The year is one of the calendar. -/
def isInRange (d : Date) : Bool := firstYear ≤ d.year && d.year ≤ lastYear

/-- The day after. -/
def next (d : Date) : Date :=
  if d.day < daysIn d.year d.month then { d with day := d.day + 1 }
  else if d.month < 12 then { d with month := d.month + 1, day := 1 }
  else { year := d.year + 1, month := 1, day := 1 }

/-- The day before. -/
def previous (d : Date) : Date :=
  if 1 < d.day then { d with day := d.day - 1 }
  else if 1 < d.month then
    { d with month := d.month - 1, day := daysIn d.year (d.month - 1) }
  else { year := d.year - 1, month := 12, day := 31 }

/-- A year of up to four digits is written with four, any other with a sign. -/
def yearText (year : Int) : List Char :=
  if 0 ≤ year ∧ year ≤ 9999 then Decimal.padded 4 year.toNat
  else (if year < 0 then '-' else '+') :: Decimal.padded 4 year.natAbs

/-- The text of a day. -/
def text (d : Date) : List Char :=
  yearText d.year ++ '-' :: (Decimal.padded 2 d.month ++ '-' :: Decimal.padded 2 d.day)

end Date

/-! ### Moments -/

/-- A moment in universal time. -/
structure Moment where
  date : Date
  hour : Nat
  minute : Nat
  second : Nat
  /-- Below a thousand million, or below two thousand million in a leap second. -/
  nanosecond : Nat
deriving DecidableEq, Repr, Inhabited

namespace Moment

/-- A fraction of a second with 0, 3, 6 or 9 places. -/
def fractionText (nanosecond : Nat) : List Char :=
  if nanosecond = 0 then []
  else if nanosecond % 1000000 = 0 then '.' :: Decimal.padded 3 (nanosecond / 1000000)
  else if nanosecond % 1000 = 0 then '.' :: Decimal.padded 6 (nanosecond / 1000)
  else '.' :: Decimal.padded 9 nanosecond

/-- The text of the time of day. -/
def timeText (m : Moment) : List Char :=
  let leap := 1000000000 ≤ m.nanosecond
  Decimal.padded 2 m.hour ++ ':' :: (Decimal.padded 2 m.minute ++ ':' ::
    (Decimal.padded 2 (if leap then m.second + 1 else m.second) ++
      fractionText (if leap then m.nanosecond - 1000000000 else m.nanosecond)))

/-- The **text of a moment**. -/
def text (m : Moment) : String :=
  String.ofList (m.date.text ++ 'T' :: (m.timeText ++ ['Z']))

/-- The moment that a local time stands for whose clock is `offset` seconds ahead. -/
def ofLocal (date : Date) (hour minute second nanosecond : Nat) (offset : Int) : Moment :=
  let t : Int := hour * 3600 + minute * 60 + second - offset
  let (date, t) :=
    if t < 0 then (date.previous, t + 86400)
    else if 86400 ≤ t then (date.next, t - 86400)
    else (date, t)
  let t := t.toNat
  { date, hour := t / 3600, minute := t / 60 % 60, second := t % 60, nanosecond }

/-- The moment so many nanoseconds after the year 1970 began, leap seconds not counted. -/
def ofNanoseconds (n : Nat) : Moment :=
  let seconds := n / 1000000000
  ofLocal (Nat.repeat Date.next (seconds / 86400) ⟨1970, 1, 1⟩) 0 0 (seconds % 86400)
    (n % 1000000000) 0

/-! ### Reading -/

/-- The text without leading blanks. -/
def skipBlanks (cs : List Char) : List Char := cs.dropWhile Text.isBlankChar

/-- A number of one to `width` digits, and the characters after it. -/
def readNumber (width : Nat) (cs : List Char) : Option (Nat × List Char) :=
  let ds := (cs.take width).takeWhile Decimal.isDigit
  if ds.isEmpty then none else some (Decimal.value ds, cs.drop ds.length)

/-- A number after blanks. -/
def readField (width : Nat) (cs : List Char) : Option (Nat × List Char) :=
  readNumber width (skipBlanks cs)

/-- A year after blanks: up to four digits, or any number of them after a sign. -/
def readYear (cs : List Char) : Option (Int × List Char) :=
  match skipBlanks cs with
  | '-' :: rest => (readNumber rest.length rest).map fun (n, rest) => (-(n : Int), rest)
  | '+' :: rest => (readNumber rest.length rest).map fun (n, rest) => ((n : Int), rest)
  | cs => (readNumber 4 cs).map fun (n, rest) => ((n : Int), rest)

/-- A mark after blanks. -/
def readMark (mark : Char) (cs : List Char) : Option (List Char) :=
  match skipBlanks cs with
  | c :: rest => if c = mark then some rest else none
  | [] => none

/-- A fraction of a second in nanoseconds; places beyond the ninth are dropped. -/
def readFraction (cs : List Char) : Option (Nat × List Char) :=
  match cs with
  | '.' :: rest =>
      let ds := (rest.take 9).takeWhile Decimal.isDigit
      if ds.isEmpty then none
      else some (Decimal.value ds * Nat.pow 10 (9 - ds.length), rest.dropWhile Decimal.isDigit)
  | _ => some (0, cs)

/-- Two digits. -/
def readPair (cs : List Char) : Option (Nat × List Char) :=
  match cs with
  | a :: b :: rest =>
      if Decimal.isDigit a && Decimal.isDigit b then some (Decimal.value [a, b], rest) else none
  | _ => none

/-- The hours and minutes of an offset, in seconds. -/
def readOffsetSize (cs : List Char) : Option (Int × List Char) := do
  let (hours, rest) ← readPair cs
  let (minutes, rest) ← readPair (rest.dropWhile fun c => c = ':' || Text.isBlankChar c)
  if 60 ≤ minutes then none
  return (hours * 3600 + minutes * 60, rest)

/-- The letter without regard to case. -/
def isLetter (lower : Char) (c : Char) : Bool := c.toLower = lower

/-- An offset in seconds: a letter for none, or a sign with hours and minutes. -/
def readOffset (cs : List Char) : Option (Int × List Char) :=
  let signed : Option (Int × List Char) :=
    match cs with
    | [] => none
    | c :: rest =>
        if isLetter 'z' c then some (0, rest)
        else if c = '+' then readOffsetSize rest
        else if c = '-' || c = '−' then (readOffsetSize rest).map fun (n, rest) => (-n, rest)
        else none
  match cs with
  | u :: t :: c :: rest =>
      if isLetter 'u' u && isLetter 't' t && isLetter 'c' c then some (0, rest) else signed
  | _ => signed

/-- The mark between the day and the time. -/
def readDivider (cs : List Char) : Option (List Char) :=
  match cs with
  | c :: rest => if c = 'T' || c = 't' || c = ' ' then some rest else none
  | [] => none

/-- Reads a moment. -/
def parse? (s : String) : Option Moment := do
  let (year, cs) ← readYear s.toList
  let cs ← readMark '-' cs
  let (month, cs) ← readField 2 cs
  let cs ← readMark '-' cs
  let (day, cs) ← readField 2 cs
  let cs ← readDivider cs
  let (hour, cs) ← readField 2 cs
  let cs ← readMark ':' cs
  let (minute, cs) ← readField 2 cs
  let cs ← readMark ':' cs
  let (second, cs) ← readField 2 cs
  let (fraction, cs) ← readFraction cs
  let (offset, cs) ← readOffset (skipBlanks cs)
  let date : Date := ⟨year, month, day⟩
  if !(skipBlanks cs).isEmpty || !date.isValid || !date.isInRange then none
  if 23 < hour || 59 < minute || 60 < second then none
  if offset ≤ -86400 || 86400 ≤ offset then none
  let leap := second = 60
  let m := ofLocal date hour minute (if leap then 59 else second)
    (if leap then fraction + 1000000000 else fraction) offset
  if m.date.isInRange then some m else none

end Moment

end Testbench
