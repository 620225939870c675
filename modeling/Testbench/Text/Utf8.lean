/-
**Reading bytes as text.**

Programs print bytes; reports hold text.  The decoder is a machine that reads one byte at a time
and remembers the sequence it is inside of.  A byte that cannot continue that sequence ends it: the
bytes read so far stand for one replacement character, and the byte itself is read afresh.  So each
maximal broken piece becomes one U+FFFD, and nothing depends on how the bytes were divided into
chunks.

Main definitions:

* `Testbench.Utf8.encode` — the bytes of a text;
* `Testbench.Utf8.Pending`, `Testbench.Utf8.step`, `Testbench.Utf8.Decoder` — the decoder;
* `Testbench.Utf8.lossy` — the text of any bytes;
* `Testbench.Utf8.strict?` — the text of well-formed bytes.

Main results:

* `Testbench.Utf8.Decoder.run_append` — decoding may pause between any two bytes;
* `Testbench.Utf8.Decoder.run_done` — what is read later does not touch what was read before.
-/

set_option relaxedAutoImplicit false
set_option autoImplicit false

namespace Testbench.Utf8

/-! ### Encoding -/

/-- The bytes of a list of characters. -/
def encodeChars (cs : List Char) : List UInt8 := cs.flatMap String.utf8EncodeChar

/-- The bytes of a text. -/
def encode (s : String) : List UInt8 := encodeChars s.toList

/-! ### The decoder -/

/-- The sequence the decoder is inside of: the bits gathered so far, the bytes still due, and the
range that the next of them has to lie in. -/
structure Pending where
  bits : Nat
  due : Nat
  least : Nat
  most : Nat
deriving DecidableEq, Repr

/-- What one byte does. -/
inductive Step
  /-- The byte belongs to a sequence that goes on. -/
  | inside (next : Pending)
  /-- The byte completes a character. -/
  | character (c : Char)
  /-- The byte fits nowhere. -/
  | broken
deriving DecidableEq, Repr

/-- The effect of a byte at the start of a sequence. -/
def lead (b : Nat) : Step :=
  if b < 0x80 then .character (Char.ofNat b)
  else if b < 0xC2 then .broken
  else if b < 0xE0 then .inside ⟨b - 0xC0, 1, 0x80, 0xBF⟩
  else if b = 0xE0 then .inside ⟨0, 2, 0xA0, 0xBF⟩
  else if b = 0xED then .inside ⟨0xD, 2, 0x80, 0x9F⟩
  else if b < 0xF0 then .inside ⟨b - 0xE0, 2, 0x80, 0xBF⟩
  else if b = 0xF0 then .inside ⟨0, 3, 0x90, 0xBF⟩
  else if b = 0xF4 then .inside ⟨4, 3, 0x80, 0x8F⟩
  else if b < 0xF4 then .inside ⟨b - 0xF0, 3, 0x80, 0xBF⟩
  else .broken

/-- The effect of a byte inside a sequence. -/
def continuation (p : Pending) (b : Nat) : Step :=
  if b < p.least || p.most < b then .broken
  else if p.due ≤ 1 then .character (Char.ofNat (p.bits * 64 + (b - 0x80)))
  else .inside ⟨p.bits * 64 + (b - 0x80), p.due - 1, 0x80, 0xBF⟩

/-- The character that stands for bytes that are no text. -/
def replacement : Char := Char.ofNat 0xFFFD

/-- Reads a byte at the start of a sequence: the characters it completes and the sequence left
open. -/
def stepStart (b : UInt8) : List Char × Option Pending :=
  match lead b.toNat with
  | .inside q => ([], some q)
  | .character c => ([c], none)
  | .broken => ([replacement], none)

/-- Reads one byte: the characters it completes and the sequence left open.  A byte that breaks a
sequence is read again as the start of the next. -/
def step (p : Option Pending) (b : UInt8) : List Char × Option Pending :=
  match p with
  | none => stepStart b
  | some p =>
      match continuation p b.toNat with
      | .inside q => ([], some q)
      | .character c => ([c], none)
      | .broken => (replacement :: (stepStart b).1, (stepStart b).2)

/-- What an unfinished sequence stands for at the end. -/
def rest : Option Pending → List Char
  | none => []
  | some _ => [replacement]

/-- A decoder at work: the characters completed so far, the latest first, and the sequence left
open. -/
structure Decoder where
  done : List Char := []
  pending : Option Pending := none
deriving DecidableEq, Repr

/-- Reads one byte. -/
def Decoder.feed (d : Decoder) (b : UInt8) : Decoder :=
  let now := step d.pending b
  ⟨now.1.reverse ++ d.done, now.2⟩

/-- Reads bytes. -/
def Decoder.run (d : Decoder) (bs : List UInt8) : Decoder := bs.foldl Decoder.feed d

/-- The text read, an unfinished sequence included. -/
def Decoder.text (d : Decoder) : List Char := d.done.reverse ++ rest d.pending

/-- The **text of any bytes**, one replacement character for each maximal broken piece. -/
def lossyChars (bs : List UInt8) : List Char := (Decoder.run {} bs).text

/-- The text of any bytes, as a string. -/
def lossy (bs : List UInt8) : String := String.ofList (lossyChars bs)

/-- Decoding may pause between any two bytes. -/
theorem Decoder.run_append (d : Decoder) (as bs : List UInt8) :
    d.run (as ++ bs) = (d.run as).run bs := List.foldl_append

@[simp] theorem Decoder.run_nil (d : Decoder) : d.run [] = d := rfl

@[simp] theorem Decoder.run_cons (d : Decoder) (b : UInt8) (bs : List UInt8) :
    d.run (b :: bs) = (d.feed b).run bs := rfl

/-- What was completed earlier only stands behind what is completed later. -/
theorem Decoder.run_done (p : Option Pending) (cs : List Char) (bs : List UInt8) :
    Decoder.run ⟨cs, p⟩ bs =
      ⟨(Decoder.run ⟨[], p⟩ bs).done ++ cs, (Decoder.run ⟨[], p⟩ bs).pending⟩ := by
  induction bs generalizing p cs with
  | nil => simp
  | cons b bs ih =>
      simp only [run_cons, Decoder.feed, List.append_nil]
      rw [ih, ih _ (step p b).1.reverse]
      simp [List.append_assoc]

/-! ### Well-formed bytes -/

/-- A strict decoder at work; nothing once a byte fitted nowhere. -/
def strictFeed (d : Option Decoder) (b : UInt8) : Option Decoder :=
  d.bind fun d =>
    match (match d.pending with | none => lead b.toNat | some p => continuation p b.toNat) with
    | .inside q => some ⟨d.done, some q⟩
    | .character c => some ⟨c :: d.done, none⟩
    | .broken => none

/-- The characters of well-formed bytes; nothing if any byte fits nowhere or the last sequence is
unfinished. -/
def strictChars? (bs : List UInt8) : Option (List Char) :=
  (bs.foldl strictFeed (some {})).bind fun d =>
    if d.pending.isNone then some d.done.reverse else none

/-- The **text of well-formed bytes**. -/
def strict? (bs : List UInt8) : Option String := (strictChars? bs).map String.ofList

end Testbench.Utf8
