/-
**Capturing output.**

The output of a program and of all it leaves behind arrives through one pipe, in pieces of any size.
It is collected line by line, so that lines can be shown as they arrive; a last line without a line
break counts as well.  The text of the output is decoded once, from all bytes together.

Main definitions:

* `Testbench.Capture`, `Testbench.Capture.feed` — collecting byte by byte;
* `Testbench.Capture.ofChunks` — collecting pieces;
* `Testbench.Capture.lines`, `Testbench.Capture.text` — what was collected.

Main results:

* `Testbench.Capture.flatten_lines` — the lines together are the bytes that arrived;
* `Testbench.Capture.ofChunks_eq` — how the bytes were divided does not matter.
-/

import Testbench.Text.Utf8

set_option relaxedAutoImplicit false
set_option autoImplicit false

namespace Testbench

/-- Output while it is being collected: complete lines, the latest first, and the bytes of the line
that is open, the latest first. -/
structure Capture where
  complete : List (List UInt8) := []
  openLine : List UInt8 := []
deriving DecidableEq, Repr

namespace Capture

/-- Collects one byte; a line break completes the line. -/
def feed (c : Capture) (b : UInt8) : Capture :=
  if b = 10 then ⟨(b :: c.openLine).reverse :: c.complete, []⟩
  else ⟨c.complete, b :: c.openLine⟩

/-- Collects a piece. -/
def feedAll (c : Capture) (bytes : List UInt8) : Capture := bytes.foldl feed c

/-- Collects the pieces that arrive. -/
def ofChunks (chunks : List (List UInt8)) : Capture := chunks.foldl feedAll {}

/-- The lines collected, each with its line break; the last may have none. -/
def lines (c : Capture) : List (List UInt8) :=
  c.complete.reverse ++ if c.openLine.isEmpty then [] else [c.openLine.reverse]

/-- The bytes collected. -/
def bytes (c : Capture) : List UInt8 := c.lines.flatten

/-- The **text collected**. -/
def text (c : Capture) : String := Utf8.lossy c.bytes

theorem bytes_eq (c : Capture) : c.bytes = c.complete.reverse.flatten ++ c.openLine.reverse := by
  cases h : c.openLine <;> simp [bytes, lines, h]

theorem bytes_feed (c : Capture) (b : UInt8) : (c.feed b).bytes = c.bytes ++ [b] := by
  simp only [bytes_eq, feed]
  split <;> simp

theorem bytes_feedAll (c : Capture) (bs : List UInt8) : (c.feedAll bs).bytes = c.bytes ++ bs := by
  induction bs generalizing c with
  | nil => simp [feedAll]
  | cons b bs ih =>
      rw [feedAll, List.foldl_cons, ← feedAll, ih, bytes_feed]
      simp

/-- How the bytes were divided does not matter. -/
theorem ofChunks_eq (chunks : List (List UInt8)) :
    ofChunks chunks = ({} : Capture).feedAll chunks.flatten := by
  have h : ∀ c : Capture, chunks.foldl feedAll c = c.feedAll chunks.flatten := by
    induction chunks with
    | nil => intro c; rfl
    | cons x xs ih => intro c; simp [feedAll, ih, List.foldl_append]
  exact h {}

/-- The lines together are the bytes that arrived. -/
theorem flatten_lines (chunks : List (List UInt8)) :
    (ofChunks chunks).lines.flatten = chunks.flatten := by
  have h := bytes_feedAll {} chunks.flatten
  rw [ofChunks_eq]
  simpa [bytes, lines] using h

end Capture

end Testbench
