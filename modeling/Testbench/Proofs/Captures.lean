/-
**Output is collected whole.**

What a program and those that it leaves behind write comes through one pipe, and the pipe hands it
over in pieces that have nothing to do with how it was written: a piece may end in the middle of a
line, or of a character.  The lines that are collected do not show where the pieces ended, nothing
is lost of them, and the text is that of all bytes in their order.  Showing the lines as they arrive
shows the same bytes and changes nothing about the text.

The text could as well be put together from the texts of the lines, because a line break ends
whatever sequence the decoder is inside of.

Main definitions:

* `Testbench.LinesOf` — bytes cut behind every line break;
* `Testbench.Capture.Ordered` — what holds while output is collected;
* `Testbench.Lifeline.arriving` — the bytes that arrive from a program.

Main results:

* `Testbench.Capture.linesOf_lines` — **the lines that are collected are those of the bytes**;
* `Testbench.LinesOf.join_lossy` — decoding may be done line by line;
* `Testbench.echoed_afterRun` — what is shown of a program are the bytes that arrive from it;
* `Testbench.execute_captures_all` — **the output of a program is the text of all of its bytes**.
-/

import Testbench.Proofs.LossyText
import Testbench.Proofs.Streams

set_option relaxedAutoImplicit false
set_option autoImplicit false

namespace Testbench

/-! ### Lines -/

/-- The **lines of bytes**: the bytes cut behind every line break, and nowhere else. -/
structure LinesOf (bytes : List UInt8) (lines : List (List UInt8)) : Prop where
  flatten_eq : lines.flatten = bytes
  ne_nil : ∀ line ∈ lines, line ≠ []
  break_last : ∀ line ∈ lines, 10 ∉ line.dropLast
  ended : ∀ line ∈ lines.dropLast, line.getLast? = some 10

namespace Utf8

/-- Behind lines that are ended decoding starts afresh. -/
theorem lossyChars_flatten_append {lines : List (List UInt8)}
    (h : ∀ line ∈ lines, line.getLast? = some 10) (rest : List UInt8) :
    lossyChars (lines.flatten ++ rest) = lines.flatMap lossyChars ++ lossyChars rest := by
  induction lines with
  | nil => rfl
  | cons line lines ih =>
      obtain ⟨body, rfl⟩ := List.getLast?_eq_some_iff.1 (h line List.mem_cons_self)
      rw [List.flatten_cons, List.append_assoc, lossyChars_line_append,
        ih fun line hline => h line (List.mem_cons_of_mem _ hline), List.flatMap_cons,
        List.append_assoc]

theorem toList_join_lossy (lines : List (List UInt8)) :
    (String.join (lines.map lossy)).toList = lines.flatMap lossyChars := by
  induction lines with
  | nil => rfl
  | cons line lines ih => simp [lossy, ih]

end Utf8

namespace LinesOf

variable {lines : List (List UInt8)}

theorem of_ended (h : ∀ line ∈ lines, ∃ body, 10 ∉ body ∧ line = body ++ [10]) :
    LinesOf lines.flatten lines where
  flatten_eq := rfl
  ne_nil line hline := by
    obtain ⟨body, -, rfl⟩ := h line hline
    simp
  break_last line hline := by
    obtain ⟨body, hbody, rfl⟩ := h line hline
    rwa [List.dropLast_concat]
  ended line hline := by
    obtain ⟨body, -, rfl⟩ := h line (List.dropLast_subset _ hline)
    simp

/-- The last line may have no line break. -/
theorem of_ended_append (h : ∀ line ∈ lines, ∃ body, 10 ∉ body ∧ line = body ++ [10])
    {last : List UInt8} (hne : last ≠ []) (hlast : 10 ∉ last) :
    LinesOf (lines.flatten ++ last) (lines ++ [last]) where
  flatten_eq := by rw [List.flatten_append, List.flatten_singleton]
  ne_nil line hline := by
    rcases List.mem_append.1 hline with hline | hline
    · exact (of_ended h).ne_nil line hline
    · rwa [List.mem_singleton.1 hline]
  break_last line hline := by
    rcases List.mem_append.1 hline with hline | hline
    · exact (of_ended h).break_last line hline
    · rw [List.mem_singleton.1 hline]
      exact fun hmem => hlast (List.dropLast_subset _ hmem)
  ended line hline := by
    rw [List.dropLast_concat] at hline
    obtain ⟨body, -, rfl⟩ := h line hline
    simp

/-- **Decoding may be done line by line.** -/
theorem join_lossy {bytes : List UInt8} (h : LinesOf bytes lines) :
    String.join (lines.map Utf8.lossy) = Utf8.lossy bytes := by
  obtain rfl := h.flatten_eq
  rw [← String.toList_inj, Utf8.toList_join_lossy, Utf8.lossy, String.toList_ofList]
  -- only the last line may have no break, and behind all others decoding starts afresh
  rcases List.eq_nil_or_concat lines with rfl | ⟨init, last, rfl⟩
  · rfl
  · have hended : ∀ line ∈ init, line.getLast? = some 10 := by
      simpa using h.ended
    rw [List.concat_eq_append, List.flatten_append, List.flatten_singleton,
      Utf8.lossyChars_flatten_append hended, List.flatMap_append, List.flatMap_singleton]

end LinesOf

/-! ### Collecting -/

namespace Capture

/-- While output is collected **lines are in order**: a line is complete when its only line break
has come, and the line that is open has none yet. -/
structure Ordered (c : Capture) : Prop where
  complete : ∀ line ∈ c.complete, ∃ body, 10 ∉ body ∧ line = body ++ [10]
  openLine : 10 ∉ c.openLine

theorem ordered_start : ({} : Capture).Ordered := ⟨by simp, by simp⟩

theorem Ordered.feed {c : Capture} (h : c.Ordered) (b : UInt8) : (c.feed b).Ordered := by
  rw [Capture.feed]
  split
  · next hbreak =>
      subst hbreak
      refine ⟨fun line hline => ?_, by simp⟩
      rcases List.mem_cons.1 hline with rfl | hline
      · exact ⟨c.openLine.reverse, by simpa using h.openLine, by simp⟩
      · exact h.complete line hline
  · next hother =>
      refine ⟨h.complete, ?_⟩
      rw [List.mem_cons, not_or]
      exact ⟨fun heq => hother heq.symm, h.openLine⟩

theorem Ordered.feedAll {c : Capture} (h : c.Ordered) (bytes : List UInt8) :
    (c.feedAll bytes).Ordered := by
  induction bytes generalizing c with
  | nil => exact h
  | cons b bytes ih => exact ih (h.feed b)

theorem Ordered.linesOf {c : Capture} (h : c.Ordered) : LinesOf c.bytes c.lines := by
  have hcomplete : ∀ line ∈ c.complete.reverse, ∃ body, 10 ∉ body ∧ line = body ++ [10] :=
    fun line hline => h.complete line (List.mem_reverse.1 hline)
  rw [bytes, lines]
  by_cases hopen : c.openLine = []
  · rw [hopen, List.isEmpty_nil, if_pos rfl, List.append_nil]
    exact .of_ended hcomplete
  · rw [List.isEmpty_eq_false_iff.2 hopen, if_neg Bool.false_ne_true, List.flatten_append,
      List.flatten_singleton]
    exact .of_ended_append hcomplete (mt List.reverse_eq_nil_iff.1 hopen)
      (mt List.mem_reverse.1 h.openLine)

/-- **The lines that are collected are those of the bytes**, in whatever pieces these arrive. -/
theorem linesOf_lines (reads : List (List UInt8)) :
    LinesOf reads.flatten (ofChunks reads).lines := by
  have hordered : (ofChunks reads).Ordered := by
    rw [ofChunks_eq]
    exact ordered_start.feedAll _
  rw [← flatten_lines reads]
  exact hordered.linesOf

theorem text_ofChunks (reads : List (List UInt8)) :
    (ofChunks reads).text = Utf8.lossy reads.flatten :=
  congrArg Utf8.lossy (flatten_lines reads)

end Capture

/-! ### Programs -/

/-- The bytes that **arrive** from a program under a limit, in order: all that it and those that it
leaves behind write, up to the time when they are killed. -/
def Lifeline.arriving (l : Lifeline) (limit : Option Span) : List UInt8 :=
  (l.chunks (l.killedAt limit)).flatten

theorem text_outputOf (l : Lifeline) (limit : Option Span) :
    (outputOf l limit).text = Utf8.lossy (l.arriving limit) := Capture.text_ofChunks _

theorem bytes_echoEvents (l : Lifeline) (limit : Option Span) :
    (echoEvents l limit).flatMap Event.bytes = l.arriving limit := by
  rw [echoEvents, List.flatMap_map]
  exact List.flatMap_id.trans (Capture.flatten_lines _)

/-- **What is shown of a program are the bytes that arrive from it**, and nothing if they are not to
be shown. -/
theorem echoed_afterRun (s : Scene) (command : Command) (options : ExecOptions) (l : Lifeline) :
    ((s.attempt command).afterRun command options l).echoed =
      s.echoed ++ if options.echo then l.arriving options.timeout else [] := by
  rw [Scene.echoed_eq, Scene.afterRun]
  simp only [List.flatMap_append, bytes_killEvents, ← Scene.echoed_eq, Scene.echoed_attempt]
  cases options.echo
  · simp [Event.bytes]
  · simp [Event.bytes, bytes_echoEvents]

/-- **The output of a program is the text of all of its bytes.**  Whatever is written to the pipe of
a program that is started, the output holds the text of the bytes that arrive, in their order, and
nothing that is written is missing unless the program is killed.  The pieces in which the bytes are
read do not matter, and decoding the lines one by one gives the same text.  What is shown meanwhile
are those very bytes, and the output is the same whether they are shown or not. -/
theorem execute_captures_all (m : Machine) (command : Command) (options : ExecOptions) (s : Scene)
    {l : Lifeline} (h : m.launch s.disk command = .ok l) :
    ∃ output s', (execute m command options).run s = (.ok output, s') ∧
      Utf8.ReadsAs (l.arriving options.timeout) output.text.toList ∧
      (l.killedAt options.timeout = none →
        l.arriving options.timeout = l.writes.flatMap (·.2)) ∧
      (∀ reads : List (List UInt8), reads.flatten = l.arriving options.timeout →
        (Capture.ofChunks reads).text = output.text ∧
          LinesOf (l.arriving options.timeout) (Capture.ofChunks reads).lines) ∧
      (∀ lines, LinesOf (l.arriving options.timeout) lines →
        String.join (lines.map Utf8.lossy) = output.text) ∧
      s'.echoed = s.echoed ++ (if options.echo then l.arriving options.timeout else []) ∧
      ((execute m command { options with echo := !options.echo }).run s).1 = .ok output := by
  refine ⟨outputOf l options.timeout, _, ?_, ?_, ?_, ?_, ?_, echoed_afterRun s command options l,
    ?_⟩
  · rw [run_execute, h]
  · rw [text_outputOf, Utf8.readsAs_iff, Utf8.lossy, String.toList_ofList]
  · intro hkilled
    rw [Lifeline.arriving, hkilled, Lifeline.bytes_none, List.flatMap_def]
  · intro reads hreads
    rw [text_outputOf, ← hreads]
    exact ⟨Capture.text_ofChunks reads, Capture.linesOf_lines reads⟩
  · intro lines hlines
    rw [text_outputOf, hlines.join_lossy]
  · rw [run_execute, h]

/-- A machine whose programs write a character in two pieces, and one byte that is none. -/
def torn : Machine where
  launch disk _ := .ok
    { directory := [], writes := [(⟨0⟩, [0xC3]), (⟨1⟩, [0xA9, 10, 0xE2, 0x82])], endsAt := ⟨2⟩
      goneAt := ⟨2⟩, ended := .exited 0, leaves := fun _ => disk, group := 1 }

/-- A character that is torn apart is read as one, and half a character at the end is replaced. -/
theorem output_of_torn : ∃ l output s',
    torn.launch {} ⟨"sim", [], none⟩ = .ok l ∧
      (execute torn ⟨"sim", [], none⟩ { echo := true }).run (.ofDisk {}) = (.ok output, s') ∧
      output.text = "é\n\uFFFD" ∧ s'.echoed = [0xC3, 0xA9, 10, 0xE2, 0x82] := by
  obtain ⟨output, s', hrun, hreads, -, -, -, hechoed, -⟩ :=
    execute_captures_all torn ⟨"sim", [], none⟩ { echo := true } (.ofDisk {}) rfl
  refine ⟨_, output, s', rfl, hrun, ?_, hechoed⟩
  rw [← String.toList_inj, ← Utf8.readsAs_iff.1 hreads]
  decide +kernel

end Testbench
