/-
**What a person reads.**

A report has a line for every result, a summary, and the failures once more at its end, where they
are what is left on the screen.  The smoke test is shown by itself with all that it printed, and so
is a gate that failed.

Main definitions:

* `Testbench.Path.display` — how a test is named;
* `Testbench.TestResult.line`, `Testbench.Report.lines`, `Testbench.Report.text` — reports;
* `Testbench.TestResult.smokeText` — the smoke test;
* `Testbench.Failure.banner` — a gate that failed;
* `Testbench.Report.json` — a report for other programs.

Main results:

* `Testbench.Report.lines_eq` — the results come first and the failures last.
-/

import Testbench.Config.Basic
import Testbench.Json.Printer
import Testbench.Record.Report

set_option relaxedAutoImplicit false
set_option autoImplicit false

namespace Testbench

/-- How a test is named: by its path, or by the name of its file if it has one. -/
def Path.display (p : Path) : PathStyle → String
  | .full => p.text
  | .basename => p.fileName.getD p.text

namespace TestResult

/-- The line of a result. -/
def line (r : TestResult) (style : PathStyle) : String :=
  let head := r.test.display style ++ ", ret_code: " ++ Decimal.ofInt r.exitCode
  match r.outcome with
  | .crashOrTimeout reason => head ++ " (" ++ reason ++ ")"
  | _ => head

end TestResult

/-- A text with a line break at its end, unless it is empty. -/
def endingInBreak (s : String) : String :=
  if s = "" || Text.endsWith s "\n" then s else s ++ "\n"

/-- The **smoke test with all that it printed**. -/
def TestResult.smokeText (r : TestResult) (style : PathStyle) : String :=
  "Smoke test: " ++ r.test.display style ++ "\nReturn Code: " ++ Decimal.ofInt r.exitCode ++
    "\nOutput:\n" ++ endingInBreak r.output ++ "\n"

/-- What is shown of a gate that failed; other failures show nothing. -/
def Failure.banner (f : Failure) : String :=
  match f.gate? with
  | none => ""
  | some gate =>
      gate ++ " Failed!\n" ++
        match f.captured with
        | none => ""
        | some output => "Output:\n" ++ endingInBreak output

namespace Summary

/-- The lines of a summary. -/
def lines (s : Summary) : List String :=
  ["Run Summary:",
    "  " ++ Decimal.ofNat s.dispatched ++ " tests run, " ++ Decimal.ofNat s.passed ++ " passed, " ++
      Decimal.ofNat s.failed ++ " failed"] ++
    (if 0 < s.notRun then ["  Not run: " ++ Decimal.ofNat s.notRun ++ " tests"] else []) ++
    ["  Duration: " ++ Span.reportText s.durationMs] ++
    if s.interrupted = some true then ["  Status: Interrupted by user"] else []

end Summary

namespace Report

/-- The failures once more, under a heading of their own, if there are any. -/
def failureLines (failures : List TestResult) (style : PathStyle) : List String :=
  if failures.isEmpty then []
  else "" :: "Failures:" :: failures.map fun r => "  " ++ r.line style

/-- The lines of the results, with an empty one after them. -/
def resultLines (results : List TestResult) (style : PathStyle) : List String :=
  results.map (·.line style) ++ if results.isEmpty then [] else [""]

/-- The lines of a report. -/
def lines (r : Report) (style : PathStyle) : List String :=
  resultLines r.results.results style ++ r.summary.lines ++ failureLines r.results.failures style

/-- Lines, each with a line break. -/
def unlines (ls : List String) : String := String.join (ls.map (· ++ "\n"))

/-- The **report as a person reads it**. -/
def text (r : Report) (style : PathStyle) : String := unlines (r.lines style)

/-- The **report as other programs read it**. -/
def json (r : Report) : String := String.ofList (Json.pretty r.toData) ++ "\n"

/-- The results come first and the failures last. -/
theorem lines_eq (r : Report) (style : PathStyle) :
    r.lines style = resultLines r.results.results style ++
      (r.summary.lines ++ failureLines r.results.failures style) := by
  simp [lines]

end Report

end Testbench
