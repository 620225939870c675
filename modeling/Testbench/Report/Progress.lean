/-
**The progress line.**

While tests run, one line is drawn again and again with the number of tests that have ended; when
all is done it is replaced once by a line that stays.

Main definitions:

* `Testbench.Progress` — the counters of the line;
* `Testbench.Progress.record`, `Testbench.Progress.finish` — what is counted, and what is drawn.
-/

import Testbench.Report.Result

set_option relaxedAutoImplicit false
set_option autoImplicit false

namespace Testbench

/-- The counters of a progress line. -/
structure Progress where
  /-- A line that is switched off draws nothing. -/
  enabled : Bool
  total : Nat
  passed : Nat := 0
  failed : Nat := 0
  finished : Bool := false
deriving DecidableEq, Repr

namespace Progress

/-- The number of tests that have ended. -/
def completed (p : Progress) : Nat := p.passed + p.failed

/-- The counters in words. -/
def counters (p : Progress) : String :=
  "Completed " ++ Decimal.ofNat p.completed ++ "/" ++ Decimal.ofNat p.total ++
    " tests (passed: " ++ Decimal.ofNat p.passed ++ ", failed: " ++ Decimal.ofNat p.failed ++ ")"

/-- The line with a result counted. -/
def count (p : Progress) (r : TestResult) : Progress :=
  if r.outcome.isPass then { p with passed := p.passed + 1 } else { p with failed := p.failed + 1 }

/-- Counts a result and draws the line again. -/
def record (p : Progress) (r : TestResult) : String × Progress :=
  let p := p.count r
  (if p.enabled then "\r" ++ p.counters else "", p)

/-- Draws the line that stays, unless it was drawn or there is nothing to count. -/
def finish (p : Progress) : String × Progress :=
  if p.finished then ("", p)
  else
    (if p.enabled && p.total ≠ 0 then "\r✓ " ++ p.counters ++ "\n" else "",
      { p with finished := true })

end Progress

end Testbench
