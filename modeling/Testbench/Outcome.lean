/-
**How a program ended.**

A program ends by itself with an exit code, by a signal, or because its time was up.  Every ending
has a code, so that results can be put in order, and an outcome that tells a pass from a failure and
from a crash.

Main definitions:

* `Testbench.Ending`, `Testbench.Ending.code` — the ways to end, and their codes;
* `Testbench.Outcome`, `Testbench.Ending.outcome` — what an ending means for a test;
* `Testbench.Output` — what is known of a program that has ended.

Main results:

* `Testbench.Outcome.isPass_ofExitCode` — zero is the only code that passes;
* `Testbench.Ending.code_timedOut` — running out of time has a code of its own.
-/

import Testbench.Time.Span

set_option relaxedAutoImplicit false
set_option autoImplicit false

namespace Testbench

/-- How a program ended. -/
inductive Ending
  | exited (code : Int)
  | signaled (signal : Int)
  /-- The program and its group were killed at the limit. -/
  | timedOut (limit : Span)
deriving DecidableEq, Repr

/-- What one run says about a test. -/
inductive Outcome
  | pass
  | fail (code : Int)
  | crashOrTimeout (reason : String)
deriving DecidableEq, Repr

/-- The code of a run that hit its limit. -/
def timeoutCode : Int := 124

/-- The code of a program that could not be started. -/
def dispatchFailureCode : Int := 127

namespace Outcome

/-- The outcome of an exit code: zero passes, any other code fails. -/
def ofExitCode (code : Int) : Outcome := if code = 0 then pass else fail code

/-- The test passed. -/
def isPass : Outcome → Bool
  | pass => true
  | _ => false

@[simp] theorem isPass_ofExitCode (code : Int) :
    (ofExitCode code).isPass = true ↔ code = 0 := by
  by_cases h : code = 0 <;> simp [ofExitCode, isPass, h]

end Outcome

namespace Ending

/-- The code of an ending: that of the program, the signal below zero, or that of a limit. -/
def code : Ending → Int
  | exited code => code
  | signaled signal => -signal
  | timedOut _ => timeoutCode

/-- What an ending means for a test. -/
def outcome : Ending → Outcome
  | exited code => .ofExitCode code
  | signaled signal => .crashOrTimeout ("terminated by signal " ++ Decimal.ofInt signal)
  | timedOut limit => .crashOrTimeout ("timed out after " ++ limit.text)

@[simp] theorem code_timedOut (limit : Span) : (timedOut limit).code = 124 := rfl

end Ending

/-- What is known of a program that has ended. -/
structure Output where
  returnCode : Int
  /-- Everything it printed, in the order of arrival. -/
  text : String
  ending : Ending
  duration : Span
deriving DecidableEq, Repr

namespace Output

/-- The program succeeded. -/
def success (o : Output) : Bool := o.returnCode = 0

/-- What the output says about a test. -/
def outcome (o : Output) : Outcome := o.ending.outcome

end Output

end Testbench
