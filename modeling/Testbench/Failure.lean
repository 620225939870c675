/-
**What ends a run.**

A test that fails is a result.  What ends a run is a gate that did not open, a pattern or a
configuration that makes no sense, or a file that cannot be used.

Main definitions:

* `Testbench.Failure` — the causes;
* `Testbench.Failure.message`, `Testbench.Failure.cause` — their texts;
* `Testbench.Failure.gate?`, `Testbench.Failure.captured` — a failed gate, and what it printed.

Two things are left out.  What is wrong with the text of a configuration file is not told, only
that something is: the words for it are those of the reader of such texts.  And a run cannot fail
for want of workers: that as many of them can be started as are asked for is taken for granted.
-/

import Testbench.Pattern.Glob
import Testbench.World.Fault

set_option relaxedAutoImplicit false
set_option autoImplicit false

namespace Testbench

/-- Why a run ended early. -/
inductive Failure
  /-- The simulator could not be built. -/
  | buildFailed (code : Int) (output : String)
  /-- A gate other than the build did not open. -/
  | gateFailed (name : String) (code : Int) (output : String)
  | invalidPattern (pattern : String) (refusal : Glob.Refusal)
  | unknownPreset (name : String)
  /-- The configuration makes no sense. -/
  | badConfig (text : String)
  | unreadableConfig (path : Path) (fault : Fault)
  /-- The text of a file spells no configuration layer.  Where and why is left out. -/
  | unparsableConfig (path : Path)
  /-- A file could not be used. -/
  | unusable (context : String) (fault : Fault)
deriving DecidableEq, Repr

namespace Failure

/-- The failure in words.  For a text that spells no layer they end with the name of the file; a colon
and the words of the reader, which would follow, are left out. -/
def message : Failure → String
  | buildFailed code _ => "build failed with return code " ++ Decimal.ofInt code
  | gateFailed name code _ => name ++ " failed with return code " ++ Decimal.ofInt code
  | invalidPattern pattern refusal =>
      "invalid test pattern '" ++ pattern ++ "': " ++ refusal.message
  | unknownPreset name => "unknown preset '" ++ name ++ "' (expected one of: isa, isa-p, am)"
  | badConfig text => "invalid configuration: " ++ text
  | unreadableConfig path fault =>
      "failed to read config file " ++ path.text ++ ": " ++ fault.message
  | unparsableConfig path => "failed to parse config file " ++ path.text
  | unusable context fault => context ++ ": " ++ fault.message

/-- The failure behind the failure, in words, if there is one.  For a text that spells no layer
there is one, but its words are those of the reader and left out: a sentence stands in their
place. -/
def cause : Failure → Option String
  | invalidPattern _ refusal => some refusal.message
  | unreadableConfig _ fault | unusable _ fault => some fault.message
  | unparsableConfig _ => some "the text does not spell a configuration layer"
  | buildFailed .. | gateFailed .. | unknownPreset _ | badConfig _ => none

/-- The name of a failed gate. -/
def gate? : Failure → Option String
  | buildFailed .. => some "Build"
  | gateFailed name _ _ => some name
  | _ => none

/-- What a failed gate printed. -/
def captured : Failure → Option String
  | buildFailed _ output | gateFailed _ _ output => some output
  | _ => none

end Failure

end Testbench
