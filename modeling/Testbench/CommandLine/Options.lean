/-
**What a command line asks for.**

The first word may choose a command; without one, tests are run.  The options become a layer of the
configuration, changes to parts of it, and switches for the run itself.

Main definitions:

* `Testbench.CommandLine.Options`, `Testbench.CommandLine.Overrides` — what is asked for;
* `Testbench.CommandLine.parse` — the options of a command line;
* `Testbench.CommandLine.Overrides.apply` — the changes to a configuration.
-/

import Testbench.CommandLine.Grammar
import Testbench.Config.Basic

set_option relaxedAutoImplicit false
set_option autoImplicit false

namespace Testbench.CommandLine

/-- Which work is to be done. -/
inductive Mode
  | run
  | riscof
deriving DecidableEq, Repr

/-- Changes to parts of a configuration that has been put together. -/
structure Overrides where
  /-- Put behind the skip list. -/
  extraSkip : List String := []
  /-- Put in place of the flags of the simulator. -/
  flags : Option (List String) := none
  riscofDir : Option Path := none
  riscofArtifact : Option Path := none
  riscofScript : Option String := none
deriving DecidableEq, Repr

/-- What a command line asks for. -/
structure Options where
  mode : Mode
  configPath : Option Path
  preset : Option String
  /-- Fields of the configuration that are replaced. -/
  layer : Layer
  overrides : Overrides
  release : Bool
  noBuild : Bool
  json : Bool
  quiet : Bool
  verbose : Bool
deriving DecidableEq, Repr

/-! ### From words to options -/

namespace Found

/-- The option was given. -/
def has (f : Found) (o : Opt) : Bool := f.any fun (p, _) => p = o

/-- The values of an option, in order. -/
def values (f : Found) (o : Opt) : List Value :=
  f.filterMap fun (p, v) => if p = o then v else none

/-- The texts of an option, in order. -/
def texts (f : Found) (o : Opt) : List String :=
  (values f o).filterMap fun
    | .text s => some s
    | .number _ => none

/-- The texts of an option, if it was given. -/
def texts? (f : Found) (o : Opt) : Option (List String) :=
  if has f o then some (texts f o) else none

/-- The text of an option. -/
def text? (f : Found) (o : Opt) : Option String := (texts f o).head?

/-- The path of an option. -/
def path? (f : Found) (o : Opt) : Option Path := (text? f o).map Path.mk

/-- The number of an option. -/
def number? (f : Found) (o : Opt) : Option Nat :=
  ((values f o).filterMap fun
    | .number n => some n
    | .text _ => none).head?

end Found

/-- The layer of a line that runs tests. -/
def runLayer (f : Found) : Layer where
  root := Found.path? f .root
  patterns := Found.texts? f .pattern
  smoke :=
    if Found.has f .noSmoke then some (.enabled false) else (Found.path? f .smoke).map .set
  jobs := Found.number? f .jobs
  timeoutSecs := Found.number? f .timeout
  reportPaths := if Found.has f .basename then some .basename else none

/-- What options ask for. -/
def ofFound (mode : Mode) (f : Found) : Options where
  mode
  configPath := Found.path? f .config
  preset := Found.text? f .preset
  layer :=
    match mode with
    | .run => runLayer f
    | .riscof => {}
  overrides :=
    match mode with
    | .run => { extraSkip := Found.texts f .skip, flags := Found.texts? f .flag }
    | .riscof =>
        { riscofDir := Found.path? f .dir
          riscofArtifact := Found.path? f .artifact
          riscofScript := Found.text? f .script }
  release := Found.has f .release
  noBuild := Found.has f .noBuild
  json :=
    match mode with
    | .run => Found.has f .json
    | .riscof => false
  quiet := Found.has f .quiet
  verbose := Found.has f .verbose

/-! ### Commands -/

/-- The words that choose a command. -/
def commandWords : List String := ["run", "riscof", "help"]

/-- A line without a command. -/
def bare : Dialect where
  options := Opt.shared ++ Opt.forRuns ++ [.version]
  commands := commandWords

/-- A line after the command that runs tests. -/
def runDialect : Dialect where
  options := Opt.shared ++ Opt.forRuns

/-- A line after the command for a RISCOF run. -/
def riscofDialect : Dialect where
  options := Opt.shared ++ Opt.forRiscof

/-- What a request for help answers: help for the commands named, of which there can be one. -/
def helpFor : List String → UsageError
  | [] => .displayHelp
  | [word] => if commandWords.contains word then .displayHelp else .invalidSubcommand
  | _ => .invalidSubcommand

/-- What a command line asks for, or why it is refused. -/
def parse (words : List String) : Except UsageError Options :=
  match words with
  | [] => (bare.parse []).map (ofFound .run)
  | first :: rest =>
      if first = "run" then (runDialect.parse rest).map (ofFound .run)
      else if first = "riscof" then (riscofDialect.parse rest).map (ofFound .riscof)
      else if first = "help" then .error (helpFor rest)
      else (bare.parse (first :: rest)).map (ofFound .run)

/-! ### Changes to a configuration -/

/-- Why changes cannot be made. -/
inductive Refusal
  /-- A setting is missing that only an option could supply. -/
  | missing (option : Opt)
  | failure (f : Failure)
deriving DecidableEq, Repr

/-- The refusal in words. -/
def Refusal.message : Refusal → String
  | missing o => "--" ++ o.long ++ " is required when no [riscof] section is configured"
  | failure f => f.message

namespace Overrides

/-- A part of the RISCOF run is changed. -/
def touchesRiscof (o : Overrides) : Bool :=
  o.riscofDir.isSome || o.riscofArtifact.isSome || o.riscofScript.isSome

/-- The RISCOF run with its parts changed; what neither side names is missing, except the script. -/
def mergeRiscof (o : Overrides) (current : Option Riscof) : Except Refusal Riscof := do
  let some dir := o.riscofDir <|> current.map (·.dir) | throw (.missing .dir)
  let some artifact := o.riscofArtifact <|> current.map (·.artifact) | throw (.missing .artifact)
  let script := (o.riscofScript <|> current.map (·.script)).getD Riscof.defaultScript
  return { dir, artifact, script }

/-- Changes a configuration.  The lists are changed first, so that a refusal leaves them
changed, and the RISCOF run is taken out before it is put back. -/
def apply (o : Overrides) (c : Config) : Except Refusal Unit × Config :=
  let c := { c with
    skip := c.skip ++ o.extraSkip
    simulator := { c.simulator with flags := o.flags.getD c.simulator.flags } }
  let done (c : Config) : Except Refusal Unit × Config :=
    match c.check with
    | some f => (.error (.failure f), c)
    | none => (.ok (), c)
  if o.touchesRiscof then
    match o.mergeRiscof c.riscof with
    | .error refusal => (.error refusal, { c with riscof := none })
    | .ok r => done { c with riscof := some r }
  else done c

end Overrides

end Testbench.CommandLine
