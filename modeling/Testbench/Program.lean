/-
**The program.**

The program reads its command line, finds its configuration, and runs the tests or the compliance
tests.  For people, all that is shown goes to one stream; for other programs, that stream holds the
report and nothing else, and what people watch goes to the other one.  Notices go there too, as many
as the command line asks for.

Main definitions:

* `Testbench.Program.Answer` — streams and exit code;
* `Testbench.Program.stdoutOf`, `Testbench.Program.stderrOf` — where the events of a run go;
* `Testbench.Program.complaint` — a failure as it is shown at the end;
* `Testbench.Program.run` — the program.
-/

import Testbench.CommandLine.Options
import Testbench.Config.Load
import Testbench.Run.Riscof

set_option relaxedAutoImplicit false
set_option autoImplicit false

namespace Testbench.Program

open CommandLine

/-- What the program leaves behind. -/
structure Answer where
  exitCode : Nat
  stdout : List UInt8 := []
  stderr : List UInt8 := []
deriving DecidableEq, Repr

/-! ### Where events go -/

/-- The word for a level, five characters wide. -/
def levelWord : Level → String
  | .warn => "WARN "
  | .info => "INFO "
  | .debug => "DEBUG"

/-- The line of a notice. -/
def noticeLine (level : Level) (origin text : String) : String :=
  "[" ++ levelWord level ++ " " ++ origin ++ "] " ++ text ++ "\n"

/-- The notices of a level are shown. -/
def shows (o : Options) : Level → Bool
  | .warn => o.verbose || !o.quiet
  | .info | .debug => o.verbose

/-- What an event writes for the report's stream. -/
def stdoutOf (o : Options) : Event → List UInt8
  | .echoed bytes => bytes
  | .status text => if o.json then [] else Utf8.encode text
  | _ => []

/-- What an event writes to the other stream. -/
def stderrOf (o : Options) : Event → List UInt8
  | .status text => if o.json then Utf8.encode text else []
  | .progress text => Utf8.encode text
  | .notice level origin text =>
      if shows o level then Utf8.encode (noticeLine level origin text) else []
  | _ => []

/-! ### Failures at the end -/

/-- Lines after the first with blanks in front. -/
def indented (width : Nat) (text : String) : String :=
  Text.joined ("\n" ++ String.ofList (List.replicate width ' '))
    ((Text.pieces '\n' text.toList).map String.ofList)

/-- The causes of a failure, numbered if there are several. -/
def causesText (causes : List String) : String :=
  match causes with
  | [] => ""
  | [cause] => "\n\nCaused by:\n    " ++ indented 4 cause
  | causes =>
      "\n\nCaused by:\n" ++ Text.joined "\n" (causes.mapIdx fun i cause =>
        let number := Decimal.digits i
        String.ofList (List.replicate (5 - number.length) ' ' ++ number) ++ ": " ++
          indented 7 cause)

/-- A **failure as it is shown at the end**, with what is behind it. -/
def complaint (message : String) (causes : List String) : String :=
  "Error: " ++ message ++ causesText causes ++ "\n"

/-- The failure as it is shown when the configuration cannot be put together. -/
def loadComplaint (f : Failure) : String :=
  complaint "Failed to load configuration" (f.message :: f.cause.toList)

/-- The failure as it is shown when the run could not be finished. -/
def runComplaint (f : Failure) : String := complaint f.message f.cause.toList

/-- Why the options do not fit the configuration, as it is shown. -/
def refusalComplaint : Refusal → String
  | .missing o => complaint (Refusal.missing o).message []
  | .failure f => runComplaint f

/-! ### The program -/

/-- What the options ask of the run. -/
def requestOf (o : Options) (interrupted : Bool) : RunRequest where
  release := o.release
  skipBuild := o.noBuild
  echoBuild := !o.quiet && !o.json
  echoSmoke := !o.quiet && !o.json
  showProgress := !o.quiet
  interrupted := interrupted

/-- The configuration of the options, or the text of what is wrong with it. -/
def configure (o : Options) (d : Disk) (file : Option Path) : Except String Config := do
  let c ← (Config.load d file o.preset o.layer).mapError loadComplaint
  match o.overrides.apply c with
  | (.error refusal, _) => throw (refusalComplaint refusal)
  | (.ok _, c) => return c

/-- What the run itself comes to: the report, and nothing for compliance tests. -/
def perform (m : Machine) (o : Options) (c : Config) (interrupted : Bool) : Work String :=
  match o.mode with
  | .run => do
      let report ← runSession m c (requestOf o interrupted)
      return if o.json then report.json else report.text c.reportPaths
  | .riscof => do
      let _ ← runRiscof m c (requestOf o interrupted)
      return ""

/-- The streams after the events of a run and a last text for each of them. -/
def answer (o : Options) (code : Nat) (s : Scene) (out err : String) : Answer where
  exitCode := code
  stdout := s.trace.flatMap (stdoutOf o) ++ Utf8.encode out
  stderr := s.trace.flatMap (stderrOf o) ++ Utf8.encode err

/-- The program with its options known. -/
def runOptions (m : Machine) (home : Path) (o : Options) (interrupted : Bool) (s : Scene) :
    Answer × Scene :=
  let file := Config.locate s.disk home o.configPath
  let s := match file with
    | none => s
    | some path => s.add (.notice .info "simharness" ("using config file " ++ path.text))
  match configure o s.disk file with
  | .error text => (answer o 1 s "" text, s)
  | .ok c =>
      match (perform m o c interrupted).run s with
      | (.ok text, s) => (answer o 0 s text "", s)
      | (.error f, s) =>
          (if o.json then answer o 1 s "" (f.banner ++ runComplaint f)
            else answer o 1 s f.banner (runComplaint f), s)

/-- The **program**: its answer to a command line, and the scene it leaves. -/
def run (m : Machine) (home : Path) (words : List String) (interrupted : Bool) (s : Scene) :
    Except UsageError (Answer × Scene) :=
  (parse words).map fun o => runOptions m home o interrupted s

end Testbench.Program
