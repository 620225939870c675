/-
**Command lines.**

A command line is a list of words.  Words that start with a hyphen are options, alone or with a
value: after an equals sign, attached to a short option, or as the next word.  An option that still
waits for its value takes the next word, unless that word is an option itself.  A value is looked at
only when the next option starts or the line ends, so the first fault of a line is the one that is
met first in that sense.

Main definitions:

* `Testbench.CommandLine.Opt`, `Testbench.CommandLine.Opt.shape` — the options and what they take;
* `Testbench.CommandLine.UsageError` — why a command line is refused;
* `Testbench.CommandLine.Scan`, `Testbench.CommandLine.Scan.word` — a line while it is being read;
* `Testbench.CommandLine.Dialect.parse` — the options of a line.

Main results:

* `Testbench.CommandLine.Scan.words_append` — a line can be read in two parts.
-/

import Testbench.Text.Decimal
import Testbench.Text.Search

set_option relaxedAutoImplicit false
set_option autoImplicit false

namespace Testbench.CommandLine

/-! ### Options -/

/-- The options. -/
inductive Opt
  | config | preset | release | noBuild | quiet | verbose
  | root | pattern | skip | flag | smoke | noSmoke | jobs | timeout | basename | json
  | dir | artifact | script
  | help | version
deriving DecidableEq, Repr

/-- What the value of an option may be. -/
inductive ValueKind
  | text
  /-- Any text but the empty one. -/
  | path
  /-- A number from some least one on that fits in 64 bits. -/
  | number (least : Nat)
deriving DecidableEq, Repr

/-- What an option takes and how often it may be given. -/
inductive Shape
  /-- No value, at most once. -/
  | switch
  /-- One value, at most once. -/
  | single (kind : ValueKind)
  /-- One value each time. -/
  | repeatable
  /-- Ends the reading at once. -/
  | stop
deriving DecidableEq, Repr

namespace Opt

/-- The long name of an option. -/
def long : Opt → String
  | config => "config"
  | preset => "preset"
  | release => "release"
  | noBuild => "no-build"
  | quiet => "quiet"
  | verbose => "verbose"
  | root => "root"
  | pattern => "pattern"
  | skip => "skip"
  | flag => "flag"
  | smoke => "smoke"
  | noSmoke => "no-smoke"
  | jobs => "jobs"
  | timeout => "timeout"
  | basename => "basename"
  | json => "json"
  | dir => "dir"
  | artifact => "artifact"
  | script => "script"
  | help => "help"
  | version => "version"

/-- The short name of an option that has one. -/
def short : Opt → Option Char
  | config => some 'c'
  | preset => some 'p'
  | quiet => some 'q'
  | verbose => some 'v'
  | root => some 'r'
  | jobs => some 'j'
  | help => some 'h'
  | version => some 'V'
  | _ => none

/-- What an option takes. -/
def shape : Opt → Shape
  | config | root | smoke | dir | artifact => .single .path
  | preset | script => .single .text
  | jobs => .single (.number 0)
  | timeout => .single (.number 1)
  | pattern | skip | flag => .repeatable
  | release | noBuild | quiet | verbose | noSmoke | basename | json => .switch
  | help | version => .stop

/-- The option takes a value. -/
def takesValue (o : Opt) : Bool :=
  match o.shape with
  | .single _ | .repeatable => true
  | .switch | .stop => false

/-- The value of the option may look like an option. -/
def takesHyphens (o : Opt) : Bool := o = flag

/-- The options of every command. -/
def shared : List Opt := [config, preset, release, noBuild, quiet, verbose, help]

/-- The options for running tests. -/
def forRuns : List Opt :=
  [root, pattern, skip, flag, smoke, noSmoke, jobs, timeout, basename, json]

/-- The options for a RISCOF run. -/
def forRiscof : List Opt := [dir, artifact, script]

end Opt

/-! ### Faults -/

/-- Why a command line is refused, or what it asks for in place of a run. -/
inductive UsageError
  | unknownArgument
  | invalidValue
  | valueValidation
  | argumentConflict
  | invalidSubcommand
  | tooManyValues
  | displayHelp
  | displayVersion
deriving DecidableEq, Repr

namespace UsageError

/-- Help was asked for, so that nothing is wrong with the line. -/
def isHelp : UsageError → Bool
  | displayHelp | displayVersion => true
  | _ => false

/-- The exit code of a program that answers with this and does nothing else. -/
def exitCode (e : UsageError) : Nat := if e.isHelp then 0 else 2

/-- The answer in words. -/
def message : UsageError → String
  | unknownArgument => "error: unexpected argument"
  | invalidValue => "error: a value is required"
  | valueValidation => "error: invalid value for an option"
  | argumentConflict => "error: options that cannot be used together"
  | invalidSubcommand => "error: unrecognized subcommand"
  | tooManyValues => "error: unexpected value for an option that takes none"
  | displayHelp => "Usage: simharness [OPTIONS] [run|riscof|help]"
  | displayVersion => "simharness"

end UsageError

/-! ### Values -/

/-- The value of an option. -/
inductive Value
  | text (s : String)
  | number (n : Nat)
deriving DecidableEq, Repr

/-- The number that digits stand for, with at most one plus sign in front. -/
def readNumber (s : String) : Option Nat :=
  match s.toList with
  | '+' :: ds => Decimal.value? ds
  | ds => Decimal.value? ds

/-- The value that a text stands for. -/
def ValueKind.read (kind : ValueKind) (s : String) : Except UsageError Value :=
  match kind with
  | .text => .ok (.text s)
  | .path => if s = "" then .error .invalidValue else .ok (.text s)
  | .number least =>
      match readNumber s with
      | some n => if least ≤ n ∧ n < UInt64.size then .ok (.number n) else .error .valueValidation
      | none => .error .valueValidation

/-! ### Reading word by word -/

/-- The commands differ in their options and in what a word means that is no option. -/
structure Dialect where
  options : List Opt
  /-- Words that choose a command, if a command can be chosen. -/
  commands : List String := []
deriving Repr

/-- Options met so far, each with its value if it takes one; the latest is last. -/
abbrev Found := List (Opt × Option Value)

/-- A command line while it is being read. -/
structure Scan where
  found : Found := []
  /-- The last option, if its value is still to come or to be looked at. -/
  pending : Option (Opt × Option String) := none
  /-- Some option was met. -/
  started : Bool := false
  /-- Two hyphens were met: no options follow. -/
  trailing : Bool := false
deriving Repr

namespace Scan

/-- The option was met before. -/
def has (s : Scan) (o : Opt) : Bool := s.found.any fun (p, _) => p = o

/-- The line with one more option. -/
def add (s : Scan) (o : Opt) (v : Option Value) : Scan := { s with found := s.found ++ [(o, v)] }

/-- An option is complete: it has its value, if it takes one and there is one. -/
def complete (s : Scan) (o : Opt) (value : Option String) : Except UsageError Scan :=
  match o.shape, value with
  | .stop, _ => .error (if o = .version then .displayVersion else .displayHelp)
  | .switch, _ => if s.has o then .error .argumentConflict else .ok (s.add o none)
  | .single _, none | .repeatable, none => .error .invalidValue
  | .single kind, some text =>
      if s.has o then .error .argumentConflict
      else (kind.read text).map fun v => s.add o (some v)
  | .repeatable, some text => .ok (s.add o (some (.text text)))

/-- Completes the option that is still open. -/
def settle (s : Scan) : Except UsageError Scan :=
  match s.pending with
  | none => .ok s
  | some (o, value) => { s with pending := none }.complete o value

/-- An option without a value of its own, or with one attached to it. -/
def meet (s : Scan) (o : Opt) (attached : Option String) : Except UsageError Scan := do
  let s ← { s with started := true }.settle
  if o.takesValue && attached.isNone then return { s with pending := some (o, none) }
  else s.complete o attached

/-- A word that starts with two hyphens, divided at its first equals sign. -/
def longWord (d : Dialect) (s : Scan) (name : String) (value : Option String) :
    Except UsageError Scan :=
  match d.options.find? fun o => o.long = name with
  | none => .error .unknownArgument
  | some o => if !o.takesValue && value.isSome then .error .tooManyValues else s.meet o value

/-- What is attached to a short option: the characters after it, without an equals sign. -/
def attachedTo : List Char → Option String
  | [] => none
  | '=' :: cs => some (String.ofList cs)
  | cs => some (String.ofList cs)

/-- The letters of a word that starts with one hyphen. -/
def shortWord (d : Dialect) (s : Scan) : List Char → Except UsageError Scan
  | [] => .ok s
  | c :: cs =>
      match d.options.find? fun o => o.short = some c with
      | none => .error .unknownArgument
      | some o =>
          if o.takesValue then s.meet o (attachedTo cs)
          else (s.meet o none).bind fun s => shortWord d s cs

/-- The kinds of words. -/
inductive Word
  | twoHyphens
  | long (name : String) (value : Option String)
  | short (letters : List Char)
  | plain
deriving DecidableEq, Repr

/-- A name and what follows its first equals sign. -/
def splitEquals (cs : List Char) : String × Option String :=
  (String.ofList (cs.takeWhile (· ≠ '=')),
    match cs.dropWhile (· ≠ '=') with
    | [] => none
    | _ :: value => some (String.ofList value))

/-- The kind of a word. -/
def kindOf (word : String) : Word :=
  match word.toList with
  | ['-', '-'] => .twoHyphens
  | '-' :: '-' :: cs => .long (splitEquals cs).1 (splitEquals cs).2
  | '-' :: c :: cs => .short (c :: cs)
  | _ => .plain

/-- A word that belongs to no option. -/
def stray (d : Dialect) (s : Scan) (word : String) : UsageError :=
  if d.commands.isEmpty then .unknownArgument
  else if s.started then .argumentConflict
  else if s.trailing && d.commands.contains word then .unknownArgument
  else .invalidSubcommand

/-- The option that waits for its value. -/
def waiting (s : Scan) : Option Opt :=
  match s.pending with
  | some (o, none) => some o
  | _ => none

/-- Reads one word. -/
def word (d : Dialect) (s : Scan) (w : String) : Except UsageError Scan :=
  if s.trailing then .error (s.stray d w)
  else
    match s.waiting, kindOf w with
    | some o, kind =>
        if o.takesHyphens || kind = .plain then .ok { s with pending := some (o, some w) }
        else
          match kind with
          | .twoHyphens => .ok { s with trailing := true }
          | .long name value => s.longWord d name value
          | .short letters => s.shortWord d letters
          | .plain => .error (s.stray d w)
    | none, .twoHyphens => .ok { s with trailing := true }
    | none, .long name value => s.longWord d name value
    | none, .short letters => s.shortWord d letters
    | none, .plain => .error (s.stray d w)

/-- Reads words. -/
def words (d : Dialect) (s : Scan) (ws : List String) : Except UsageError Scan :=
  ws.foldlM (word d) s

/-- A line can be read in two parts. -/
theorem words_append (d : Dialect) (s : Scan) (vs ws : List String) :
    s.words d (vs ++ ws) = (s.words d vs).bind fun s => s.words d ws := by
  simp only [words, List.foldlM_append]; rfl

/-- Options that exclude each other. -/
def exclusions : List (Opt × Opt) := [(.quiet, .verbose), (.noSmoke, .smoke)]

/-- The options of a line that has ended. -/
def finish (s : Scan) : Except UsageError Found := do
  let s ← s.settle
  if exclusions.any fun (a, b) => s.has a && s.has b then throw .argumentConflict
  return s.found

end Scan

/-- The **options of a line**. -/
def Dialect.parse (d : Dialect) (ws : List String) : Except UsageError Found :=
  (Scan.words d {} ws).bind Scan.finish

end Testbench.CommandLine
