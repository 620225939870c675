/-
**Configurations as data.**

A configuration is written with all its fields.  A layer is written with all of them too, those
that are unset as nothing; it is read with any of them missing, but with no others.

Main definitions:

* `Testbench.PathStyle.toData`, `Testbench.PathStyle.ofData?` — how tests are named;
* `Testbench.Toggle.toData`, `Testbench.Toggle.ofData?` — optional steps;
* `Testbench.Config.toData`, `Testbench.Config.ofData?` — configurations;
* `Testbench.Layer.toData`, `Testbench.Layer.ofData?` — layers.
-/

import Testbench.Record.Command

set_option relaxedAutoImplicit false
set_option autoImplicit false

namespace Testbench

namespace PathStyle

/-- The word for a style. -/
def word : PathStyle → String
  | full => "full"
  | basename => "basename"

/-- A style as data. -/
def toData (s : PathStyle) : Data := .text s.word

/-- The style of a word. -/
def ofWord? (s : String) : Option PathStyle :=
  if s = "full" then some full else if s = "basename" then some basename else none

/-- The style that data describe. -/
def ofData? (c : Data.Convention) (d : Data) : Option PathStyle := (d.choice? c).bind ofWord?

end PathStyle

namespace Toggle

/-- An optional step as data: a truth value or the step itself. -/
def toData {α : Type} (write : α → Data) : Toggle α → Data
  | enabled on => .bool on
  | set value => write value

/-- What data say about an optional step. -/
def ofData? {α : Type} (value? : Data → Option α) : Data → Option (Toggle α)
  | .bool on => some (enabled on)
  | d => (value? d).map set

end Toggle

namespace Config

/-- The fields of a configuration, in order. -/
def fieldNames : List String :=
  ["root", "patterns", "skip", "excluded_suffixes", "simulator", "build", "smoke", "jobs",
    "timeout_secs", "report_paths", "riscof"]

/-- A configuration as data. -/
def toData (c : Config) : Data :=
  .record
    [("root", c.root.toData), ("patterns", .ofTexts c.patterns), ("skip", .ofTexts c.skip),
      ("excluded_suffixes", .ofTexts c.excludedSuffixes), ("simulator", c.simulator.toData),
      ("build", .ofOption BuildSpec.toData c.build), ("smoke", .ofOption Path.toData c.smoke),
      ("jobs", .ofNat c.jobs), ("timeout_secs", .ofOption Data.ofNat c.timeoutSecs),
      ("report_paths", c.reportPaths.toData), ("riscof", .ofOption Riscof.toData c.riscof)]

/-- The configuration that data describe. -/
def ofData? (v : Data.Convention) (d : Data) : Option Config := do
  let fields ← d.fields? v fieldNames 11
  let root ← Data.field fields "root" Path.ofData?
  let patterns ← Data.field fields "patterns" Data.texts?
  let skip ← Data.field fields "skip" Data.texts?
  let excludedSuffixes ← Data.field fields "excluded_suffixes" Data.texts?
  let simulator ← Data.field fields "simulator" Simulator.ofData?
  let build ← Data.optional fields "build" (BuildSpec.ofData? v)
  let smoke ← Data.optional fields "smoke" Path.ofData?
  let jobs ← Data.field fields "jobs" Data.natural?
  let timeoutSecs ← Data.optional fields "timeout_secs" Data.natural?
  let reportPaths ← Data.field fields "report_paths" (PathStyle.ofData? v)
  let riscof ← Data.optional fields "riscof" (Riscof.ofData? v)
  return { root, patterns, skip, excludedSuffixes, simulator, build, smoke, jobs, timeoutSecs,
           reportPaths, riscof }

end Config

namespace Layer

/-- The fields of a layer, in order. -/
def fieldNames : List String := "preset" :: Config.fieldNames

/-- A layer as data, unset fields as nothing. -/
def toData (l : Layer) : Data :=
  .record
    [("preset", .ofOption Data.text l.preset), ("root", .ofOption Path.toData l.root),
      ("patterns", .ofOption Data.ofTexts l.patterns), ("skip", .ofOption Data.ofTexts l.skip),
      ("excluded_suffixes", .ofOption Data.ofTexts l.excludedSuffixes),
      ("simulator", .ofOption Simulator.toData l.simulator),
      ("build", .ofOption (Toggle.toData BuildSpec.toData) l.build),
      ("smoke", .ofOption (Toggle.toData Path.toData) l.smoke),
      ("jobs", .ofOption Data.ofNat l.jobs),
      ("timeout_secs", .ofOption Data.ofNat l.timeoutSecs),
      ("report_paths", .ofOption PathStyle.toData l.reportPaths),
      ("riscof", .ofOption Riscof.toData l.riscof)]

/-- Every field has a name that a layer knows. -/
def knowsAll (fields : Data.Fields) : Bool := fields.all fun (name, _) => fieldNames.contains name

/-- The layer that data describe.  Inside an optional step no list may be longer than the record it
stands for, whatever the convention. -/
def ofData? (v : Data.Convention) (d : Data) : Option Layer := do
  let fields ← d.fields? v fieldNames 12
  if !knowsAll fields then none
  let preset ← Data.optional fields "preset" Data.text?
  let root ← Data.optional fields "root" Path.ofData?
  let patterns ← Data.optional fields "patterns" Data.texts?
  let skip ← Data.optional fields "skip" Data.texts?
  let excludedSuffixes ← Data.optional fields "excluded_suffixes" Data.texts?
  let simulator ← Data.optional fields "simulator" Simulator.ofData?
  let build ← Data.optional fields "build"
    (Toggle.ofData? (BuildSpec.ofData? { v with refusesExtraItems := true }))
  let smoke ← Data.optional fields "smoke" (Toggle.ofData? Path.ofData?)
  let jobs ← Data.optional fields "jobs" Data.natural?
  let timeoutSecs ← Data.optional fields "timeout_secs" Data.natural?
  let reportPaths ← Data.optional fields "report_paths" (PathStyle.ofData? v)
  let riscof ← Data.optional fields "riscof" (Riscof.ofData? v)
  return { preset, root, patterns, skip, excludedSuffixes, simulator, build, smoke, jobs,
           timeoutSecs, reportPaths, riscof }

end Layer

end Testbench
