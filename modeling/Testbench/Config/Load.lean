/-
**Finding and reading a configuration.**

Without a configuration file of its own a run looks for one beside itself and then in the directory
that the user has for configurations.  A file may name the preset; the command line has the last
word on it.

Main definitions:

* `Testbench.Layer.ofToml`, `Testbench.Layer.ofFile` — a layer from a file;
* `Testbench.Config.locate` — the file to use;
* `Testbench.Config.load` — the configuration of a file and a command line.

Main results:

* `Testbench.Config.load_of_unreadable` — a file that cannot be read decides, whatever else is
  given.
-/

import Testbench.Config.Preset
import Testbench.Record.Config
import Testbench.Text.Utf8
import Testbench.Toml.Reader
import Testbench.World.Disk

set_option relaxedAutoImplicit false
set_option autoImplicit false

namespace Testbench

namespace Layer

/-- The layer that a document spells; `path` is where it comes from. -/
def ofToml (text : String) (path : Path) : Except Failure Layer :=
  match (Toml.parse? text).bind (Layer.ofData? Toml.convention) with
  | some layer => .ok layer
  | none => .error (.unparsableConfig path)

/-- The text of a file. -/
def readText (d : Disk) (path : Path) : Except Fault String := do
  let bytes ← d.read path
  match Utf8.strict? bytes with
  | some text => return text
  | none => throw .notText

/-- The layer that a file spells. -/
def ofFile (d : Disk) (path : Path) : Except Failure Layer := do
  let text ← (readText d path).mapError (Failure.unreadableConfig path)
  ofToml text path

end Layer

namespace Config

/-- The configuration file looked for beside a run. -/
def localFile : Path := ⟨"simharness.toml"⟩

/-- The configuration file of a user, taken from the home directory. -/
def userFile (home : Path) : Path :=
  ((home.join ".config").join "simharness").join "config.toml"

/-- The **configuration file to use**: the one that is asked for, else the first that is there. -/
def locate (d : Disk) (home : Path) (explicit : Option Path) : Option Path :=
  match explicit with
  | some path => some path
  | none => [localFile, userFile home].find? d.isFile

/-- The preset to start from: the one of the command line, else the one of the file. -/
def presetName (file : Option Layer) (commandLine : Option String) : Option String :=
  commandLine <|> file.bind (·.preset)

/-- The preset of a name, or the one used when none is named. -/
def presetOf : Option String → Except Failure Preset
  | some name => Preset.ofName name
  | none => .ok Preset.default

/-- The configuration of a file layer and a command line. -/
def ofLayers (file : Option Layer) (commandLinePreset : Option String) (commandLine : Layer) :
    Except Failure Config := do
  let preset ← presetOf (presetName file commandLinePreset)
  assemble preset (file.toList ++ [commandLine])

/-- The **configuration of a file and a command line**. -/
def load (d : Disk) (file : Option Path) (commandLinePreset : Option String)
    (commandLine : Layer) : Except Failure Config := do
  let layer ← file.mapM (Layer.ofFile d)
  ofLayers layer commandLinePreset commandLine

/-- A file that cannot be read decides, whatever else is given. -/
theorem load_of_unreadable {d : Disk} {path : Path} {failure : Failure}
    (h : Layer.ofFile d path = .error failure) (name : Option String) (l : Layer) :
    load d (some path) name l = .error failure := by
  rw [load, Option.mapM_some, h]
  rfl

end Config

end Testbench
