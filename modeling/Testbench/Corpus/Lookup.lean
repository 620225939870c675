/-
**Looking a pattern up.**

A pattern is followed through the tree of files one component at a time.  A component without
wildcards names its entry, and it is enough that the entry is there; any other component is held
against the entries of the directory, in ascending order.  Paths are spelled as the pattern spells
them, and a walk that starts at the working directory does not write it down.

Main definitions:

* `Testbench.Glob.enter` — the path of an entry;
* `Testbench.Glob.below` — everything below a directory;
* `Testbench.Glob.lookup`, `Testbench.Glob.find` — the paths that fit a pattern, in order.
-/

import Testbench.Pattern.Glob
import Testbench.World.Disk

set_option relaxedAutoImplicit false
set_option autoImplicit false

namespace Testbench.Glob

/-- The path of an entry of a directory; the working directory itself is not written. -/
def enter (here : Path) (name : String) : Path :=
  if here.parts = [.here] then ⟨name⟩ else here.join name

/-- A name that every directory has for itself or for the one above. -/
def isDots (name : String) : Bool := name = "." || name = ".."

/-- The component fits the name of an entry. -/
def Component.fits : Component → String → Bool
  | .named s, name => s = name
  | .fitting ts, name => matchesChars ts name.toList
  | .deep, _ => false

/-- The dots that fit a component: it has to spell their first dot. -/
def dotsFitting (ts : List Token) : List String :=
  if ts.head? = some (.char '.') then
    ["..", "."].filter fun name => matchesChars ts name.toList
  else []

/-- Everything below a directory with its name, each entry before what is below it.  Links to
directories are followed, and `depth` bounds how far down the walk goes. -/
def below (d : Disk) : Nat → Path → List (String × Path)
  | 0, _ => []
  | depth + 1, here =>
      (d.children here).flatMap fun (name, _) =>
        (name, enter here name) :: below d depth (enter here name)

/-- The paths that fit the components, taken from a directory. -/
def lookup (d : Disk) (directoriesOnly : Bool) : List Component → Path → List Path
  | [], here => if directoriesOnly && !d.isDirectory here then [] else [here]
  | .named name :: cs, here =>
      if (if isDots name then d.isDirectory here else d.hasEntry (enter here name)) then
        lookup d directoriesOnly cs (enter here name)
      else []
  | .fitting ts :: cs, here =>
      if d.isDirectory here then
        ((dotsFitting ts).flatMap fun name => lookup d directoriesOnly cs (here.join name)) ++
          (d.children here).flatMap fun (name, _) =>
            if matchesChars ts name.toList then
              lookup d directoriesOnly cs (enter here name)
            else []
      else []
  | [.deep], here =>
      ((below d Disk.longestPath here).map (·.2)).filter d.isDirectory
  | .deep :: c :: cs, here =>
      (below d Disk.longestPath here).flatMap fun (name, path) =>
        if c.fits name then lookup d directoriesOnly cs path else []

/-- The **paths that fit a pattern**, in the order they are found. -/
def find (g : Glob) (d : Disk) : List Path :=
  lookup d g.directoriesOnly g.components ⟨if g.absolute then "/" else "."⟩

end Testbench.Glob
