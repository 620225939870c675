/-
**The script of the checkout.**

A script that is named with a slash is meant to be the one in the checkout, wherever the run was
started.  Its name is put behind that of the checkout, and the checkout is also the directory that
the script runs in; the system enters this directory before it looks for the script.  So the name of
the checkout counts twice.  Nothing comes of it if that name starts at the root, or if the checkout
is the directory that the run was started in; a checkout that is named from elsewhere is looked for
in itself.

Main definitions:

* `Testbench.Machine.RunsFiles` — a machine that runs the files that it finds.

Main results:

* `Testbench.Disk.Leads.of_node?_eq`, `Testbench.Disk.executable_of_start` — where a path leads
  depends on the place that it starts from, and on the tree;
* `Testbench.Riscof.findProgram_command_iff` — the script is looked for in the checkout, under the
  name of the checkout;
* `Testbench.Riscof.script_run_in_checkout` — **which script is run**.
-/

import Mathlib.Data.List.Basic
import Testbench.Proofs.Walks
import Testbench.Run.Riscof
import Testbench.World.Script

set_option relaxedAutoImplicit false
set_option autoImplicit false

namespace Testbench

/-! ### Names of paths -/

namespace Path

/-- A slash in a name stays when the name is taken from a directory. -/
theorem contains_slash_join (base : Path) {rest : String} (h : rest.toList.contains '/' = true) :
    (base.join rest).text.toList.contains '/' = true := by
  rw [join]
  split
  · exact h
  · rw [List.contains_iff_mem] at h ⊢
    simp [h]

end Path

/-! ### Other directories to start from -/

namespace Disk

variable {d d' : Disk} {follow : Bool}

/-- What is met on the way depends on the tree alone. -/
theorem Leads.of_node?_eq {hops : Nat} {place : Location} {names : List String} {t : Target}
    (hd : ∀ place, d'.node? place = d.node? place) (h : d.Leads follow hops place names t) :
    d'.Leads follow hops place names t := by
  induction h with
  | here hnode => exact .here ((hd _).trans hnode)
  | stay hplace _ ih => exact .stay ((hd _).trans hplace) ih
  | up hplace _ ih => exact .up ((hd _).trans hplace) ih
  | vacant hplace hname hnode => exact .vacant ((hd _).trans hplace) hname ((hd _).trans hnode)
  | keep hplace hname hnode hkeep =>
      exact .keep ((hd _).trans hplace) hname ((hd _).trans hnode) hkeep
  | jump hplace hname hnode hgo _ ih =>
      exact .jump ((hd _).trans hplace) hname ((hd _).trans hnode) hgo ih
  | enter hplace hname hnode hlink _ ih =>
      exact .enter ((hd _).trans hplace) hname ((hd _).trans hnode) hlink ih

/-- A path leads to the same from two directories if it starts from the same place in both. -/
theorem stat_of_start {path : String} {place : Location} {node : Node}
    (hd : ∀ place, d'.node? place = d.node? place)
    (hstart : startFrom d'.workingDirectory path = startFrom d.workingDirectory path)
    (h : d.stat follow path = .ok (place, node)) : d'.stat follow path = .ok (place, node) := by
  rw [stat_eq_ok_iff, resolve_eq_ok_iff] at h ⊢
  obtain ⟨hpath, hsuits, hleads⟩ := h
  rw [hstart]
  exact ⟨hpath, hsuits, hleads.of_node?_eq hd⟩

/-- What can be executed is a file that may be. -/
theorem executable_eq_ok_iff {path : String} {content : List UInt8} :
    d.executable path = .ok content ↔
      ∃ place, d.stat true path = .ok (place, .file content true) := by
  rw [executable]
  cases d.stat true path with
  | error fault =>
      constructor
      · intro h; cases h
      · rintro ⟨_, ⟨⟩⟩
  | ok met =>
      obtain ⟨place, node⟩ := met
      rcases node with _ | ⟨content', _ | _⟩ | _
      case file.true =>
        constructor
        · intro h; cases h; exact ⟨place, rfl⟩
        · rintro ⟨_, h⟩; cases h; rfl
      all_goals
        constructor
        · intro h; cases h
        · rintro ⟨_, h⟩; cases h

theorem executable_of_start {path : String} {content : List UInt8}
    (hd : ∀ place, d'.node? place = d.node? place)
    (hstart : startFrom d'.workingDirectory path = startFrom d.workingDirectory path) :
    d'.executable path = .ok content ↔ d.executable path = .ok content := by
  rw [executable_eq_ok_iff, executable_eq_ok_iff]
  constructor
  · rintro ⟨place, h⟩
    exact ⟨place, stat_of_start (fun place => (hd place).symm) hstart.symm h⟩
  · rintro ⟨place, h⟩
    exact ⟨place, stat_of_start hd hstart h⟩

/-- A program that is named with a slash is looked for in the directory of its command. -/
theorem findProgram_eq_ok_iff {c : Command} {dir : Path} {place directory : Location}
    {searchPath : List String} {content : List UInt8} (hargs : c.args = [])
    (hworkdir : c.workdir = some dir) (hslash : c.program.toList.contains '/' = true)
    (hdir : d.stat true dir.text = .ok (place, .directory)) :
    d.findProgram searchPath c = .ok (directory, content) ↔ directory = place ∧
      { d with workingDirectory := place }.executable c.program = .ok content := by
  have henter : d.enterDirectory dir = .ok { d with workingDirectory := place } := by
    rw [enterDirectory, hdir]
    rfl
  have hdirNul : dir.text.toList.contains '\x00' = false :=
    (isPathText_of_resolve (stat_eq_ok_iff.1 hdir)).noNul
  have hnul : c.holdsNul = c.program.toList.contains '\x00' := by
    simp only [Command.holdsNul, hargs, hworkdir, List.any_nil, Option.any_some, hdirNul,
      Bool.or_false]
  cases hprogram : c.program.toList.contains '\x00' with
  | true =>
      -- the command is refused as it is, and the file of the same name would be refused as well
      rw [hprogram] at hnul
      rw [findProgram, hnul]
      constructor
      · intro h
        cases h
      · rintro ⟨-, h⟩
        obtain ⟨_, hstat⟩ := executable_eq_ok_iff.1 h
        rw [(isPathText_of_resolve (stat_eq_ok_iff.1 hstat)).noNul] at hprogram
        cases hprogram
  | false =>
      rw [hprogram] at hnul
      rw [findProgram, hnul, hworkdir]
      simp only [Bool.false_eq_true, if_false, henter, hslash, if_true, bind, Except.bind]
      cases ({ d with workingDirectory := place } : Disk).executable c.program with
      | error fault =>
          constructor
          · intro h; cases h
          · rintro ⟨-, h⟩; cases h
      | ok found =>
          constructor
          · intro h; cases h; exact ⟨rfl, rfl⟩
          · rintro ⟨rfl, h⟩; cases h; rfl

end Disk

/-! ### The script -/

/-- The machine **runs the files that it finds**: what becomes of a command is decided by the file
that is found for it, and by the directory that it runs in. -/
def Machine.RunsFiles (m : Machine) (searchPath : List String)
    (behave : Disk → Command → Location → List UInt8 → Except Fault Lifeline) : Prop :=
  ∀ d c, m.launch d c = (d.findProgram searchPath c).bind fun found => behave d c found.1 found.2

/-- Programs that are scripts are read from the files that are found. -/
theorem Script.Host.runsFiles (h : Script.Host) :
    h.machine.RunsFiles h.searchPath fun d c directory content =>
      match programOf? content with
      | some steps => .ok (perform { args := c.args, directory, base := h.base } d steps)
      | none => .error .badExecutable := by
  intro d c
  rfl

namespace Riscof

variable {r : Riscof} {d : Disk} {place : Location}

/-- What is run for a script that is named with a slash, and not from the root. -/
theorem command_eq (hrelative : (Path.mk r.script).isAbsolute = false)
    (hslash : r.script.toList.contains '/' = true) :
    r.command = { program := (r.dir.join r.script).text, workdir := some r.dir } := by
  rw [command, hrelative, hslash]
  rfl

/-- The script is looked for in the checkout, under the name of the checkout. -/
theorem findProgram_command_iff (hrelative : (Path.mk r.script).isAbsolute = false)
    (hslash : r.script.toList.contains '/' = true)
    (hdir : d.stat true r.dir.text = .ok (place, .directory)) {searchPath : List String}
    {directory : Location} {content : List UInt8} :
    d.findProgram searchPath r.command = .ok (directory, content) ↔ directory = place ∧
      { d with workingDirectory := place }.executable (r.dir.join r.script).text =
        .ok content := by
  rw [command_eq hrelative hslash]
  exact Disk.findProgram_eq_ok_iff rfl rfl (Path.contains_slash_join r.dir hslash) hdir

/-- That is the script in the checkout, if the checkout is named from the root, or is the directory
that the run was started in. -/
theorem executable_script_iff (hwhere : r.dir.isAbsolute = true ∨ place = d.workingDirectory)
    {content : List UInt8} :
    { d with workingDirectory := place }.executable (r.dir.join r.script).text = .ok content ↔
      d.executable (r.dir.join r.script).text = .ok content := by
  refine Disk.executable_of_start (fun _ => rfl) ?_
  rcases hwhere with habsolute | rfl
  · rw [Disk.startFrom, Disk.startFrom, Path.startsAtRoot_join habsolute, if_pos rfl, if_pos rfl]
  · rfl

/-- **Which script is run.**  A script that is named with a slash, and not from the root, runs in the
checkout.  It is looked for from there, under the name of the checkout; if that name starts at the
root, or the checkout is the directory that the run was started in, this is the file that the run
itself would find as the script of the checkout, and if there is no such file, nothing is run. -/
theorem script_run_in_checkout {m : Machine} {searchPath : List String}
    {behave : Disk → Command → Location → List UInt8 → Except Fault Lifeline}
    (hm : m.RunsFiles searchPath behave) (hrelative : (Path.mk r.script).isAbsolute = false)
    (hslash : r.script.toList.contains '/' = true)
    (hdir : d.stat true r.dir.text = .ok (place, .directory)) :
    r.command.workdir = some r.dir ∧
      (∀ l, m.launch d r.command = .ok l ↔ ∃ content,
        { d with workingDirectory := place }.executable (r.dir.join r.script).text =
            .ok content ∧
          behave d r.command place content = .ok l) ∧
      (r.dir.isAbsolute = true ∨ place = d.workingDirectory →
        ∀ l, m.launch d r.command = .ok l ↔ ∃ content,
          d.executable (r.dir.join r.script).text = .ok content ∧
            behave d r.command place content = .ok l) := by
  have hlaunch : ∀ l, m.launch d r.command = .ok l ↔ ∃ content,
      { d with workingDirectory := place }.executable (r.dir.join r.script).text = .ok content ∧
        behave d r.command place content = .ok l := by
    intro l
    rw [hm d r.command]
    constructor
    · intro h
      cases hfound : d.findProgram searchPath r.command with
      | error fault => rw [hfound] at h; cases h
      | ok found =>
          obtain ⟨directory, content⟩ := found
          rw [hfound] at h
          obtain ⟨rfl, hcontent⟩ := (findProgram_command_iff hrelative hslash hdir).1 hfound
          exact ⟨content, hcontent, h⟩
    · rintro ⟨content, hcontent, hl⟩
      rw [(findProgram_command_iff hrelative hslash hdir).2 ⟨rfl, hcontent⟩]
      exact hl
  refine ⟨rfl, hlaunch, fun hwhere l => ?_⟩
  rw [hlaunch]
  simp only [executable_script_iff hwhere]

/-- A program that prints its own file. -/
def recite (d : Disk) (_ : Command) (directory : Location) (content : List UInt8) :
    Except Fault Lifeline :=
  .ok
    { directory, writes := [(⟨0⟩, content)], endsAt := ⟨1⟩, ended := .exited 0, goneAt := ⟨1⟩
      leaves := fun _ => d, group := 1 }

/-- A machine whose programs print their own files. -/
def reciting : Machine where
  launch d c := (d.findProgram [] c).bind fun found => recite d c found.1 found.2

theorem runsFiles_reciting : reciting.RunsFiles [] recite := fun _ _ => rfl

/-- A script that has itself printed. -/
def catScript : List UInt8 := Utf8.encode "#!/bin/cat\n"

/-- A checkout below the directory that the run was started in. -/
def atHome : Disk where
  nodes :=
    [(["home"], .directory), (["chk", "home"], .directory),
      (["run-test.sh", "chk", "home"], .file catScript true)]
  workingDirectory := ["home"]

/-- A checkout that is named in some way. -/
def namedBy (dir : String) : Riscof where
  dir := ⟨dir⟩
  artifact := ⟨"Vtop"⟩
  script := defaultScript

/-- The script is found if the checkout is named from the root. -/
theorem script_run_from_root : ∃ l, reciting.launch atHome (namedBy "/home/chk").command = .ok l ∧
    l.directory = ["chk", "home"] ∧ l.writes = [(⟨0⟩, catScript)] := by
  have hdir : atHome.stat true "/home/chk" = .ok (["chk", "home"], .directory) := by
    decide +kernel
  have hscript : atHome.executable "/home/chk/./run-test.sh" = .ok catScript := by
    decide +kernel
  obtain ⟨-, -, habsolute⟩ := script_run_in_checkout (r := namedBy "/home/chk")
    runsFiles_reciting (by decide) (by decide) hdir
  exact ⟨_, (habsolute (Or.inl (by decide)) _).2 ⟨catScript, hscript, rfl⟩, rfl, rfl⟩

/-- The same script is not found if the checkout is named from where the run was started. -/
theorem script_lost_from_home : ¬∀ (m : Machine) (searchPath : List String)
    (behave : Disk → Command → Location → List UInt8 → Except Fault Lifeline) (r : Riscof)
    (d : Disk) (place : Location), m.RunsFiles searchPath behave →
      (Path.mk r.script).isAbsolute = false → r.script.toList.contains '/' = true →
      d.stat true r.dir.text = .ok (place, .directory) →
      ∀ l, m.launch d r.command = .ok l ↔ ∃ content,
        d.executable (r.dir.join r.script).text = .ok content ∧
          behave d r.command place content = .ok l := by
  intro h
  have hdir : atHome.stat true "chk" = .ok (["chk", "home"], .directory) := by decide +kernel
  have hscript : atHome.executable "chk/./run-test.sh" = .ok catScript := by decide +kernel
  have hlost : atHome.findProgram [] (namedBy "chk").command = .error .noSuchFile := by
    decide +kernel
  have hrun := (h _ _ _ (namedBy "chk") atHome _ runsFiles_reciting (by decide) (by decide) hdir
    _).2 ⟨catScript, hscript, rfl⟩
  rw [runsFiles_reciting, hlost] at hrun
  cases hrun

end Riscof

end Testbench
