/-
**Installing the simulator.**

The executable that was built is copied into the checkout, where the script looks for it.  A copy
empties its target before it reads a byte.  So if the executable is in the checkout already, by
itself or through a link, then it is the target of its own copy, and what is installed is an empty
file; in all other cases what is installed is what was built.

Main definitions:

* `Testbench.Disk.SameFile` — two paths that lead to one place;
* `Testbench.Riscof.Installing` — the ways in which installing goes.

Main results:

* `Testbench.Riscof.install_eq_iff` — installing goes in exactly one way;
* `Testbench.Disk.copy_eq_ok` — what a copy is that is not refused;
* `Testbench.Disk.read_copy` — what can be read after a copy;
* `Testbench.Riscof.installed_contents` — **what is installed is what was built, unless it was
  installed before**.
-/

import Mathlib.Data.List.Basic
import Testbench.Proofs.Frames
import Testbench.Proofs.Walks
import Testbench.Run.Riscof

set_option relaxedAutoImplicit false
set_option autoImplicit false

namespace Testbench

/-! ### Copying -/

namespace Disk

variable {d d' : Disk} {source target : Path}

/-- Two paths **lead to one place**.  A file has one place only, so that these are two paths of one
file; a second name that is no link is left out. -/
def SameFile (d : Disk) (p q : Path) : Prop :=
  ∃ place node, d.stat true p.text = .ok (place, node) ∧ d.stat true q.text = .ok (place, node)

/-- What is left of a file when some file is emptied. -/
theorem node?_emptied {origin place : Location} {content : List UInt8} {executable : Bool}
    (hw : d.Writable place) (ho : d.node? origin = some (.file content executable)) :
    (d.put place (.file [] executable)).node? origin =
      some (.file (if origin = place then [] else content) executable) := by
  rw [node?_put d hw.ne_root, ho]
  split <;> rfl

/-- The target leads to a place that a file can be written at. -/
def LeadsToFile (d : Disk) (target : Path) (place : Location) : Prop :=
  d.resolve true target.text = .ok (.vacant place) ∨
    ∃ old mode, d.resolve true target.text = .ok (.found place (.file old mode))

theorem LeadsToFile.writable {place : Location} (h : d.LeadsToFile target place) :
    d.Writable place := by
  rcases h with h | ⟨old, mode, h⟩
  · exact Or.inl (on_of_resolve h)
  · exact Or.inr ⟨old, mode, on_of_resolve h⟩

/-- **A copy** puts a file where the target leads, with the bytes that are left of the source when
the target is emptied. -/
theorem copy_of_leadsToFile {origin place : Location} {content : List UInt8} {executable : Bool}
    (hsource : d.stat true source.text = .ok (origin, .file content executable))
    (htarget : d.LeadsToFile target place) : d.copy source target =
      .ok (d.put place (.file (if origin = place then [] else content) executable)) := by
  have hleft := node?_emptied htarget.writable (node?_of_stat hsource)
  rw [copy, hsource]
  rcases htarget with htarget | ⟨old, mode, htarget⟩ <;>
    simp only [bind, Except.bind, htarget, hleft, put_put] <;> rfl

/-- A copy that is not refused is such a copy. -/
theorem copy_eq_ok (h : d.copy source target = .ok d') :
    ∃ origin content executable place,
      d.stat true source.text = .ok (origin, .file content executable) ∧
        d.LeadsToFile target place ∧
        d' = d.put place (.file (if origin = place then [] else content) executable) := by
  cases hsource : d.stat true source.text with
  | error fault => rw [copy, hsource] at h; cases h
  | ok met =>
      obtain ⟨origin, node⟩ := met
      cases node with
      | directory | link => rw [copy, hsource] at h; cases h
      | file content executable =>
          have hplace : ∃ place, d.LeadsToFile target place := by
            rw [copy, hsource] at h
            simp only [bind, Except.bind] at h
            cases htarget : d.resolve true target.text with
            | error fault => rw [htarget] at h; cases h
            | ok t =>
                rw [htarget] at h
                rcases t with ⟨place, _ | ⟨old, mode⟩ | _⟩ | place
                · cases h
                · exact ⟨place, Or.inr ⟨old, mode, htarget⟩⟩
                · cases h
                · exact ⟨place, Or.inl htarget⟩
          obtain ⟨place, htarget⟩ := hplace
          rw [copy_of_leadsToFile hsource htarget] at h
          cases h
          exact ⟨origin, content, executable, place, rfl, htarget, rfl⟩

theorem stat_put_of_leadsToFile {place : Location} (h : d.LeadsToFile target place)
    (content : List UInt8) (executable : Bool) :
    (d.put place (.file content executable)).stat true target.text =
      .ok (place, .file content executable) := by
  have hw := h.writable
  rcases h with h | ⟨old, mode, h⟩
  · have hput := resolve_put hw content executable h
    rw [Target.afterPut, if_pos rfl] at hput
    exact stat_eq_ok_iff.2 hput
  · have hput := stat_put hw content executable (stat_eq_ok_iff.2 h)
    rwa [if_pos rfl] at hput

theorem sameFile_iff {origin place : Location} {content : List UInt8} {executable : Bool}
    (hsource : d.stat true source.text = .ok (origin, .file content executable))
    (htarget : d.LeadsToFile target place) : d.SameFile source target ↔ origin = place := by
  constructor
  · rintro ⟨other, node, hp, hq⟩
    cases hp.symm.trans hsource
    have hq := stat_eq_ok_iff.1 hq
    rcases htarget with h | ⟨old, mode, h⟩
    · cases hq.symm.trans h
    · cases hq.symm.trans h
      rfl
  · rintro rfl
    have ho : d.node? origin = some (.file content executable) := node?_of_stat hsource
    rcases htarget with h | ⟨old, mode, h⟩
    · cases ho.symm.trans (on_of_resolve h)
    · cases ho.symm.trans (on_of_resolve h)
      exact ⟨origin, _, hsource, stat_eq_ok_iff.2 h⟩

/-- **What can be read after a copy**: under both paths the bytes of the source, or nothing if they
lead to one place. -/
theorem read_copy (h : d.copy source target = .ok d') : ∃ content left,
    d.read source = .ok content ∧ d'.read target = .ok left ∧ d'.read source = .ok left ∧
      (¬d.SameFile source target → left = content) ∧ (d.SameFile source target → left = []) := by
  obtain ⟨origin, content, executable, place, hsource, htarget, rfl⟩ := copy_eq_ok h
  have hread := read_eq_ok_iff.2 ⟨origin, executable, hsource⟩
  have hput := stat_put_of_leadsToFile htarget
  have hkept := fun left => stat_put htarget.writable left executable hsource
  rw [sameFile_iff hsource htarget]
  by_cases hsame : origin = place
  · -- the source is the target, and was emptied with it
    simp only [if_pos hsame] at hkept ⊢
    refine ⟨content, [], hread, read_eq_ok_iff.2 ⟨_, _, hput ..⟩,
      read_eq_ok_iff.2 ⟨_, _, hkept []⟩, ?_, fun _ => rfl⟩
    intro hother
    exact absurd hsame hother
  · simp only [if_neg hsame] at hkept ⊢
    refine ⟨content, content, hread, read_eq_ok_iff.2 ⟨_, _, hput ..⟩,
      read_eq_ok_iff.2 ⟨_, _, hkept content⟩, fun _ => rfl, ?_⟩
    intro hsame'
    exact absurd hsame' hsame

end Disk

/-! ### Ways to install -/

namespace Riscof

variable {r : Riscof} {d d' : Disk}

/-- **How installing goes** on a disk: the checkout has to be a directory, the executable has to
have a name, and the copy under this name in the checkout must not be refused. -/
inductive Installing (r : Riscof) (d : Disk) : Except Failure (Path × Disk) → Prop
  | astray (hdir : d.isDirectory r.dir = false) :
      Installing r d (.error (.badConfig ("riscof directory does not exist: " ++ r.dir.text)))
  | nameless (hdir : d.isDirectory r.dir = true) (hname : r.artifact.fileName = none) :
      Installing r d (.error (.badConfig ("artifact has no file name: " ++ r.artifact.text)))
  | refused {name : String} {fault : Fault} (hdir : d.isDirectory r.dir = true)
      (hname : r.artifact.fileName = some name)
      (hcopy : d.copy r.artifact (r.dir.join name) = .error fault) :
      Installing r d (.error (.unusable
        ("failed to copy " ++ r.artifact.text ++ " to " ++ (r.dir.join name).text) fault))
  | copied {name : String} {d' : Disk} (hdir : d.isDirectory r.dir = true)
      (hname : r.artifact.fileName = some name)
      (hcopy : d.copy r.artifact (r.dir.join name) = .ok d') :
      Installing r d (.ok (r.dir.join name, d'))

theorem install_of_name {name : String} (hdir : d.isDirectory r.dir = true)
    (hname : r.artifact.fileName = some name) :
    r.install d = ((d.copy r.artifact (r.dir.join name)).mapError (Failure.unusable
      ("failed to copy " ++ r.artifact.text ++ " to " ++ (r.dir.join name).text))).map
        fun d' => (r.dir.join name, d') := by
  rw [install, hdir, target, hname]
  rfl

theorem Installing.install_eq {result : Except Failure (Path × Disk)}
    (h : r.Installing d result) : r.install d = result := by
  cases h with
  | astray hdir => rw [install, hdir]; rfl
  | nameless hdir hname => rw [install, hdir, target, hname]; rfl
  | refused hdir hname hcopy => rw [install_of_name hdir hname, hcopy]; rfl
  | copied hdir hname hcopy => rw [install_of_name hdir hname, hcopy]; rfl

theorem exists_installing (r : Riscof) (d : Disk) : ∃ result, r.Installing d result := by
  cases hdir : d.isDirectory r.dir with
  | false => exact ⟨_, .astray hdir⟩
  | true =>
      cases hname : r.artifact.fileName with
      | none => exact ⟨_, .nameless hdir hname⟩
      | some name =>
          cases hcopy : d.copy r.artifact (r.dir.join name) with
          | error fault => exact ⟨_, .refused hdir hname hcopy⟩
          | ok d' => exact ⟨_, .copied hdir hname hcopy⟩

/-- Installing goes in exactly one way. -/
theorem install_eq_iff {result : Except Failure (Path × Disk)} :
    r.install d = result ↔ r.Installing d result := by
  constructor
  · rintro rfl
    obtain ⟨result, h⟩ := r.exists_installing d
    rwa [h.install_eq]
  · exact Installing.install_eq

/-! ### The executable in the checkout -/

/-- An installation that is not refused changes the disk. -/
theorem run_installArtifact_of_ok {s : Scene} {target : Path} {disk : Disk}
    (h : r.install s.disk = .ok (target, disk)) :
    (installArtifact r).run.run s = (.ok target, { s with disk }) := by
  rw [installArtifact, run_work_get, h]
  rfl

/-- An installation that is refused changes nothing. -/
theorem run_installArtifact_of_error {s : Scene} {failure : Failure}
    (h : r.install s.disk = .error failure) :
    (installArtifact r).run.run s = (.error failure, s) := by
  rw [installArtifact, run_work_get, h]
  rfl

/-- **What is installed is what was built, unless it was installed before.**  If the installation is
not refused, the checkout is a directory, and what is installed has the name of the executable there.
If the executable was somewhere else, its bytes can be read under both paths; if it was at this very
place, by itself or through links, nothing is left of it.  The run is told nothing of either. -/
theorem installed_contents {s s' : Scene} {target : Path}
    (h : (installArtifact r).run.run s = (.ok target, s')) :
    s.disk.isDirectory r.dir = true ∧
      (∃ name, r.artifact.fileName = some name ∧ target = r.dir.join name) ∧
      s'.trace = s.trace ∧
      ∃ content left, s.disk.read r.artifact = .ok content ∧ s'.disk.read target = .ok left ∧
        s'.disk.read r.artifact = .ok left ∧
        (¬s.disk.SameFile r.artifact target → left = content) ∧
        (s.disk.SameFile r.artifact target → left = []) := by
  cases hinstall : r.install s.disk with
  | error failure =>
      rw [run_installArtifact_of_error hinstall] at h
      cases h
  | ok installed =>
      rw [run_installArtifact_of_ok hinstall] at h
      cases h
      cases install_eq_iff.1 hinstall with
      | copied hdir hname hcopy =>
          exact ⟨hdir, ⟨_, hname, rfl⟩, rfl, Disk.read_copy hcopy⟩

/-- A checkout with an executable of its own, and another one outside of it. -/
def workshop : Disk where
  nodes :=
    [(["chk"], .directory), (["Vtop", "chk"], .file [1] true), (["build"], .directory),
      (["Vtop", "build"], .file [2, 3] true)]

/-- The executable outside of the checkout. -/
def builtOutside : Riscof where
  dir := ⟨"/chk"⟩
  artifact := ⟨"/build/Vtop"⟩
  script := defaultScript

/-- The executable in the checkout. -/
def builtInside : Riscof := { builtOutside with artifact := ⟨"/chk/Vtop"⟩ }

theorem install_builtOutside : builtOutside.install workshop =
    .ok (⟨"/chk/Vtop"⟩, workshop.put ["Vtop", "chk"] (.file [2, 3] true)) := by decide +kernel

theorem install_builtInside : builtInside.install workshop =
    .ok (⟨"/chk/Vtop"⟩, workshop.put ["Vtop", "chk"] (.file [] true)) := by decide +kernel

theorem not_sameFile_builtOutside : ¬workshop.SameFile builtOutside.artifact ⟨"/chk/Vtop"⟩ := by
  have hbuild : workshop.stat true "/build/Vtop" =
      .ok (["Vtop", "build"], .file [2, 3] true) := by decide +kernel
  have hcheckout : workshop.stat true "/chk/Vtop" =
      .ok (["Vtop", "chk"], .file [1] true) := by decide +kernel
  rintro ⟨place, node, hp, hq⟩
  obtain ⟨hplace, -⟩ := Prod.mk.inj (Except.ok.inj (hp.symm.trans hbuild))
  obtain ⟨hplace', -⟩ := Prod.mk.inj (Except.ok.inj (hq.symm.trans hcheckout))
  exact absurd (hplace.symm.trans hplace') (by decide)

/-- The executable that was built replaces the one in the checkout. -/
theorem installed_builtOutside : ∃ target s',
    (installArtifact builtOutside).run.run { disk := workshop } = (.ok target, s') ∧
      s'.disk.read target = .ok [2, 3] ∧ s'.disk.read builtOutside.artifact = .ok [2, 3] := by
  have hrun := run_installArtifact_of_ok (s := { disk := workshop }) install_builtOutside
  obtain ⟨-, -, -, content, left, hread, htarget, hsource, hother, -⟩ := installed_contents hrun
  have hcontent : workshop.read builtOutside.artifact = .ok [2, 3] := by decide +kernel
  obtain rfl : content = [2, 3] := Except.ok.inj (hread.symm.trans hcontent)
  obtain rfl := hother not_sameFile_builtOutside
  exact ⟨_, _, hrun, htarget, hsource⟩

/-- The executable in the checkout does not survive its own installation. -/
theorem emptied_builtInside : ¬∀ (r : Riscof) (s s' : Scene) (target : Path) (content : List UInt8),
    s.disk.isDirectory r.dir = true → s.disk.read r.artifact = .ok content →
      (installArtifact r).run.run s = (.ok target, s') → s'.disk.read target = .ok content := by
  intro h
  have hrun := run_installArtifact_of_ok (s := { disk := workshop }) install_builtInside
  have hdir : workshop.isDirectory builtInside.dir = true := by decide +kernel
  have hread : workshop.read builtInside.artifact = .ok [1] := by decide +kernel
  have hempty : (workshop.put ["Vtop", "chk"] (.file [] true)).read ⟨"/chk/Vtop"⟩ = .ok [] := by
    decide +kernel
  have hkept := h builtInside { disk := workshop }
    { disk := workshop.put ["Vtop", "chk"] (.file [] true) } ⟨"/chk/Vtop"⟩ [1] hdir hread hrun
  rw [hempty] at hkept
  cases hkept

end Riscof

end Testbench
