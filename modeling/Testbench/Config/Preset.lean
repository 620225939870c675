/-
**Presets.**

The suites of instruction tests and of application tests differ in their programs, their simulator
flags and the way they are reported, so every configuration starts from one of three presets.

Main definitions:

* `Testbench.Preset`, `Testbench.Preset.config` — the presets;
* `Testbench.Preset.ofName` — a preset by its name;
* `Testbench.Config.assemble` — a preset under layers.

Main results:

* `Testbench.Preset.ofName_name` — every preset is found by its name;
* `Testbench.Preset.check_config` — every preset makes sense.
-/

import Testbench.Config.Basic

set_option relaxedAutoImplicit false
set_option autoImplicit false

namespace Testbench

/-- A configuration to start from. -/
inductive Preset
  /-- Instruction tests with physical and virtual memory, checked step by step. -/
  | isa
  /-- Instruction tests with physical memory alone, in fewer cycles and without checks. -/
  | isaPhysical
  /-- Application tests. -/
  | am
deriving DecidableEq, Repr, Inhabited

namespace Preset

/-- All presets, in the order in which they are offered. -/
def all : List Preset := [isa, isaPhysical, am]

/-- The name of a preset. -/
def name : Preset → String
  | isa => "isa"
  | isaPhysical => "isa-p"
  | am => "am"

/-- The preset used when none is named. -/
def default : Preset := isa

/-- The preset of a name. -/
def ofName (name : String) : Except Failure Preset :=
  match all.find? fun p => p.name = name with
  | some p => .ok p
  | none => .error (.unknownPreset name)

/-- The simulator as the build tool runs it. -/
def simulator (flags : List String) : Simulator :=
  { base := { program := "xmake", args := ["r", "Vtop"] }, flags }

/-- The build of the simulator. -/
def build : BuildSpec :=
  { command := { program := "xmake" }
    releaseConfigure := some { program := "xmake", args := ["f", "-m", "release"] } }

/-- The suffix of the dumps that lie beside the test programs. -/
def dumpSuffix : String := ".dump"

/-- The configuration for instruction tests. -/
def isaConfig : Config where
  root := ⟨"/opt/riscv-tests/share/riscv-tests/isa"⟩
  patterns := ["rv64u\x7bi,m,a,c\x7d-p*", "rv64u\x7bi,m,a,c\x7d-v*", "rv64mi-p*"]
  skip := ["rv64ui-p-ma_data", "rv64ui-v-ma_data", "rv64mi-p-illegal"]
  excludedSuffixes := [dumpSuffix]
  simulator := simulator ["-d", "--clk=3000000", "--tohost-check"]
  build := some build
  smoke := none
  jobs := 0
  timeoutSecs := none
  reportPaths := .full
  riscof := none

/-- The **configuration of a preset**. -/
def config : Preset → Config
  | isa => isaConfig
  | isaPhysical =>
      { isaConfig with
        patterns := ["rv64u\x7bi,m,a,c\x7d-p*", "rv64mi-p*"]
        skip := ["rv64ui-p-ma_data", "rv64mi-p-illegal"]
        simulator := simulator ["--clk=1000000", "--tohost-check"] }
  | am =>
      { isaConfig with
        root := ⟨"am-kernels/tests/cpu-tests/build"⟩
        patterns := ["*.bin"]
        skip := []
        simulator := simulator ["--am"]
        smoke := some ⟨"recursion-riscv64-nemu.bin"⟩
        reportPaths := .basename }

/-- Every preset is found by its name. -/
theorem ofName_name (p : Preset) : ofName p.name = .ok p := by cases p <;> rfl

theorem ofName_eq_ok_iff {n : String} {p : Preset} : ofName n = .ok p ↔ p.name = n := by
  constructor
  · intro h
    rw [ofName] at h
    split at h
    · next q hq =>
        cases h
        simpa using List.find?_some hq
    · cases h
  · rintro rfl
    exact ofName_name p

/-- A name that no preset has is refused, and no other one. -/
theorem ofName_eq_error_iff {n : String} {f : Failure} :
    ofName n = .error f ↔ (∀ p : Preset, p.name ≠ n) ∧ f = .unknownPreset n := by
  constructor
  · intro h
    refine ⟨fun p hp => ?_, ?_⟩
    · rw [ofName_eq_ok_iff.2 hp] at h
      cases h
    · rw [ofName] at h
      split at h <;> cases h
      rfl
  · rintro ⟨hunknown, rfl⟩
    cases h : ofName n with
    | ok p => exact absurd (ofName_eq_ok_iff.1 h) (hunknown p)
    | error f =>
        rw [ofName] at h
        split at h <;> cases h
        rfl

/-- Every preset makes sense. -/
theorem check_config (p : Preset) : p.config.check = none := by
  cases p <;> (rw [Config.check_eq_none_iff]; decide)

end Preset

namespace Config

/-- A preset under layers, the last one on top. -/
def layered (preset : Preset) (layers : List Layer) : Config :=
  layers.foldl (fun c l => l.applyTo c) preset.config

/-- The **configuration of a preset under layers**, if it makes sense. -/
def assemble (preset : Preset) (layers : List Layer) : Except Failure Config :=
  (layered preset layers).checked

end Config

end Testbench
