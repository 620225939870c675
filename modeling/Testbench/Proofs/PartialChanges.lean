/-
**Changes that are made or refused.**

The command line may change parts of a configuration that has been put together.  A configuration
that makes sense makes sense afterwards, so there is one thing that can be wrong: a part of the
RISCOF run is changed where there is no such run, and nothing supplies the rest.  What else was to
be changed is changed by then, and it stays so.  But no command line asks for both kinds of changes:
one that runs tests never touches the RISCOF run, and one for a RISCOF run touches nothing else.
So whatever a command line asks for, changes that are refused leave the configuration as it was.

Main definitions:

* `Testbench.CommandLine.Overrides.onLists` — a configuration with its lists changed;
* `Testbench.CommandLine.Overrides.Merges`, `Testbench.CommandLine.Overrides.Becomes`,
  `Testbench.CommandLine.Overrides.Lacks` — a RISCOF run with its parts changed, and the part that
  is missing;
* `Testbench.CommandLine.Overrides.Applying` — the ways in which changes go;
* `Testbench.CommandLine.Overrides.Changed` — a configuration that was changed, field by field.

Main results:

* `Testbench.CommandLine.Overrides.mergeRiscof_cases` — the parts of a RISCOF run are merged, or one
  of them is missing;
* `Testbench.CommandLine.Overrides.applying_apply` — changes go one of their ways;
* `Testbench.CommandLine.Overrides.apply_eq_ok` — a configuration that was changed in parts;
* `Testbench.CommandLine.Overrides.changes_or_refuses` — **changes are made, or refused as a
  whole**.
-/

import Mathlib.Data.List.Basic
import Testbench.Config.Preset
import Testbench.Proofs.CommandLines

set_option relaxedAutoImplicit false
set_option autoImplicit false

namespace Testbench.CommandLine

namespace Overrides

/-- The configuration with its lists changed. -/
def onLists (o : Overrides) (c : Config) : Config :=
  { c with
    skip := c.skip ++ o.extraSkip
    simulator := { c.simulator with flags := o.flags.getD c.simulator.flags } }

/-! ### The RISCOF run -/

/-- A RISCOF run with its parts changed: what is not changed is kept, and where there is nothing to
keep, the script is the default one. -/
structure Merges (o : Overrides) (current : Option Riscof) (r : Riscof) : Prop where
  dir : some r.dir = (o.riscofDir <|> current.map (·.dir))
  artifact : some r.artifact = (o.riscofArtifact <|> current.map (·.artifact))
  script : r.script = (o.riscofScript <|> current.map (·.script)).getD Riscof.defaultScript

/-- What becomes of a RISCOF run: it is left alone, or merged with its changes. -/
inductive Becomes (o : Overrides) (current : Option Riscof) : Option Riscof → Prop
  | kept (htouched : o.touchesRiscof = false) : Becomes o current current
  | merged {r : Riscof} (htouched : o.touchesRiscof = true) (h : o.Merges current r) :
      Becomes o current (some r)

/-- The part that is **missing** where there is no RISCOF run: the directory is looked for first. -/
inductive Lacks (o : Overrides) : Opt → Prop
  | dir (hdir : o.riscofDir = none) : Lacks o .dir
  | artifact (hdir : o.riscofDir ≠ none) (hartifact : o.riscofArtifact = none) : Lacks o .artifact

theorem touchesRiscof_iff {o : Overrides} : o.touchesRiscof = true ↔
    o.riscofDir ≠ none ∨ o.riscofArtifact ≠ none ∨ o.riscofScript ≠ none := by
  simp [touchesRiscof, Option.isSome_iff_ne_none, or_assoc]

theorem exists_lacks_iff {o : Overrides} :
    (∃ option, o.Lacks option) ↔ o.riscofDir = none ∨ o.riscofArtifact = none := by
  constructor
  · rintro ⟨option, h⟩
    cases h with
    | dir hdir => exact Or.inl hdir
    | artifact _ hartifact => exact Or.inr hartifact
  · intro h
    by_cases hdir : o.riscofDir = none
    · exact ⟨_, .dir hdir⟩
    · exact ⟨_, .artifact hdir (h.resolve_left hdir)⟩

/-- A RISCOF run of which parts were changed. -/
theorem merges_of_eq_ok {o : Overrides} {current : Option Riscof} {r : Riscof}
    (h : o.mergeRiscof current = .ok r) : o.Merges current r := by
  rw [mergeRiscof] at h
  cases hdir : (o.riscofDir <|> current.map (·.dir)) with
  | none =>
      rw [hdir] at h
      cases h
  | some dir =>
      cases hartifact : (o.riscofArtifact <|> current.map (·.artifact)) with
      | none =>
          rw [hdir, hartifact] at h
          cases h
      | some artifact =>
          rw [hdir, hartifact] at h
          cases h
          exact ⟨hdir.symm, hartifact.symm, rfl⟩

/-- Nothing is missing where a RISCOF run is configured. -/
theorem mergeRiscof_some (o : Overrides) (spec : Riscof) :
    ∃ r, o.mergeRiscof (some spec) = .ok r := by
  rw [mergeRiscof]
  cases o.riscofDir <;> cases o.riscofArtifact <;> exact ⟨_, rfl⟩

theorem mergeRiscof_none_of_lacks {o : Overrides} {option : Opt} (h : o.Lacks option) :
    o.mergeRiscof none = .error (.missing option) := by
  rw [mergeRiscof]
  cases h with
  | dir hdir => rw [hdir]; rfl
  | artifact hdir hartifact =>
      obtain ⟨dir, hdir⟩ := Option.ne_none_iff_exists'.1 hdir
      rw [hdir, hartifact]
      rfl

theorem mergeRiscof_none_of_some {o : Overrides} {dir artifact : Path}
    (hdir : o.riscofDir = some dir) (hartifact : o.riscofArtifact = some artifact) :
    ∃ r, o.mergeRiscof none = .ok r := by
  rw [mergeRiscof, hdir, hartifact]
  exact ⟨_, rfl⟩

/-- **The parts of a RISCOF run are merged, or one of them is missing**, because there is no run. -/
theorem mergeRiscof_cases (o : Overrides) (current : Option Riscof) :
    (∃ r, o.mergeRiscof current = .ok r ∧ o.Merges current r) ∨
      ∃ option, o.mergeRiscof current = .error (.missing option) ∧ current = none ∧
        o.Lacks option := by
  have hmerged : (∃ r, o.mergeRiscof current = .ok r) →
      ∃ r, o.mergeRiscof current = .ok r ∧ o.Merges current r :=
    fun ⟨r, h⟩ => ⟨r, h, merges_of_eq_ok h⟩
  cases current with
  | some spec => exact Or.inl (hmerged (mergeRiscof_some o spec))
  | none =>
      by_cases hlacks : ∃ option, o.Lacks option
      · obtain ⟨option, hlacks⟩ := hlacks
        exact Or.inr ⟨option, mergeRiscof_none_of_lacks hlacks, rfl, hlacks⟩
      · rw [exists_lacks_iff, not_or] at hlacks
        obtain ⟨dir, hdir⟩ := Option.ne_none_iff_exists'.1 hlacks.1
        obtain ⟨artifact, hartifact⟩ := Option.ne_none_iff_exists'.1 hlacks.2
        exact Or.inl (hmerged (mergeRiscof_none_of_some hdir hartifact))

/-! ### The ways in which changes go -/

/-- **The ways in which changes go.**  The lists are changed in any case.  Then the RISCOF run is
what becomes of it, and the configuration makes sense or not; or there is no such run, and a part of
it is missing. -/
inductive Applying (o : Overrides) (c : Config) : Except Refusal Unit × Config → Prop
  | made {r : Option Riscof} (h : o.Becomes c.riscof r) (hc : c.check = none) :
      Applying o c (.ok (), { o.onLists c with riscof := r })
  | senseless {r : Option Riscof} {f : Failure} (h : o.Becomes c.riscof r)
      (hc : c.check = some f) :
      Applying o c (.error (.failure f), { o.onLists c with riscof := r })
  | refused {option : Opt} (htouched : o.touchesRiscof = true) (hnone : c.riscof = none)
      (h : o.Lacks option) : Applying o c (.error (.missing option), o.onLists c)

variable {o : Overrides} {c c' : Config}

/-- A configuration is checked when everything is changed.  What is looked at is nothing that can be
changed. -/
theorem applying_of_becomes {r : Option Riscof} (h : o.Becomes c.riscof r) :
    Applying o c (match ({ o.onLists c with riscof := r } : Config).check with
      | some f => (.error (.failure f), { o.onLists c with riscof := r })
      | none => (.ok (), { o.onLists c with riscof := r })) := by
  cases hc : c.check with
  | none =>
      have hchanged : ({ o.onLists c with riscof := r } : Config).check = none := hc
      rw [hchanged]
      exact .made h hc
  | some f =>
      have hchanged : ({ o.onLists c with riscof := r } : Config).check = some f := hc
      rw [hchanged]
      exact .senseless h hc

/-- **Changes go one of their ways.** -/
theorem applying_apply (o : Overrides) (c : Config) : Applying o c (o.apply c) := by
  cases htouched : o.touchesRiscof with
  | false =>
      simp only [apply, htouched, Bool.false_eq_true, if_false]
      exact applying_of_becomes (.kept htouched)
  | true =>
      rcases mergeRiscof_cases o c.riscof with ⟨r, hmerge, h⟩ | ⟨option, hmerge, hnone, h⟩
      · simp only [apply, htouched, if_true, hmerge]
        exact applying_of_becomes (.merged htouched h)
      · -- no run was lost when it was taken out, because there was none
        have hsame : ({ o.onLists c with riscof := none } : Config) = o.onLists c := by
          rw [← hnone]
          rfl
        simp only [apply, htouched, if_true, hmerge]
        exact hsame ▸ .refused htouched hnone h

/-- **A configuration that was changed in parts.** -/
theorem apply_eq_ok (h : o.apply c = (.ok (), c')) :
    c.check = none ∧ ∃ r, o.Becomes c.riscof r ∧ c' = { o.onLists c with riscof := r } := by
  have hway := applying_apply o c
  rw [h] at hway
  cases hway with
  | made hbecomes hc => exact ⟨hc, _, hbecomes, rfl⟩

/-- Changes to a configuration that makes sense change the lists and nothing else if they are
refused. -/
theorem apply_eq_error {e : Refusal} (hc : c.check = none) (h : (o.apply c).1 = .error e) :
    o.apply c = (.error e, o.onLists c) ∧ o.touchesRiscof = true ∧ c.riscof = none ∧
      ∃ option, e = .missing option ∧ o.Lacks option := by
  have hway := applying_apply o c
  generalize o.apply c = result at hway h
  cases hway with
  | made => cases h
  | senseless _ hf =>
      rw [hc] at hf
      cases hf
  | refused htouched hnone hlacks =>
      cases h
      exact ⟨rfl, htouched, hnone, _, rfl, hlacks⟩

/-- Changes are refused exactly if a part of the RISCOF run is changed where there is none, and the
directory or the executable is not among the changes. -/
theorem exists_apply_eq_error_iff (hc : c.check = none) :
    (∃ e, (o.apply c).1 = .error e) ↔
      (o.riscofDir ≠ none ∨ o.riscofArtifact ≠ none ∨ o.riscofScript ≠ none) ∧
        c.riscof = none ∧ (o.riscofDir = none ∨ o.riscofArtifact = none) := by
  rw [← touchesRiscof_iff, ← exists_lacks_iff]
  constructor
  · rintro ⟨e, h⟩
    obtain ⟨-, htouched, hnone, option, -, hlacks⟩ := apply_eq_error hc h
    exact ⟨htouched, hnone, option, hlacks⟩
  · rintro ⟨htouched, hnone, option, hlacks⟩
    have hmerge : o.mergeRiscof c.riscof = .error (.missing option) := by
      rw [hnone, mergeRiscof_none_of_lacks hlacks]
    refine ⟨.missing option, ?_⟩
    simp only [apply, htouched, if_true, hmerge]

/-- The refusal names the directory if it is missing, and else the executable. -/
theorem Lacks.message {option : Opt} (h : o.Lacks option) : (Refusal.missing option).message =
    (if o.riscofDir = none then "--dir" else "--artifact") ++
      " is required when no [riscof] section is configured" := by
  cases h with
  | dir hdir => rw [if_pos hdir]; rfl
  | artifact hdir _ => rw [if_neg hdir]; rfl

/-! ### Field by field -/

/-- **A configuration that was changed**, field by field.  What is not named here is as it was. -/
structure Changed (o : Overrides) (c c' : Config) : Prop where
  makesSense : c'.check = none
  skip : c'.skip = c.skip ++ o.extraSkip
  base : c'.simulator.base = c.simulator.base
  flags : c'.simulator.flags = o.flags.getD c.simulator.flags
  riscof : o.Becomes c.riscof c'.riscof
  others : { c' with skip := c.skip, simulator := c.simulator, riscof := c.riscof } = c

theorem changed_of_apply (h : o.apply c = (.ok (), c')) : o.Changed c c' := by
  obtain ⟨hc, r, hr, rfl⟩ := apply_eq_ok h
  exact ⟨hc, rfl, rfl, rfl, hr, rfl⟩

/-! ### What a command line asks for -/

/-- A command line does not ask for both kinds of changes. -/
theorem untouched_or_lists_of_parse {words : List String} {options : Options}
    (h : parse words = .ok options) :
    options.overrides.touchesRiscof = false ∨ ∀ c, options.overrides.onLists c = c := by
  obtain ⟨mode, d, rest, f, -, -, rfl⟩ := parse_eq_ok_iff.1 h
  cases mode with
  | run => exact Or.inl rfl
  | riscof =>
      refine Or.inr fun c => ?_
      have hskip : c.skip ++ [] = c.skip := List.append_nil _
      exact congrArg (fun skip => { c with skip }) hskip

/-- **Changes are made, or refused as a whole.**  Of a configuration that makes sense, changes are
refused if and only if a part of the RISCOF run is changed where there is none, and the directory or
the executable is not among the changes; the refusal says which of them.  Otherwise the
configuration is changed and makes sense.  Changes that a command line asks for leave the
configuration as it was if they are refused. -/
theorem changes_or_refuses (o : Overrides) {c : Config} (hc : c.check = none) :
    ((∃ e, (o.apply c).1 = .error e) ↔
      (o.riscofDir ≠ none ∨ o.riscofArtifact ≠ none ∨ o.riscofScript ≠ none) ∧
        c.riscof = none ∧ (o.riscofDir = none ∨ o.riscofArtifact = none)) ∧
    (∀ e, (o.apply c).1 = .error e → e.message =
      (if o.riscofDir = none then "--dir" else "--artifact") ++
        " is required when no [riscof] section is configured") ∧
    (∀ c', o.apply c = (.ok (), c') → o.Changed c c') ∧
    (∀ words options, parse words = .ok options → options.overrides = o →
      ∀ e, (o.apply c).1 = .error e → (o.apply c).2 = c) := by
  refine ⟨exists_apply_eq_error_iff hc, fun e h => ?_, fun c' h => changed_of_apply h,
    fun words options hparse hsame e h => ?_⟩
  · obtain ⟨-, -, -, option, rfl, hlacks⟩ := apply_eq_error hc h
    exact hlacks.message
  · obtain ⟨happly, htouched, -⟩ := apply_eq_error hc h
    rw [happly]
    subst hsame
    rcases untouched_or_lists_of_parse hparse with huntouched | hlists
    · rw [huntouched] at htouched
      cases htouched
    · exact hlists c

/-- Changes of both kinds, which no command line asks for. -/
def bothKinds : Overrides := { extraSkip := ["fence"], riscofScript := some "./check.sh" }

/-- Without a RISCOF run they are refused; with one they are made.  The changes of a command line
are refused without a trace. -/
theorem refused_bothKinds :
    Preset.isa.config.check = none ∧
      (∃ e, (bothKinds.apply Preset.isa.config).1 = .error e ∧
        e.message = "--dir is required when no [riscof] section is configured") ∧
      bothKinds.Changed
        { Preset.isa.config with riscof := some ⟨⟨"/checkout"⟩, ⟨"Vtop"⟩, "./run.sh"⟩ }
        { Preset.isa.config with
          skip := Preset.isa.config.skip ++ ["fence"]
          riscof := some ⟨⟨"/checkout"⟩, ⟨"Vtop"⟩, "./check.sh"⟩ } ∧
      ∃ options e, parse ["riscof", "--dir", "/checkout"] = .ok options ∧
        options.overrides.apply Preset.isa.config = (.error e, Preset.isa.config) := by
  have hc : Preset.isa.config.check = none := by decide +kernel
  refine ⟨hc, ?_, ?_, ?_⟩
  · obtain ⟨hfails, hmessage, -⟩ := changes_or_refuses bothKinds hc
    obtain ⟨e, he⟩ := hfails.2 ⟨by simp [bothKinds], rfl, Or.inl rfl⟩
    exact ⟨e, he, hmessage e he⟩
  · have hc' : ({ Preset.isa.config with
        riscof := some ⟨⟨"/checkout"⟩, ⟨"Vtop"⟩, "./run.sh"⟩ } : Config).check = none := hc
    exact (changes_or_refuses bothKinds hc').2.2.1 _ rfl
  · have hparse : ∃ options, parse ["riscof", "--dir", "/checkout"] = .ok options ∧
        options.overrides = { riscofDir := some ⟨"/checkout"⟩ } :=
      ⟨_, rfl, by decide +kernel⟩
    obtain ⟨options, hparse, hoverrides⟩ := hparse
    obtain ⟨hfails, -, -, hatomic⟩ := changes_or_refuses options.overrides hc
    obtain ⟨e, he⟩ := hfails.2 (by rw [hoverrides]; exact ⟨by simp, rfl, Or.inr rfl⟩)
    exact ⟨options, e, hparse, Prod.ext he (hatomic _ _ hparse rfl e he)⟩

end Overrides

end Testbench.CommandLine
