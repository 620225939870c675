/-
**How a configuration is loaded.**

A configuration may fail to load for a file that cannot be used, for the name of a preset that does
not exist, or because the result makes no sense, and they are found in this order.  A file that
cannot be used is what is reported, whatever else is given.  Then a preset is chosen, and only a
name that is used can be wrong: one in the file is not looked at if the command line names another.
What makes no sense is found last, in the configuration that results.  A preset that is named in the
layer of the command line is never looked at.

Main definitions:

* `Testbench.Layer.Spells`, `Testbench.Layer.Unusable`, `Testbench.Layer.Given` — what a file gives;
* `Testbench.Config.Chooses` — the preset of a name, or the one used when none is named;
* `Testbench.Config.Loading` — the ways in which loading goes.

Main results:

* `Testbench.Config.exists_check_eq_some_iff` — what makes no sense;
* `Testbench.Config.load_eq_iff` — loading goes one of its ways;
* `Testbench.Config.load_in_order` — **how a configuration is loaded**.
-/

import Mathlib.Data.List.Basic
import Testbench.Config.Load

set_option relaxedAutoImplicit false
set_option autoImplicit false

namespace Testbench

/-! ### Files -/

namespace Layer

/-- The text spells a layer. -/
def Spells (text : String) (l : Layer) : Prop :=
  (Toml.parse? text).bind (ofData? Toml.convention) = some l

/-- A **file that cannot be used**, and the failure that says so: it cannot be read as a text, or
the text spells no layer. -/
inductive Unusable (d : Disk) (path : Path) : Failure → Prop
  | unreadable {fault : Fault} (h : readText d path = .error fault) :
      Unusable d path (.unreadableConfig path fault)
  | unparsable {text : String} (h : readText d path = .ok text) (hspells : ∀ l, ¬Spells text l) :
      Unusable d path (.unparsableConfig path)

/-- What a file gives that can be used; without a file there is no layer. -/
inductive Given (d : Disk) : Option Path → Option Layer → Prop
  | absent : Given d none none
  | read {path : Path} {text : String} {l : Layer} (h : readText d path = .ok text)
      (hspells : Spells text l) : Given d (some path) (some l)

variable {d : Disk} {path : Path} {text : String} {l : Layer}

theorem ofToml_of_spells (h : Spells text l) : ofToml text path = .ok l := by
  rw [Spells] at h
  rw [ofToml, h]

theorem ofToml_of_not_spells (h : ∀ l, ¬Spells text l) :
    ofToml text path = .error (.unparsableConfig path) := by
  cases hparse : (Toml.parse? text).bind (ofData? Toml.convention) with
  | none => rw [ofToml, hparse]
  | some l => exact absurd hparse (h l)

theorem ofFile_of_readText (h : readText d path = .ok text) :
    ofFile d path = ofToml text path := by
  rw [ofFile, h]
  rfl

theorem ofFile_of_unusable {f : Failure} (h : Unusable d path f) :
    ofFile d path = .error f := by
  cases h with
  | unreadable h =>
      rw [ofFile, h]
      rfl
  | unparsable h hspells => rw [ofFile_of_readText h, ofToml_of_not_spells hspells]

theorem mapM_ofFile_of_given {file : Option Path} {layer : Option Layer} (h : Given d file layer) :
    file.mapM (ofFile d) = .ok layer := by
  cases h with
  | absent => rfl
  | read h hspells =>
      rw [Option.mapM_some, ofFile_of_readText h, ofToml_of_spells hspells]
      rfl

/-- A file can be used or not. -/
theorem unusable_or_given (d : Disk) (file : Option Path) :
    (∃ path f, file = some path ∧ Unusable d path f) ∨ ∃ layer, Given d file layer := by
  cases file with
  | none => exact Or.inr ⟨none, .absent⟩
  | some path =>
      cases h : readText d path with
      | error fault => exact Or.inl ⟨path, _, rfl, .unreadable h⟩
      | ok text =>
          by_cases hspells : ∃ l, Spells text l
          · obtain ⟨l, hl⟩ := hspells
            exact Or.inr ⟨some l, .read h hl⟩
          · exact Or.inl ⟨path, _, rfl, .unparsable h (not_exists.1 hspells)⟩

end Layer

namespace Config

/-! ### Presets -/

/-- The preset of a name, or the one used when none is named. -/
inductive Chooses : Option String → Preset → Prop
  | named (p : Preset) : Chooses (some p.name) p
  | unnamed : Chooses none .default

theorem presetOf_of_chooses {name : Option String} {p : Preset} (h : Chooses name p) :
    presetOf name = .ok p := by
  cases h with
  | named => exact Preset.ofName_name p
  | unnamed => rfl

/-- A name that is used is that of a preset, or of none. -/
theorem chooses_or_unknown (name : Option String) :
    (∃ p, Chooses name p) ∨ ∃ n, name = some n ∧ ∀ p : Preset, p.name ≠ n := by
  cases name with
  | none => exact Or.inl ⟨_, .unnamed⟩
  | some n =>
      by_cases h : ∃ p : Preset, p.name = n
      · obtain ⟨p, rfl⟩ := h
        exact Or.inl ⟨p, .named p⟩
      · exact Or.inr ⟨n, rfl, not_exists.1 h⟩

/-! ### What makes no sense -/

/-- A configuration makes no sense if the simulator or the build has no program, or if the time a
test may take is zero. -/
theorem exists_check_eq_some_iff (c : Config) : (∃ f, c.check = some f) ↔
    Text.isBlank c.simulator.base.program = true ∨
      (∃ b, c.build = some b ∧ Text.isBlank b.command.program = true) ∨
      c.timeoutSecs = some 0 := by
  rw [← Option.ne_none_iff_exists', ne_eq, check_eq_none_iff, not_and_or, not_and_or]
  simp

/-! ### Loading -/

/-- **The ways in which loading goes**: a file cannot be used, the name that is used is that of no
preset, or a preset is put under the layer of the file, if there is one, and that of the command
line. -/
inductive Loading (d : Disk) (file : Option Path) (name : Option String) (l : Layer) :
    Except Failure Config → Prop
  | unusable {path : Path} {f : Failure} (hfile : file = some path)
      (h : Layer.Unusable d path f) : Loading d file name l (.error f)
  | unknown {layer : Option Layer} {n : String} (hgiven : Layer.Given d file layer)
      (hname : (name <|> layer.bind (·.preset)) = some n) (h : ∀ p : Preset, p.name ≠ n) :
      Loading d file name l (.error (.unknownPreset n))
  | assembled {layer : Option Layer} {p : Preset} (hgiven : Layer.Given d file layer)
      (h : Chooses (name <|> layer.bind (·.preset)) p) :
      Loading d file name l (assemble p (layer.toList ++ [l]))

variable {d : Disk} {file : Option Path} {name : Option String} {l : Layer}

theorem load_of_given {layer : Option Layer} (h : Layer.Given d file layer) :
    load d file name l = ofLayers layer name l := by
  rw [load, Layer.mapM_ofFile_of_given h]
  rfl

theorem Loading.load_eq {r : Except Failure Config} (h : Loading d file name l r) :
    load d file name l = r := by
  cases h with
  | unusable hfile h =>
      subst hfile
      exact load_of_unreadable (Layer.ofFile_of_unusable h) name l
  | unknown hgiven hname h =>
      rw [load_of_given hgiven, ofLayers, presetName, hname, presetOf,
        Preset.ofName_eq_error_iff.2 ⟨h, rfl⟩]
      rfl
  | assembled hgiven h =>
      rw [load_of_given hgiven, ofLayers, presetName, presetOf_of_chooses h]
      rfl

/-- **Loading goes one of its ways.** -/
theorem exists_loading (d : Disk) (file : Option Path) (name : Option String) (l : Layer) :
    ∃ r, Loading d file name l r := by
  rcases Layer.unusable_or_given d file with ⟨path, f, hfile, h⟩ | ⟨layer, hgiven⟩
  · exact ⟨_, .unusable hfile h⟩
  · rcases chooses_or_unknown (name <|> layer.bind (·.preset)) with ⟨p, h⟩ | ⟨n, hname, h⟩
    · exact ⟨_, .assembled hgiven h⟩
    · exact ⟨_, .unknown hgiven hname h⟩

theorem load_eq_iff {r : Except Failure Config} :
    load d file name l = r ↔ Loading d file name l r := by
  constructor
  · rintro rfl
    obtain ⟨r, h⟩ := exists_loading d file name l
    rwa [h.load_eq]
  · exact Loading.load_eq

/-- The preset that the last layer names does not matter. -/
theorem assemble_renamed (p : Preset) (layers : List Layer) (l : Layer) (other : Option String) :
    assemble p (layers ++ [{ l with preset := other }]) = assemble p (layers ++ [l]) := by
  rw [assemble, assemble, layered, layered, List.foldl_concat, List.foldl_concat,
    Layer.applyTo_preset]

/-- **How a configuration is loaded.**  Loading goes one of its ways.  So a file that cannot be used
is reported whatever preset is named and whatever the command line sets; a name that is used and is
that of no preset is reported whatever the command line sets; a preset that the command line names
hides the name in the file; and if a preset is chosen, loading fails exactly if the result makes no
sense.  The preset that the layer of the command line names does not matter. -/
theorem load_in_order (d : Disk) (file : Option Path) (name : Option String) (l : Layer) :
    (∀ r, load d file name l = r ↔ Loading d file name l r) ∧
    (∀ path f, file = some path → Layer.Unusable d path f →
      ∀ name' l', load d file name' l' = .error f) ∧
    (∀ layer n, Layer.Given d file layer → (name <|> layer.bind (·.preset)) = some n →
      (∀ p : Preset, p.name ≠ n) → ∀ l', load d file name l' = .error (.unknownPreset n)) ∧
    (∀ layer p, Layer.Given d file layer → name = some p.name →
      load d file name l = assemble p (layer.toList ++ [l])) ∧
    (∀ layer p, Layer.Given d file layer → Chooses (name <|> layer.bind (·.preset)) p →
      load d file name l = assemble p (layer.toList ++ [l]) ∧
      ((∃ f, load d file name l = .error f) ↔
        Text.isBlank (layered p (layer.toList ++ [l])).simulator.base.program = true ∨
          (∃ b, (layered p (layer.toList ++ [l])).build = some b ∧
            Text.isBlank b.command.program = true) ∨
          (layered p (layer.toList ++ [l])).timeoutSecs = some 0)) ∧
    (∀ other, load d file name { l with preset := other } = load d file name l) := by
  refine ⟨fun r => load_eq_iff, fun path f hfile h name' l' => ?_,
    fun layer n hgiven hname h l' => ?_, fun layer p hgiven hname => ?_,
    fun layer p hgiven h => ?_, fun other => ?_⟩
  · exact (Loading.unusable hfile h).load_eq
  · exact (Loading.unknown hgiven hname h).load_eq
  · subst hname
    exact (Loading.assembled hgiven (.named p)).load_eq
  · have hload := (Loading.assembled (l := l) hgiven h).load_eq
    refine ⟨hload, ?_⟩
    rw [hload, ← exists_check_eq_some_iff, assemble]
    simp only [checked_eq_error_iff]
  · obtain ⟨r, h⟩ := exists_loading d file name l
    rw [h.load_eq, load_eq_iff]
    cases h with
    | unusable hfile h => exact .unusable hfile h
    | unknown hgiven hname h => exact .unknown hgiven hname h
    | assembled hgiven h =>
        rw [← assemble_renamed]
        exact .assembled hgiven h

/-- A file that spells no layer, and one that names a preset that does not exist and sets a limit of
zero. -/
def faultyFiles : Disk where
  nodes :=
    [(["words.toml"], .file (Utf8.encode "preset") false),
      (["c.toml"], .file (Utf8.encode "preset = \"nope\"\ntimeout_secs = 0\n") false)]

/-- The layer of the file that names a preset. -/
def faultyLayer : Layer := { preset := some "nope", timeoutSecs := some 0 }

/-- Whatever is wrong at the same time, it is the first fault that is reported; and each fault that
is mended brings up the next. -/
theorem load_of_faultyFiles :
    load faultyFiles (some ⟨"none.toml"⟩) (some "nope") { timeoutSecs := some 0 } =
      .error (.unreadableConfig ⟨"none.toml"⟩ .noSuchFile) ∧
    load faultyFiles (some ⟨"words.toml"⟩) (some "nope") { timeoutSecs := some 0 } =
      .error (.unparsableConfig ⟨"words.toml"⟩) ∧
    load faultyFiles (some ⟨"c.toml"⟩) none { timeoutSecs := some 0 } =
      .error (.unknownPreset "nope") ∧
    load faultyFiles (some ⟨"c.toml"⟩) (some "am") {} =
      .error (.badConfig "timeout_secs must be greater than 0") ∧
    load faultyFiles (some ⟨"c.toml"⟩) (some "am") { timeoutSecs := some 5 } =
      .ok { Preset.am.config with timeoutSecs := some 5 } := by
  have hmissing : Layer.Unusable faultyFiles ⟨"none.toml"⟩
      (.unreadableConfig ⟨"none.toml"⟩ .noSuchFile) := .unreadable (by decide +kernel)
  have hwords : Layer.Unusable faultyFiles ⟨"words.toml"⟩ (.unparsableConfig ⟨"words.toml"⟩) := by
    have htext : Layer.readText faultyFiles ⟨"words.toml"⟩ = .ok "preset" := by decide +kernel
    have hnone : (Toml.parse? "preset").bind (Layer.ofData? Toml.convention) = none := by
      decide +kernel
    refine .unparsable htext fun l hl => ?_
    cases hnone.symm.trans hl
  have hgiven : Layer.Given faultyFiles (some ⟨"c.toml"⟩) (some faultyLayer) := by
    have htext : Layer.readText faultyFiles ⟨"c.toml"⟩ =
        .ok "preset = \"nope\"\ntimeout_secs = 0\n" := by decide +kernel
    refine .read htext ?_
    unfold Layer.Spells
    decide +kernel
  have hnope : ∀ p : Preset, p.name ≠ "nope" := by
    intro p
    cases p <;> decide
  have ham : ∀ l, load faultyFiles (some ⟨"c.toml"⟩) (some "am") l =
      assemble .am ((some faultyLayer).toList ++ [l]) := by
    intro l
    obtain ⟨-, -, -, hnamed, -⟩ := load_in_order faultyFiles (some ⟨"c.toml"⟩) (some "am") l
    exact hnamed _ .am hgiven rfl
  obtain ⟨-, hunreadable, -⟩ := load_in_order faultyFiles (some ⟨"none.toml"⟩) none {}
  obtain ⟨-, hunparsable, -⟩ := load_in_order faultyFiles (some ⟨"words.toml"⟩) none {}
  obtain ⟨-, -, hunknown, -⟩ := load_in_order faultyFiles (some ⟨"c.toml"⟩) none {}
  refine ⟨hunreadable _ _ rfl hmissing _ _, hunparsable _ _ rfl hwords _ _,
    hunknown _ _ hgiven rfl hnope _, ?_, ?_⟩
  · rw [ham]
    decide +kernel
  · rw [ham]
    decide +kernel

end Config

end Testbench
