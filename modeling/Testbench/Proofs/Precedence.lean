/-
**Who has the last word.**

A configuration comes from three places: a preset, perhaps a file, and the command line.  The
command line has the last word on a field, then the file, then the preset; but it can do so in
three ways.  Most fields it replaces; the skip list it makes longer; and of the simulator and of
the RISCOF run it replaces a part and leaves the rest.  Some fields it cannot touch at all, and on
the line of a RISCOF run it can touch nothing else.

Main definitions:

* `Testbench.Config.Settled` — the last word on each field.

Main results:

* `Testbench.Config.load_eq_ok` — a configuration that was put together;
* `Testbench.Program.configure_settled` — **who has the last word**, for every command line and
  every file.
-/

import Mathlib.Data.List.Basic
import Testbench.Program
import Testbench.Proofs.PartialChanges

set_option relaxedAutoImplicit false
set_option autoImplicit false

namespace Testbench

open CommandLine

/-! ### Putting a configuration together -/

/-- The configuration of a preset under the layer of a file, if there is one. -/
def Config.beneath (file : Option Layer) (preset : Preset) : Config :=
  (file.getD {}).applyTo preset.config

/-- **A configuration that was put together** is that of the chosen preset under the file and the
command line. -/
theorem Config.load_eq_ok {d : Disk} {file : Option Path} {name : Option String} {l : Layer}
    {c : Config} (h : load d file name l = .ok c) :
    ∃ layer preset, file.mapM (Layer.ofFile d) = .ok layer ∧
      presetOf (name <|> layer.bind (·.preset)) = .ok preset ∧
      c = l.applyTo (beneath layer preset) := by
  rw [load] at h
  obtain ⟨layer, hfile, h⟩ := bind_eq_ok h
  rw [ofLayers] at h
  obtain ⟨preset, hpreset, h⟩ := bind_eq_ok h
  refine ⟨layer, preset, hfile, hpreset, ?_⟩
  have hlayered := (checked_eq_ok_iff.1 h).1
  cases layer <;> exact hlayered

/-! ### Field by field -/

/-- **The last word on each field**: `f` are the options that were given, `l` is the layer of the
file, which sets nothing if there is no file, and `p` is the configuration of the preset. -/
structure Config.Settled (f : Found) (l : Layer) (p c : Config) : Prop where
  root : c.root = (Found.path? f .root <|> l.root).getD p.root
  patterns : c.patterns = (Found.texts? f .pattern <|> l.patterns).getD p.patterns
  jobs : c.jobs = (Found.number? f .jobs <|> l.jobs).getD p.jobs
  timeoutSecs : c.timeoutSecs = (Found.number? f .timeout <|> l.timeoutSecs <|> p.timeoutSecs)
  skip : c.skip = l.skip.getD p.skip ++ Found.texts f .skip
  base : c.simulator.base = (l.simulator.getD p.simulator).base
  flags : c.simulator.flags =
    (Found.texts? f .flag).getD (l.simulator.getD p.simulator).flags
  smoke : c.smoke = if Found.has f .noSmoke then none
    else Found.path? f .smoke <|> Layer.step l.smoke p.smoke
  reportPaths : c.reportPaths = if Found.has f .basename then .basename
    else l.reportPaths.getD p.reportPaths
  build : c.build = Layer.step l.build p.build
  excludedSuffixes : c.excludedSuffixes = l.excludedSuffixes.getD p.excludedSuffixes
  riscof_kept : Found.has f .dir = false → Found.has f .artifact = false →
    Found.has f .script = false → c.riscof = (l.riscof <|> p.riscof)
  riscof_changed : (Found.has f .dir || Found.has f .artifact || Found.has f .script) = true →
    ∃ r, c.riscof = some r ∧
      some r.dir = (Found.path? f .dir <|> (l.riscof <|> p.riscof).map (·.dir)) ∧
      some r.artifact = (Found.path? f .artifact <|> (l.riscof <|> p.riscof).map (·.artifact)) ∧
      r.script = (Found.text? f .script <|>
        (l.riscof <|> p.riscof).map (·.script)).getD Riscof.defaultScript

theorem getD_orElse {α : Type} (a b : Option α) (c : α) :
    (a <|> b).getD c = a.getD (b.getD c) := by
  cases a <;> rfl

/-- What the command line says about the smoke test. -/
theorem step_smoke (f : Found) (below : Option Path) :
    Layer.step (runLayer f).smoke below =
      if Found.has f .noSmoke then none else Found.path? f .smoke <|> below := by
  rw [runLayer]
  cases Found.has f .noSmoke with
  | true => rfl
  | false => cases Found.path? f .smoke <;> rfl

theorem getD_reportPaths (f : Found) (below : PathStyle) :
    (runLayer f).reportPaths.getD below =
      if Found.has f .basename then .basename else below := by
  rw [runLayer]
  cases Found.has f .basename <;> rfl

/-- The RISCOF run is touched if one of its parts was given. -/
theorem touchesRiscof_ofFound {f : Found} (hf : f.Legible) :
    (ofFound .riscof f).overrides.touchesRiscof =
      (Found.has f .dir || Found.has f .artifact || Found.has f .script) := by
  have hdir : (Found.path? f .dir).isSome = Found.has f .dir := by
    rw [Found.path?, Option.isSome_map, hf.text .dir (by decide)]
  have hartifact : (Found.path? f .artifact).isSome = Found.has f .artifact := by
    rw [Found.path?, Option.isSome_map, hf.text .artifact (by decide)]
  have hscript := hf.text .script (by decide)
  rw [← hdir, ← hartifact, ← hscript]
  rfl

/-! ### The two kinds of lines -/

namespace Program

variable {d : Disk} {file : Option Path} {f : Found} {c : Config}

/-- A configuration that was put together and changed in parts. -/
theorem configure_eq_ok {o : Options} (h : configure o d file = .ok c) :
    ∃ c₀, Config.load d file o.preset o.layer = .ok c₀ ∧ o.overrides.apply c₀ = (.ok (), c) := by
  rw [configure] at h
  obtain ⟨c₀, hload, h⟩ := bind_eq_ok h
  refine ⟨c₀, mapError_eq_ok hload, ?_⟩
  split at h
  · cases h
  · next happly =>
      cases h
      exact happly

variable {l : Layer} {p : Config}

/-- On a line that runs tests. -/
theorem settled_run (hdir : Found.has f .dir = false) (hartifact : Found.has f .artifact = false)
    (hscript : Found.has f .script = false)
    (h : (ofFound .run f).overrides.apply ((runLayer f).applyTo (l.applyTo p)) = (.ok (), c)) :
    Config.Settled f l p c ∧ c.riscof = (l.riscof <|> p.riscof) := by
  obtain ⟨-, r, hbecomes, rfl⟩ := Overrides.apply_eq_ok h
  cases hbecomes with
  | merged htouched => cases htouched
  | kept =>
      have hkept : ((runLayer f).applyTo (l.applyTo p)).riscof = (l.riscof <|> p.riscof) := rfl
      refine ⟨?_, hkept⟩
      exact {
        root := (getD_orElse ..).symm
        patterns := (getD_orElse ..).symm
        jobs := (getD_orElse ..).symm
        timeoutSecs := rfl
        skip := rfl
        base := rfl
        flags := rfl
        smoke := step_smoke f _
        reportPaths := getD_reportPaths f _
        build := rfl
        excludedSuffixes := rfl
        riscof_kept := fun _ _ _ => hkept
        riscof_changed := by
          rw [hdir, hartifact, hscript]
          nofun }

/-- Some part of the RISCOF run was given. -/
def namesRiscof (f : Found) : Bool :=
  Found.has f .dir || Found.has f .artifact || Found.has f .script

/-- Where no option for running tests was given, the fields are those of file and preset, except
for the RISCOF run. -/
theorem settled_of_riscof_fields (hruns : ∀ o ∈ Opt.forRuns, Found.has f o = false)
    {r : Option Riscof} (hkept : namesRiscof f = false → r = (l.riscof <|> p.riscof))
    (hchanged : namesRiscof f = true → ∃ r', r = some r' ∧
      (ofFound .riscof f).overrides.Merges (l.riscof <|> p.riscof) r') :
    Config.Settled f l p { l.applyTo p with riscof := r } where
  root := by rw [Found.path?_eq_none (hruns .root (by decide))]; rfl
  patterns := by rw [Found.texts?_eq_none (hruns .pattern (by decide))]; rfl
  jobs := by rw [Found.number?_eq_none (hruns .jobs (by decide))]; rfl
  timeoutSecs := by rw [Found.number?_eq_none (hruns .timeout (by decide))]; rfl
  skip := by rw [Found.texts_eq_nil (hruns .skip (by decide)), List.append_nil]; rfl
  base := rfl
  flags := by rw [Found.texts?_eq_none (hruns .flag (by decide))]; rfl
  smoke := by
    rw [hruns .noSmoke (by decide), Found.path?_eq_none (hruns .smoke (by decide))]
    rfl
  reportPaths := by rw [hruns .basename (by decide)]; rfl
  build := rfl
  excludedSuffixes := rfl
  riscof_kept := by
    intro hdir hartifact hscript
    exact hkept (by rw [namesRiscof, hdir, hartifact, hscript]; rfl)
  riscof_changed := by
    intro hgiven
    obtain ⟨r', rfl, hmerges⟩ := hchanged hgiven
    exact ⟨r', rfl, hmerges.dir, hmerges.artifact, hmerges.script⟩

/-- On the line of a RISCOF run. -/
theorem settled_riscof (hf : f.Legible) (hruns : ∀ o ∈ Opt.forRuns, Found.has f o = false)
    (h : (ofFound .riscof f).overrides.apply (l.applyTo p) = (.ok (), c)) :
    Config.Settled f l p c ∧
      { c with riscof := none } = { l.applyTo p with riscof := none } := by
  have htouches : (ofFound .riscof f).overrides.touchesRiscof = namesRiscof f :=
    touchesRiscof_ofFound hf
  have hlists : (ofFound .riscof f).overrides.onLists (l.applyTo p) = l.applyTo p := by
    rw [Overrides.onLists]
    exact congrArg (fun s => { l.applyTo p with skip := s }) (List.append_nil _)
  obtain ⟨-, r, hbecomes, rfl⟩ := Overrides.apply_eq_ok h
  rw [hlists]
  refine ⟨?_, rfl⟩
  cases hbecomes with
  | kept hno =>
      rw [htouches] at hno
      refine settled_of_riscof_fields hruns (fun _ => rfl) fun hyes => ?_
      rw [hno] at hyes
      cases hyes
  | merged hyes hmerges =>
      rw [htouches] at hyes
      refine settled_of_riscof_fields hruns (fun hno => ?_) fun _ => ⟨_, rfl, hmerges⟩
      rw [hno] at hyes
      cases hyes

/-! ### All command lines -/

/-- A line that runs tests offers no option for a RISCOF run. -/
theorem not_mem_of_run {words rest : List String} {dialect : Dialect}
    (h : readAs words = some (.run, dialect, rest)) :
    ∀ o ∈ Opt.forRiscof, o ∉ dialect.options := by
  rcases readAs_eq_some h with ⟨-, rfl | rfl⟩ | ⟨hmode, -⟩
  · decide
  · decide
  · cases hmode

/-- The line of a RISCOF run offers no option for running tests. -/
theorem not_mem_of_riscof {words rest : List String} {dialect : Dialect}
    (h : readAs words = some (.riscof, dialect, rest)) :
    ∀ o ∈ Opt.forRuns, o ∉ dialect.options := by
  rcases readAs_eq_some h with ⟨hmode, -⟩ | ⟨-, rfl⟩
  · cases hmode
  · decide

/-- **Who has the last word.**  For every command line that is accepted and every file, each field
of the configuration is settled by the command line, the file and the chosen preset, in this order.
A line that runs tests leaves the RISCOF run alone, and the line of a RISCOF run leaves everything
else alone. -/
theorem configure_settled {words : List String} {o : Options} (hparse : parse words = .ok o)
    (hconfigure : configure o d file = .ok c) :
    ∃ mode dialect rest f layer preset,
      readAs words = some (mode, dialect, rest) ∧ dialect.parse rest = .ok f ∧
      o = ofFound mode f ∧ f.Legible ∧
      file.mapM (Layer.ofFile d) = .ok layer ∧
      Config.presetOf (Found.text? f .preset <|> layer.bind (·.preset)) = .ok preset ∧
      Config.Settled f (layer.getD {}) preset.config c ∧
      (mode = .run → c.riscof = (Config.beneath layer preset).riscof) ∧
      (mode = .riscof →
        { c with riscof := none } = { Config.beneath layer preset with riscof := none }) := by
  obtain ⟨mode, dialect, rest, f, hread, hline, rfl⟩ := parse_eq_ok_iff.1 hparse
  have hoffers := Dialect.offers_of_parse hline
  have hlegible := Found.legible_of_offers hoffers
  obtain ⟨c₀, hload, happly⟩ := configure_eq_ok hconfigure
  obtain ⟨layer, preset, hfile, hpreset, rfl⟩ := Config.load_eq_ok hload
  refine ⟨mode, dialect, rest, f, layer, preset, hread, hline, rfl, hlegible, hfile, hpreset, ?_⟩
  cases mode with
  | run =>
      have habsent : ∀ o ∈ Opt.forRiscof, Found.has f o = false := fun o ho =>
        Found.has_eq_false hoffers (not_mem_of_run hread o ho)
      obtain ⟨hsettled, hkept⟩ := settled_run (habsent .dir (by decide))
        (habsent .artifact (by decide)) (habsent .script (by decide)) happly
      exact ⟨hsettled, fun _ => hkept, nofun⟩
  | riscof =>
      have habsent : ∀ o ∈ Opt.forRuns, Found.has f o = false := fun o ho =>
        Found.has_eq_false hoffers (not_mem_of_riscof hread o ho)
      have hchanged : (ofFound .riscof f).overrides.apply
          ((layer.getD {}).applyTo preset.config) = (.ok (), c) := happly
      obtain ⟨hsettled, hsame⟩ := settled_riscof hlegible habsent hchanged
      exact ⟨hsettled, nofun, fun _ => hsame⟩

/-- A file that names a preset and sets two fields. -/
def amFile : Disk where
  nodes := [(["am.toml"],
    .file (Utf8.encode "preset = \"am\"\njobs = 2\nskip = [\"a\"]\n") false)]

/-- A command line that speaks of some of the fields that the file sets, and of others. -/
def someWords : List String :=
  ["run", "--skip", "b", "--flag=--log", "--skip=c", "--no-smoke", "-j3"]

/-- What that command line asks for. -/
def someOptions : Options where
  mode := .run
  configPath := none
  preset := none
  layer := { smoke := some (.enabled false), jobs := some 3 }
  overrides := { extraSkip := ["b", "c"], flags := some ["--log"] }
  release := false
  noBuild := false
  json := false
  quiet := false
  verbose := false

/-- The skip list of the file grows, its number of jobs is replaced, and the smoke test of its
preset is switched off. -/
theorem settled_of_amFile : ∃ c,
    parse someWords = .ok someOptions ∧ configure someOptions amFile (some ⟨"am.toml"⟩) = .ok c ∧
      c.skip = ["a", "b", "c"] ∧ c.jobs = 3 ∧ c.simulator.flags = ["--log"] ∧ c.smoke = none ∧
      ∃ f layer preset, Config.Settled f layer (Preset.config preset) c := by
  have hparse : parse someWords = .ok someOptions := by decide +kernel
  have hconfigure : configure someOptions amFile (some ⟨"am.toml"⟩) = .ok
      { Preset.am.config with
        skip := ["a", "b", "c"]
        simulator := Preset.simulator ["--log"]
        smoke := none
        jobs := 3 } := by decide +kernel
  obtain ⟨-, -, -, f, layer, preset, -, -, -, -, -, -, hsettled, -⟩ :=
    configure_settled hparse hconfigure
  exact ⟨_, hparse, hconfigure, rfl, rfl, rfl, rfl, f, _, preset, hsettled⟩

end Program

end Testbench
