/-
**Layers on top of each other.**

A configuration is a preset under any number of layers.  On a field of it the last layer has the
word that says anything about the field, and the preset has it if none does.  An optional step
differs in one point: a layer that says that the step stays as it is says nothing about it, so that
it cannot bring back a step that a layer below has switched off.  What makes no sense is looked for
in the configuration that results, and not in the layers, so that a value that makes no sense does
no harm below a layer that replaces it.

Two layers can be merged into one.  Merging is associative and the empty layer changes nothing, so a
list of layers is as good as a single one.

Main definitions:

* `Testbench.Toggle.decision` — what a toggle decides;
* `Testbench.Layer.lastWord` — the last word of a list of layers;
* `Testbench.Config.Stacked` — the last word on each field;
* `Testbench.Layer.above`, `Testbench.Layer.pile` — two layers merged into one, and a list of them;
* `Testbench.Layer.Merges` — the laws of merging.

Main results:

* `Testbench.Layer.lastWord_eq_some_iff` — what the last word is;
* `Testbench.Config.stacked_foldl` — layers that are applied one after the other;
* `Testbench.Layer.merges_above` — layers merge;
* `Testbench.Config.assemble_stacked` — **what a preset under layers is, and when it makes sense**.
-/

import Mathlib.Data.List.Basic
import Mathlib.Data.List.Induction
import Testbench.Config.Preset

set_option relaxedAutoImplicit false
set_option autoImplicit false

namespace Testbench

/-! ### The last word -/

/-- What a toggle decides about a step: that there is none, which one it is, or nothing at all. -/
def Toggle.decision {α : Type} : Toggle α → Option (Option α)
  | enabled true => none
  | enabled false => some none
  | set value => some (some value)

namespace Layer

variable {α β : Type}

/-- What a layer decides about the build. -/
def buildDecision (l : Layer) : Option (Option BuildSpec) := l.build.bind Toggle.decision

/-- What a layer decides about the smoke test. -/
def smokeDecision (l : Layer) : Option (Option Path) := l.smoke.bind Toggle.decision

/-- The **last word** of a list of layers: what the last layer says that says anything. -/
def lastWord (word : Layer → Option α) (layers : List Layer) : Option α :=
  layers.reverse.findSome? word

theorem lastWord_concat (word : Layer → Option α) (layers : List Layer) (l : Layer) :
    lastWord word (layers ++ [l]) = (word l).or (lastWord word layers) := by
  rw [lastWord, List.reverse_concat, List.findSome?_cons]
  cases word l <;> rfl

/-- The last word is that of a layer above which no layer says anything. -/
theorem lastWord_eq_some_iff {word : Layer → Option α} {layers : List Layer} {a : α} :
    lastWord word layers = some a ↔ ∃ lower l upper, layers = lower ++ l :: upper ∧
      word l = some a ∧ ∀ u ∈ upper, word u = none := by
  rw [lastWord, List.findSome?_eq_some_iff]
  constructor
  · rintro ⟨upper, l, lower, hlayers, hl, hupper⟩
    refine ⟨lower.reverse, l, upper.reverse, ?_, hl, fun u hu => hupper u (List.mem_reverse.1 hu)⟩
    rw [← List.reverse_reverse layers, hlayers]
    simp
  · rintro ⟨lower, l, upper, rfl, hl, hupper⟩
    refine ⟨upper.reverse, l, lower.reverse, by simp, hl, fun u hu => ?_⟩
    exact hupper u (List.mem_reverse.1 hu)

theorem step_eq_getD (toggle : Option (Toggle α)) (below : Option α) :
    step toggle below = (toggle.bind Toggle.decision).getD below := by
  cases toggle with
  | none => rfl
  | some t =>
      cases t with
      | enabled on => cases on <;> rfl
      | set value => rfl

/-- A step that is switched off stays off where no layer above decides otherwise. -/
theorem lastWord_of_off {toggle : Layer → Option (Toggle α)} {lower upper : List Layer} {l : Layer}
    (hl : toggle l = some (.enabled false))
    (hupper : ∀ u ∈ upper, toggle u = none ∨ toggle u = some (.enabled true)) :
    lastWord (fun l => (toggle l).bind Toggle.decision) (lower ++ l :: upper) = some none := by
  refine lastWord_eq_some_iff.2 ⟨lower, l, upper, rfl, by rw [hl]; rfl, fun u hu => ?_⟩
  rcases hupper u hu with h | h <;> rw [h] <;> rfl

/-- **A field under layers**: if a layer that says something replaces the field, and one that says
nothing leaves it, the last word is what counts. -/
theorem foldl_field {field : Config → β} {word : Layer → Option α} (put : Option α → β → β)
    (hput : ∀ l c, field (applyTo l c) = put (word l) (field c)) (hnone : ∀ b, put none b = b)
    (hsome : ∀ a b b', put (some a) b = put (some a) b') (layers : List Layer) (c : Config) :
    field (layers.foldl (fun c l => l.applyTo c) c) = put (lastWord word layers) (field c) := by
  induction layers using List.reverseRecOn with
  | nil => exact (hnone _).symm
  | append_singleton layers l ih =>
      rw [List.foldl_concat, hput, lastWord_concat]
      cases word l with
      | none => rw [hnone, ih]; rfl
      | some a => exact hsome a _ _

end Layer

/-! ### Field by field -/

namespace Config

open Layer

/-- **The last word on each field**: of the layers if one of them speaks, else of the configuration
`p` below them. -/
structure Stacked (p : Config) (layers : List Layer) (c : Config) : Prop where
  root : c.root = (lastWord (·.root) layers).getD p.root
  patterns : c.patterns = (lastWord (·.patterns) layers).getD p.patterns
  skip : c.skip = (lastWord (·.skip) layers).getD p.skip
  excludedSuffixes :
    c.excludedSuffixes = (lastWord (·.excludedSuffixes) layers).getD p.excludedSuffixes
  simulator : c.simulator = (lastWord (·.simulator) layers).getD p.simulator
  build : c.build = (lastWord buildDecision layers).getD p.build
  smoke : c.smoke = (lastWord smokeDecision layers).getD p.smoke
  jobs : c.jobs = (lastWord (·.jobs) layers).getD p.jobs
  timeoutSecs : c.timeoutSecs = (lastWord (·.timeoutSecs) layers <|> p.timeoutSecs)
  reportPaths : c.reportPaths = (lastWord (·.reportPaths) layers).getD p.reportPaths
  riscof : c.riscof = (lastWord (·.riscof) layers <|> p.riscof)

/-- The last word on each field leaves nothing open. -/
theorem Stacked.unique {p c c' : Config} {layers : List Layer} (h : Stacked p layers c)
    (h' : Stacked p layers c') : c = c' := by
  cases c
  cases c'
  simp only [mk.injEq]
  exact ⟨h.root.trans h'.root.symm, h.patterns.trans h'.patterns.symm, h.skip.trans h'.skip.symm,
    h.excludedSuffixes.trans h'.excludedSuffixes.symm, h.simulator.trans h'.simulator.symm,
    h.build.trans h'.build.symm, h.smoke.trans h'.smoke.symm, h.jobs.trans h'.jobs.symm,
    h.timeoutSecs.trans h'.timeoutSecs.symm, h.reportPaths.trans h'.reportPaths.symm,
    h.riscof.trans h'.riscof.symm⟩

/-- **Layers that are applied one after the other** leave the last word on each field. -/
theorem stacked_foldl (p : Config) (layers : List Layer) :
    Stacked p layers (layers.foldl (fun c l => l.applyTo c) p) := by
  -- a field that a layer replaces, and one that it sets or leaves out
  have hplain : ∀ {α : Type} {field : Config → α} {word : Layer → Option α},
      (∀ l c, field (applyTo l c) = (word l).getD (field c)) →
      field (layers.foldl (fun c l => l.applyTo c) p) =
        (lastWord word layers).getD (field p) := by
    intro α field word hput
    exact foldl_field Option.getD hput (fun _ => rfl) (fun _ _ _ => rfl) layers p
  have hoptional : ∀ {α : Type} {field : Config → Option α} {word : Layer → Option α},
      (∀ l c, field (applyTo l c) = (word l <|> field c)) →
      field (layers.foldl (fun c l => l.applyTo c) p) = (lastWord word layers <|> field p) := by
    intro α field word hput
    exact foldl_field (· <|> ·) hput (fun _ => rfl) (fun _ _ _ => rfl) layers p
  exact {
    root := hplain fun _ _ => rfl
    patterns := hplain fun _ _ => rfl
    skip := hplain fun _ _ => rfl
    excludedSuffixes := hplain fun _ _ => rfl
    simulator := hplain fun _ _ => rfl
    build := hplain fun l c => step_eq_getD l.build c.build
    smoke := hplain fun l c => step_eq_getD l.smoke c.smoke
    jobs := hplain fun _ _ => rfl
    timeoutSecs := hoptional fun _ _ => rfl
    reportPaths := hplain fun _ _ => rfl
    riscof := hoptional fun _ _ => rfl }

end Config

/-! ### Merging layers -/

/-- What two layers say together about an optional step: what the upper one decides, else what the
lower one says, if it mentions the step. -/
def Toggle.above {α : Type} : Option (Toggle α) → Option (Toggle α) → Option (Toggle α)
  | none, lower => lower
  | some (enabled true), none => some (enabled true)
  | some (enabled true), some lower => some lower
  | some upper, _ => some upper

namespace Toggle

variable {α : Type}

theorem above_none (upper : Option (Toggle α)) : above upper none = upper := by
  rcases upper with - | (- | -) | - <;> rfl

theorem above_assoc (a b c : Option (Toggle α)) : above (above a b) c = above a (above b c) := by
  rcases a with - | (- | -) | - <;> rcases b with - | (- | -) | - <;>
    rcases c with - | (- | -) | - <;> rfl

theorem step_above (upper lower : Option (Toggle α)) (below : Option α) :
    Layer.step (above upper lower) below = Layer.step upper (Layer.step lower below) := by
  rcases upper with - | (- | -) | - <;> rcases lower with - | (- | -) | - <;> rfl

end Toggle

namespace Layer

/-- **One layer merged with another one below it**: what the upper layer leaves open, the lower one
says. -/
def above (upper lower : Layer) : Layer where
  preset := upper.preset.or lower.preset
  root := upper.root.or lower.root
  patterns := upper.patterns.or lower.patterns
  skip := upper.skip.or lower.skip
  excludedSuffixes := upper.excludedSuffixes.or lower.excludedSuffixes
  simulator := upper.simulator.or lower.simulator
  build := Toggle.above upper.build lower.build
  smoke := Toggle.above upper.smoke lower.smoke
  jobs := upper.jobs.or lower.jobs
  timeoutSecs := upper.timeoutSecs.or lower.timeoutSecs
  reportPaths := upper.reportPaths.or lower.reportPaths
  riscof := upper.riscof.or lower.riscof

/-- A list of layers merged into one, the last one on top. -/
def pile (layers : List Layer) : Layer := layers.foldl (fun lower l => l.above lower) {}

/-- The **laws of merging**: it is associative, the empty layer is neutral, and the merged layer
does what the lower and then the upper layer do. -/
structure Merges (merge : Layer → Layer → Layer) : Prop where
  assoc : ∀ a b c, merge (merge a b) c = merge a (merge b c)
  empty_left : ∀ l, merge {} l = l
  empty_right : ∀ l, merge l {} = l
  applyTo : ∀ (upper lower : Layer) (c : Config),
    (merge upper lower).applyTo c = upper.applyTo (lower.applyTo c)

/-- **Layers merge.** -/
theorem merges_above : Merges above where
  assoc a b c := by simp only [above, Option.or_assoc, Toggle.above_assoc]
  empty_left l := by cases l; simp [above, Toggle.above]
  empty_right l := by cases l; simp [above, Toggle.above_none]
  applyTo upper lower c := by
    simp [above, applyTo, Toggle.step_above, Option.or_assoc]

/-- A list of layers does what they do one after the other. -/
theorem applyTo_pile (layers : List Layer) (c : Config) :
    (pile layers).applyTo c = layers.foldl (fun c l => l.applyTo c) c := by
  induction layers using List.reverseRecOn with
  | nil => rfl
  | append_singleton layers l ih =>
      rw [pile, List.foldl_concat, List.foldl_concat, merges_above.applyTo, ← ih, pile]

/-- The layer without the name of a preset. -/
def unnamed (l : Layer) : Layer := { l with preset := none }

/-- The names of presets do not matter in layers that are applied. -/
theorem foldl_applyTo_of_unnamed {layers layers' : List Layer}
    (h : layers'.map unnamed = layers.map unnamed) (c : Config) :
    layers'.foldl (fun c l => l.applyTo c) c = layers.foldl (fun c l => l.applyTo c) c := by
  have hunnamed : ∀ ls : List Layer, (ls.map unnamed).foldl (fun c l => l.applyTo c) c =
      ls.foldl (fun c l => l.applyTo c) c := fun ls => List.foldl_map
  rw [← hunnamed layers', h, hunnamed]

end Layer

/-! ### A preset under layers -/

namespace Config

open Layer

variable {preset : Preset} {layers : List Layer}

theorem layered_eq_iff {c : Config} :
    layered preset layers = c ↔ Stacked preset.config layers c := by
  constructor
  · rintro rfl
    exact stacked_foldl preset.config layers
  · exact (stacked_foldl preset.config layers).unique

/-- When a preset under layers makes sense: only the last words are looked at. -/
theorem exists_assemble_eq_ok_iff : (∃ c, assemble preset layers = .ok c) ↔
    Text.isBlank ((lastWord (·.simulator) layers).getD preset.config.simulator).base.program =
        false ∧
      (∀ b, (lastWord buildDecision layers).getD preset.config.build = some b →
        Text.isBlank b.command.program = false) ∧
      (lastWord (·.timeoutSecs) layers <|> preset.config.timeoutSecs) ≠ some 0 := by
  have h := layered_eq_iff.1 (Eq.refl (layered preset layers))
  rw [← h.simulator, ← h.build, ← h.timeoutSecs, ← check_eq_none_iff]
  simp only [assemble, checked_eq_ok_iff, exists_eq_left]

/-- **What a preset under layers is, and when it makes sense.**  Each field has the value that the
last layer gives it that speaks of it, else that of the preset; an optional step that a layer has
switched off is not brought back by layers that say that it stays.  The result is refused exactly if
it makes no sense itself, whatever was replaced on the way.  The names of presets in the layers do
not matter.  And layers merge, so that the list of them does what a single layer does. -/
theorem assemble_stacked (preset : Preset) (layers : List Layer) :
    (∀ c, layered preset layers = c ↔ Stacked preset.config layers c) ∧
    (∀ c, assemble preset layers = .ok c ↔ c = layered preset layers ∧ c.check = none) ∧
    (∀ f, assemble preset layers = .error f ↔ (layered preset layers).check = some f) ∧
    ((∃ c, assemble preset layers = .ok c) ↔
      Text.isBlank ((lastWord (·.simulator) layers).getD preset.config.simulator).base.program =
          false ∧
        (∀ b, (lastWord buildDecision layers).getD preset.config.build = some b →
          Text.isBlank b.command.program = false) ∧
        (lastWord (·.timeoutSecs) layers <|> preset.config.timeoutSecs) ≠ some 0) ∧
    (∀ lower l upper, layers = lower ++ l :: upper →
      (l.build = some (.enabled false) →
        (∀ u ∈ upper, u.build = none ∨ u.build = some (.enabled true)) →
        (layered preset layers).build = none) ∧
      (l.smoke = some (.enabled false) →
        (∀ u ∈ upper, u.smoke = none ∨ u.smoke = some (.enabled true)) →
        (layered preset layers).smoke = none)) ∧
    (∀ layers', layers'.map unnamed = layers.map unnamed →
      assemble preset layers' = assemble preset layers) ∧
    Merges above ∧ layered preset layers = (pile layers).applyTo preset.config := by
  refine ⟨fun c => layered_eq_iff, fun c => ?_, fun f => checked_eq_error_iff,
    exists_assemble_eq_ok_iff, ?_, fun layers' hnames => ?_, merges_above, ?_⟩
  · rw [assemble, checked_eq_ok_iff]
    constructor <;> (rintro ⟨rfl, h⟩; exact ⟨rfl, h⟩)
  · rintro lower l upper rfl
    have hstacked := stacked_foldl preset.config (lower ++ l :: upper)
    constructor
    · intro hoff hupper
      exact hstacked.build.trans
        (congrArg (·.getD preset.config.build) (lastWord_of_off hoff hupper))
    · intro hoff hupper
      exact hstacked.smoke.trans
        (congrArg (·.getD preset.config.smoke) (lastWord_of_off hoff hupper))
  · rw [assemble, assemble, layered, layered, foldl_applyTo_of_unnamed hnames]
  · exact (applyTo_pile layers preset.config).symm

example : ∃ c, assemble .am [{ smoke := some (.enabled false), timeoutSecs := some 0 },
    { smoke := some (.enabled true), timeoutSecs := some 5 }] = .ok c ∧
      c.smoke = none ∧ c.timeoutSecs = some 5 := ⟨_, rfl, rfl, rfl⟩

end Config

end Testbench
