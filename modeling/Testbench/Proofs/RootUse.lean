/-
**When the root of a configuration is needed.**

The root is used if some pattern stands for something that is taken from it.  A configuration whose
root is no directory is refused before that is known: it is refused if a pattern, as it is written,
does not start at the root of the tree.  What a pattern stands for starts as the pattern does,
unless it starts with a brace.  So the only configurations that are refused although they do not use
their root are those with a pattern like `{/a,/b}`, a group of alternatives each of which starts at
the root of the tree.

Main definitions:

* `Testbench.Config.missingRoot` — the refusal of a root that is no directory;
* `Testbench.Config.TakesFromRoot` — some pattern stands for something that is taken from the root;
* `Testbench.Config.StartsWithBrace` — some pattern starts with a brace.

Main results:

* `Testbench.Braces.isAbsolute_of_mem_expandText` — what a pattern stands for starts as it does;
* `Testbench.Corpus.resolveIn_withRoot` — a root that is not used makes no difference;
* `Testbench.Config.resolveCorpus_missingRoot_iff` — **when the root of a configuration is needed**.
-/

import Mathlib.Data.List.Basic
import Testbench.Config.Preset
import Testbench.Proofs.BraceGrammar
import Testbench.Proofs.RefusedPatterns
import Testbench.Run.Session

set_option relaxedAutoImplicit false
set_option autoImplicit false

namespace Testbench

/-! ### How patterns start -/

namespace Braces

/-- What a pattern stands for starts at the root of the tree if the pattern does, unless it starts
with a brace. -/
theorem startsAtRoot_of_mem_expand {cs x : List Char} (hbrace : cs.head? ≠ some '{')
    (hx : x ∈ expand cs) : Path.startsAtRoot x = Path.startsAtRoot cs := by
  cases cs with
  | nil =>
      rw [expand_nil, List.mem_singleton] at hx
      rw [hx]
  | cons c cs =>
      have hc : c ≠ '{' := by simpa using hbrace
      rw [expand_cons hc] at hx
      obtain ⟨y, -, rfl⟩ := List.mem_map.1 hx
      rfl

theorem isAbsolute_of_mem_expandText {p x : String} (hbrace : p.toList.head? ≠ some '{')
    (hx : x ∈ expandText p) : (Path.mk x).isAbsolute = (Path.mk p).isAbsolute := by
  obtain ⟨cs, hcs, rfl⟩ := List.mem_map.1 hx
  rw [Path.isAbsolute, Path.isAbsolute, String.toList_ofList,
    startsAtRoot_of_mem_expand hbrace hcs]

theorem exists_mem_expandText (p : String) : ∃ x, x ∈ expandText p := by
  obtain ⟨x, xs, hx⟩ := List.exists_cons_of_ne_nil (expand_ne_nil p.toList)
  exact ⟨String.ofList x, List.mem_map_of_mem (by rw [hx]; exact List.mem_cons_self)⟩

/-- A pattern is taken for one that does not start at the root of the tree if it stands for
something that does not, or starts with a brace. -/
theorem isAbsolute_eq_false_iff {p : String} : (Path.mk p).isAbsolute = false ↔
    (∃ x ∈ expandText p, (Path.mk x).isAbsolute = false) ∨ p.toList.head? = some '{' := by
  by_cases hbrace : p.toList.head? = some '{'
  · simp [Path.isAbsolute, Path.startsAtRoot, hbrace]
  · constructor
    · intro hp
      obtain ⟨x, hx⟩ := exists_mem_expandText p
      exact Or.inl ⟨x, hx, (isAbsolute_of_mem_expandText hbrace hx).trans hp⟩
    · rintro (⟨x, hx, hrelative⟩ | hp)
      · rwa [← isAbsolute_of_mem_expandText hbrace hx]
      · exact absurd hp hbrace

end Braces

namespace Corpus

/-! ### Roots that are not used -/

theorem mapM_congr_of_mem {α β ε : Type} {f g : α → Except ε β} {xs : List α}
    (h : ∀ x ∈ xs, f x = g x) : xs.mapM f = xs.mapM g := by
  induction xs with
  | nil => rfl
  | cons x xs ih =>
      obtain ⟨hx, hxs⟩ := List.forall_mem_cons.1 h
      rw [List.mapM_cons, List.mapM_cons, hx, ih hxs]

/-- **A root that is not used makes no difference.** -/
theorem resolveIn_withRoot {q : Query} (h : ∀ pattern ∈ q.patterns,
    ∀ text ∈ Braces.expandText pattern, (Path.mk text).isAbsolute = true) (root : Path) (v : View) :
    Query.resolveIn { q with root } v = q.resolveIn v := by
  have hcompile : ∀ pattern ∈ q.patterns, compile root pattern = compile q.root pattern := by
    intro pattern hpattern
    refine mapM_congr_of_mem fun text htext => ?_
    have habsolute := h pattern hpattern text htext
    rw [qualify_of_isAbsolute habsolute, qualify_of_isAbsolute habsolute]
  have hglobs : Query.globs { q with root } = q.globs := by
    rw [Query.globs, Query.globs, mapM_congr_of_mem hcompile]
  rw [Query.resolveIn, hglobs]
  rfl

end Corpus

/-! ### When the root is needed -/

namespace Config

/-- The refusal of a root that is no directory. -/
def missingRoot (c : Config) : Failure :=
  .badConfig ("test root does not exist or is not a directory: " ++ c.root.text)

/-- Some pattern stands for something that is taken from the root. -/
def TakesFromRoot (c : Config) : Prop :=
  ∃ p ∈ c.patterns, ∃ x ∈ Braces.expandText p, (Path.mk x).isAbsolute = false

/-- Some pattern starts with a brace. -/
def StartsWithBrace (c : Config) : Prop := ∃ p ∈ c.patterns, p.toList.head? = some '{'

theorem usesRoot_iff {c : Config} :
    c.usesRoot = true ↔ c.TakesFromRoot ∨ c.StartsWithBrace := by
  simp only [usesRoot, List.any_eq_true, Bool.not_eq_true']
  constructor
  · rintro ⟨p, hp, hrelative⟩
    rcases Braces.isAbsolute_eq_false_iff.1 hrelative with hx | hbrace
    · exact Or.inl ⟨p, hp, hx⟩
    · exact Or.inr ⟨p, hp, hbrace⟩
  · rintro (⟨p, hp, hx⟩ | ⟨p, hp, hbrace⟩)
    · exact ⟨p, hp, Braces.isAbsolute_eq_false_iff.2 (Or.inl hx)⟩
    · exact ⟨p, hp, Braces.isAbsolute_eq_false_iff.2 (Or.inr hbrace)⟩

/-- The files that are found never make a run say that its root is missing. -/
theorem resolve_ne_missingRoot (c : Config) (d : Disk) :
    c.query.resolve d ≠ .error c.missingRoot := by
  intro h
  obtain ⟨_, _, _, -, -, hf⟩ := Corpus.resolveIn_eq_error_iff.1 h
  cases hf

theorem resolveCorpus_eq_missingRoot_iff {c : Config} {d : Disk} :
    c.resolveCorpus d = .error c.missingRoot ↔
      d.isDirectory c.root = false ∧ (c.TakesFromRoot ∨ c.StartsWithBrace) := by
  rw [← usesRoot_iff, resolveCorpus]
  cases hroot : d.isDirectory c.root with
  | true => simpa using resolve_ne_missingRoot c d
  | false =>
      cases huses : c.usesRoot with
      | true => simp [missingRoot]
      | false => simpa using resolve_ne_missingRoot c d

/-- The configuration with another root. -/
def withRoot (c : Config) (root : Path) : Config := { c with root }

theorem resolve_withRoot {c : Config} (h : ¬c.TakesFromRoot) (root : Path) (d : Disk) :
    (c.withRoot root).query.resolve d = c.query.resolve d := by
  refine Corpus.resolveIn_withRoot (q := c.query) (fun p hp x hx => ?_) root (.ofDisk d)
  rw [← Bool.not_eq_false]
  exact fun hrelative => h ⟨p, hp, x, hx, hrelative⟩

theorem resolveCorpus_withRoot {c : Config} (h : ¬c.TakesFromRoot) (hbrace : ¬c.StartsWithBrace)
    (root : Path) (d : Disk) : (c.withRoot root).resolveCorpus d = c.resolveCorpus d := by
  have huses : c.usesRoot = false := by
    rw [← Bool.not_eq_true, usesRoot_iff, not_or]
    exact ⟨h, hbrace⟩
  have huses' : (c.withRoot root).usesRoot = false := huses
  rw [resolveCorpus, resolveCorpus, huses, huses']
  exact resolve_withRoot h root d

/-- **When the root of a configuration is needed.**  A configuration is refused because its root is
no directory exactly if some pattern stands for something that is taken from the root, or some
pattern starts with a brace.  So it is refused exactly if its root is used, but for a pattern that
starts with a brace and stands for nothing that is taken from the root.  A root that is not used
makes no difference to what is found, and without such a brace none at all. -/
theorem resolveCorpus_missingRoot_iff (c : Config) (d : Disk) :
    (c.resolveCorpus d = .error c.missingRoot ↔
      d.isDirectory c.root = false ∧ (c.TakesFromRoot ∨ c.StartsWithBrace)) ∧
    ((c.StartsWithBrace → c.TakesFromRoot) →
      (c.resolveCorpus d = .error c.missingRoot ↔
        d.isDirectory c.root = false ∧ c.TakesFromRoot)) ∧
    (¬c.TakesFromRoot → ∀ root, (c.withRoot root).query.resolve d = c.query.resolve d ∧
      (¬c.StartsWithBrace → (c.withRoot root).resolveCorpus d = c.resolveCorpus d)) := by
  refine ⟨resolveCorpus_eq_missingRoot_iff, fun hbrace => ?_, fun h root => ?_⟩
  · rw [resolveCorpus_eq_missingRoot_iff, or_iff_left_of_imp hbrace]
  · exact ⟨resolve_withRoot h root d, fun hbrace => resolveCorpus_withRoot h hbrace root d⟩

/-- Two files in a directory. -/
def twoFiles : Disk where
  nodes := [(["t"], .directory), (["a", "t"], .file [] false), (["b", "t"], .file [] false)]

/-- A suite whose patterns are a group of two that start at the root of the tree. -/
def absoluteGroup (root : String) : Config :=
  { Preset.isa.config with root := ⟨root⟩, patterns := ["\x7b/t/a,/t/b\x7d"] }

/-- A root that is not used is needed for a group of patterns that start at the root of the tree. -/
theorem missingRoot_of_absoluteGroup :
    (¬∀ (c : Config) (d : Disk), c.resolveCorpus d = .error c.missingRoot ↔
      d.isDirectory c.root = false ∧ c.TakesFromRoot) ∧
    (absoluteGroup "none").resolveCorpus twoFiles = .error (absoluteGroup "none").missingRoot ∧
    (absoluteGroup "t").resolveCorpus twoFiles = .ok [⟨"/t/a"⟩, ⟨"/t/b"⟩] := by
  have hexpand : Braces.expandText "\x7b/t/a,/t/b\x7d" = ["/t/a", "/t/b"] := by decide +kernel
  have hmissing : (absoluteGroup "none").resolveCorpus twoFiles =
      .error (absoluteGroup "none").missingRoot := by decide +kernel
  refine ⟨fun h => ?_, hmissing, by decide +kernel⟩
  obtain ⟨p, hp, x, hx, hrelative⟩ := ((h _ _).1 hmissing).2
  obtain rfl : p = "\x7b/t/a,/t/b\x7d" := List.mem_singleton.1 hp
  rw [hexpand] at hx
  rcases List.mem_cons.1 hx with rfl | hx
  · exact absurd hrelative (by decide)
  · rw [List.mem_singleton.1 hx] at hrelative
    exact absurd hrelative (by decide)

end Config

end Testbench
