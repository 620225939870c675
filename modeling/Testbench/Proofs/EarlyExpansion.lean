/-
**Expanding patterns before they are looked up.**

What a pattern stands for holds no group any more, however the pattern is written, since the
expansion goes on until it finds none.  So each of the texts that a pattern stands for stands for
itself alone, and a query may be given these texts in place of its patterns.  It finds the same
paths, in the same spelling and order, and it fails for the same reason; only the pattern that the
failure names is then the text that cannot be read, and not the pattern that stands for it.

Main definitions:

* `Testbench.Corpus.Query.expandedEarly` — a query with its patterns expanded.

Main results:

* `Testbench.Braces.expandText_of_mem_expandText` — what a pattern stands for stands for itself;
* `Testbench.Corpus.firstRefused_expandedEarly_iff` — what the expanded query is refused for;
* `Testbench.Corpus.expandedEarly_finds_same` — **expanding patterns early changes nothing**.
-/

import Mathlib.Data.List.Basic
import Testbench.Proofs.BraceGrammar
import Testbench.Proofs.RefusedPatterns

set_option relaxedAutoImplicit false
set_option autoImplicit false

namespace Testbench

/-! ### Expanding twice -/

namespace Braces

/-- **What a pattern stands for holds no group.** -/
theorem firstGroup?_of_mem_expand {cs x : List Char} (hx : x ∈ expand cs) :
    firstGroup? x = none := by
  induction cs using expand_induction with
  | alone cs hg =>
      rw [expand_of_none hg, List.mem_singleton] at hx
      rw [hx, hg]
  | group cs g hg ih =>
      rw [expand_of_some hg] at hx
      obtain ⟨alt, halt, hx⟩ := List.mem_flatMap.1 hx
      exact ih alt halt hx

/-- What a pattern stands for stands for itself alone. -/
theorem expandText_of_mem_expandText {p text : String} (h : text ∈ expandText p) :
    expandText text = [text] := by
  obtain ⟨x, hx, rfl⟩ := List.mem_map.1 h
  rw [expandText_ofList, expand_of_none (firstGroup?_of_mem_expand hx), List.map_singleton]

end Braces

/-! ### Looking up patterns that are expanded -/

namespace Corpus

/-- The query with all that its patterns stand for in place of its patterns. -/
def Query.expandedEarly (q : Query) : Query :=
  { q with patterns := q.patterns.flatMap Braces.expandText }

theorem mem_patterns_expandedEarly {q : Query} {text : String} :
    text ∈ q.expandedEarly.patterns ↔ ∃ p ∈ q.patterns, text ∈ Braces.expandText p :=
  List.mem_flatMap

theorem expandText_of_mem_patterns {q : Query} {text : String}
    (h : text ∈ q.expandedEarly.patterns) : Braces.expandText text = [text] := by
  obtain ⟨p, -, htext⟩ := mem_patterns_expandedEarly.1 h
  exact Braces.expandText_of_mem_expandText htext

/-- The same paths are accepted, one after the other. -/
theorem accepted_expandedEarly (q : Query) (v : View) :
    q.expandedEarly.accepted v = q.accepted v := by
  change (q.patterns.flatMap Braces.expandText).flatMap
    (fun p => (Braces.expandText p).flatMap (q.acceptedBy v)) = _
  rw [Query.accepted, List.flatMap_assoc]
  refine List.flatMap_congr fun p _ => List.flatMap_congr fun text htext => ?_
  rw [Braces.expandText_of_mem_expandText htext, List.flatMap_singleton]

/-- A pattern that stands for itself alone stands for one that cannot be read if it cannot be read
itself. -/
theorem standsForRefused_iff {text : String} (h : Braces.expandText text = [text]) :
    StandsForRefused text ↔ Glob.Refused text := by
  simp [StandsForRefused, h]

/-- **What the expanded query is refused for**: for the same text, which is now the pattern. -/
theorem firstRefused_expandedEarly_iff {q : Query} {pattern text : String} :
    q.expandedEarly.FirstRefused pattern text ↔ pattern = text ∧ ∃ p, q.FirstRefused p text := by
  have hpattern : FirstOf StandsForRefused q.expandedEarly.patterns pattern ↔
      ∃ p, q.FirstRefused p pattern := by
    have hrefused : ∀ text ∈ q.expandedEarly.patterns,
        (StandsForRefused text ↔ Glob.Refused text) :=
      fun text htext => standsForRefused_iff (expandText_of_mem_patterns htext)
    rw [firstOf_congr hrefused]
    refine firstOf_flatMap_iff.trans ⟨?_, ?_⟩
    · rintro ⟨p, hp, htext⟩
      exact ⟨p, hp, htext⟩
    · rintro ⟨p, hp, htext⟩
      exact ⟨p, hp, htext⟩
  constructor
  · rintro ⟨hfirst, htext⟩
    have hmem := htext.mem
    rw [expandText_of_mem_patterns hfirst.mem, List.mem_singleton] at hmem
    subst hmem
    exact ⟨rfl, hpattern.1 hfirst⟩
  · rintro ⟨rfl, p, hp⟩
    have hfirst := hpattern.2 ⟨p, hp⟩
    refine ⟨hfirst, ?_⟩
    rw [expandText_of_mem_patterns hfirst.mem, firstOf_cons_of_pos hp.first_text.1]

theorem exists_standsForRefused_expandedEarly_iff {q : Query} :
    (∃ text ∈ q.expandedEarly.patterns, StandsForRefused text) ↔
      ∃ p ∈ q.patterns, StandsForRefused p := by
  constructor
  · rintro ⟨text, htext, hrefused⟩
    rw [standsForRefused_iff (expandText_of_mem_patterns htext)] at hrefused
    obtain ⟨p, hp, htext⟩ := mem_patterns_expandedEarly.1 htext
    exact ⟨p, hp, text, htext, hrefused⟩
  · rintro ⟨p, hp, text, htext, hrefused⟩
    have hmem := mem_patterns_expandedEarly.2 ⟨p, hp, htext⟩
    exact ⟨text, hmem, (standsForRefused_iff (expandText_of_mem_patterns hmem)).2 hrefused⟩

/-- The expanded query finds the same paths. -/
theorem resolveIn_expandedEarly_eq_ok_iff {q : Query} {v : View} {cases : List Path} :
    q.expandedEarly.resolveIn v = .ok cases ↔ q.resolveIn v = .ok cases := by
  rw [resolveIn_eq_ok_iff, resolveIn_eq_ok_iff, accepted_expandedEarly]
  refine and_congr_left fun _ => ?_
  simpa only [not_exists, not_and] using
    not_congr (exists_standsForRefused_expandedEarly_iff (q := q))

/-- **Expanding patterns early changes nothing.**  What a pattern stands for stands for itself
alone.  A query with its patterns expanded finds the same paths in the same spelling and order, and
fails where the query fails; the failure then names the first text that cannot be read, and not the
pattern that stands for it. -/
theorem expandedEarly_finds_same (q : Query) (v : View) :
    (∀ p, ∀ text ∈ Braces.expandText p, Braces.expandText text = [text]) ∧
    (∀ cases, q.expandedEarly.resolveIn v = .ok cases ↔ q.resolveIn v = .ok cases) ∧
    ((∃ f, q.expandedEarly.resolveIn v = .error f) ↔ ∃ f, q.resolveIn v = .error f) ∧
    (∀ f, q.expandedEarly.resolveIn v = .error f ↔ ∃ pattern text r, q.FirstRefused pattern text ∧
      Glob.compile (qualify q.root text) = .error r ∧ f = .invalidPattern text r) := by
  refine ⟨fun p text htext => Braces.expandText_of_mem_expandText htext,
    fun cases => resolveIn_expandedEarly_eq_ok_iff, ?_, fun f => ?_⟩
  · rw [exists_resolveIn_eq_error_iff, exists_resolveIn_eq_error_iff]
    exact exists_standsForRefused_expandedEarly_iff
  · rw [resolveIn_eq_error_iff]
    simp only [firstRefused_expandedEarly_iff]
    constructor
    · rintro ⟨_, text, r, ⟨rfl, p, hp⟩, hr, hf⟩
      exact ⟨p, _, r, hp, hr, hf⟩
    · rintro ⟨p, text, r, hp, hr, hf⟩
      exact ⟨text, text, r, ⟨rfl, p, hp⟩, hr, hf⟩

end Corpus

end Testbench
