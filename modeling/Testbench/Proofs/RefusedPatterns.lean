/-
**Which patterns a query is refused for.**

A query fails if one of its patterns stands for something that cannot be read as a wildcard pattern,
and for no other reason.  It names the first such pattern as it was written, and what is wrong with
the first such thing that the pattern stands for.  The files play no part in this, although they are
looked up on the way, and neither does the root, although every pattern is put behind it.

The patterns are first all read and then all looked up in the definition of a query.  They may as
well be taken one by one, each looked up before the next is read; this is shown to come to the same.

Main definitions:

* `Testbench.Glob.Refused` — a pattern cannot be read;
* `Testbench.Corpus.FirstOf` — the first of a list with a property;
* `Testbench.Corpus.Query.FirstRefused` — what a query is refused for;
* `Testbench.Corpus.Query.gather` — a query that looks up each pattern before it reads the next.

Main results:

* `Testbench.Corpus.refused_qualify_iff` — **no root makes a pattern good or bad**;
* `Testbench.Corpus.resolveIn_eq_error_iff` — the failure of a query;
* `Testbench.Corpus.gather_eq_resolveIn` — patterns may be looked up one by one;
* `Testbench.Corpus.resolveIn_refused_at_first` — **which patterns a query is refused for**.
-/

import Mathlib.Data.List.Basic
import Testbench.Proofs.Resolution
import Testbench.Proofs.RootedPatterns

set_option relaxedAutoImplicit false
set_option autoImplicit false

namespace Testbench

/-- The pattern cannot be read. -/
def Glob.Refused (pattern : String) : Prop := ∃ r, Glob.compile pattern = .error r

namespace Corpus

open Glob

/-! ### The first of a list -/

section

variable {α β σ ε : Type}

/-- The item is the first of a list with a property. -/
def FirstOf (P : α → Prop) (xs : List α) (x : α) : Prop :=
  P x ∧ ∃ before after, xs = before ++ x :: after ∧ ∀ y ∈ before, ¬P y

theorem firstOf_cons_of_pos {P : α → Prop} {x y : α} {xs : List α} (h : P y) :
    FirstOf P (y :: xs) x ↔ x = y := by
  constructor
  · rintro ⟨hx, before, after, heq, hbefore⟩
    cases before with
    | nil => exact (List.cons.inj heq).1.symm
    | cons z before =>
        obtain rfl := (List.cons.inj heq).1
        exact absurd h (hbefore y List.mem_cons_self)
  · rintro rfl
    exact ⟨h, [], xs, rfl, by simp⟩

theorem firstOf_cons_of_neg {P : α → Prop} {x y : α} {xs : List α} (h : ¬P y) :
    FirstOf P (y :: xs) x ↔ FirstOf P xs x := by
  constructor
  · rintro ⟨hx, before, after, heq, hbefore⟩
    cases before with
    | nil => exact absurd ((List.cons.inj heq).1 ▸ hx) h
    | cons z before =>
        exact ⟨hx, before, after, (List.cons.inj heq).2,
          fun w hw => hbefore w (List.mem_cons_of_mem z hw)⟩
  · rintro ⟨hx, before, after, rfl, hbefore⟩
    exact ⟨hx, y :: before, after, rfl, List.forall_mem_cons.2 ⟨h, hbefore⟩⟩

/-- A list has an item with a property exactly if it has a first one. -/
theorem exists_firstOf_iff {P : α → Prop} {xs : List α} :
    (∃ x, FirstOf P xs x) ↔ ∃ x ∈ xs, P x := by
  induction xs with
  | nil => simp [FirstOf]
  | cons y xs ih =>
      by_cases hy : P y
      · simp only [firstOf_cons_of_pos hy, exists_eq, List.exists_mem_cons_iff, hy, true_or]
      · simp only [firstOf_cons_of_neg hy, ih, List.exists_mem_cons_iff, hy, false_or]

theorem FirstOf.mem {P : α → Prop} {xs : List α} {x : α} (h : FirstOf P xs x) : x ∈ xs := by
  obtain ⟨-, before, after, rfl, -⟩ := h
  exact List.mem_append_right before List.mem_cons_self

theorem firstOf_congr {P Q : α → Prop} {xs : List α} {x : α} (h : ∀ y ∈ xs, (P y ↔ Q y)) :
    FirstOf P xs x ↔ FirstOf Q xs x := by
  constructor
  · rintro ⟨hx, before, after, rfl, hbefore⟩
    refine ⟨(h x (by simp)).1 hx, before, after, rfl, fun y hy hQ => ?_⟩
    exact hbefore y hy ((h y (List.mem_append_left _ hy)).2 hQ)
  · rintro ⟨hx, before, after, rfl, hbefore⟩
    refine ⟨(h x (by simp)).2 hx, before, after, rfl, fun y hy hP => ?_⟩
    exact hbefore y hy ((h y (List.mem_append_left _ hy)).1 hP)

/-- The first of two lists put together stands in the first one, unless that has none. -/
theorem firstOf_append_iff {P : α → Prop} {xs ys : List α} {x : α} :
    FirstOf P (xs ++ ys) x ↔ FirstOf P xs x ∨ (∀ y ∈ xs, ¬P y) ∧ FirstOf P ys x := by
  induction xs with
  | nil => simp [FirstOf]
  | cons y xs ih =>
      by_cases hy : P y
      · rw [List.cons_append, firstOf_cons_of_pos hy, firstOf_cons_of_pos hy]
        simp [hy]
      · rw [List.cons_append, firstOf_cons_of_neg hy, firstOf_cons_of_neg hy, ih]
        simp [hy]

/-- The first of several lists put together stands in the first list that has one. -/
theorem firstOf_flatMap_iff {P : β → Prop} {f : α → List β} {xs : List α} {y : β} :
    FirstOf P (xs.flatMap f) y ↔
      ∃ x, FirstOf (fun x => ∃ y ∈ f x, P y) xs x ∧ FirstOf P (f x) y := by
  induction xs with
  | nil => simp [FirstOf]
  | cons x xs ih =>
      rw [List.flatMap_cons, firstOf_append_iff, ih]
      by_cases hx : ∃ y ∈ f x, P y
      · simp only [firstOf_cons_of_pos (P := fun x => ∃ y ∈ f x, P y) hx, exists_eq_left]
        refine or_iff_left fun h => ?_
        obtain ⟨y, hy, hP⟩ := hx
        exact h.1 y hy hP
      · simp only [firstOf_cons_of_neg (P := fun x => ∃ y ∈ f x, P y) hx]
        have hnone : ∀ y ∈ f x, ¬P y := fun y hy hP => hx ⟨y, hy, hP⟩
        rw [and_iff_right hnone]
        refine or_iff_right fun h => hx (exists_firstOf_iff.1 ⟨y, h⟩)

/-- Steps taken for each item of a list fail at the first item for which one fails. -/
theorem mapM_eq_error_iff {f : α → Except ε β} {xs : List α} {e : ε} :
    xs.mapM f = .error e ↔ ∃ x, FirstOf (fun x => ∃ e, f x = .error e) xs x ∧ f x = .error e := by
  induction xs with
  | nil =>
      simp only [List.mapM_nil, FirstOf, List.nil_eq, List.append_eq_nil_iff, reduceCtorEq,
        and_false, false_and, exists_false, iff_false]
      rintro ⟨⟩
  | cons y xs ih =>
      rw [List.mapM_cons]
      cases hy : f y with
      | error e' =>
          simp only [firstOf_cons_of_pos (P := fun x => ∃ e, f x = .error e) ⟨e', hy⟩,
            exists_eq_left, hy]
          constructor <;> (intro h; cases h; rfl)
      | ok b =>
          have hok : ¬∃ e, f y = .error e := by simp [hy]
          simp only [firstOf_cons_of_neg (P := fun x => ∃ e, f x = .error e) hok, ← ih]
          cases xs.mapM f with
          | error e' => constructor <;> (intro h; cases h; rfl)
          | ok bs => constructor <;> (intro h; cases h)

/-- A loop that takes a step for each item, and changes a state by what the step gives, may as well
take all steps first. -/
theorem foldlM_eq_map_mapM {f : α → Except ε β} {change : σ → β → σ} {step : σ → α → Except ε σ}
    (h : ∀ s x, step s x = (f x).map (change s)) (xs : List α) (s : σ) :
    xs.foldlM step s = (xs.mapM f).map fun ys => ys.foldl change s := by
  induction xs generalizing s with
  | nil => rfl
  | cons x xs ih =>
      rw [List.foldlM_cons, List.mapM_cons, h]
      cases f x with
      | error e => rfl
      | ok b =>
          refine (ih (change s b)).trans ?_
          cases xs.mapM f <;> rfl

end

/-! ### Patterns behind a root -/

/-- **What is wrong with a pattern that is taken from a root** is wrong with it alone; only the
place of the fault may be counted from the start of the root. -/
theorem exists_compile_of_qualify {root : Path} {text : String} {r : Refusal}
    (h : Glob.compile (qualify root text) = .error r) :
    ∃ r', Glob.compile text = .error r' ∧ (r = r' ∨ r = r'.behind (lengthBefore root)) := by
  cases habsolute : (Path.mk text).isAbsolute with
  | true =>
      rw [qualify_of_isAbsolute habsolute] at h
      exact ⟨r, h, Or.inl rfl⟩
  | false =>
      simp only [compile_eq_error_iff, relativePart_of_not_isAbsolute habsolute]
      rcases (compile_qualify_eq_error_iff habsolute).1 h with ⟨r', hr', hr⟩ | hpiece
      · exact ⟨r', Or.inl hr', Or.inr hr⟩
      · exact ⟨r, Or.inr hpiece, Or.inl rfl⟩

/-- **No root makes a pattern good or bad.** -/
theorem refused_qualify_iff {root : Path} {text : String} :
    Refused (qualify root text) ↔ Refused text := by
  constructor
  · rintro ⟨r, hr⟩
    obtain ⟨r', hr', -⟩ := exists_compile_of_qualify hr
    exact ⟨r', hr'⟩
  · rintro ⟨r, hr⟩
    cases habsolute : (Path.mk text).isAbsolute with
    | true => exact ⟨r, by rwa [qualify_of_isAbsolute habsolute]⟩
    | false =>
        rw [compile_eq_error_iff, relativePart_of_not_isAbsolute habsolute] at hr
        simp only [Refused, compile_qualify_eq_error_iff habsolute]
        rcases hr with hwhole | hpiece
        · exact ⟨_, Or.inl ⟨r, hwhole, rfl⟩⟩
        · exact ⟨r, Or.inr hpiece⟩

/-! ### The failure of a query -/

/-- Some of what the pattern stands for cannot be read. -/
def StandsForRefused (pattern : String) : Prop :=
  ∃ text ∈ Braces.expandText pattern, Refused text

/-- The first pattern of a query that stands for something that cannot be read, and the first such
thing that it stands for. -/
structure Query.FirstRefused (q : Query) (pattern text : String) : Prop where
  first_pattern : FirstOf StandsForRefused q.patterns pattern
  first_text : FirstOf Refused (Braces.expandText pattern) text

/-- Reading a pattern and all that it stands for. -/
theorem compile_eq_error_iff {root : Path} {pattern : String} {f : Failure} :
    compile root pattern = .error f ↔ ∃ text r, FirstOf Refused (Braces.expandText pattern) text ∧
      Glob.compile (qualify root text) = .error r ∧ f = .invalidPattern pattern r := by
  have herror : ∀ text f, (Glob.compile (qualify root text)).mapError
      (Failure.invalidPattern pattern) = .error f ↔
        ∃ r, Glob.compile (qualify root text) = .error r ∧ f = .invalidPattern pattern r := by
    intro text f
    cases Glob.compile (qualify root text) <;> simp [Except.mapError, eq_comm]
  have hrefused : ∀ text, (∃ f, (Glob.compile (qualify root text)).mapError
      (Failure.invalidPattern pattern) = .error f) ↔ Refused text := by
    intro text
    rw [← @refused_qualify_iff root]
    simp only [herror, Refused]
    constructor
    · rintro ⟨_, r, hr, -⟩; exact ⟨r, hr⟩
    · rintro ⟨r, hr⟩; exact ⟨_, r, hr, rfl⟩
  rw [compile, mapM_eq_error_iff]
  simp only [hrefused]
  simp only [herror]
  constructor
  · rintro ⟨text, hfirst, r, hr, hf⟩; exact ⟨text, r, hfirst, hr, hf⟩
  · rintro ⟨text, r, hfirst, hr, hf⟩; exact ⟨text, hfirst, r, hr, hf⟩

theorem exists_compile_eq_error_iff {root : Path} {pattern : String} :
    (∃ f, compile root pattern = .error f) ↔ StandsForRefused pattern := by
  simp only [compile_eq_error_iff, StandsForRefused, ← exists_firstOf_iff]
  constructor
  · rintro ⟨_, text, _, hfirst, -, -⟩
    exact ⟨text, hfirst⟩
  · rintro ⟨text, hfirst⟩
    obtain ⟨r, hr⟩ := (@refused_qualify_iff root _).2 hfirst.1
    exact ⟨_, text, r, hfirst, hr, rfl⟩

/-- **The failure of a query.** -/
theorem resolveIn_eq_error_iff {q : Query} {v : View} {f : Failure} :
    q.resolveIn v = .error f ↔ ∃ pattern text r, q.FirstRefused pattern text ∧
      Glob.compile (qualify q.root text) = .error r ∧ f = .invalidPattern pattern r := by
  have hglobs : q.resolveIn v = .error f ↔ q.patterns.mapM (compile q.root) = .error f := by
    rw [Query.resolveIn, Query.globs]
    cases q.patterns.mapM (compile q.root) with
    | error f' => constructor <;> (intro h; cases h; rfl)
    | ok globs => constructor <;> (intro h; cases h)
  rw [hglobs, mapM_eq_error_iff]
  simp only [exists_compile_eq_error_iff]
  simp only [compile_eq_error_iff]
  constructor
  · rintro ⟨pattern, hpattern, text, r, htext, hr, hf⟩
    exact ⟨pattern, text, r, ⟨hpattern, htext⟩, hr, hf⟩
  · rintro ⟨pattern, text, r, ⟨hpattern, htext⟩, hr, hf⟩
    exact ⟨pattern, hpattern, text, r, htext, hr, hf⟩

theorem exists_resolveIn_eq_error_iff {q : Query} {v : View} :
    (∃ f, q.resolveIn v = .error f) ↔ ∃ pattern ∈ q.patterns, StandsForRefused pattern := by
  simp only [resolveIn_eq_error_iff]
  rw [← exists_firstOf_iff]
  constructor
  · rintro ⟨_, pattern, _, _, ⟨hpattern, -⟩, -, -⟩
    exact ⟨pattern, hpattern⟩
  · rintro ⟨pattern, hpattern⟩
    obtain ⟨text, htext⟩ := exists_firstOf_iff.2 hpattern.1
    obtain ⟨r, hr⟩ := (@refused_qualify_iff q.root _).2 htext.1
    exact ⟨_, pattern, text, r, ⟨hpattern, htext⟩, hr, rfl⟩

/-- **The success of a query.** -/
theorem resolveIn_eq_ok_iff {q : Query} {v : View} {cases : List Path} :
    q.resolveIn v = .ok cases ↔
      (∀ pattern ∈ q.patterns, ¬StandsForRefused pattern) ∧ cases = distinct (q.accepted v) := by
  constructor
  · intro h
    refine ⟨fun pattern hpattern hrefused => ?_, resolveIn_eq_ok h⟩
    obtain ⟨f, hf⟩ := exists_resolveIn_eq_error_iff.2 ⟨pattern, hpattern, hrefused⟩
    rw [h] at hf
    cases hf
  · rintro ⟨hreadable, rfl⟩
    cases h : q.resolveIn v with
    | ok cases => rw [resolveIn_eq_ok h]
    | error f =>
        obtain ⟨pattern, hpattern, hrefused⟩ := exists_resolveIn_eq_error_iff.1 ⟨f, h⟩
        exact absurd hrefused (hreadable pattern hpattern)

/-! ### One pattern at a time -/

/-- The test programs found so far, and those that a walk comes upon. -/
def Query.keep (q : Query) (v : View) (found : List Path) (g : Glob) : List Path :=
  ((v.walk g).filterMap (q.candidate? v)).foldl (fun found p => insert p found) found

/-- Reads and looks up one thing that a pattern stands for. -/
def Query.visit (q : Query) (v : View) (pattern : String) (found : List Path) (text : String) :
    Except Failure (List Path) :=
  match Glob.compile (qualify q.root text) with
  | .ok g => .ok (q.keep v found g)
  | .error r => .error (.invalidPattern pattern r)

/-- Reads and looks up all that a pattern stands for. -/
def Query.visitAll (q : Query) (v : View) (found : List Path) (pattern : String) :
    Except Failure (List Path) :=
  (Braces.expandText pattern).foldlM (q.visit v pattern) found

/-- The **test programs of a query, looked up as the patterns are read**. -/
def Query.gather (q : Query) (v : View) : Except Failure (List Path) :=
  q.patterns.foldlM (q.visitAll v) []

theorem visitAll_eq (q : Query) (v : View) (found : List Path) (pattern : String) :
    q.visitAll v found pattern =
      (compile q.root pattern).map fun globs => globs.foldl (q.keep v) found := by
  refine foldlM_eq_map_mapM (fun found text => ?_) _ _
  rw [Query.visit]
  cases Glob.compile (qualify q.root text) <;> rfl

/-- **Patterns may be looked up one by one.** -/
theorem gather_eq_resolveIn (q : Query) (v : View) : q.gather v = q.resolveIn v := by
  have hkeep : ∀ globs found, globs.foldl (q.keep v) found =
      (q.candidates v globs).foldl (fun found p => insert p found) found := by
    intro globs
    induction globs with
    | nil => intro found; rfl
    | cons g globs ih =>
        intro found
        rw [List.foldl_cons, ih, Query.candidates, Query.candidates, List.flatMap_cons,
          List.filterMap_append, List.foldl_append, Query.keep]
  rw [Query.gather, foldlM_eq_map_mapM (visitAll_eq q v), Query.resolveIn, Query.globs]
  cases q.patterns.mapM (compile q.root) with
  | error f => rfl
  | ok globs =>
      refine congrArg Except.ok ?_
      exact List.foldl_flatten.symm.trans (hkeep globs.flatten [])

/-! ### Which patterns a query is refused for -/

/-- **Which patterns a query is refused for.**  A query fails with the first of its patterns that
stands for something that cannot be read, and with what is wrong with the first such thing; whether
it fails is decided by its patterns, and no root makes a pattern good or bad.  All this is so as
well if each pattern is looked up before the next is read. -/
theorem resolveIn_refused_at_first (q : Query) (v : View) :
    (∀ f, q.resolveIn v = .error f ↔ ∃ pattern text r, q.FirstRefused pattern text ∧
      Glob.compile (qualify q.root text) = .error r ∧ f = .invalidPattern pattern r) ∧
    ((∃ f, q.resolveIn v = .error f) ↔
      ∃ pattern ∈ q.patterns, ∃ text ∈ Braces.expandText pattern, Refused text) ∧
    (∀ (q' : Query) (v' : View), q'.patterns = q.patterns →
      ((∃ f, q'.resolveIn v' = .error f) ↔ ∃ f, q.resolveIn v = .error f)) ∧
    (∀ root text, Refused (qualify root text) ↔ Refused text) ∧
    (∀ root text r, Glob.compile (qualify root text) = .error r →
      ∃ r', Glob.compile text = .error r' ∧ (r = r' ∨ r = r'.behind (lengthBefore root))) ∧
    q.gather v = q.resolveIn v := by
  refine ⟨fun f => resolveIn_eq_error_iff, exists_resolveIn_eq_error_iff, fun q' v' hpatterns => ?_,
    fun root text => refused_qualify_iff, fun root text r => exists_compile_of_qualify,
    gather_eq_resolveIn q v⟩
  rw [exists_resolveIn_eq_error_iff, exists_resolveIn_eq_error_iff, hpatterns]

end Corpus

end Testbench
