/-
**Which test programs a query finds.**

Paths that differ in spelling only are one test program, and every such class of paths is kept once.
The exclusions look at the spelling, so that of two spellings of one file one may be excluded and
the other not.  What a query finds is therefore said spelling by spelling: a path is found exactly
when the query accepts it at some spot, and at no earlier spot a path of the same class.

A spot is the number of a pattern, of an expansion of it, and of an entry that the walk along the
expansion comes upon; spots stand in the order in which a query visits them.

Main definitions:

* `Testbench.Corpus.Query.Keeps` — no exclusion applies to a spelling;
* `Testbench.Corpus.Spot`, `Testbench.Corpus.Spot.Before` — spots and their order;
* `Testbench.Corpus.Query.AcceptsAt` — a path is accepted at a spot;
* `Testbench.Corpus.Query.accepted` — all paths that are accepted, in the order of their spots.

Main results:

* `Testbench.Corpus.ascending_distinct`, `Testbench.Corpus.mem_distinct` — what is kept of a list of
  paths, and in which order;
* `Testbench.Corpus.resolveIn_eq_ok` — a query that succeeds keeps what it accepts;
* `Testbench.Corpus.find?_accepted_eq_some_iff` — the first accepted path with a property is the one
  at the earliest spot;
* `Testbench.Corpus.resolveIn_first_of_class` — **what a query finds**.
-/

import Mathlib.Data.List.Basic
import Testbench.Corpus.Resolve

set_option relaxedAutoImplicit false
set_option autoImplicit false

namespace Testbench.Corpus

/-! ### Keeping every path once -/

/-- The paths stand in strictly ascending order. -/
def Ascending (paths : List Path) : Prop := paths.Pairwise fun p q => Path.cmp p q = .lt

theorem cmp_lt_of_gt {p q : Path} (h : Path.cmp p q = .gt) : Path.cmp q p = .lt :=
  Std.OrientedCmp.gt_iff_lt.1 h

theorem parts_ne_of_cmp_lt {p q : Path} (h : Path.cmp p q = .lt) : p.parts ≠ q.parts := by
  intro heq
  rw [Path.cmp_eq_iff.2 heq] at h
  exact absurd h (by decide)

/-- No two paths of an ascending list have the same parts. -/
theorem Ascending.nodup_parts {paths : List Path} (h : Ascending paths) :
    (paths.map Path.parts).Nodup :=
  List.pairwise_map.2 (h.imp fun hlt => parts_ne_of_cmp_lt hlt)

/-- What is before the first path of an ascending list has the parts of none of them. -/
theorem parts_ne_of_before {p q r : Path} {rest : List Path} (h : Ascending (q :: rest))
    (hp : Path.cmp p q = .lt) (hr : r ∈ q :: rest) : r.parts ≠ p.parts := by
  rcases List.mem_cons.1 hr with rfl | hr
  · exact (parts_ne_of_cmp_lt hp).symm
  · have hqr := (List.pairwise_cons.1 h).1 r hr
    exact (parts_ne_of_cmp_lt (Std.TransCmp.lt_trans hp hqr)).symm

/-- In an ascending list a path is inserted exactly if none with the same parts is there. -/
theorem mem_insert_iff {p q : Path} {found : List Path} (h : Ascending found) :
    q ∈ insert p found ↔ q ∈ found ∨ (q = p ∧ ∀ r ∈ found, r.parts ≠ p.parts) := by
  induction found with
  | nil => simp [insert]
  | cons x rest ih =>
      rw [insert]
      cases hpx : Path.cmp p x with
      | lt =>
          have hne : ∀ r ∈ x :: rest, r.parts ≠ p.parts := fun r hr => parts_ne_of_before h hpx hr
          constructor
          · intro hq
            rcases List.mem_cons.1 hq with rfl | hq
            · exact Or.inr ⟨rfl, hne⟩
            · exact Or.inl hq
          · rintro (hq | ⟨rfl, -⟩)
            · exact List.mem_cons_of_mem _ hq
            · exact List.mem_cons_self
      | eq =>
          have hx : x.parts = p.parts := (Path.cmp_eq_iff.1 hpx).symm
          constructor
          · exact Or.inl
          · rintro (hq | ⟨-, hne⟩)
            · exact hq
            · exact absurd hx (hne x List.mem_cons_self)
      | gt =>
          have hx : x.parts ≠ p.parts := parts_ne_of_cmp_lt (cmp_lt_of_gt hpx)
          rw [List.mem_cons, ih (List.pairwise_cons.1 h).2, List.mem_cons]
          simp only [List.forall_mem_cons, hx, ne_eq, not_false_eq_true, true_and, or_assoc]

theorem ascending_insert {p : Path} {found : List Path} (h : Ascending found) :
    Ascending (insert p found) := by
  induction found with
  | nil => exact List.pairwise_singleton ..
  | cons x rest ih =>
      obtain ⟨hx, hrest⟩ := List.pairwise_cons.1 h
      rw [insert]
      cases hpx : Path.cmp p x with
      | lt =>
          refine List.pairwise_cons.2 ⟨fun r hr => ?_, h⟩
          rcases List.mem_cons.1 hr with rfl | hr
          · exact hpx
          · exact Std.TransCmp.lt_trans hpx (hx r hr)
      | eq => exact h
      | gt =>
          refine List.pairwise_cons.2 ⟨fun r hr => ?_, ih hrest⟩
          rcases mem_insert hr with rfl | hr
          · exact cmp_lt_of_gt hpx
          · exact hx r hr

/-- Inserting adds the class of the path to those that are there. -/
theorem forall_mem_insert_parts_ne {p : Path} {found : List Path} (h : Ascending found)
    (parts : List Part) :
    (∀ r ∈ insert p found, r.parts ≠ parts) ↔ p.parts ≠ parts ∧ ∀ r ∈ found, r.parts ≠ parts := by
  constructor
  · intro hne
    obtain ⟨r, hr, hparts⟩ := exists_parts_insert p found
    exact ⟨hparts ▸ hne r hr, fun r hr => hne r (mem_of_mem_insert hr)⟩
  · rintro ⟨hp, hfound⟩ r hr
    rcases (mem_insert_iff h).1 hr with hr | ⟨rfl, -⟩
    · exact hfound r hr
    · exact hp

/-- Of paths that are inserted one after the other, those stay that are the first of their class,
if the class was not there before. -/
theorem mem_foldl_insert {p : Path} (paths : List Path) {found : List Path} (h : Ascending found) :
    p ∈ paths.foldl (fun found p => insert p found) found ↔
      p ∈ found ∨ ((∀ r ∈ found, r.parts ≠ p.parts) ∧
        paths.find? (fun r => r.parts = p.parts) = some p) := by
  induction paths generalizing found with
  | nil => simp
  | cons x paths ih =>
      rw [List.foldl_cons, ih (ascending_insert h), mem_insert_iff h,
        forall_mem_insert_parts_ne h, List.find?_cons]
      by_cases hx : x.parts = p.parts
      · simp only [hx, decide_true, ne_eq, not_true_eq_false, false_and, or_false,
          Option.some.injEq, eq_comm (a := p), and_comm]
      · have hpx : p ≠ x := fun heq => hx (heq ▸ rfl)
        simp only [hx, hpx, decide_false, ne_eq, not_false_eq_true, false_and, or_false, true_and]

theorem ascending_foldl_insert (paths : List Path) {found : List Path} (h : Ascending found) :
    Ascending (paths.foldl (fun found p => insert p found) found) := by
  induction paths generalizing found with
  | nil => exact h
  | cons x paths ih => exact ih (ascending_insert h)

/-- What is kept of a list of paths is ascending. -/
theorem ascending_distinct (paths : List Path) : Ascending (distinct paths) :=
  ascending_foldl_insert paths List.Pairwise.nil

/-- **A path is kept exactly if it is the first of its class.** -/
theorem mem_distinct {p : Path} {paths : List Path} :
    p ∈ distinct paths ↔ paths.find? (fun r => r.parts = p.parts) = some p := by
  rw [distinct, mem_foldl_insert paths List.Pairwise.nil]
  simp

theorem mem_of_mem_distinct {p : Path} {paths : List Path} (h : p ∈ distinct paths) : p ∈ paths :=
  List.mem_of_find?_eq_some (mem_distinct.1 h)

/-! ### What a query accepts -/

/-- No exclusion applies to a spelling: it does not end with an excluded suffix and contains no skip
entry, where empty ones do not count. -/
def Query.Keeps (q : Query) (text : String) : Prop :=
  (∀ s ∈ q.excludedSuffixes, s ≠ "" → ¬ s.toList <:+ text.toList) ∧
    ∀ s ∈ q.skip, s ≠ "" → ¬ s.toList <:+: text.toList

theorem Query.admits_iff {q : Query} {path : Path} : q.admits path = true ↔ q.Keeps path.text := by
  simp [Query.admits, Query.Keeps, ← Text.endsWith_iff, ← Text.contains_iff]

theorem Query.isCandidate_iff {q : Query} {v : View} {path : Path} :
    q.isCandidate v path = true ↔ v.isFile path = true ∧ q.Keeps path.text := by
  rw [Query.isCandidate, Bool.and_eq_true, Query.admits_iff]

theorem Query.candidate?_eq_some_iff {q : Query} {v : View} {entry : Except Fault Path}
    {path : Path} :
    q.candidate? v entry = some path ↔
      entry = .ok path ∧ v.isFile path = true ∧ q.Keeps path.text := by
  cases entry with
  | error fault => simp [Query.candidate?]
  | ok r =>
      simp only [Query.candidate?, Option.ite_none_right_eq_some, Query.isCandidate_iff,
        Except.ok.injEq, Option.some.injEq]
      constructor
      · rintro ⟨h, rfl⟩; exact ⟨rfl, h⟩
      · rintro ⟨rfl, h⟩; exact ⟨h, rfl⟩

/-- The paths that are accepted of what one expansion comes upon. -/
def Query.acceptedBy (q : Query) (v : View) (text : String) : List Path :=
  match Glob.compile (qualify q.root text) with
  | .ok g => (v.walk g).filterMap (q.candidate? v)
  | .error _ => []

/-- The paths that a query accepts, pattern by pattern, expansion by expansion and entry by entry.
-/
def Query.accepted (q : Query) (v : View) : List Path :=
  q.patterns.flatMap fun pattern => (Braces.expandText pattern).flatMap (q.acceptedBy v)

/-- What is gathered from the results of a list of steps that all succeed can be gathered from the
steps. -/
theorem flatMap_of_mapM_eq_ok {α β γ ε : Type} {f : α → Except ε β} {k : β → List γ}
    {k' : α → List γ} (hk : ∀ a b, f a = .ok b → k' a = k b) :
    ∀ {xs : List α} {ys : List β}, xs.mapM f = .ok ys → ys.flatMap k = xs.flatMap k' := by
  intro xs
  induction xs with
  | nil =>
      intro ys h
      cases h
      rfl
  | cons x xs ih =>
      intro ys h
      rw [List.mapM_cons] at h
      cases hx : f x with
      | error e => rw [hx] at h; cases h
      | ok y =>
          cases hxs : xs.mapM f with
          | error e => rw [hx, hxs] at h; cases h
          | ok zs =>
              rw [hx, hxs] at h
              cases h
              rw [List.flatMap_cons, List.flatMap_cons, hk x y hx, ih hxs]

theorem acceptedBy_of_compile {q : Query} {v : View} {text : String} {g : Glob}
    (h : Glob.compile (qualify q.root text) = .ok g) :
    q.acceptedBy v text = (v.walk g).filterMap (q.candidate? v) := by
  rw [Query.acceptedBy, h]

/-- **A query that succeeds keeps what it accepts.** -/
theorem resolveIn_eq_ok {q : Query} {v : View} {cases : List Path}
    (h : q.resolveIn v = .ok cases) : cases = distinct (q.accepted v) := by
  -- one expansion
  have htext : ∀ pattern text g,
      (Glob.compile (qualify q.root text)).mapError (Failure.invalidPattern pattern) = .ok g →
      q.acceptedBy v text = (v.walk g).filterMap (q.candidate? v) := by
    intro pattern text g hg
    cases hc : Glob.compile (qualify q.root text) with
    | error r => rw [hc] at hg; cases hg
    | ok g' =>
        rw [hc] at hg
        cases hg
        exact acceptedBy_of_compile hc
  -- one pattern
  have hpattern : ∀ pattern globs, compile q.root pattern = .ok globs →
      (Braces.expandText pattern).flatMap (q.acceptedBy v) =
        globs.flatMap fun g => (v.walk g).filterMap (q.candidate? v) :=
    fun pattern globs hglobs => (flatMap_of_mapM_eq_ok (htext pattern) hglobs).symm
  rw [Query.resolveIn, Query.globs] at h
  cases hm : q.patterns.mapM (compile q.root) with
  | error e => rw [hm] at h; cases h
  | ok globs =>
      rw [hm] at h
      cases h
      change distinct (q.candidates v globs.flatten) = _
      rw [Query.candidates, List.filterMap_flatMap, Query.accepted,
        ← flatMap_of_mapM_eq_ok hpattern hm, List.flatMap_def, List.flatMap_def,
        List.map_flatten, List.flatten_flatten, List.map_map]
      rfl

/-! ### Spots -/

/-- The number of a pattern, of an expansion of it, and of an entry that the walk along the
expansion comes upon. -/
structure Spot where
  pattern : Nat
  expansion : Nat
  entry : Nat
deriving DecidableEq, Repr

/-- One spot is visited before another. -/
def Spot.Before (s t : Spot) : Prop :=
  s.pattern < t.pattern ∨ s.pattern = t.pattern ∧
    (s.expansion < t.expansion ∨ s.expansion = t.expansion ∧ s.entry < t.entry)

/-- A **path is accepted at a spot**: the walk comes upon it there, it leads to a regular file, and
no exclusion applies to its spelling. -/
def Query.AcceptsAt (q : Query) (v : View) (s : Spot) (path : Path) : Prop :=
  ∃ pattern text g, q.patterns[s.pattern]? = some pattern ∧
    (Braces.expandText pattern)[s.expansion]? = some text ∧
    Glob.compile (qualify q.root text) = .ok g ∧ (v.walk g)[s.entry]? = some (.ok path) ∧
    v.isFile path = true ∧ q.Keeps path.text

theorem mem_acceptedBy_iff {q : Query} {v : View} {text : String} {path : Path} :
    path ∈ q.acceptedBy v text ↔ ∃ g, Glob.compile (qualify q.root text) = .ok g ∧
      .ok path ∈ v.walk g ∧ v.isFile path = true ∧ q.Keeps path.text := by
  rw [Query.acceptedBy]
  cases Glob.compile (qualify q.root text) with
  | error r => simp
  | ok g => simp [List.mem_filterMap, Query.candidate?_eq_some_iff]

/-- What is accepted is accepted at some spot. -/
theorem exists_acceptsAt {q : Query} {v : View} {i j : Nat} {pattern text : String} {path : Path}
    (hi : q.patterns[i]? = some pattern) (hj : (Braces.expandText pattern)[j]? = some text)
    (h : path ∈ q.acceptedBy v text) : ∃ k, q.AcceptsAt v ⟨i, j, k⟩ path := by
  obtain ⟨g, hg, hwalk, hfile, hkeeps⟩ := mem_acceptedBy_iff.1 h
  obtain ⟨k, hk⟩ := List.mem_iff_getElem?.1 hwalk
  exact ⟨k, pattern, text, g, hi, hj, hg, hk, hfile, hkeeps⟩

/-- The first of several lists put together that has a property is found in the earliest list that
has one. -/
theorem find?_flatMap_eq_some_iff {α β : Type} {f : α → List β} {P : β → Bool} {xs : List α}
    {b : β} : (xs.flatMap f).find? P = some b ↔
      ∃ (i : Nat) (a : α), xs[i]? = some a ∧ (f a).find? P = some b ∧
        ∀ j a', j < i → xs[j]? = some a' → ∀ y ∈ f a', P y = false := by
  rw [List.find?_flatMap, List.findSome?_eq_some_iff]
  constructor
  · rintro ⟨before, a, after, rfl, ha, hbefore⟩
    refine ⟨before.length, a, by simp, ha, fun j a' hj ha' y hy => ?_⟩
    rw [List.getElem?_append_left hj] at ha'
    simpa using List.find?_eq_none.1 (hbefore a' (List.mem_of_getElem? ha')) y hy
  · rintro ⟨i, a, hi, ha, hbefore⟩
    obtain ⟨hlt, rfl⟩ := List.getElem?_eq_some_iff.1 hi
    refine ⟨xs.take i, xs[i], xs.drop (i + 1), by simp, ha, fun a' ha' => ?_⟩
    obtain ⟨j, hj⟩ := List.mem_iff_getElem?.1 ha'
    have hji : j < i := by
      have := (List.getElem?_eq_some_iff.1 hj).1
      rw [List.length_take] at this
      omega
    rw [List.getElem?_take_of_lt hji] at hj
    exact List.find?_eq_none.2 fun y hy => by simpa using hbefore j a' hji hj y hy

/-- The first path with a property that one expansion has accepted. -/
theorem find?_acceptedBy_eq_some_iff {q : Query} {v : View} {text : String} {P : Path → Bool}
    {path : Path} : (q.acceptedBy v text).find? P = some path ↔
      ∃ (g : Glob) (k : Nat), Glob.compile (qualify q.root text) = .ok g ∧
        (v.walk g)[k]? = some (.ok path) ∧ (v.isFile path = true ∧ q.Keeps path.text) ∧
        P path = true ∧ ∀ j r, j < k → (v.walk g)[j]? = some (.ok r) → v.isFile r = true →
          q.Keeps r.text → P r = false := by
  have hentry : ∀ entry, (q.candidate? v entry).toList.find? P = some path ↔
      q.candidate? v entry = some path ∧ P path = true := by
    intro entry
    cases q.candidate? v entry with
    | none => simp
    | some r =>
        by_cases hr : P r = true
        · simp only [Option.toList_some, List.find?_cons, hr, Option.some.injEq]
          exact ⟨fun h => ⟨h, h ▸ hr⟩, And.left⟩
        · simp only [Option.toList_some, List.find?_cons, hr, List.find?_nil, Option.some.injEq,
            reduceCtorEq, false_iff, not_and]
          exact fun h => h ▸ hr
  rw [Query.acceptedBy]
  cases Glob.compile (qualify q.root text) with
  | error r => simp
  | ok g =>
      simp only [List.filterMap_eq_flatMap_toList, find?_flatMap_eq_some_iff, hentry,
        Query.candidate?_eq_some_iff, Option.mem_toList, Except.ok.injEq]
      constructor
      · rintro ⟨k, entry, hk, ⟨⟨rfl, haccept⟩, hP⟩, hbefore⟩
        refine ⟨g, k, rfl, hk, haccept, hP, fun j r hj hr hfile hkeeps => ?_⟩
        exact hbefore j _ hj hr r ⟨rfl, hfile, hkeeps⟩
      · rintro ⟨g', k, rfl, hk, haccept, hP, hbefore⟩
        refine ⟨k, _, hk, ⟨⟨rfl, haccept⟩, hP⟩, ?_⟩
        rintro j entry hj hr r ⟨rfl, hfile, hkeeps⟩
        exact hbefore j r hj hr hfile hkeeps

/-- **The first accepted path with a property is the one at the earliest spot.** -/
theorem find?_accepted_eq_some_iff {q : Query} {v : View} {P : Path → Bool} {path : Path} :
    (q.accepted v).find? P = some path ↔
      ∃ s, q.AcceptsAt v s path ∧ P path = true ∧
        ∀ s' r, s'.Before s → q.AcceptsAt v s' r → P r = false := by
  rw [Query.accepted, find?_flatMap_eq_some_iff]
  constructor
  · rintro ⟨i, pattern, hi, hfind, hpatterns⟩
    obtain ⟨j, text, hj, hfind, htexts⟩ := find?_flatMap_eq_some_iff.1 hfind
    obtain ⟨g, k, hg, hk, ⟨hfile, hkeeps⟩, hP, hentries⟩ := find?_acceptedBy_eq_some_iff.1 hfind
    refine ⟨⟨i, j, k⟩, ⟨pattern, text, g, hi, hj, hg, hk, hfile, hkeeps⟩, hP, ?_⟩
    rintro ⟨i', j', k'⟩ r hlt ⟨pattern', text', g', hi', hj', hg', hk', hfile', hkeeps'⟩
    have hr : r ∈ q.acceptedBy v text' :=
      mem_acceptedBy_iff.2 ⟨g', hg', List.mem_of_getElem? hk', hfile', hkeeps'⟩
    rcases hlt with hlt | ⟨heq, hlt | ⟨heq', hlt⟩⟩
    · -- an earlier pattern
      refine hpatterns i' pattern' hlt hi' r (List.mem_flatMap.2 ⟨text', ?_, hr⟩)
      exact List.mem_of_getElem? hj'
    · -- the same pattern, an earlier expansion
      subst heq
      obtain rfl : pattern' = pattern := Option.some.inj (hi'.symm.trans hi)
      exact htexts j' text' hlt hj' r hr
    · -- the same expansion, an earlier entry
      subst heq heq'
      obtain rfl : pattern' = pattern := Option.some.inj (hi'.symm.trans hi)
      obtain rfl : text' = text := Option.some.inj (hj'.symm.trans hj)
      obtain rfl : g' = g := Except.ok.inj (hg'.symm.trans hg)
      exact hentries k' r hlt hk' hfile' hkeeps'
  · rintro ⟨⟨i, j, k⟩, ⟨pattern, text, g, hi, hj, hg, hk, hfile, hkeeps⟩, hP, hfirst⟩
    refine ⟨i, pattern, hi, find?_flatMap_eq_some_iff.2 ⟨j, text, hj, ?_, ?_⟩, ?_⟩
    · refine find?_acceptedBy_eq_some_iff.2 ⟨g, k, hg, hk, ⟨hfile, hkeeps⟩, hP, ?_⟩
      intro k' r hlt hk' hfile' hkeeps'
      exact hfirst ⟨i, j, k'⟩ r (Or.inr ⟨rfl, Or.inr ⟨rfl, hlt⟩⟩)
        ⟨pattern, text, g, hi, hj, hg, hk', hfile', hkeeps'⟩
    · intro j' text' hlt hj' r hr
      obtain ⟨k', hk'⟩ := exists_acceptsAt hi hj' hr
      exact hfirst ⟨i, j', k'⟩ r (Or.inr ⟨rfl, Or.inl hlt⟩) hk'
    · intro i' pattern' hlt hi' r hr
      obtain ⟨text', htext', hr⟩ := List.mem_flatMap.1 hr
      obtain ⟨j', hj'⟩ := List.mem_iff_getElem?.1 htext'
      obtain ⟨k', hk'⟩ := exists_acceptsAt hi' hj' hr
      exact hfirst ⟨i', j', k'⟩ r (Or.inl hlt) hk'

theorem mem_accepted_iff {q : Query} {v : View} {path : Path} :
    path ∈ q.accepted v ↔ ∃ s, q.AcceptsAt v s path := by
  constructor
  · intro h
    obtain ⟨pattern, hpattern, h⟩ := List.mem_flatMap.1 h
    obtain ⟨text, htext, h⟩ := List.mem_flatMap.1 h
    obtain ⟨i, hi⟩ := List.mem_iff_getElem?.1 hpattern
    obtain ⟨j, hj⟩ := List.mem_iff_getElem?.1 htext
    obtain ⟨k, hk⟩ := exists_acceptsAt hi hj h
    exact ⟨_, hk⟩
  · rintro ⟨s, pattern, text, g, hi, hj, hg, hk, hfile, hkeeps⟩
    refine List.mem_flatMap.2 ⟨pattern, List.mem_of_getElem? hi, ?_⟩
    refine List.mem_flatMap.2 ⟨text, List.mem_of_getElem? hj, ?_⟩
    exact mem_acceptedBy_iff.2 ⟨g, hg, List.mem_of_getElem? hk, hfile, hkeeps⟩

/-! ### What a query finds -/

/-- A path that is accepted at a spot is **the first of its class** if at no earlier spot a path
with the same parts is accepted. -/
def Query.FirstAt (q : Query) (v : View) (s : Spot) (path : Path) : Prop :=
  q.AcceptsAt v s path ∧ ∀ s' r, s'.Before s → q.AcceptsAt v s' r → r.parts ≠ path.parts

/-- The query with its empty exclusions taken out. -/
def Query.withoutEmpty (q : Query) : Query :=
  { q with
    skip := q.skip.filter (· ≠ "")
    excludedSuffixes := q.excludedSuffixes.filter (· ≠ "") }

theorem mem_distinct_accepted_iff {q : Query} {v : View} {path : Path} :
    path ∈ distinct (q.accepted v) ↔ ∃ s, q.FirstAt v s path := by
  rw [mem_distinct, find?_accepted_eq_some_iff]
  simp [Query.FirstAt]

/-- Every class of which some path is accepted is kept. -/
theorem exists_mem_distinct_parts {path : Path} {paths : List Path} (h : path ∈ paths) :
    ∃ r ∈ distinct paths, r.parts = path.parts := by
  cases hr : paths.find? (fun r => r.parts = path.parts) with
  | none => simpa using List.find?_eq_none.1 hr path h
  | some r =>
      have hparts : r.parts = path.parts := by simpa using List.find?_some hr
      exact ⟨r, mem_distinct.2 (by rw [hparts]; exact hr), hparts⟩

/-- Queries with the same patterns and the same root find the same if they exclude the same. -/
theorem resolveIn_congr {q q' : Query} {v : View} (hroot : q.root = q'.root)
    (hpatterns : q.patterns = q'.patterns) (hadmits : q.admits = q'.admits) :
    q.resolveIn v = q'.resolveIn v := by
  have hcandidate : q.candidate? v = q'.candidate? v := by
    funext entry
    cases entry with
    | error fault => rfl
    | ok path =>
        rw [Query.candidate?, Query.candidate?, Query.isCandidate, Query.isCandidate, hadmits]
  have hcandidates : q.candidates v = q'.candidates v := by
    funext globs
    rw [Query.candidates, Query.candidates, hcandidate]
  rw [Query.resolveIn, Query.resolveIn, Query.globs, Query.globs, hroot, hpatterns, hcandidates]

/-- Empty exclusions exclude nothing. -/
theorem resolveIn_withoutEmpty (q : Query) (v : View) :
    q.withoutEmpty.resolveIn v = q.resolveIn v := by
  refine resolveIn_congr rfl rfl ?_
  funext path
  simp [Query.withoutEmpty, Query.admits, List.any_filter]

/-- **What a query finds.**  Of a query that succeeds the paths stand in strictly ascending order,
so that no class of paths occurs twice; a class is there exactly if a path of it is accepted
somewhere; the path that stands for it is the one accepted first; no exclusion applies to a path
that is found, and empty exclusions change nothing. -/
theorem resolveIn_first_of_class {q : Query} {v : View} {cases : List Path}
    (h : q.resolveIn v = .ok cases) :
    cases.Pairwise (fun a b => Path.cmp a b = .lt) ∧ (cases.map Path.parts).Nodup ∧
      (∀ parts, (∃ path ∈ cases, path.parts = parts) ↔
        ∃ s path, q.AcceptsAt v s path ∧ path.parts = parts) ∧
      (∀ path, path ∈ cases ↔ ∃ s, q.FirstAt v s path) ∧
      (∀ path ∈ cases, q.Keeps path.text) ∧ q.withoutEmpty.resolveIn v = .ok cases := by
  obtain rfl := resolveIn_eq_ok h
  have hmem : ∀ path, path ∈ distinct (q.accepted v) ↔ ∃ s, q.FirstAt v s path :=
    fun path => mem_distinct_accepted_iff
  refine ⟨ascending_distinct _, (ascending_distinct _).nodup_parts, fun parts => ?_, hmem,
    fun path hpath => ?_, (resolveIn_withoutEmpty q v).trans h⟩
  · constructor
    · rintro ⟨path, hpath, hparts⟩
      obtain ⟨s, hs, -⟩ := (hmem path).1 hpath
      exact ⟨s, path, hs, hparts⟩
    · rintro ⟨s, path, hs, rfl⟩
      exact exists_mem_distinct_parts (mem_accepted_iff.2 ⟨s, hs⟩)
  · obtain ⟨s, ⟨_, _, _, _, _, _, _, _, hkeeps⟩, -⟩ := (hmem path).1 hpath
    exact hkeeps

/-- Two files and a dump, in one directory. -/
def threeFiles : Disk where
  nodes := [(["t"], .directory), (["a", "t"], .file [] false), (["b", "t"], .file [] false),
    (["a.dump", "t"], .file [] false)]

/-- A query that comes upon the file `b` in two spellings, of which it skips the first. -/
def twoSpellings : Query where
  root := ⟨"t"⟩
  patterns := ["b", "{a.dump,./b,a}"]
  skip := ["t/b", ""]
  excludedSuffixes := [".dump"]

/-- The spelling that is not skipped stands for the file. -/
theorem firstAt_of_skipped_spelling :
    twoSpellings.resolveIn (.ofDisk threeFiles) = .ok [⟨"t/a"⟩, ⟨"t/./b"⟩] ∧
      (∃ s, twoSpellings.FirstAt (.ofDisk threeFiles) s ⟨"t/./b"⟩) ∧
      ¬ ∃ s, twoSpellings.FirstAt (.ofDisk threeFiles) s ⟨"t/b"⟩ := by
  have h : twoSpellings.resolveIn (.ofDisk threeFiles) = .ok [⟨"t/a"⟩, ⟨"t/./b"⟩] := by
    decide +kernel
  obtain ⟨-, -, -, hmem, -, -⟩ := resolveIn_first_of_class h
  exact ⟨h, (hmem _).1 (by decide), mt (hmem _).2 (by decide)⟩

end Testbench.Corpus
