/-
**How what is found changes with the query.**

A query holds lists, but what it finds depends on their entries alone: neither the order of the
patterns and exclusions nor a repetition among them changes which paths are found.  More patterns
find more, more exclusions find less, and the patterns of two queries put together find what one of
the two finds.

All this is said of paths and not of their texts.  A path that is found before and after a change
may be spelled differently, because another pattern comes upon it first, or because the spelling
that stood for it is excluded and another one is not.

Main definitions:

* `Testbench.Corpus.Query.Narrower` — a query with fewer patterns and more exclusions;
* `Testbench.Corpus.Query.ComesUpon` — the files that the patterns of a query lead to.

Main results:

* `Testbench.Corpus.Ascending.sublist_parts` — ascending lists are compared by what they hold;
* `Testbench.Corpus.distinct_append` — the paths of two lists may be made distinct in each first;
* `Testbench.Corpus.Query.Narrower.sublist_parts` — a narrower query finds less;
* `Testbench.Corpus.Query.resolveIn_append` — the patterns of two queries put together;
* `Testbench.Corpus.resolveIn_changed` — **how what is found changes with the query**.
-/

import Mathlib.Data.List.Sort
import Testbench.Proofs.RefusedPatterns

set_option relaxedAutoImplicit false
set_option autoImplicit false

namespace Testbench.Corpus

/-! ### Ascending lists -/

local instance antisymm_lt {α : Type} {cmp : α → α → Ordering} [Std.OrientedCmp cmp] :
    Std.Antisymm fun a b => cmp a b = .lt where
  antisymm _ _ hab hba := absurd hba (Std.OrientedCmp.not_lt_of_lt hab)

local instance irrefl_lt {α : Type} {cmp : α → α → Ordering} [Std.OrientedCmp cmp] :
    Std.Irrefl fun a b => cmp a b = .lt where
  irrefl _ h := Std.OrientedCmp.not_lt_of_lt h h

/-- Ascending lists that hold the same paths are the same. -/
theorem Ascending.eq_of_mem_iff {a b : List Path} (ha : Ascending a) (hb : Ascending b)
    (h : ∀ p, p ∈ a ↔ p ∈ b) : a = b :=
  List.Pairwise.eq_of_mem_iff (r := fun p q => Path.cmp p q = .lt) ha hb h

/-- **If every class of an ascending list occurs in another one, it does so in the same order.** -/
theorem Ascending.sublist_parts {a b : List Path} (ha : Ascending a) (hb : Ascending b)
    (h : ∀ p ∈ a, ∃ q ∈ b, q.parts = p.parts) : (a.map Path.parts).Sublist (b.map Path.parts) := by
  have hsubset : a.map Path.parts ⊆ b.map Path.parts := by
    intro parts hparts
    obtain ⟨p, hp, rfl⟩ := List.mem_map.1 hparts
    exact List.mem_map.2 (h p hp)
  exact List.sublist_of_subperm_of_pairwise (r := fun s t => Path.cmpParts s t = .lt)
    (List.subperm_of_subset ha.nodup_parts hsubset) (List.pairwise_map.2 ha)
    (List.pairwise_map.2 hb)

/-- The first path of a class is kept when a list is made distinct. -/
theorem find?_distinct (paths : List Path) (parts : List Part) :
    (distinct paths).find? (fun r => r.parts = parts) =
      paths.find? (fun r => r.parts = parts) := by
  -- whatever is found among the distinct paths is the first of its class
  have hfound : ∀ p, (distinct paths).find? (fun r => r.parts = parts) = some p →
      paths.find? (fun r => r.parts = parts) = some p := by
    intro p hp
    have hparts : p.parts = parts := by simpa using List.find?_some hp
    exact hparts ▸ mem_distinct.1 (List.mem_of_find?_eq_some hp)
  cases hp : (distinct paths).find? (fun r => r.parts = parts) with
  | some p => exact (hfound p hp).symm
  | none =>
      symm
      refine List.find?_eq_none.2 fun p hmem hparts => ?_
      obtain ⟨r, hr, hrp⟩ := exists_mem_distinct_parts hmem
      have hr' := List.find?_eq_none.1 hp r hr
      simp only [decide_eq_true_eq] at hparts hr'
      exact hr' (hrp.trans hparts)

/-- **The paths of two lists may be made distinct in each list first.** -/
theorem distinct_append (xs ys : List Path) :
    distinct (xs ++ ys) = distinct (distinct xs ++ distinct ys) := by
  refine (ascending_distinct _).eq_of_mem_iff (ascending_distinct _) fun p => ?_
  rw [mem_distinct, mem_distinct, List.find?_append, List.find?_append, find?_distinct,
    find?_distinct]

/-- A class occurs among the distinct paths of a list exactly if it occurs in the list. -/
theorem mem_parts_distinct {paths : List Path} {parts : List Part} :
    parts ∈ (distinct paths).map Path.parts ↔ parts ∈ paths.map Path.parts := by
  simp only [List.mem_map]
  constructor
  · rintro ⟨p, hp, rfl⟩
    exact ⟨p, mem_of_mem_distinct hp, rfl⟩
  · rintro ⟨p, hp, rfl⟩
    exact exists_mem_distinct_parts hp

/-! ### Narrower queries -/

namespace Query

/-- The query with other patterns. -/
def withPatterns (q : Query) (patterns : List String) : Query := { q with patterns }

/-- The query with other exclusions. -/
def withExclusions (q : Query) (skip excludedSuffixes : List String) : Query :=
  { q with skip, excludedSuffixes }

/-- A query is **narrower** than another: from the same root it takes no pattern that the other does
not take, and it excludes all that the other excludes. -/
structure Narrower (q q' : Query) : Prop where
  root : q.root = q'.root
  patterns : q.patterns ⊆ q'.patterns
  skip : q'.skip ⊆ q.skip
  excludedSuffixes : q'.excludedSuffixes ⊆ q.excludedSuffixes

/-- Some pattern leads to the path, which is a regular file. -/
def ComesUpon (q : Query) (v : View) (path : Path) : Prop :=
  ∃ pattern ∈ q.patterns, ∃ text ∈ Braces.expandText pattern, ∃ g,
    Glob.compile (qualify q.root text) = .ok g ∧ .ok path ∈ v.walk g ∧ v.isFile path = true

variable {q q' : Query} {v : View} {cases : List Path}

theorem mem_accepted_iff_comesUpon {path : Path} :
    path ∈ q.accepted v ↔ q.ComesUpon v path ∧ q.Keeps path.text := by
  simp only [accepted, List.mem_flatMap, mem_acceptedBy_iff, ComesUpon]
  constructor
  · rintro ⟨pattern, hpattern, text, htext, g, hg, hwalk, hfile, hkeeps⟩
    exact ⟨⟨pattern, hpattern, text, htext, g, hg, hwalk, hfile⟩, hkeeps⟩
  · rintro ⟨⟨pattern, hpattern, text, htext, g, hg, hwalk, hfile⟩, hkeeps⟩
    exact ⟨pattern, hpattern, text, htext, g, hg, hwalk, hfile, hkeeps⟩

namespace Narrower

theorem comesUpon (h : q.Narrower q') {path : Path} (hpath : q.ComesUpon v path) :
    q'.ComesUpon v path := by
  obtain ⟨pattern, hpattern, text, htext, g, hg, hwalk, hfile⟩ := hpath
  exact ⟨pattern, h.patterns hpattern, text, htext, g, h.root ▸ hg, hwalk, hfile⟩

theorem keeps (h : q.Narrower q') {text : String} (htext : q.Keeps text) : q'.Keeps text :=
  ⟨fun s hs => htext.1 s (h.excludedSuffixes hs), fun s hs => htext.2 s (h.skip hs)⟩

/-- A narrower query accepts less. -/
theorem mem_accepted (h : q.Narrower q') {path : Path} (hpath : path ∈ q.accepted v) :
    path ∈ q'.accepted v := by
  rw [mem_accepted_iff_comesUpon] at hpath ⊢
  exact ⟨h.comesUpon hpath.1, h.keeps hpath.2⟩

/-- A narrower query is refused for no other pattern. -/
theorem exists_resolveIn_eq_ok (h : q.Narrower q') (hq' : q'.resolveIn v = .ok cases) :
    ∃ cases', q.resolveIn v = .ok cases' := by
  have hreadable := (resolveIn_eq_ok_iff.1 hq').1
  exact ⟨_, resolveIn_eq_ok_iff.2 ⟨fun p hp => hreadable p (h.patterns hp), rfl⟩⟩

/-- **A narrower query finds less.** -/
theorem sublist_parts {cases' : List Path} (h : q.Narrower q') (hq : q.resolveIn v = .ok cases)
    (hq' : q'.resolveIn v = .ok cases') :
    (cases.map Path.parts).Sublist (cases'.map Path.parts) := by
  rw [resolveIn_eq_ok hq, resolveIn_eq_ok hq']
  refine (ascending_distinct _).sublist_parts (ascending_distinct _) fun p hp => ?_
  exact exists_mem_distinct_parts (h.mem_accepted (mem_of_mem_distinct hp))

/-- Queries that are narrower than each other keep the same spellings. -/
theorem admits_eq (h : q.Narrower q') (h' : q'.Narrower q) : q.admits = q'.admits := by
  funext path
  rw [Bool.eq_iff_iff, admits_iff, admits_iff]
  exact ⟨h.keeps, h'.keeps⟩

/-- **Queries that are narrower than each other find the same paths**, and with the same patterns
they find them in the same spelling. -/
theorem resolveIn_of_both (h : q.Narrower q') (h' : q'.Narrower q)
    (hq : q.resolveIn v = .ok cases) : ∃ cases', q'.resolveIn v = .ok cases' ∧
      cases'.map Path.parts = cases.map Path.parts ∧
      (q'.patterns = q.patterns → cases' = cases) := by
  obtain ⟨cases', hq'⟩ := h'.exists_resolveIn_eq_ok hq
  refine ⟨cases', hq', (h'.sublist_parts hq' hq).antisymm (h.sublist_parts hq hq'), fun hsame => ?_⟩
  have hcongr : q'.resolveIn v = q.resolveIn v := resolveIn_congr h'.root hsame (h'.admits_eq h)
  exact Except.ok.inj (hq'.symm.trans (hcongr.trans hq))

end Narrower

/-- More exclusions make a query narrower. -/
theorem narrower_withExclusions {skip suffixes : List String} (hskip : q.skip ⊆ skip)
    (hsuffixes : q.excludedSuffixes ⊆ suffixes) : (q.withExclusions skip suffixes).Narrower q where
  root := rfl
  patterns := List.Subset.refl _
  skip := hskip
  excludedSuffixes := hsuffixes

/-- More patterns make a query less narrow. -/
theorem narrower_withPatterns {patterns : List String} (hpatterns : q.patterns ⊆ patterns) :
    q.Narrower (q.withPatterns patterns) where
  root := rfl
  patterns := hpatterns
  skip := List.Subset.refl _
  excludedSuffixes := List.Subset.refl _

theorem accepted_append (patterns : List String) :
    (q.withPatterns (q.patterns ++ patterns)).accepted v =
      q.accepted v ++ (q.withPatterns patterns).accepted v :=
  List.flatMap_append

/-- **The patterns of two queries put together** find what the one finds and what the other finds.
-/
theorem resolveIn_append {patterns : List String} {cases' : List Path}
    (h : q.resolveIn v = .ok cases) (h' : (q.withPatterns patterns).resolveIn v = .ok cases') :
    (q.withPatterns (q.patterns ++ patterns)).resolveIn v = .ok (distinct (cases ++ cases')) := by
  obtain ⟨hreadable, rfl⟩ := resolveIn_eq_ok_iff.1 h
  obtain ⟨hreadable', rfl⟩ := resolveIn_eq_ok_iff.1 h'
  refine resolveIn_eq_ok_iff.2 ⟨fun p hp => ?_, ?_⟩
  · rcases List.mem_append.1 hp with hp | hp
    · exact hreadable p hp
    · exact hreadable' p hp
  · rw [accepted_append]
    exact (distinct_append _ _).symm

end Query

/-! ### Changing a query -/

/-- **How what is found changes with the query.**  Of a query that succeeds the lists may be
reordered, and entries of them repeated, without a change to the paths that are found; unless the
patterns change, their spelling does not change either.  With more patterns, all paths that were
found are still found, and with more exclusions no others are found.  With the patterns of two
queries, each of which succeeds, the paths of either are found, once and in order.  None of this
makes a query fail, except for a pattern that was not there. -/
theorem resolveIn_changed {q : Query} {v : View} {cases : List Path}
    (h : q.resolveIn v = .ok cases) :
    (∀ q' : Query, q'.root = q.root → (∀ p, p ∈ q'.patterns ↔ p ∈ q.patterns) →
      (∀ s, s ∈ q'.skip ↔ s ∈ q.skip) →
      (∀ s, s ∈ q'.excludedSuffixes ↔ s ∈ q.excludedSuffixes) →
      ∃ cases', q'.resolveIn v = .ok cases' ∧ cases'.map Path.parts = cases.map Path.parts ∧
        (q'.patterns = q.patterns → cases' = cases)) ∧
    (∀ patterns cases', q.patterns ⊆ patterns →
      (q.withPatterns patterns).resolveIn v = .ok cases' →
      (cases.map Path.parts).Sublist (cases'.map Path.parts)) ∧
    (∀ skip suffixes, q.skip ⊆ skip → q.excludedSuffixes ⊆ suffixes →
      ∃ cases', (q.withExclusions skip suffixes).resolveIn v = .ok cases' ∧
        (cases'.map Path.parts).Sublist (cases.map Path.parts)) ∧
    (∀ patterns cases', (q.withPatterns patterns).resolveIn v = .ok cases' →
      ∃ all, (q.withPatterns (q.patterns ++ patterns)).resolveIn v = .ok all ∧
        all = distinct (cases ++ cases') ∧ all.Pairwise (fun a b => Path.cmp a b = .lt) ∧
        ∀ parts, parts ∈ all.map Path.parts ↔
          parts ∈ cases.map Path.parts ∨ parts ∈ cases'.map Path.parts) := by
  refine ⟨fun q' hroot hpatterns hskip hsuffixes => ?_, fun patterns cases' hmore h' => ?_,
    fun skip suffixes hskip hsuffixes => ?_, fun patterns cases' h' => ?_⟩
  · -- each of the two queries is narrower than the other
    have hfrom : q.Narrower q' := {
      root := hroot.symm
      patterns := fun p => (hpatterns p).2
      skip := fun s => (hskip s).1
      excludedSuffixes := fun s => (hsuffixes s).1 }
    have hto : q'.Narrower q := {
      root := hroot
      patterns := fun p => (hpatterns p).1
      skip := fun s => (hskip s).2
      excludedSuffixes := fun s => (hsuffixes s).2 }
    exact hfrom.resolveIn_of_both hto h
  · exact (Query.narrower_withPatterns hmore).sublist_parts h h'
  · have hnarrower := Query.narrower_withExclusions hskip hsuffixes
    obtain ⟨cases', h'⟩ := hnarrower.exists_resolveIn_eq_ok h
    exact ⟨cases', h', hnarrower.sublist_parts h' h⟩
  · refine ⟨_, Query.resolveIn_append h h', rfl, ascending_distinct _, fun parts => ?_⟩
    rw [mem_parts_distinct, List.map_append, List.mem_append]

/-- A query that comes upon the file `b` in two spellings and skips none of them. -/
def bothSpellings : Query := twoSpellings.withExclusions [] [".dump"]

/-- The same patterns in another order, one of them twice. -/
def shuffledSpellings : Query := bothSpellings.withPatterns ["{a.dump,./b,a}", "b", "b"]

/-- Another spelling stands for the file `b` if the first one is skipped, or if the patterns change
places; the paths are the same. -/
theorem parts_of_bothSpellings :
    bothSpellings.resolveIn (.ofDisk threeFiles) = .ok [⟨"t/a"⟩, ⟨"t/b"⟩] ∧
      twoSpellings.resolveIn (.ofDisk threeFiles) = .ok [⟨"t/a"⟩, ⟨"t/./b"⟩] ∧
      (∃ cases, twoSpellings.resolveIn (.ofDisk threeFiles) = .ok cases ∧
        (cases.map Path.parts).Sublist ([⟨"t/a"⟩, ⟨"t/b"⟩].map Path.parts)) ∧
      shuffledSpellings.resolveIn (.ofDisk threeFiles) = .ok [⟨"t/a"⟩, ⟨"t/./b"⟩] ∧
      (∃ cases, shuffledSpellings.resolveIn (.ofDisk threeFiles) = .ok cases ∧
        cases.map Path.parts = [⟨"t/a"⟩, ⟨"t/b"⟩].map Path.parts) := by
  have h : bothSpellings.resolveIn (.ofDisk threeFiles) = .ok [⟨"t/a"⟩, ⟨"t/b"⟩] := by
    decide +kernel
  obtain ⟨hsame, -, hless, -⟩ := resolveIn_changed h
  have hpatterns : ∀ p, p ∈ shuffledSpellings.patterns ↔ p ∈ bothSpellings.patterns := by
    simp [shuffledSpellings, bothSpellings, twoSpellings, Query.withPatterns,
      Query.withExclusions, or_comm]
  obtain ⟨cases, hcases, hparts, -⟩ :=
    hsame shuffledSpellings rfl hpatterns (fun _ => Iff.rfl) (fun _ => Iff.rfl)
  exact ⟨h, by decide +kernel,
    hless twoSpellings.skip [".dump"] (List.nil_subset _) (List.Subset.refl _),
    by decide +kernel, cases, hcases, hparts⟩

end Testbench.Corpus
