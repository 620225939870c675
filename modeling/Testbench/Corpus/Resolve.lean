/-
**The test corpus.**

Patterns become test programs: each pattern stands for the patterns of its brace groups, those are
taken from a root directory and looked up, and what is found counts if it is a regular file that no
suffix and no skip entry excludes.  The result is in the order of paths and holds each path once,
in the spelling that was found first.

Main definitions:

* `Testbench.Corpus.Query` — patterns, root and exclusions;
* `Testbench.Corpus.View` — what looking up a pattern depends on;
* `Testbench.Corpus.qualify` — a pattern taken from the root;
* `Testbench.Corpus.distinct` — a list of paths in order, each once;
* `Testbench.Corpus.Query.resolveIn`, `Testbench.Corpus.Query.resolve` — the test programs.

Main results:

* `Testbench.Corpus.mem_insert`, `Testbench.Corpus.exists_parts_insert` — which paths are kept.
-/

import Testbench.Corpus.Lookup
import Testbench.Failure
import Testbench.Pattern.Braces

set_option relaxedAutoImplicit false
set_option autoImplicit false

namespace Testbench.Corpus

/-- Everything needed to turn patterns into test programs. -/
structure Query where
  root : Path
  patterns : List String
  /-- A path that contains one of these is left out. -/
  skip : List String
  /-- A path that ends with one of these is left out. -/
  excludedSuffixes : List String
deriving DecidableEq, Repr

/-- What looking up a pattern depends on: what a walk along the pattern comes upon, each a path or
the fault of an entry that cannot be read, and which paths lead to a regular file. -/
structure View where
  walk : Glob → List (Except Fault Path)
  isFile : Path → Bool

/-- A disk, on which every entry can be read. -/
def View.ofDisk (d : Disk) : View where
  walk g := (g.find d).map .ok
  isFile := d.isFile

/-! ### Candidates -/

/-- No suffix and no skip entry excludes the path; empty ones exclude nothing. -/
def Query.admits (q : Query) (path : Path) : Bool :=
  !(q.excludedSuffixes.any fun s => s ≠ "" && Text.endsWith path.text s) &&
    !(q.skip.any fun s => s ≠ "" && Text.contains path.text s)

/-- The path is a test program: a regular file that nothing excludes. -/
def Query.isCandidate (q : Query) (v : View) (path : Path) : Bool :=
  v.isFile path && q.admits path

/-- A pattern taken from the root, which is meant literally; an absolute one stands for itself. -/
def qualify (root : Path) (pattern : String) : String :=
  ((Path.mk (Glob.escape root.text)).join pattern).text

/-- The patterns that one pattern stands for, ready to be looked up. -/
def compile (root : Path) (pattern : String) : Except Failure (List Glob) :=
  (Braces.expandText pattern).mapM fun text =>
    (Glob.compile (qualify root text)).mapError (Failure.invalidPattern pattern)

/-- All patterns of a query, ready to be looked up; the first that is refused decides. -/
def Query.globs (q : Query) : Except Failure (List Glob) :=
  (q.patterns.mapM (compile q.root)).map List.flatten

/-- The test program that a walk comes upon, if it is one; an entry that cannot be read is passed
over. -/
def Query.candidate? (q : Query) (v : View) : Except Fault Path → Option Path
  | .ok path => if q.isCandidate v path then some path else none
  | .error _ => none

/-- The test programs found, in the order they are found. -/
def Query.candidates (q : Query) (v : View) (globs : List Glob) : List Path :=
  (globs.flatMap v.walk).filterMap (q.candidate? v)

/-! ### Order -/

/-- Puts a path at its place in an ordered list, unless one with the same parts is there. -/
def insert (path : Path) : List Path → List Path
  | [] => [path]
  | q :: rest =>
      match Path.cmp path q with
      | .lt => path :: q :: rest
      | .eq => q :: rest
      | .gt => q :: insert path rest

/-- The paths in order, each once in the spelling that came first. -/
def distinct (paths : List Path) : List Path := paths.foldl (fun found p => insert p found) []

/-- The **test programs of a query**. -/
def Query.resolveIn (q : Query) (v : View) : Except Failure (List Path) :=
  q.globs.map fun globs => distinct (q.candidates v globs)

/-- The test programs of a query on a disk. -/
def Query.resolve (q : Query) (d : Disk) : Except Failure (List Path) := q.resolveIn (.ofDisk d)

theorem mem_insert {p q : Path} {found : List Path} (h : q ∈ insert p found) :
    q = p ∨ q ∈ found := by
  induction found with
  | nil => simpa [insert] using h
  | cons r rest ih =>
      rw [insert] at h
      split at h
      · simpa using h
      · exact Or.inr h
      · rcases List.mem_cons.1 h with rfl | h
        · simp
        · rcases ih h with h | h <;> simp [h]

theorem mem_of_mem_insert {p q : Path} {found : List Path} (h : q ∈ found) :
    q ∈ insert p found := by
  induction found with
  | nil => simp at h
  | cons r rest ih =>
      rw [insert]
      split
      · exact List.mem_cons_of_mem _ h
      · exact h
      · rcases List.mem_cons.1 h with rfl | h
        · simp
        · exact List.mem_cons_of_mem _ (ih h)

/-- After inserting, a path with the same parts is there. -/
theorem exists_parts_insert (p : Path) (found : List Path) :
    ∃ q ∈ insert p found, q.parts = p.parts := by
  induction found with
  | nil => exact ⟨p, by simp [insert], rfl⟩
  | cons r rest ih =>
      rw [insert]
      split
      · exact ⟨p, by simp, rfl⟩
      · next h => exact ⟨r, by simp, (Path.cmp_eq_iff.1 h).symm⟩
      · obtain ⟨q, hq, hp⟩ := ih
        exact ⟨q, List.mem_cons_of_mem _ hq, hp⟩

end Testbench.Corpus
