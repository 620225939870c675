/-
**Paths.**

A path is a text, and what it names is the list of its parts: the text is divided at slashes, and
empty pieces and inner dots do not count.  Two paths that differ in such spelling only are equal as
paths and stand at the same place of the order, but each keeps its own text.

Main definitions:

* `Testbench.Path`, `Testbench.Path.parts` — a path and its parts;
* `Testbench.Path.join` — a path taken relative to another;
* `Testbench.Path.fileName` — the last part, if it is a name;
* `Testbench.Path.cmp` — the order of paths, part by part.

Main results:

* `Testbench.Path.cmp_eq_iff` — paths compare as equal exactly when their parts are the same.
-/

import Testbench.Text.Search

set_option relaxedAutoImplicit false
set_option autoImplicit false

namespace Testbench

/-- A path, known by its text. -/
structure Path where
  text : String
deriving DecidableEq, Repr

/-- One step of a path. -/
inductive Part
  /-- The root of the tree. -/
  | root
  /-- The directory itself, written as a dot at the start. -/
  | here
  /-- The directory above. -/
  | up
  /-- An entry of a directory. -/
  | name (s : String)
deriving DecidableEq, Repr

namespace Part

/-- The place of a part among the kinds: the root comes first, then a dot, then two, then names. -/
def rank : Part → Nat
  | root => 0
  | here => 1
  | up => 2
  | name _ => 3

/-- The name of an entry; other parts have none. -/
def label : Part → String
  | name s => s
  | _ => ""

/-- The order of parts: by kind, and names among themselves character by character. -/
def cmp : Part → Part → Ordering := compareLex (compareOn rank) (compareOn label)

instance : Std.TransCmp cmp := inferInstanceAs (Std.TransCmp (compareLex _ _))

theorem cmp_eq_iff {a b : Part} : cmp a b = .eq ↔ a = b := by
  constructor
  · intro h
    simp only [cmp, compareLex_eq_eq, compareOn] at h
    have hr : a.rank = b.rank := Std.LawfulEqOrd.eq_of_compare h.1
    have hl : a.label = b.label := Std.LawfulEqOrd.eq_of_compare h.2
    cases a <;> cases b <;> simp_all [rank, label]
  · rintro rfl
    exact Std.ReflCmp.compare_self

instance : Std.LawfulEqCmp cmp where
  eq_of_compare := cmp_eq_iff.1

end Part

namespace Path

/-! ### Parts -/

/-- The part that a piece between slashes stands for; empty pieces and dots stand for none. -/
def partOf (piece : List Char) : Option Part :=
  if piece = [] then none
  else if piece = ['.'] then none
  else if piece = ['.', '.'] then some .up
  else some (.name (String.ofList piece))

/-- The text starts at the root. -/
def startsAtRoot (cs : List Char) : Bool := cs.head? = some '/'

/-- The part that only the start of a path can be: the root, or a dot. -/
def origin (cs : List Char) : List Part :=
  if startsAtRoot cs then [.root]
  else if (Text.pieces '/' cs).head? = some ['.'] then [.here]
  else []

/-- The parts of a path. -/
def parts (p : Path) : List Part :=
  origin p.text.toList ++ (Text.pieces '/' p.text.toList).filterMap partOf

/-- The path starts at the root, so that it means the same from every directory. -/
def isAbsolute (p : Path) : Bool := startsAtRoot p.text.toList

/-- The last part of the path, if it is the name of an entry. -/
def fileName (p : Path) : Option String :=
  match p.parts.getLast? with
  | some (.name s) => some s
  | _ => none

/-! ### Joining -/

/-- What stands between a directory and an entry: nothing if the text is empty or ends with a
slash. -/
def separator (cs : List Char) : List Char :=
  match cs.getLast? with
  | none | some '/' => []
  | some _ => ['/']

/-- The path `rest` taken from the directory `base`; an absolute one stands for itself. -/
def join (base : Path) (rest : String) : Path :=
  if startsAtRoot rest.toList then ⟨rest⟩
  else ⟨base.text ++ String.ofList (separator base.text.toList) ++ rest⟩

@[simp] theorem join_of_isAbsolute {base : Path} {rest : String} (h : (Path.mk rest).isAbsolute) :
    base.join rest = ⟨rest⟩ := by
  simp only [isAbsolute] at h
  simp [join, h]

/-- A name in a directory that is named from the root is named from the root. -/
theorem startsAtRoot_join {base : Path} (h : base.isAbsolute = true) (rest : String) :
    startsAtRoot (base.join rest).text.toList = true := by
  rw [join]
  split
  · assumption
  · rw [isAbsolute] at h
    rw [String.toList_append, String.toList_append, List.append_assoc]
    cases hbase : base.text.toList with
    | nil => rw [hbase] at h; cases h
    | cons c cs => rw [hbase] at h; exact h

/-! ### Order -/

/-- The order of lists of parts: the first difference decides, and a shorter list comes first. -/
def cmpParts : List Part → List Part → Ordering := List.compareLex Part.cmp

/-- The **order of paths**, part by part. -/
def cmp (p q : Path) : Ordering := cmpParts p.parts q.parts

theorem cmpParts_eq_iff {as bs : List Part} : cmpParts as bs = .eq ↔ as = bs := by
  induction as generalizing bs with
  | nil => cases bs <;> simp [cmpParts]
  | cons a as ih =>
      cases bs with
      | nil => simp [cmpParts]
      | cons b bs =>
          simp only [cmpParts, List.compareLex_cons_cons, List.cons.injEq] at ih ⊢
          cases h : Part.cmp a b with
          | lt | gt =>
              simp only [Ordering.then]
              have : a ≠ b := fun hab => by simp [Part.cmp_eq_iff.2 hab] at h
              simp [this]
          | eq => simp [Ordering.then, ih, Part.cmp_eq_iff.1 h]

/-- Paths compare as equal exactly when their parts are the same. -/
theorem cmp_eq_iff {p q : Path} : cmp p q = .eq ↔ p.parts = q.parts := cmpParts_eq_iff

instance : Std.TransCmp cmpParts := inferInstanceAs (Std.TransCmp (List.compareLex Part.cmp))

instance : Std.TransCmp cmp where
  eq_swap {p q} := @Std.OrientedCmp.eq_swap _ cmpParts _ p.parts q.parts
  isLE_trans {p q r} := @Std.TransCmp.isLE_trans _ cmpParts _ p.parts q.parts r.parts

end Path

end Testbench
