/-
**What a brace pattern means.**

The expansion of a pattern works on plain text: it puts an alternative in the place of the first
group and reads the whole text again.  A pattern that is written by the rules has a structure, and
its meaning can be said along that structure, without any rescanning.  Here the two are shown to be
the same, also when the pattern is followed by a text that is not written by the rules.

The proof never compares whole texts.  A group that is read comes apart into the texts of its
alternatives, whatever stands behind it, and a character that opens no group is passed over; the
rest is induction on the pattern.

Main definitions:

* `Testbench.Braces.Pat`, `Testbench.Braces.Alts` — patterns written by the rules, and the
  alternatives of a group;
* `Testbench.Braces.Pat.chars` — a pattern written out;
* `Testbench.Braces.Pat.denote` — the texts that a pattern means.

Main results:

* `Testbench.Braces.alternatives_alts_chars` — a group is read as its alternatives;
* `Testbench.Braces.expand_cons` — a character that opens no group is kept by every expansion;
* `Testbench.Braces.expandText_text` — **the expansion of a pattern is its meaning**.
-/

import Mathlib.Data.List.Basic
import Testbench.Pattern.Braces

set_option relaxedAutoImplicit false
set_option autoImplicit false

namespace Testbench.Braces

/-! ### Patterns -/

/-- Where a character stands: outside every group, or in an alternative of one. -/
inductive Place
  | outside
  | inside
deriving DecidableEq, Repr

/-- The characters that stand for themselves: outside a group all but an opening brace, inside one
all but braces and commas. -/
def Place.allows : Place → Char → Bool
  | .outside, c => c ≠ '{'
  | .inside, c => c ≠ '{' && c ≠ '}' && c ≠ ','

theorem Place.ne_open {l : Place} {c : Char} (h : l.allows c) : c ≠ '{' := by
  cases l <;> simp_all [Place.allows]

mutual

/-- A **pattern written by the rules**: characters that stand for themselves, and groups. -/
inductive Pat : Place → Type
  | nil {l : Place} : Pat l
  | char {l : Place} (c : Char) (h : l.allows c) (rest : Pat l) : Pat l
  | group {l : Place} (alts : Alts) (rest : Pat l) : Pat l

/-- The alternatives of a group, of which there is at least one. -/
inductive Alts : Type
  | last (p : Pat .inside) : Alts
  | cons (p : Pat .inside) (alts : Alts) : Alts

end

mutual

/-- A pattern written out. -/
def Pat.chars {l : Place} : Pat l → List Char
  | .nil => []
  | .char c _ rest => c :: rest.chars
  | .group alts rest => '{' :: (alts.chars ++ '}' :: rest.chars)

/-- The inside of a group written out, with commas between the alternatives. -/
def Alts.chars : Alts → List Char
  | .last p => p.chars
  | .cons p alts => p.chars ++ ',' :: alts.chars

end

/-- The alternatives of a group, each written out. -/
def Alts.texts : Alts → List (List Char)
  | .last p => [p.chars]
  | .cons p alts => p.chars :: alts.texts

/-! ### Meaning -/

/-- A text of the first list followed by one of the second, the first varying slowest. -/
def product (xs ys : List (List Char)) : List (List Char) := xs.flatMap fun x => ys.map (x ++ ·)

mutual

/-- The **texts that a pattern means**: a character means itself, a group what its alternatives
mean, and a sequence one text of each of its members. -/
def Pat.denote {l : Place} : Pat l → List (List Char)
  | .nil => [[]]
  | .char c _ rest => product [[c]] rest.denote
  | .group alts rest => product alts.denote rest.denote

/-- What the alternatives mean, one after the other. -/
def Alts.denote : Alts → List (List Char)
  | .last p => p.denote
  | .cons p alts => p.denote ++ alts.denote

end

/-- A pattern as a text. -/
def Pat.text (p : Pat .outside) : String := String.ofList p.chars

/-- The texts that a pattern means. -/
def Pat.meanings (p : Pat .outside) : List String := p.denote.map String.ofList

@[simp] theorem product_nil_left (ys : List (List Char)) : product [] ys = [] := rfl

@[simp] theorem product_one_left (ys : List (List Char)) : product [[]] ys = ys := by
  simp [product]

@[simp] theorem product_one_right (xs : List (List Char)) : product xs [[]] = xs := by
  simp [product]

theorem product_append (xs xs' ys : List (List Char)) :
    product (xs ++ xs') ys = product xs ys ++ product xs' ys := by
  simp [product]

theorem product_singleton (x : List Char) (ys : List (List Char)) :
    product [x] ys = ys.map (x ++ ·) := by simp [product]

theorem product_singleton_right (xs : List (List Char)) (y : List Char) :
    product xs [y] = xs.map (· ++ y) := by
  rw [product, List.map_eq_flatMap]
  rfl

theorem product_assoc (xs ys zs : List (List Char)) :
    product (product xs ys) zs = product xs (product ys zs) := by
  induction xs with
  | nil => rfl
  | cons x xs ih =>
      have hx : product (product [x] ys) zs = product [x] (product ys zs) := by
        simp [product, List.flatMap_map, List.map_flatMap, List.append_assoc, Function.comp_def]
      rw [← List.singleton_append, product_append, product_append, product_append, ih, hx]

/-! ### Reading a group -/

/-- Puts a text in front of the first alternative. -/
def inFrontAll (cs : List Char) (alts : List (List Char)) : List (List Char) :=
  cs.foldr Text.inFront alts

@[simp] theorem inFrontAll_nil (alts : List (List Char)) : inFrontAll [] alts = alts := rfl

@[simp] theorem inFrontAll_cons (c : Char) (cs : List Char) (alts : List (List Char)) :
    inFrontAll (c :: cs) alts = Text.inFront c (inFrontAll cs alts) := rfl

theorem inFrontAll_append (cs ds : List Char) (alts : List (List Char)) :
    inFrontAll (cs ++ ds) alts = inFrontAll cs (inFrontAll ds alts) :=
  List.foldr_append ..

/-- A text in front of the first alternative stands before all of it. -/
theorem inFrontAll_of_cons (cs alt : List Char) (alts : List (List Char)) :
    inFrontAll cs (alt :: alts) = (cs ++ alt) :: alts := by
  induction cs with
  | nil => rfl
  | cons c cs ih => rw [inFrontAll_cons, ih]; rfl

/-- What reading the inside of a group makes of a text that holds no comma and no end of it. -/
def prepend (cs : List Char) (found : List (List Char) × List Char) :
    List (List Char) × List Char :=
  (inFrontAll cs found.1, found.2)

theorem alternatives_open (depth : Nat) (cs : List Char) :
    alternatives depth ('{' :: cs) = (alternatives (depth + 1) cs).map (prepend ['{']) := by
  rw [alternatives, if_pos rfl]; rfl

theorem alternatives_close (depth : Nat) (cs : List Char) :
    alternatives (depth + 1) ('}' :: cs) = (alternatives depth cs).map (prepend ['}']) := by
  rw [alternatives, if_neg (by decide), if_pos rfl, if_neg (by omega)]; rfl

theorem alternatives_comma_deep (depth : Nat) (cs : List Char) :
    alternatives (depth + 1) (',' :: cs) =
      (alternatives (depth + 1) cs).map (prepend [',']) := by
  rw [alternatives, if_neg (by decide), if_neg (by decide), if_neg (by omega)]; rfl

theorem alternatives_plain (depth : Nat) {c : Char} (h : Place.inside.allows c) (cs : List Char) :
    alternatives depth (c :: cs) = (alternatives depth cs).map (prepend [c]) := by
  simp only [Place.allows, ne_eq, Bool.and_eq_true, decide_eq_true_eq] at h
  rw [alternatives, if_neg h.1.1, if_neg h.1.2, if_neg (fun hc => h.2 hc.1)]; rfl

theorem map_prepend_prepend (cs ds : List Char) (found : Option (List (List Char) × List Char)) :
    (found.map (prepend ds)).map (prepend cs) = found.map (prepend (cs ++ ds)) := by
  cases found with
  | none => rfl
  | some found => simp [prepend, inFrontAll_append]

mutual

/-- A pattern inside a group is passed over at every depth. -/
theorem alternatives_pat_chars (p : Pat .inside) (depth : Nat) (cs : List Char) :
    alternatives depth (p.chars ++ cs) = (alternatives depth cs).map (prepend p.chars) := by
  match p with
  | .nil => cases h : alternatives depth cs <;> simp [Pat.chars, prepend, h]
  | .char c h rest =>
      rw [Pat.chars, List.cons_append, alternatives_plain depth h,
        alternatives_pat_chars rest depth cs, map_prepend_prepend]
      rfl
  | .group alts rest =>
      rw [Pat.chars, List.cons_append, List.append_assoc, List.cons_append, alternatives_open,
        alternatives_nested_chars alts depth, alternatives_pat_chars rest depth cs,
        map_prepend_prepend, map_prepend_prepend]
      simp

/-- The inside of a group that stands in a group is passed over with its closing brace: its commas
divide nothing there. -/
theorem alternatives_nested_chars (alts : Alts) (depth : Nat) (cs : List Char) :
    alternatives (depth + 1) (alts.chars ++ '}' :: cs) =
      (alternatives depth cs).map (prepend (alts.chars ++ ['}'])) := by
  match alts with
  | .last p =>
      rw [Alts.chars, alternatives_pat_chars p, alternatives_close, map_prepend_prepend]
  | .cons p alts =>
      rw [Alts.chars, List.append_assoc, List.cons_append, alternatives_pat_chars p,
        alternatives_comma_deep, alternatives_nested_chars alts depth cs, map_prepend_prepend,
        map_prepend_prepend]
      simp

end

/-- **A group is read as its alternatives**, whatever stands behind it. -/
theorem alternatives_alts_chars (alts : Alts) (cs : List Char) :
    alternatives 0 (alts.chars ++ '}' :: cs) = some (alts.texts, cs) := by
  match alts with
  | .last p =>
      have hclose : alternatives 0 ('}' :: cs) = some ([[]], cs) := by simp [alternatives]
      rw [Alts.chars, alternatives_pat_chars p, hclose]
      simp [prepend, inFrontAll_of_cons, Alts.texts]
  | .cons p alts =>
      have hcomma : alternatives 0 (',' :: (alts.chars ++ '}' :: cs)) =
          some ([] :: alts.texts, cs) := by
        rw [alternatives, if_neg (by decide), if_neg (by decide), if_pos ⟨rfl, rfl⟩,
          alternatives_alts_chars alts cs]
        rfl
      rw [Alts.chars, List.append_assoc, List.cons_append, alternatives_pat_chars p, hcomma]
      simp [prepend, inFrontAll_of_cons, Alts.texts]

/-! ### Expanding -/

/-- The first group of a pattern behind one more character. -/
def Group.behind (c : Char) (g : Group) : Group := { g with before := c :: g.before }

theorem firstGroup?_cons {c : Char} (h : c ≠ '{') (cs : List Char) :
    firstGroup? (c :: cs) = (firstGroup? cs).map (Group.behind c) := by
  rw [firstGroup?, if_neg h]; rfl

theorem firstGroup?_group (alts : Alts) (cs : List Char) :
    firstGroup? ('{' :: (alts.chars ++ '}' :: cs)) = some ⟨[], alts.texts, cs⟩ := by
  rw [firstGroup?, if_pos rfl, alternatives_alts_chars]; rfl

/-- **A character that opens no group is kept by every expansion.** -/
theorem expand_cons {c : Char} (h : c ≠ '{') (cs : List Char) :
    expand (c :: cs) = (expand cs).map (c :: ·) := by
  induction cs using expand_induction with
  | alone cs hg =>
      have hcons : firstGroup? (c :: cs) = none := by rw [firstGroup?_cons h, hg]; rfl
      rw [expand_of_none hcons, expand_of_none hg]; rfl
  | group cs g hg ih =>
      have hcons : firstGroup? (c :: cs) = some (g.behind c) := by
        rw [firstGroup?_cons h, hg]; rfl
      rw [expand_of_some hcons, expand_of_some hg, List.map_flatMap]
      exact List.flatMap_congr ih

/-- A group at the start of a text is replaced by its alternatives. -/
theorem expand_group (alts : Alts) (cs : List Char) :
    expand ('{' :: (alts.chars ++ '}' :: cs)) =
      alts.texts.flatMap fun alt => expand (alt ++ cs) :=
  expand_of_some (firstGroup?_group alts cs)

mutual

/-- A pattern and a text behind it expand independently of each other. -/
theorem expand_chars_append {l : Place} (p : Pat l) (cs : List Char) :
    expand (p.chars ++ cs) = product p.denote (expand cs) := by
  match p with
  | .nil => simp [Pat.chars, Pat.denote]
  | .char c h rest =>
      rw [Pat.chars, List.cons_append, expand_cons (Place.ne_open h), expand_chars_append rest cs,
        Pat.denote, product_assoc, product_singleton]
      rfl
  | .group alts rest =>
      rw [Pat.chars, List.cons_append, List.append_assoc, List.cons_append, expand_group,
        expand_texts_append alts, expand_chars_append rest cs, Pat.denote, product_assoc]

/-- The alternatives of a group expand one after the other. -/
theorem expand_texts_append (alts : Alts) (cs : List Char) :
    (alts.texts.flatMap fun alt => expand (alt ++ cs)) = product alts.denote (expand cs) := by
  match alts with
  | .last p => simp [Alts.texts, Alts.denote, expand_chars_append p cs]
  | .cons p alts =>
      rw [Alts.texts, List.flatMap_cons, expand_chars_append p cs, expand_texts_append alts cs,
        Alts.denote, product_append]

end

/-- The expansion of nothing is nothing, once. -/
theorem expand_nil : expand [] = [[]] := expand_of_none rfl

theorem expandText_ofList (cs : List Char) :
    expandText (String.ofList cs) = (expand cs).map String.ofList := by
  rw [expandText, String.toList_ofList]

/-- **The expansion of a pattern is its meaning**, in order and with multiplicity; and a pattern
with any text behind it, written by the rules or not, expands to every text that the pattern means
followed by every expansion of the text, the former varying slowest. -/
theorem expandText_text (p : Pat .outside) :
    expandText p.text = p.meanings ∧
      ∀ q : String, expandText (p.text ++ q) =
        p.meanings.flatMap fun x => (expandText q).map (x ++ ·) := by
  constructor
  · have h := expand_chars_append p []
    rw [List.append_nil, expand_nil, product_one_right] at h
    rw [Pat.text, expandText_ofList, h, Pat.meanings]
  · intro q
    have hq : p.text ++ q = String.ofList (p.chars ++ q.toList) := by
      rw [Pat.text, String.ofList_append, String.ofList_toList]
    rw [hq, expandText_ofList, expand_chars_append]
    simp [product, expandText, Pat.meanings, List.map_flatMap, List.flatMap_map,
      Function.comp_def, String.ofList_append]

/-- A group with an empty alternative. -/
def optionalSuffix : Pat .outside :=
  .char 'x' rfl (.group (.cons .nil (.last (.char 'b' rfl .nil))) .nil)

example : optionalSuffix.text = "x{,b}" ∧ optionalSuffix.meanings = ["x", "xb"] := by decide

end Testbench.Braces
