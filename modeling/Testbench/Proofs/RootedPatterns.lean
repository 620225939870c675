/-
**Patterns taken from a root.**

A pattern that does not start at the root of the tree is put behind the text of a directory, each
special character of which stands in a class of its own.  The text of the directory is then one half
of a longer pattern, and the two halves are read independently of each other: the first means its
own text, and the second means what it means alone.  If it means nothing, it is refused for the same
reason, at a place that is counted from the start of the longer pattern.

The two halves meet at a slash, or the first is empty.  This is all that the proofs need: a slash is
where a pattern is divided, and where `**` may stand.

Main definitions:

* `Testbench.Glob.Refusal.behind` — a refusal in a text with more in front of it;
* `Testbench.Glob.Token.exactly`, `Testbench.Glob.Component.exactly` — what an escaped character and
  an escaped name mean;
* `Testbench.Path.BeforeNames`, `Testbench.Path.opened` — texts that names can be put behind.

Main results:

* `Testbench.Glob.tokensFrom_behind` — where a pattern is read changes only the place of its fault;
* `Testbench.Glob.tokensFrom_escapeChars_append` — an escaped text means itself, whatever is behind;
* `Testbench.Glob.componentsOf_escapeChars_append` — the steps of a pattern behind an escaped text;
* `Testbench.Corpus.compile_qualify_eq_error_iff`, `Testbench.Corpus.compile_qualify_eq_ok` — **a
  pattern taken from a root**.
-/

import Mathlib.Data.List.Basic
import Testbench.Corpus.Resolve

set_option relaxedAutoImplicit false
set_option autoImplicit false

namespace Testbench

/-! ### Texts before names -/

namespace Path

/-- A text that names can be put behind: it is empty or ends with a slash. -/
def BeforeNames (cs : List Char) : Prop := cs = [] ∨ ∃ ds, cs = ds ++ ['/']

/-- The text of a directory with what stands between it and its entries. -/
def opened (cs : List Char) : List Char := cs ++ separator cs

theorem opened_concat_slash (cs : List Char) : opened (cs ++ ['/']) = cs ++ ['/'] := by
  simp [opened, separator]

theorem opened_concat_of_ne {c : Char} (h : c ≠ '/') (cs : List Char) :
    opened (cs ++ [c]) = cs ++ [c] ++ ['/'] := by
  simp [opened, separator]

theorem beforeNames_opened (cs : List Char) : BeforeNames (opened cs) := by
  rcases List.eq_nil_or_concat' cs with rfl | ⟨ds, c, rfl⟩
  · exact Or.inl rfl
  · by_cases hc : c = '/'
    · exact Or.inr ⟨ds, by rw [hc, opened_concat_slash]⟩
    · exact Or.inr ⟨ds ++ [c], opened_concat_of_ne hc ds⟩

/-- Names behind a text stand in pieces of their own. -/
theorem BeforeNames.pieces_append {cs : List Char} (h : BeforeNames cs) (xs : List Char) :
    Text.pieces '/' (cs ++ xs) = (Text.pieces '/' cs).dropLast ++ Text.pieces '/' xs := by
  rcases h with rfl | ⟨ds, rfl⟩
  · simp [Text.pieces]
  · rw [List.append_assoc, List.singleton_append, Text.pieces_append_cons,
      Text.pieces_append_cons]
    simp [Text.pieces]

theorem BeforeNames.getLast?_pieces {cs : List Char} (h : BeforeNames cs) :
    (Text.pieces '/' cs).getLast? = some [] := by
  rcases h with rfl | ⟨ds, rfl⟩
  · rfl
  · simp [Text.pieces_append_cons, Text.pieces]

theorem BeforeNames.of_cons {c : Char} {cs : List Char} (h : BeforeNames (c :: cs)) :
    BeforeNames cs := by
  rcases h with h | ⟨ds, h⟩
  · cases h
  · cases ds with
    | nil =>
        rw [List.nil_append, List.cons.injEq] at h
        exact Or.inl h.2
    | cons d ds =>
        rw [List.cons_append, List.cons.injEq] at h
        exact Or.inr ⟨ds, h.2⟩

end Path

namespace Glob

open Testbench.Path (BeforeNames)

/-! ### Reading behind another text -/

/-- The refusal of a text that stands behind some more characters. -/
def Refusal.behind (k : Nat) (r : Refusal) : Refusal := { r with position := k + r.position }

theorem mapError_map {α β ε ε' : Type} (f : α → β) (g : ε → ε') (x : Except ε α) :
    (x.map f).mapError g = (x.mapError g).map f := by
  cases x <;> rfl

/-- Two stars that are no component of their own, because of what is before them. -/
theorem tokensFrom_stars_stale (i : Nat) {cs : List Char} (h : ∀ tail, cs = '*' :: tail → False) :
    tokensFrom i false ('*' :: '*' :: cs) = .error ⟨i - 1, .deepInsideComponent⟩ := by
  cases cs with
  | nil => rw [tokensFrom, if_neg Bool.false_ne_true]
  | cons c cs =>
      by_cases hc : c = '/'
      · subst hc
        rw [tokensFrom, if_neg Bool.false_ne_true]
      · rw [tokensFrom, if_neg Bool.false_ne_true]
        · exact h
        · simp
        · simp [hc]

theorem tokensFrom_class_of_none (i : Nat) (fresh : Bool) {cs : List Char}
    (h : readClass cs = none) : tokensFrom i fresh ('[' :: cs) = .error ⟨i, .badClass⟩ := by
  rw [tokensFrom]
  split
  · rfl
  · simp_all

theorem tokensFrom_class_of_some (i : Nat) (fresh : Bool) {cs rest : List Char} {t : Token}
    (h : readClass cs = some (t, rest)) :
    tokensFrom i fresh ('[' :: cs) =
      (tokensFrom (i + 1 + (cs.length - rest.length)) false rest).map (t :: ·) := by
  rw [tokensFrom]
  split
  · simp_all
  · next hread =>
      rw [h] at hread
      cases hread
      rfl

/-- A character that starts nothing stands for itself. -/
theorem tokensFrom_plain (i : Nat) (fresh : Bool) {c : Char} (hone : c ≠ '?') (hmany : c ≠ '*')
    (hclass : c ≠ '[') (cs : List Char) :
    tokensFrom i fresh (c :: cs) = (tokensFrom (i + 1) (c = '/') cs).map (.char c :: ·) := by
  rw [tokensFrom]
  · exact hone
  · exact fun _ hc _ => hmany hc
  · exact fun _ hc _ => hmany hc
  · exact hmany
  · exact hclass

/-- **Where a pattern is read changes only the place of its fault.**  Of two stars the fault is
named one character back, so that there has to be one unless the stars may stand where they are. -/
theorem tokensFrom_behind (k i : Nat) (fresh : Bool) (cs : List Char) (h : fresh = true ∨ 0 < i) :
    tokensFrom (k + i) fresh cs = (tokensFrom i fresh cs).mapError (Refusal.behind k) := by
  fun_induction tokensFrom i fresh cs with
  | case1 i fresh => rw [tokensFrom]; rfl
  | case2 i fresh cs ih =>
      rw [tokensFrom, mapError_map, ← ih (Or.inr (by omega)), Nat.add_assoc]
  | case3 i fresh tail => rw [tokensFrom, Nat.add_assoc]; rfl
  | case4 i => rw [tokensFrom]; rfl
  | case5 i cs _ ih =>
      rw [tokensFrom, if_pos rfl, mapError_map, ← ih (Or.inl rfl), Nat.add_assoc]
  | case6 i cs hstar hnil hslash =>
      rw [tokensFrom.eq_6 _ _ _ hstar hnil hslash, if_pos rfl, Nat.add_assoc]; rfl
  | case7 i fresh cs hstar hfresh =>
      have hi : 0 < i := h.resolve_left hfresh
      rw [Bool.not_eq_true] at hfresh
      rw [hfresh, tokensFrom_stars_stale _ hstar, Nat.add_sub_assoc hi]; rfl
  | case8 i fresh cs hthree htwo ih =>
      rw [tokensFrom.eq_7 _ _ _ hthree htwo, mapError_map, ← ih (Or.inr (by omega)),
        Nat.add_assoc]
  | case9 i fresh cs hread => rw [tokensFrom_class_of_none _ _ hread]; rfl
  | case10 i fresh cs t rest hread _ ih =>
      rw [tokensFrom_class_of_some _ _ hread, mapError_map, ← ih (Or.inr (by omega)),
        Nat.add_assoc, Nat.add_assoc, Nat.add_assoc]
  | case11 i fresh c cs hone _ _ hmany hclass ih =>
      rw [tokensFrom_plain _ _ hone hmany hclass, mapError_map, ← ih (Or.inr (by omega)),
        Nat.add_assoc]

/-! ### Escaped text -/

/-- What an escaped character means: a special one is the only member of a class. -/
def Token.exactly (c : Char) : Token := if isSpecial c then .within [.single c] else .char c

@[simp] theorem escapeChars_nil : escapeChars [] = [] := rfl

theorem ne_slash_of_isSpecial {c : Char} (h : isSpecial c = true) : c ≠ '/' := by
  rintro rfl
  cases h

theorem escapeChars_cons_special {c : Char} (h : isSpecial c = true) (cs : List Char) :
    escapeChars (c :: cs) = '[' :: c :: ']' :: escapeChars cs := by
  simp [escapeChars, h]

theorem escapeChars_cons_plain {c : Char} (h : isSpecial c = false) (cs : List Char) :
    escapeChars (c :: cs) = c :: escapeChars cs := by
  simp [escapeChars, h]

theorem escapeChars_append (cs ds : List Char) :
    escapeChars (cs ++ ds) = escapeChars cs ++ escapeChars ds := by
  simp [escapeChars]

/-- A text without special characters is escaped as it is. -/
theorem escapeChars_eq_self {cs : List Char} (h : ∀ c ∈ cs, isSpecial c = false) :
    escapeChars cs = cs := by
  induction cs with
  | nil => rfl
  | cons c cs ih =>
      rw [escapeChars_cons_plain (h c List.mem_cons_self),
        ih fun d hd => h d (List.mem_cons_of_mem c hd)]

theorem escapeChars_eq_nil_iff {cs : List Char} : escapeChars cs = [] ↔ cs = [] := by
  cases cs with
  | nil => simp
  | cons c cs =>
      cases h : isSpecial c with
      | true => simp [escapeChars_cons_special h]
      | false => simp [escapeChars_cons_plain h]

theorem readClass_special {c : Char} (h : isSpecial c = true) (cs : List Char) :
    readClass (c :: ']' :: cs) = some (.within [.single c], cs) := by
  have hbang : c ≠ '!' := by
    rintro rfl
    cases h
  rw [readClass]
  · simp [classBody, untilBracket, members]
  · simpa using hbang

/-- The next character starts a component if the last one was a slash. -/
def freshAfter : Bool → List Char → Bool
  | fresh, [] => fresh
  | _, c :: cs => freshAfter (c = '/') cs

theorem freshAfter_of_beforeNames {cs : List Char} (h : BeforeNames cs) :
    freshAfter true cs = true := by
  have hslash : ∀ ds fresh, freshAfter fresh (ds ++ ['/']) = true := by
    intro ds
    induction ds with
    | nil => intro fresh; rfl
    | cons d ds ih => intro fresh; exact ih _
  rcases h with rfl | ⟨ds, rfl⟩
  · rfl
  · exact hslash ds true

/-- **An escaped text means itself, whatever is behind it.** -/
theorem tokensFrom_escapeChars_append (i : Nat) (fresh : Bool) (cs xs : List Char) :
    tokensFrom i fresh (escapeChars cs ++ xs) =
      (tokensFrom (i + (escapeChars cs).length) (freshAfter fresh cs) xs).map
        (cs.map Token.exactly ++ ·) := by
  have hmap : ∀ (t : Token) (ts : List Token) (x : Except Refusal (List Token)),
      (x.map (ts ++ ·)).map (t :: ·) = x.map (t :: ts ++ ·) := by
    intro t ts x
    cases x <;> rfl
  induction cs generalizing i fresh with
  | nil =>
      rw [escapeChars_nil, List.nil_append, List.length_nil, Nat.add_zero, freshAfter]
      cases tokensFrom i fresh xs <;> rfl
  | cons c cs ih =>
      cases hc : isSpecial c with
      | true =>
          have hslash : decide (c = '/') = false :=
            decide_eq_false_iff_not.2 (ne_slash_of_isSpecial hc)
          have hread := readClass_special hc (escapeChars cs ++ xs)
          rw [escapeChars_cons_special hc, List.cons_append, List.cons_append, List.cons_append,
            tokensFrom_class_of_some _ _ hread, ih, hmap, List.map_cons, Token.exactly, if_pos hc,
            freshAfter, hslash]
          simp only [List.length_cons]
          congr 2
          omega
      | false =>
          have hplain : c ≠ '?' ∧ c ≠ '*' ∧ c ≠ '[' := by
            simp only [isSpecial, Bool.or_eq_false_iff, decide_eq_false_iff_not] at hc
            exact ⟨hc.1.1.1, hc.1.1.2, hc.1.2⟩
          rw [escapeChars_cons_plain hc, List.cons_append,
            tokensFrom_plain _ _ hplain.1 hplain.2.1 hplain.2.2, ih, hmap, List.map_cons,
            Token.exactly, hc, freshAfter, List.length_cons]
          congr 2
          omega

theorem tokens_escapeChars (cs : List Char) :
    tokens (escapeChars cs) = .ok (cs.map Token.exactly) := by
  have h := tokensFrom_escapeChars_append 0 true cs []
  rw [List.append_nil, tokensFrom] at h
  rw [tokens, h]
  simp [Except.map]

/-- A pattern behind an escaped directory is read as it is alone. -/
theorem tokens_escapeChars_append {cs : List Char} (h : BeforeNames cs) (xs : List Char) :
    tokens (escapeChars cs ++ xs) =
      ((tokens xs).mapError (Refusal.behind (escapeChars cs).length)).map
        (cs.map Token.exactly ++ ·) := by
  rw [tokens, tokensFrom_escapeChars_append, freshAfter_of_beforeNames h, Nat.add_comm,
    tokensFrom_behind _ _ _ _ (Or.inl rfl), tokens]

/-! ### Components -/

/-- The step that an escaped name means. -/
def Component.exactly (name : List Char) : Component := .ofTokens (name.map Token.exactly)

/-- The steps that the pieces of a pattern mean. -/
def componentsOf (cs : List Char) : Except Refusal (List Component) :=
  (componentTexts cs).mapM fun piece => (tokens piece).map Component.ofTokens

/-- A pattern without the slash that it starts with. -/
def relativePart (cs : List Char) : List Char := if Path.startsAtRoot cs then cs.drop 1 else cs

theorem componentTexts_of_beforeNames {cs : List Char} (h : BeforeNames cs) :
    componentTexts cs = (Text.pieces '/' cs).dropLast := by
  rw [componentTexts, if_pos h.getLast?_pieces]

theorem componentTexts_append {cs : List Char} (h : BeforeNames cs) (xs : List Char) :
    componentTexts (cs ++ xs) = componentTexts cs ++ componentTexts xs := by
  have hne := Text.pieces_ne_nil '/' xs
  rw [componentTexts_of_beforeNames h, componentTexts, componentTexts, h.pieces_append]
  simp only [List.getLast?_append_of_ne_nil _ hne, List.dropLast_append_of_ne_nil hne]
  split <;> rfl

theorem pieces_escapeChars (cs : List Char) :
    Text.pieces '/' (escapeChars cs) = (Text.pieces '/' cs).map escapeChars := by
  induction cs with
  | nil => rfl
  | cons c cs ih =>
      obtain ⟨p, ps, hps⟩ := List.exists_cons_of_ne_nil (Text.pieces_ne_nil '/' cs)
      rw [hps, List.map_cons] at ih
      cases hc : isSpecial c with
      | true =>
          have hslash := ne_slash_of_isSpecial hc
          rw [escapeChars_cons_special hc]
          simp [Text.pieces, hslash, ih, hps, Text.inFront, escapeChars_cons_special hc]
      | false =>
          rw [escapeChars_cons_plain hc]
          by_cases hslash : c = '/'
          · simp [Text.pieces, hslash, ih, hps]
          · simp [Text.pieces, hslash, ih, hps, Text.inFront, escapeChars_cons_plain hc]

theorem componentTexts_escapeChars (cs : List Char) :
    componentTexts (escapeChars cs) = (componentTexts cs).map escapeChars := by
  have hlast : (Text.pieces '/' (escapeChars cs)).getLast? = some [] ↔
      (Text.pieces '/' cs).getLast? = some [] := by
    rw [pieces_escapeChars, List.getLast?_map]
    cases (Text.pieces '/' cs).getLast? with
    | none => simp
    | some p => simp [escapeChars_eq_nil_iff]
  rw [componentTexts, componentTexts]
  simp only [hlast]
  split
  · rw [pieces_escapeChars, List.map_dropLast]
  · exact pieces_escapeChars cs

theorem componentsOf_escapeChars (cs : List Char) :
    componentsOf (escapeChars cs) = .ok ((componentTexts cs).map Component.exactly) := by
  rw [componentsOf, componentTexts_escapeChars]
  induction componentTexts cs with
  | nil => rfl
  | cons p ps ih =>
      rw [List.map_cons, List.mapM_cons, ih, tokens_escapeChars]
      rfl

theorem beforeNames_escapeChars {cs : List Char} (h : BeforeNames cs) :
    BeforeNames (escapeChars cs) := by
  rcases h with rfl | ⟨ds, rfl⟩
  · exact Or.inl rfl
  · exact Or.inr ⟨escapeChars ds, escapeChars_append ds ['/']⟩

/-- **The steps of a pattern behind an escaped directory** are those of the directory, and then its
own. -/
theorem componentsOf_escapeChars_append {cs : List Char} (h : BeforeNames cs) (xs : List Char) :
    componentsOf (escapeChars cs ++ xs) =
      (componentsOf xs).map ((componentTexts cs).map Component.exactly ++ ·) := by
  have hcs := componentsOf_escapeChars cs
  rw [componentsOf] at hcs ⊢
  rw [componentTexts_append (beforeNames_escapeChars h), List.mapM_append, hcs, componentsOf]
  rfl

theorem beforeNames_relativePart {cs : List Char} (h : BeforeNames cs) :
    BeforeNames (relativePart cs) := by
  rw [relativePart]
  split
  · cases cs with
    | nil => exact h
    | cons c cs => exact h.of_cons
  · exact h

theorem startsAtRoot_escapeChars_append {cs xs : List Char}
    (h : Path.startsAtRoot xs = false) :
    Path.startsAtRoot (escapeChars cs ++ xs) = Path.startsAtRoot cs := by
  cases cs with
  | nil => exact h
  | cons c cs =>
      cases hc : isSpecial c with
      | true =>
          have hslash := ne_slash_of_isSpecial hc
          simp [escapeChars_cons_special hc, Path.startsAtRoot, hslash]
      | false => simp [escapeChars_cons_plain hc, Path.startsAtRoot]

theorem relativePart_escapeChars_append {cs xs : List Char}
    (h : Path.startsAtRoot xs = false) :
    relativePart (escapeChars cs ++ xs) = escapeChars (relativePart cs) ++ xs := by
  rw [relativePart, relativePart, startsAtRoot_escapeChars_append h]
  split
  · next hroot =>
      cases cs with
      | nil => cases hroot
      | cons c cs =>
          obtain rfl : c = '/' := by simpa [Path.startsAtRoot] using hroot
          rfl
  · rfl

/-! ### Escaped names -/

/-- An escaped name fits itself alone. -/
theorem matchesChars_exactly (name cs : List Char) :
    matchesChars (name.map Token.exactly) cs = true ↔ cs = name := by
  induction name generalizing cs with
  | nil => cases cs <;> simp [matchesChars]
  | cons c name ih =>
      have hfits : (Token.exactly c).repeats = false ∧
          ∀ d, (Token.exactly c).fits d = true ↔ c = d := by
        rw [Token.exactly]
        split <;> simp [Token.repeats, Token.fits, Member.covers]
      rw [List.map_cons, matchesChars_cons hfits.1]
      constructor
      · rintro ⟨d, rest, rfl, hd, hrest⟩
        rw [(hfits.2 d).1 hd, (ih rest).1 hrest]
      · rintro rfl
        exact ⟨c, name, rfl, (hfits.2 c).2 rfl, (ih name).2 rfl⟩

theorem literal?_exactly_of_plain {name : List Char} (h : ∀ c ∈ name, isSpecial c = false) :
    literal? (name.map Token.exactly) = some name := by
  induction name with
  | nil => rfl
  | cons c name ih =>
      obtain ⟨hc, hname⟩ := List.forall_mem_cons.1 h
      rw [List.map_cons, Token.exactly, hc]
      simp [literal?, ih hname]

theorem literal?_exactly_of_special {name : List Char} (h : ¬∀ c ∈ name, isSpecial c = false) :
    literal? (name.map Token.exactly) = none := by
  induction name with
  | nil => simp at h
  | cons c name ih =>
      rw [List.map_cons, Token.exactly]
      cases hc : isSpecial c with
      | true => rfl
      | false =>
          rw [List.forall_mem_cons, not_and] at h
          simp [literal?, ih (h hc)]

/-- An escaped name without special characters is the name of an entry. -/
theorem Component.exactly_of_plain {name : List Char} (h : ∀ c ∈ name, isSpecial c = false) :
    Component.exactly name = .named (String.ofList name) := by
  rw [Component.exactly, Component.ofTokens, literal?_exactly_of_plain h]

/-- An escaped name with special characters is sought among the entries. -/
theorem Component.exactly_of_special {name : List Char} (h : ¬∀ c ∈ name, isSpecial c = false) :
    Component.exactly name = .fitting (name.map Token.exactly) := by
  have hdeep : name.map Token.exactly ≠ [.deep] := by
    intro heq
    obtain ⟨c, -, hc⟩ := List.mem_map.1 (heq ▸ List.mem_singleton_self Token.deep)
    rw [Token.exactly] at hc
    split at hc <;> cases hc
  rw [Component.exactly, Component.ofTokens, literal?_exactly_of_special h]
  exact if_neg hdeep

theorem Component.exactly_ne_deep (name : List Char) : Component.exactly name ≠ .deep := by
  by_cases h : ∀ c ∈ name, isSpecial c = false
  · rw [exactly_of_plain h]
    rintro ⟨⟩
  · rw [exactly_of_special h]
    rintro ⟨⟩

theorem mergeDeep_exactly_append (names : List (List Char)) (steps : List Component) :
    mergeDeep (names.map Component.exactly ++ steps) =
      names.map Component.exactly ++ mergeDeep steps := by
  induction names with
  | nil => rfl
  | cons name names ih =>
      rw [List.map_cons, List.cons_append, mergeDeep, ih]
      · rfl
      · exact fun _ hdeep => absurd hdeep (Component.exactly_ne_deep name)

/-! ### Whole patterns -/

/-- The steps of a pattern that is nothing but its root are one step without a name. -/
def orNameless (relative : List Char) (components : List Component) : List Component :=
  if relative.isEmpty then components ++ [.named ""] else components

theorem compile_eq (pattern : String) :
    compile pattern = (tokens pattern.toList).bind fun _ =>
      (componentsOf (relativePart pattern.toList)).map fun components =>
        { absolute := Path.startsAtRoot pattern.toList
          components := mergeDeep (orNameless (relativePart pattern.toList) components)
          directoriesOnly := pattern.toList.getLast? = some '/' } := by
  rfl

/-- A pattern is refused as a whole, or because of one of its pieces. -/
theorem compile_eq_error_iff {pattern : String} {r : Refusal} :
    compile pattern = .error r ↔ tokens pattern.toList = .error r ∨
      (∃ ts, tokens pattern.toList = .ok ts) ∧
        componentsOf (relativePart pattern.toList) = .error r := by
  rw [compile_eq]
  cases tokens pattern.toList with
  | error r' => simp [Except.bind]
  | ok ts => cases componentsOf (relativePart pattern.toList) <;> simp [Except.bind, Except.map]

end Glob

namespace Corpus

open Glob Testbench.Path

variable {root : Path} {text : String}

theorem qualify_of_isAbsolute (h : (Path.mk text).isAbsolute = true) :
    qualify root text = text := by
  rw [qualify, join_of_isAbsolute h]

theorem separator_escapeChars (cs : List Char) : separator (escapeChars cs) = separator cs := by
  rcases List.eq_nil_or_concat cs with rfl | ⟨ds, c, rfl⟩
  · rfl
  · rw [List.concat_eq_append, escapeChars_append]
    cases hc : isSpecial c with
    | true =>
        have hslash := ne_slash_of_isSpecial hc
        simp [separator, escapeChars_cons_special hc]
    | false => simp [separator, escapeChars_cons_plain hc]

/-- A pattern that is taken from a root stands behind the escaped text of the root. -/
theorem toList_qualify (h : (Path.mk text).isAbsolute = false) :
    (qualify root text).toList = escapeChars (opened root.text.toList) ++ text.toList := by
  rw [isAbsolute] at h
  have hslash : escapeChars (separator root.text.toList) = separator root.text.toList := by
    refine escapeChars_eq_self fun c hc => ?_
    rw [separator] at hc
    split at hc
    · cases hc
    · cases hc
    · rw [List.mem_singleton.1 hc]
      rfl
  simp [qualify, join, h, escape, opened, escapeChars_append, separator_escapeChars, hslash]

/-- The steps from the root of the tree, or from the working directory, to a root of patterns. -/
def rootSteps (root : Path) : List Component :=
  (componentTexts (relativePart (opened root.text.toList))).map Component.exactly

/-- The characters in front of a pattern that is taken from a root. -/
def lengthBefore (root : Path) : Nat := (escapeChars (opened root.text.toList)).length

theorem relativePart_qualify (h : (Path.mk text).isAbsolute = false) :
    relativePart (qualify root text).toList =
      escapeChars (relativePart (opened root.text.toList)) ++ text.toList := by
  rw [toList_qualify h, relativePart_escapeChars_append h]

theorem tokens_qualify (h : (Path.mk text).isAbsolute = false) :
    tokens (qualify root text).toList =
      ((tokens text.toList).mapError (Refusal.behind (lengthBefore root))).map
        ((opened root.text.toList).map Token.exactly ++ ·) := by
  rw [toList_qualify h, tokens_escapeChars_append (beforeNames_opened _), lengthBefore]

theorem componentsOf_qualify (h : (Path.mk text).isAbsolute = false) :
    componentsOf (relativePart (qualify root text).toList) =
      (componentsOf text.toList).map (rootSteps root ++ ·) := by
  rw [relativePart_qualify h, rootSteps,
    componentsOf_escapeChars_append (beforeNames_relativePart (beforeNames_opened _))]

theorem relativePart_of_not_isAbsolute (h : (Path.mk text).isAbsolute = false) :
    relativePart text.toList = text.toList := by
  rw [isAbsolute] at h
  rw [relativePart, h]
  rfl

/-- **A pattern that is taken from a root is refused exactly if it is refused alone**, and for the
same reason; the place of the fault is counted from the start of the root if the pattern is refused
as a whole, and from the start of a piece if it is refused for that piece. -/
theorem compile_qualify_eq_error_iff {r : Refusal} (h : (Path.mk text).isAbsolute = false) :
    Glob.compile (qualify root text) = .error r ↔
      (∃ r', tokens text.toList = .error r' ∧ r = r'.behind (lengthBefore root)) ∨
        (∃ ts, tokens text.toList = .ok ts) ∧ componentsOf text.toList = .error r := by
  rw [compile_eq_error_iff, tokens_qualify h, componentsOf_qualify h]
  cases tokens text.toList with
  | error r' => simp [Except.map, Except.mapError, eq_comm]
  | ok ts => cases componentsOf text.toList <;> simp [Except.map, Except.mapError]

/-- The steps of a pattern that is taken from a root begin with those to the root. -/
theorem compile_qualify_eq_ok {g : Glob} (h : (Path.mk text).isAbsolute = false)
    (hg : Glob.compile (qualify root text) = .ok g) :
    g.absolute = startsAtRoot (opened root.text.toList) ∧
      ∃ steps, g.components = rootSteps root ++ steps := by
  rw [compile_eq, componentsOf_qualify h, tokens_qualify h, toList_qualify h,
    startsAtRoot_escapeChars_append h] at hg
  cases ht : tokens text.toList with
  | error r => rw [ht] at hg; cases hg
  | ok ts =>
      cases hc : componentsOf text.toList with
      | error r => rw [ht, hc] at hg; cases hg
      | ok components =>
          rw [ht, hc] at hg
          cases hg
          refine ⟨rfl, ?_⟩
          simp only [orNameless, rootSteps]
          split
          · exact ⟨_, by rw [List.append_assoc, mergeDeep_exactly_append]⟩
          · exact ⟨_, mergeDeep_exactly_append _ _⟩

end Corpus

end Testbench
