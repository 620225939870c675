/-
**Roots that are taken literally.**

The text of a root may be full of characters that mean something in a pattern.  It is escaped before
a pattern is put behind it, and its characters then come back in two ways: a name without special
characters is the name of an entry again, and a name with special characters is a shape that nothing
but the name itself fits, so that the entry is found among those of its directory.  A lookup along
the escaped names of a root therefore goes on at the root, and nowhere else.

Two things about it are not as literal as they seem.  What a pattern stands for may name its files
in full although the pattern does not, as `{/a,b}` does; the root plays no part in it.  And the path
that is found is joined from names, so that where the root has a row of slashes the path has one;
the exclusions look at the path that is found.

Main definitions:

* `Testbench.Glob.Component.StaysBelow` — a step that does not lead back to the root of the tree;
* `Testbench.Corpus.IsPlain` — a text that means nothing but itself.

Main results:

* `Testbench.Glob.under_of_mem_lookup` — a lookup finds paths below where it is started;
* `Testbench.Glob.mem_lookup_of_exactly_append`, `Testbench.Glob.mem_lookup_exactly` — a lookup
  along escaped names;
* `Testbench.Glob.compile_escape` — the pattern that stands for a path taken literally;
* `Testbench.Corpus.resolve_below_root` — **roots are taken literally**.
-/

import Mathlib.Data.List.Basic
import Testbench.Proofs.JoinedNames
import Testbench.Proofs.RefusedPatterns
import Testbench.Proofs.Resolution
import Testbench.Proofs.StrayBraces

set_option relaxedAutoImplicit false
set_option autoImplicit false

namespace Testbench

/-! ### Lookups -/

namespace Glob

open Testbench.Path (EndsWithName endsWithName_pieces_iff startsAtRoot Under)

variable {d : Disk} {here path : Path}

theorem enter_of_isAbsolute (h : here.isAbsolute = true) (name : String) :
    enter here name = here.join name := by
  rw [enter, Path.parts_of_isAbsolute h, if_neg (by simp)]

section

variable {directoriesOnly : Bool} {steps : List Component}

theorem mem_lookup_named {name : String} :
    path ∈ lookup d directoriesOnly (.named name :: steps) here ↔
      (if isDots name then d.isDirectory here else d.hasEntry (enter here name)) = true ∧
        path ∈ lookup d directoriesOnly steps (enter here name) := by
  rw [lookup]
  split <;> simp [*]

theorem mem_lookup_fitting {ts : List Token} :
    path ∈ lookup d directoriesOnly (.fitting ts :: steps) here ↔
      d.isDirectory here = true ∧
        ((∃ name ∈ dotsFitting ts, path ∈ lookup d directoriesOnly steps (here.join name)) ∨
          ∃ name node, (name, node) ∈ d.children here ∧ matchesChars ts name.toList = true ∧
            path ∈ lookup d directoriesOnly steps (enter here name)) := by
  rw [lookup]
  split <;> simp [*, List.mem_flatMap]

theorem mem_lookup_deep {c : Component} :
    path ∈ lookup d directoriesOnly (.deep :: c :: steps) here ↔
      ∃ name between, (name, between) ∈ below d Disk.longestPath here ∧ c.fits name = true ∧
        path ∈ lookup d directoriesOnly steps between := by
  simp [lookup, List.mem_flatMap]

/-! ### Lookups below a directory -/

/-- The step does not lead back to the root of the tree. -/
def Component.StaysBelow : Component → Prop
  | .named name => startsAtRoot name.toList = false
  | _ => True

theorem under_of_mem_below (hd : d.NamesEntries) {depth : Nat} {name : String}
    (hhere : here.isAbsolute = true) (h : (name, path) ∈ below d depth here) : here.Under path := by
  induction depth generalizing here with
  | zero => simp [below] at h
  | succ depth ih =>
      obtain ⟨⟨entry, node⟩, hentry, hmem⟩ := List.mem_flatMap.1 h
      have hunder : here.Under (enter here entry) := by
        rw [enter_of_isAbsolute hhere]
        exact Path.under_join hhere (Path.not_startsAtRoot (hd.of_mem_children hentry))
      rcases List.mem_cons.1 hmem with heq | hmem
      · cases heq
        exact hunder
      · exact hunder.trans (ih hunder.isAbsolute hmem)

/-- The dots that fit a step are relative. -/
theorem startsAtRoot_of_mem_dotsFitting {ts : List Token} {name : String}
    (h : name ∈ dotsFitting ts) : startsAtRoot name.toList = false := by
  rw [dotsFitting] at h
  split at h
  · rcases List.mem_cons.1 (List.mem_of_mem_filter h) with rfl | hname
    · decide
    · rw [List.mem_singleton.1 hname]
      decide
  · cases h

/-- **A lookup that is started in a directory finds paths below it.** -/
theorem under_of_mem_lookup (hd : d.NamesEntries) (hsteps : ∀ c ∈ steps, c.StaysBelow)
    (hhere : here.isAbsolute = true) (h : path ∈ lookup d directoriesOnly steps here) :
    here.Under path := by
  -- the cases are those of the lookup, and each step goes from a path to one below it
  induction steps, here using lookup.induct d directoriesOnly with
  | case1 here hlost =>
      rw [lookup, if_pos hlost] at h
      cases h
  | case2 here hthere =>
      rw [lookup, if_neg hthere, List.mem_singleton] at h
      rw [h]
      exact Path.under_refl hhere
  | case3 name steps here _ ih =>
      obtain ⟨hname, hsteps⟩ := List.forall_mem_cons.1 hsteps
      have hunder : here.Under (enter here name) := by
        rw [enter_of_isAbsolute hhere]
        exact Path.under_join hhere hname
      exact hunder.trans (ih hsteps hunder.isAbsolute (mem_lookup_named.1 h).2)
  | case4 name steps here hlost => exact absurd (mem_lookup_named.1 h).1 hlost
  | case5 ts steps here _ ihdots ihentry =>
      have hsteps := (List.forall_mem_cons.1 hsteps).2
      obtain ⟨-, ⟨name, hname, hmem⟩ | ⟨name, node, hname, -, hmem⟩⟩ := mem_lookup_fitting.1 h
      · have hunder := Path.under_join hhere (startsAtRoot_of_mem_dotsFitting hname)
        exact hunder.trans (ihdots name hsteps hunder.isAbsolute hmem)
      · have hunder : here.Under (enter here name) := by
          rw [enter_of_isAbsolute hhere]
          exact Path.under_join hhere (Path.not_startsAtRoot (hd.of_mem_children hname))
        exact hunder.trans (ihentry name hsteps hunder.isAbsolute hmem)
  | case6 ts steps here hlost => exact absurd (mem_lookup_fitting.1 h).1 hlost
  | case7 here =>
      obtain ⟨⟨name, path'⟩, hmem, rfl⟩ := List.mem_map.1 (List.mem_of_mem_filter h)
      exact under_of_mem_below hd hhere hmem
  | case8 c steps here ih =>
      obtain ⟨name, between, hbelow, -, hmem⟩ := mem_lookup_deep.1 h
      have hsteps := (List.forall_mem_cons.1 (List.forall_mem_cons.1 hsteps).2).2
      have hunder := under_of_mem_below hd hhere hbelow
      exact hunder.trans (ih between hsteps hunder.isAbsolute hmem)

/-! ### Lookups along escaped names -/

/-- A name with special characters is not one of the dots. -/
theorem dotsFitting_exactly {name : List Char} (h : ¬∀ c ∈ name, isSpecial c = false) :
    dotsFitting (name.map Token.exactly) = [] := by
  rw [dotsFitting]
  split
  · rw [List.filter_eq_nil_iff]
    intro dots hdots hmatch
    -- neither dot is special
    obtain rfl := (matchesChars_exactly name dots.toList).1 hmatch
    rcases List.mem_cons.1 hdots with rfl | hdots
    · exact h (by simp [isSpecial])
    · rw [List.mem_singleton.1 hdots] at h
      exact h (by simp [isSpecial])
  · rfl

variable {names : List (List Char)}

/-- An escaped name leads to the entry of that name, and nowhere else. -/
theorem mem_lookup_of_exactly_cons {name : List Char} (hhere : here.isAbsolute = true)
    (h : path ∈ lookup d directoriesOnly (.exactly name :: steps) here) :
    path ∈ lookup d directoriesOnly steps (here.join (String.ofList name)) := by
  by_cases hplain : ∀ c ∈ name, isSpecial c = false
  · rw [Component.exactly_of_plain hplain, mem_lookup_named, enter_of_isAbsolute hhere] at h
    exact h.2
  · rw [Component.exactly_of_special hplain, mem_lookup_fitting, dotsFitting_exactly hplain] at h
    obtain ⟨-, ⟨dots, hdots, -⟩ | ⟨entry, node, -, hmatch, hmem⟩⟩ := h
    · cases hdots
    · rw [matchesChars_exactly] at hmatch
      rwa [enter_of_isAbsolute hhere, ← String.ofList_toList (s := entry), hmatch] at hmem

/-- An escaped name leads to the entry of that name, if the entry is there. -/
theorem mem_lookup_exactly_cons {name : List Char} {place : Location}
    (hhere : here.isAbsolute = true) (hplace : d.stat true here.text = .ok (place, .directory))
    (hentry : d.hasEntry (here.join (String.ofList name)) = true)
    (hnode : name ≠ [] ∧ name ≠ ['.'] ∧ name ≠ ['.', '.'] →
      ∃ node, d.node? (String.ofList name :: place) = some node)
    (h : path ∈ lookup d directoriesOnly steps (here.join (String.ofList name))) :
    path ∈ lookup d directoriesOnly (.exactly name :: steps) here := by
  have hdirectory := Disk.isDirectory_iff.2 ⟨place, hplace⟩
  by_cases hplain : ∀ c ∈ name, isSpecial c = false
  · rw [Component.exactly_of_plain hplain, mem_lookup_named, enter_of_isAbsolute hhere]
    refine ⟨?_, h⟩
    split
    · exact hdirectory
    · exact hentry
  · -- a name with special characters is neither empty nor one of the dots
    have hne : name ≠ [] ∧ name ≠ ['.'] ∧ name ≠ ['.', '.'] := by
      refine ⟨?_, ?_, ?_⟩ <;> (rintro rfl; exact hplain (by simp [isSpecial]))
    obtain ⟨node, hnode⟩ := hnode hne
    have hchild := Disk.mem_children_iff.2 ⟨place, hplace, Disk.mem_entries_of_node? hnode⟩
    rw [Component.exactly_of_special hplain, mem_lookup_fitting]
    refine ⟨hdirectory, Or.inr ⟨_, node, hchild, ?_, ?_⟩⟩
    · rw [matchesChars_exactly, String.toList_ofList]
    · rwa [enter_of_isAbsolute hhere]

/-- **A lookup along escaped names goes on at the path that they lead to.** -/
theorem mem_lookup_of_exactly_append (hhere : here.isAbsolute = true)
    (h : path ∈ lookup d directoriesOnly (names.map Component.exactly ++ steps) here) :
    path ∈ lookup d directoriesOnly steps (here.joinAll names) := by
  induction names generalizing here with
  | nil => exact h
  | cons name names ih =>
      rw [List.map_cons, List.cons_append] at h
      exact ih (Path.isAbsolute_join hhere _) (mem_lookup_of_exactly_cons hhere h)

/-- **A lookup along escaped names finds the path that they lead to.** -/
theorem mem_lookup_exactly {met : Location × Node} (hhere : here.isAbsolute = true)
    (hslash : ∀ name ∈ names, '/' ∉ name) (hlast : EndsWithName names)
    (h : d.stat true (here.joinAll names).text = .ok met) :
    here.joinAll names ∈ lookup d false (names.map Component.exactly) here := by
  obtain ⟨found, node⟩ := met
  induction names generalizing here with
  | nil => simp [lookup]
  | cons name names ih =>
      have hjoin := Path.isAbsolute_join hhere (String.ofList name)
      have hrest := (List.forall_mem_cons.1 hslash).2
      have hsome := Disk.filterMap_ne_nil_of_endsWithName hlast (List.cons_ne_nil name names)
      -- the directory that the name is looked for in, and what is there
      obtain ⟨place, hops, hplace, hleads⟩ := Disk.stat_of_stat_joinAll hhere hslash hsome h
      obtain ⟨met, hmet⟩ := Disk.exists_stat_of_stat_joinAll hjoin hrest hlast.of_cons h
      rw [List.map_cons]
      refine mem_lookup_exactly_cons hhere hplace (Disk.hasEntry_of_stat hmet) ?_
        (ih hjoin hrest hlast.of_cons h)
      rintro ⟨hempty, hdot, hdots⟩
      have hname : Disk.entryName? name = some (String.ofList name) := if_neg hempty
      rw [List.filterMap_cons_some hname] at hleads
      exact hleads.exists_node?_of_cons (fun heq => hdot (String.ofList_injective heq))
        (fun heq => hdots (String.ofList_injective heq))

end

/-! ### The steps of patterns -/

/-- A class is no character. -/
theorem readClass_ne_char {cs rest : List Char} {t : Token} (h : readClass cs = some (t, rest)) :
    ∀ c, t ≠ .char c := by
  unfold readClass at h
  split at h
  all_goals
    obtain ⟨_, -, heq⟩ := Option.map_eq_some_iff.1 h
    cases heq
    rintro c ⟨⟩

theorem literal?_eq_none_of_map_cons {t : Token} {ts : List Token}
    {tail : Except Refusal (List Token)} (ht : ∀ c, t ≠ .char c)
    (h : tail.map (t :: ·) = .ok ts) : literal? ts = none := by
  cases tail with
  | error r => cases h
  | ok tail =>
      cases h
      cases t with
      | char c => exact absurd rfl (ht c)
      | one | many | deep | within | outside => rfl

/-- Tokens without wildcards are their own text. -/
theorem eq_of_literal?_tokensFrom {i : Nat} {fresh : Bool} {cs text : List Char}
    {ts : List Token} (h : tokensFrom i fresh cs = .ok ts) (htext : literal? ts = some text) :
    text = cs := by
  fun_induction tokensFrom i fresh cs generalizing ts text with
  | case1 i fresh =>
      cases h
      cases htext
      rfl
  | case2 | case5 | case8 =>
      -- a wildcard is no character
      rw [literal?_eq_none_of_map_cons (by rintro c ⟨⟩) h] at htext
      cases htext
  | case3 | case6 | case7 | case9 => cases h
  | case4 =>
      cases h
      cases htext
  | case10 i fresh cs t rest hread =>
      rw [literal?_eq_none_of_map_cons (readClass_ne_char hread) h] at htext
      cases htext
  | case11 i fresh c cs _ _ _ _ _ ih =>
      cases htail : tokensFrom (i + 1) (c = '/') cs with
      | error r => rw [htail] at h; cases h
      | ok tail =>
          rw [htail] at h
          cases h
          obtain ⟨rest, hrest, rfl⟩ := Option.map_eq_some_iff.1 htext
          rw [ih htail hrest]

theorem Component.staysBelow_ofTokens {piece : List Char} {ts : List Token} (h : '/' ∉ piece)
    (hts : tokens piece = .ok ts) : (Component.ofTokens ts).StaysBelow := by
  rw [Component.ofTokens]
  cases htext : literal? ts with
  | none =>
      dsimp only
      split <;> trivial
  | some text =>
      obtain rfl := eq_of_literal?_tokensFrom hts htext
      rw [StaysBelow, String.toList_ofList, Path.not_startsAtRoot h]

theorem mem_pieces_of_mem_componentTexts {cs piece : List Char} (h : piece ∈ componentTexts cs) :
    piece ∈ Text.pieces '/' cs := by
  rw [componentTexts] at h
  split at h
  · exact List.mem_of_mem_dropLast h
  · exact h

theorem forall_mem_of_mapM_eq_ok {α β ε : Type} {f : α → Except ε β} {P : β → Prop} {xs : List α}
    {ys : List β} (hP : ∀ x ∈ xs, ∀ y, f x = .ok y → P y) (h : xs.mapM f = .ok ys) :
    ∀ y ∈ ys, P y := by
  induction xs generalizing ys with
  | nil =>
      cases h
      simp
  | cons x xs ih =>
      obtain ⟨hx, hxs⟩ := List.forall_mem_cons.1 hP
      rw [List.mapM_cons] at h
      cases hy : f x with
      | error e => rw [hy] at h; cases h
      | ok y =>
          cases hys : xs.mapM f with
          | error e => rw [hy, hys] at h; cases h
          | ok ys' =>
              rw [hy, hys] at h
              cases h
              exact List.forall_mem_cons.2 ⟨hx y hy, ih hxs hys⟩

theorem staysBelow_of_mem_componentsOf {cs : List Char} {steps : List Component}
    (h : componentsOf cs = .ok steps) : ∀ c ∈ steps, c.StaysBelow := by
  refine forall_mem_of_mapM_eq_ok (fun piece hpiece c hc => ?_) h
  have hslash := Text.not_mem_of_mem_pieces (mem_pieces_of_mem_componentTexts hpiece)
  cases hts : tokens piece with
  | error r => rw [hts] at hc; cases hc
  | ok ts =>
      rw [hts] at hc
      cases hc
      exact Component.staysBelow_ofTokens hslash hts

theorem mem_of_mem_mergeDeep {steps : List Component} {c : Component} (h : c ∈ mergeDeep steps) :
    c ∈ steps := by
  fun_induction mergeDeep steps with
  | case1 steps ih => exact List.mem_cons_of_mem _ (ih h)
  | case2 c' steps _ ih =>
      rcases List.mem_cons.1 h with rfl | h
      · exact List.mem_cons_self
      · exact List.mem_cons_of_mem _ (ih h)
  | case3 => exact h

/-- The steps of a pattern do not lead back to the root of the tree. -/
theorem staysBelow_of_compile {pattern : String} {g : Glob} (h : compile pattern = .ok g) :
    ∀ c ∈ g.components, c.StaysBelow := by
  rw [compile_eq] at h
  cases hts : tokens pattern.toList with
  | error r => rw [hts] at h; cases h
  | ok ts =>
      cases hsteps : componentsOf (relativePart pattern.toList) with
      | error r => rw [hts, hsteps] at h; cases h
      | ok steps =>
          rw [hts, hsteps] at h
          cases h
          intro c hc
          have hmem := mem_of_mem_mergeDeep hc
          rw [orNameless] at hmem
          split at hmem
          · rcases List.mem_append.1 hmem with hmem | hmem
            · exact staysBelow_of_mem_componentsOf hsteps c hmem
            · rw [List.mem_singleton.1 hmem]
              rfl
          · exact staysBelow_of_mem_componentsOf hsteps c hmem

/-! ### Paths as patterns -/

/-- **The pattern that stands for a path taken literally.** -/
theorem compile_escape {text : String} {cs : List Char} (htext : text.toList = '/' :: cs)
    (hlast : EndsWithName (Text.pieces '/' cs)) :
    compile (escape text) = .ok
      { absolute := true
        components := (Text.pieces '/' cs).map Component.exactly
        directoriesOnly := false } := by
  have hescape : (escape text).toList = '/' :: escapeChars cs := by
    rw [escape, String.toList_ofList, htext]
    rfl
  have hrelative : relativePart ('/' :: escapeChars cs) = escapeChars cs := rfl
  have htokens : tokens ('/' :: escapeChars cs) = .ok (('/' :: cs).map Token.exactly) :=
    tokens_escapeChars ('/' :: cs)
  have hpieces : componentTexts cs = Text.pieces '/' cs := if_neg hlast
  have hne : (escapeChars cs).isEmpty = false := by
    rw [List.isEmpty_eq_false_iff, ne_eq, escapeChars_eq_nil_iff]
    rintro rfl
    exact hlast rfl
  have hends : ('/' :: escapeChars cs).getLast? ≠ some '/' := by
    rw [← endsWithName_pieces_iff, pieces_escapeChars, EndsWithName, List.getLast?_map]
    intro h
    obtain ⟨name, hname, hempty⟩ := Option.map_eq_some_iff.1 h
    rw [escapeChars_eq_nil_iff.1 hempty] at hname
    exact hlast hname
  have hmerge := mergeDeep_exactly_append (Text.pieces '/' cs) []
  rw [mergeDeep, List.append_nil] at hmerge
  rw [compile_eq, hescape, htokens, hrelative, componentsOf_escapeChars, hpieces]
  simp only [Except.bind, Except.map, orNameless, hne, hmerge, hends, Bool.false_eq_true, if_false,
    decide_false]
  rfl

variable {p : Path} {cs : List Char} {g : Glob}

theorem find_escape (hp : p.text.toList = '/' :: cs)
    (hlast : EndsWithName (Text.pieces '/' cs)) (hg : compile (escape p.text) = .ok g) :
    g.find d = lookup d false ((Text.pieces '/' cs).map Component.exactly) ⟨"/"⟩ := by
  rw [compile_escape hp hlast] at hg
  cases hg
  rfl

/-- The pattern that stands for a path finds nothing else. -/
theorem eq_of_mem_find_escape (hp : p.text.toList = '/' :: cs)
    (hlast : EndsWithName (Text.pieces '/' cs)) (hg : compile (escape p.text) = .ok g)
    (h : path ∈ g.find d) : path = p.singleSlashed := by
  rw [find_escape hp hlast hg, ← List.append_nil (List.map _ _)] at h
  have hmem := mem_lookup_of_exactly_append Path.isAbsolute_slash h
  rw [← Path.singleSlashed_eq_joinAll hp] at hmem
  simpa [lookup] using hmem

/-- The pattern that stands for a path finds it. -/
theorem mem_find_escape {met : Location × Node} (hp : p.text.toList = '/' :: cs)
    (hlast : EndsWithName (Text.pieces '/' cs)) (hg : compile (escape p.text) = .ok g)
    (h : d.stat true p.text = .ok met) : p.singleSlashed ∈ g.find d := by
  have hstat := Disk.stat_singleSlashed hp hlast h
  rw [find_escape hp hlast hg]
  rw [Path.singleSlashed_eq_joinAll hp] at hstat ⊢
  exact mem_lookup_exactly Path.isAbsolute_slash (fun _ => Text.not_mem_of_mem_pieces) hlast hstat

end Glob

namespace Corpus

open Glob Testbench.Path

variable {root : Path} {text : String} {d : Disk}

theorem startsAtRoot_opened (h : root.isAbsolute = true) :
    startsAtRoot (opened root.text.toList) = true := by
  obtain ⟨cs, hcs⟩ := exists_of_isAbsolute h
  rw [hcs]
  rfl

/-- The steps to a root lead to it. -/
theorem parts_joinAll_root (h : root.isAbsolute = true) :
    ((Path.mk "/").joinAll (componentTexts (relativePart (opened root.text.toList)))).parts =
      root.parts := by
  have hbefore := beforeNames_opened root.text.toList
  obtain ⟨cs, hcs⟩ : ∃ cs, opened root.text.toList = '/' :: cs := by
    have hstart := startsAtRoot_opened h
    rw [startsAtRoot, decide_eq_true_eq] at hstart
    exact List.head?_eq_some_iff.1 hstart
  have hslash : ∀ name ∈ componentTexts cs, '/' ∉ name := fun _ hname =>
    Text.not_mem_of_mem_pieces (mem_pieces_of_mem_componentTexts hname)
  have hpieces := @filterMap_pieces_opened Part partOf rfl root.text.toList
  rw [hcs] at hbefore hpieces ⊢
  rw [Text.pieces, if_pos rfl, List.dropLast_cons_of_ne_nil (Text.pieces_ne_nil '/' cs),
    ← componentTexts_of_beforeNames hbefore.of_cons] at hpieces
  rw [parts_of_isAbsolute h, ← hpieces]
  exact parts_joinAll isAbsolute_slash hslash

/-- **What a pattern that is taken from a root finds is below the root.** -/
theorem prefix_parts_of_mem_find {g : Glob} {path : Path} (hd : d.NamesEntries)
    (hroot : root.isAbsolute = true) (htext : (Path.mk text).isAbsolute = false)
    (hg : Glob.compile (qualify root text) = .ok g) (h : path ∈ g.find d) :
    root.parts <+: path.parts := by
  obtain ⟨habsolute, steps, hcomponents⟩ := compile_qualify_eq_ok htext hg
  have hsteps : ∀ c ∈ steps, c.StaysBelow := fun c hc =>
    staysBelow_of_compile hg c (hcomponents ▸ List.mem_append_right _ hc)
  rw [find, habsolute, startsAtRoot_opened hroot, if_pos rfl, hcomponents, rootSteps] at h
  have hmem := mem_lookup_of_exactly_append isAbsolute_slash h
  have hunder := under_of_mem_lookup hd hsteps (isAbsolute_joinAll isAbsolute_slash _) hmem
  rw [← parts_joinAll_root hroot]
  exact hunder.parts

/-- The text has no special characters, and no brace that opens a group. -/
def IsPlain (text : String) : Prop := ∀ c ∈ text.toList, isSpecial c = false ∧ c ≠ '{'

instance (text : String) : Decidable (IsPlain text) :=
  decidable_of_iff (text.toList.all fun c => isSpecial c = false ∧ c ≠ '{') <| by simp [IsPlain]

/-- A plain text behind a root is the text of a path that is taken literally. -/
theorem qualify_of_isPlain (h : (Path.mk text).isAbsolute = false) (hplain : IsPlain text) :
    qualify root text = escape (root.join text).text := by
  have htext := escapeChars_eq_self fun c hc => (hplain c hc).1
  rw [← String.toList_inj, toList_qualify h, escape, String.toList_ofList, toList_join h,
    escapeChars_append, htext]

theorem expandText_of_isPlain (hplain : IsPlain text) : Braces.expandText text = [text] := by
  refine Braces.expandText_eq_singleton_iff.2 fun l r htext _ => ?_
  exact absurd rfl (hplain '{' (by simp [htext])).2

/-- A list of one path, however often it is there, is kept as one. -/
theorem distinct_eq_singleton {path : Path} {paths : List Path} (hmem : path ∈ paths)
    (hall : ∀ r ∈ paths, r = path) : distinct paths = [path] := by
  have hkept : ∀ r ∈ distinct paths, r = path := fun r hr =>
    hall r (mem_of_mem_distinct hr)
  obtain ⟨r, hr, -⟩ := exists_mem_distinct_parts hmem
  have hascending := ascending_distinct paths
  cases hpaths : distinct paths with
  | nil => rw [hpaths] at hr; cases hr
  | cons first rest =>
      rw [hpaths] at hkept hascending
      obtain ⟨rfl, hrest⟩ := List.forall_mem_cons.1 hkept
      cases rest with
      | nil => rfl
      | cons second rest =>
          -- the second path would come after itself
          have hlt := (List.pairwise_cons.1 hascending).1 second List.mem_cons_self
          rw [hrest second List.mem_cons_self] at hlt
          exact absurd rfl (parts_ne_of_cmp_lt hlt)

/-- **A plain pattern finds the file of its name.** -/
theorem resolve_of_isPlain {q : Query} (hroot : q.root.isAbsolute = true)
    (hpatterns : q.patterns = [text]) (htext : (Path.mk text).isAbsolute = false)
    (hplain : IsPlain text) (hfile : d.isFile (q.root.join text) = true)
    (hkeeps : q.Keeps (q.root.join text).singleSlashed.text) :
    q.resolve d = .ok [(q.root.join text).singleSlashed] := by
  obtain ⟨place, content, executable, hstat⟩ := Disk.isFile_iff.1 hfile
  obtain ⟨cs, hcs⟩ := exists_of_isAbsolute (isAbsolute_join hroot text)
  have hlast : EndsWithName (Text.pieces '/' cs) := by
    rw [endsWithName_pieces_iff, ← hcs]
    intro hends
    -- a path that ends with a slash does not lead to a file
    obtain ⟨-, hsuits, -⟩ := Disk.resolve_eq_ok_iff.1 (Disk.stat_eq_ok_iff.1 hstat)
    obtain ⟨_, htarget⟩ := hsuits (decide_eq_true hends)
    cases htarget
  obtain ⟨g, hg⟩ : ∃ g, Glob.compile (escape (q.root.join text).text) = .ok g :=
    ⟨_, compile_escape hcs hlast⟩
  have hqualify := @qualify_of_isPlain q.root _ htext hplain
  have haccepted : ∀ path, path ∈ q.accepted (.ofDisk d) ↔
      path ∈ g.find d ∧ d.isFile path = true ∧ q.Keeps path.text := by
    intro path
    rw [Query.accepted, hpatterns, List.flatMap_singleton, expandText_of_isPlain hplain,
      List.flatMap_singleton, mem_acceptedBy_iff, hqualify, hg]
    simp [View.ofDisk]
  have hmem : (q.root.join text).singleSlashed ∈ q.accepted (.ofDisk d) := by
    refine (haccepted _).2 ⟨mem_find_escape hcs hlast hg hstat, ?_, hkeeps⟩
    exact Disk.isFile_iff.2 ⟨_, _, _, Disk.stat_singleSlashed hcs hlast hstat⟩
  have hall : ∀ r ∈ q.accepted (.ofDisk d), r = (q.root.join text).singleSlashed := fun r hr =>
    eq_of_mem_find_escape hcs hlast hg ((haccepted r).1 hr).1
  cases hq : q.resolve d with
  | ok cases => rw [resolveIn_eq_ok hq, distinct_eq_singleton hmem hall]
  | error f =>
      -- a pattern that is refused would be the only one, which has been read
      obtain ⟨pattern, hpattern, text', htext', hrefused⟩ := exists_resolveIn_eq_error_iff.1 ⟨f, hq⟩
      rw [hpatterns, List.mem_singleton] at hpattern
      rw [hpattern, expandText_of_isPlain hplain, List.mem_singleton] at htext'
      obtain ⟨r, hr⟩ := (@refused_qualify_iff q.root text').2 hrefused
      rw [htext', hqualify, hg] at hr
      cases hr

/-- **What a query finds that is not taken from its root** is named in full by what a pattern stands
for. -/
theorem prefix_parts_of_mem_resolve {q : Query} {cases : List Path} {path : Path}
    (hd : d.NamesEntries) (hroot : q.root.isAbsolute = true) (h : q.resolve d = .ok cases)
    (hpath : path ∈ cases) :
    q.root.parts <+: path.parts ∨ ∃ pattern ∈ q.patterns, ∃ text ∈ Braces.expandText pattern,
      (Path.mk text).isAbsolute = true ∧ path ∈ q.acceptedBy (.ofDisk d) text := by
  rw [resolveIn_eq_ok h] at hpath
  have hmem := mem_of_mem_distinct hpath
  obtain ⟨pattern, hpattern, hmem⟩ := List.mem_flatMap.1 hmem
  obtain ⟨text, htext, hmem⟩ := List.mem_flatMap.1 hmem
  cases habsolute : (Path.mk text).isAbsolute with
  | true => exact Or.inr ⟨pattern, hpattern, text, htext, habsolute, hmem⟩
  | false =>
      obtain ⟨g, hg, hwalk, -, -⟩ := mem_acceptedBy_iff.1 hmem
      have hfind : path ∈ g.find d := by simpa [View.ofDisk] using hwalk
      exact Or.inl (prefix_parts_of_mem_find hd hroot habsolute hg hfind)

/-! ### Roots are taken literally -/

/-- **The root of a query is taken literally**, whatever characters are in it.  What a query finds
is below the root, unless what a pattern stands for names it in full.  A pattern without special
characters and braces finds exactly the file that it names in the root, if no exclusion applies to
its path with every row of slashes written as one; a path without rows of slashes is found as it is.
-/
theorem resolve_below_root {q : Query} {d : Disk} (hroot : q.root.isAbsolute = true)
    (hd : d.NamesEntries) :
    (∀ cases, q.resolve d = .ok cases → ∀ path ∈ cases, q.root.parts <+: path.parts ∨
      ∃ pattern ∈ q.patterns, ∃ text ∈ Braces.expandText pattern,
        (Path.mk text).isAbsolute = true ∧ path ∈ q.acceptedBy (.ofDisk d) text) ∧
    (∀ text, q.patterns = [text] → (Path.mk text).isAbsolute = false → IsPlain text →
      d.isFile (q.root.join text) = true → q.Keeps (q.root.join text).singleSlashed.text →
        q.resolve d = .ok [(q.root.join text).singleSlashed]) ∧
    (∀ text, (q.root.join text).singleSlashed.parts = (q.root.join text).parts) ∧
    (∀ text, ¬['/', '/'] <:+: (q.root.join text).text.toList →
      (q.root.join text).singleSlashed = q.root.join text) := by
  refine ⟨fun cases h path hpath => prefix_parts_of_mem_resolve hd hroot h hpath,
    fun text hpatterns htext hplain hfile hkeeps =>
      resolve_of_isPlain hroot hpatterns htext hplain hfile hkeeps,
    fun text => parts_singleSlashed (isAbsolute_join hroot text), fun text hslashes =>
      singleSlashed_eq_self hslashes⟩

/-- Two directories with a file each; the name of one is a pattern that the name of the other fits.
-/
def shapedNames : Disk where
  nodes := [(["{a,[b]}*?"], .directory), (["t", "{a,[b]}*?"], .file [] false),
    (["bcd"], .directory), (["t", "bcd"], .file [] false)]

/-- A query whose root is the directory that is named like a pattern. -/
def shapedRoot : Query where
  root := ⟨"/{a,[b]}*?"⟩
  patterns := ["t"]
  skip := ["bcd"]
  excludedSuffixes := [".dump"]

/-- The file in the directory that is named like a pattern is found, and no other. -/
theorem resolve_below_shapedRoot :
    shapedRoot.root.isAbsolute = true ∧ shapedNames.NamesEntries ∧
      shapedRoot.resolve shapedNames = .ok [⟨"/{a,[b]}*?/t"⟩] := by
  have hroot : shapedRoot.root.isAbsolute = true := by decide
  have hd : shapedNames.NamesEntries := by decide
  obtain ⟨-, hfile, -, hself⟩ := resolve_below_root hroot hd
  have hkeeps : shapedRoot.Keeps (shapedRoot.root.join "t").singleSlashed.text :=
    Query.admits_iff.1 (by decide +kernel)
  have hfound := hfile "t" rfl (by decide) (by decide) (by decide +kernel) hkeeps
  rw [hself "t" (by decide +kernel)] at hfound
  exact ⟨hroot, hd, hfound⟩

/-- A query with one relative pattern that stands for a file named in full. -/
def fullyNamed : Query where
  root := ⟨"/r"⟩
  patterns := ["{/t/a,g}"]
  skip := []
  excludedSuffixes := []

/-- A query whose root has a row of slashes, and whose exclusion is the path without it. -/
def slashedRoot : Query where
  root := ⟨"/t//"⟩
  patterns := ["a"]
  skip := ["t/a"]
  excludedSuffixes := []

/-- A relative pattern may find files that are not below the root, and a file that no exclusion
applies to as it is named may be left out. -/
theorem root_not_always_literal :
    (¬∀ (q : Query) (d : Disk) (cases : List Path), q.root.isAbsolute = true → d.NamesEntries →
      (∀ pattern ∈ q.patterns, (Path.mk pattern).isAbsolute = false) → q.resolve d = .ok cases →
        ∀ path ∈ cases, q.root.parts <+: path.parts) ∧
    ¬∀ (q : Query) (d : Disk) (text : String), q.root.isAbsolute = true → d.NamesEntries →
      q.patterns = [text] → (Path.mk text).isAbsolute = false → IsPlain text →
        d.isFile (q.root.join text) = true → q.Keeps (q.root.join text).text →
          ∃ path, q.resolve d = .ok [path] ∧ path.parts = (q.root.join text).parts := by
  refine ⟨fun h => ?_, fun h => ?_⟩
  · have hfound : fullyNamed.resolve threeFiles = .ok [⟨"/t/a"⟩] := by decide +kernel
    have hprefix := h fullyNamed threeFiles _ (by decide) (by decide) (by decide) hfound ⟨"/t/a"⟩
      List.mem_cons_self
    revert hprefix
    decide +kernel
  · have hnothing : slashedRoot.resolve threeFiles = .ok [] := by decide +kernel
    have hkeeps : slashedRoot.Keeps (slashedRoot.root.join "a").text :=
      Query.admits_iff.1 (by decide +kernel)
    obtain ⟨path, hfound, -⟩ := h slashedRoot threeFiles "a" (by decide) (by decide) rfl (by decide)
      (by decide) (by decide +kernel) hkeeps
    rw [hnothing] at hfound
    cases hfound

end Corpus

end Testbench
