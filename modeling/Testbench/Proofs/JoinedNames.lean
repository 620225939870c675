/-
**Paths that are joined name by name.**

A walk through the tree of files puts one name behind the other, and a slash between them unless one
is there.  Such a path has the parts of its directory and then those of its names, it leads where
the names lead, and everything on the way is a directory.  It has no row of slashes, so that joining
the pieces of a path anew writes every row of slashes in it as one; nothing else changes, neither
the parts of the path nor where it leads.

Main definitions:

* `Testbench.Path.joinAll` — the path that names lead to;
* `Testbench.Path.singleSlashed` — a path with every row of slashes written as one;
* `Testbench.Path.EndsWithName` — the last of some names is not empty;
* `Testbench.Path.Under` — a path begins with the parts of another;
* `Testbench.Disk.NamesEntries` — the names of entries hold no slash.

Main results:

* `Testbench.Path.parts_join`, `Testbench.Path.parts_joinAll` — the parts of a path in a directory;
* `Testbench.Path.singleSlashed_eq_joinAll` — a path that is joined anew has no row of slashes;
* `Testbench.Disk.stat_of_stat_joinAll` — what a path runs through are directories;
* `Testbench.Disk.stat_singleSlashed` — **rows of slashes do not change where a path leads**.
-/

import Mathlib.Data.List.Destutter
import Testbench.Proofs.RootedPatterns
import Testbench.Proofs.TextOffsets
import Testbench.Proofs.Walks

set_option relaxedAutoImplicit false
set_option autoImplicit false

namespace Testbench

/-! ### Joining names -/

namespace Path

open Text (pieces)

variable {base : Path} {rest : String}

/-- A text without slashes is relative. -/
theorem not_startsAtRoot {name : List Char} (h : '/' ∉ name) : startsAtRoot name = false := by
  cases name with
  | nil => rfl
  | cons c name => simp_all [startsAtRoot, eq_comm]

theorem not_startsAtRoot_ofList {name : List Char} (h : '/' ∉ name) :
    startsAtRoot (String.ofList name).toList = false := by
  rw [String.toList_ofList, not_startsAtRoot h]

theorem join_of_relative (h : startsAtRoot rest.toList = false) :
    base.join rest = ⟨String.ofList (opened base.text.toList ++ rest.toList)⟩ := by
  simp [join, h, opened, String.ofList_append, String.append_assoc]

theorem toList_join (h : startsAtRoot rest.toList = false) :
    (base.join rest).text.toList = opened base.text.toList ++ rest.toList := by
  rw [join_of_relative h, String.toList_ofList]

theorem isAbsolute_slash : (Path.mk "/").isAbsolute = true := by decide

theorem isAbsolute_join (h : base.isAbsolute = true) (rest : String) :
    (base.join rest).isAbsolute = true :=
  startsAtRoot_join h rest

theorem filterMap_pieces_opened {β : Type} {f : List Char → Option β} (hf : f [] = none)
    (cs : List Char) :
    (pieces '/' (opened cs)).dropLast.filterMap f = (pieces '/' cs).filterMap f := by
  rcases List.eq_nil_or_concat' cs with rfl | ⟨ds, c, rfl⟩
  · simp [opened, separator, pieces, hf]
  · by_cases hc : c = '/'
    · rw [hc, opened_concat_slash, Text.pieces_append_cons]
      simp [pieces, hf]
    · rw [opened_concat_of_ne hc, Text.pieces_append_cons]
      simp [pieces]

/-- What is said piece by piece of a path in a directory is what is said of the directory, and then
of the path. -/
theorem filterMap_pieces_opened_append {β : Type} {f : List Char → Option β} (hf : f [] = none)
    (cs xs : List Char) : (pieces '/' (opened cs ++ xs)).filterMap f =
      (pieces '/' cs).filterMap f ++ (pieces '/' xs).filterMap f := by
  rw [(beforeNames_opened cs).pieces_append, List.filterMap_append, filterMap_pieces_opened hf]

/-- The parts of an absolute path. -/
theorem parts_of_isAbsolute {p : Path} (h : p.isAbsolute = true) :
    p.parts = .root :: (pieces '/' p.text.toList).filterMap partOf := by
  rw [isAbsolute] at h
  rw [parts, origin, if_pos h]
  rfl

/-- **The parts of a path in a directory** are those of the directory, and then its own. -/
theorem parts_join (hbase : base.isAbsolute = true) (h : startsAtRoot rest.toList = false) :
    (base.join rest).parts = base.parts ++ (pieces '/' rest.toList).filterMap partOf := by
  rw [parts_of_isAbsolute (isAbsolute_join hbase rest), parts_of_isAbsolute hbase, toList_join h,
    filterMap_pieces_opened_append rfl, List.cons_append]

/-- The path that names lead to, one after the other. -/
def joinAll (base : Path) (names : List (List Char)) : Path :=
  names.foldl (fun here name => here.join (String.ofList name)) base

@[simp] theorem joinAll_nil (base : Path) : base.joinAll [] = base := rfl

@[simp] theorem joinAll_cons (base : Path) (name : List Char) (names : List (List Char)) :
    base.joinAll (name :: names) = (base.join (String.ofList name)).joinAll names := rfl

section

variable {names : List (List Char)}

theorem isAbsolute_joinAll (hbase : base.isAbsolute = true) (names : List (List Char)) :
    (base.joinAll names).isAbsolute = true := by
  induction names generalizing base with
  | nil => exact hbase
  | cons name names ih => exact ih (isAbsolute_join hbase _)

theorem prefix_joinAll (base : Path) (h : ∀ name ∈ names, '/' ∉ name) :
    base.text.toList <+: (base.joinAll names).text.toList := by
  induction names generalizing base with
  | nil => exact List.prefix_rfl
  | cons name names ih =>
      obtain ⟨hname, hnames⟩ := List.forall_mem_cons.1 h
      refine List.IsPrefix.trans ?_ (ih (base.join (String.ofList name)) hnames)
      rw [toList_join (not_startsAtRoot_ofList hname), opened, List.append_assoc]
      exact List.prefix_append ..

theorem parts_joinAll (hbase : base.isAbsolute = true) (h : ∀ name ∈ names, '/' ∉ name) :
    (base.joinAll names).parts = base.parts ++ names.filterMap partOf := by
  induction names generalizing base with
  | nil => simp
  | cons name names ih =>
      obtain ⟨hname, hnames⟩ := List.forall_mem_cons.1 h
      rw [joinAll_cons, ih (isAbsolute_join hbase _) hnames,
        parts_join hbase (not_startsAtRoot_ofList hname), String.toList_ofList,
        Text.pieces_of_not_mem hname, List.append_assoc, ← List.filterMap_append,
        List.singleton_append]

end

/-! ### Rows of slashes -/

/-- The two characters are not both slashes. -/
def NotBothSlashes (a b : Char) : Prop := a ≠ '/' ∨ b ≠ '/'

instance : DecidableRel NotBothSlashes := fun a b => inferInstanceAs (Decidable (a ≠ '/' ∨ b ≠ '/'))

/-- The path with every row of slashes written as one slash. -/
def singleSlashed (p : Path) : Path := ⟨String.ofList (p.text.toList.destutter NotBothSlashes)⟩

/-- A path without a row of slashes is written as it is. -/
theorem singleSlashed_eq_self {p : Path} (h : ¬['/', '/'] <:+: p.text.toList) :
    p.singleSlashed = p := by
  have hchain : p.text.toList.IsChain NotBothSlashes := by
    refine List.isChain_iff_forall_rel_of_append_cons_cons.2 fun {a b before after} htext => ?_
    by_contra hboth
    simp only [NotBothSlashes, not_or, ne_eq, not_not] at hboth
    obtain ⟨rfl, rfl⟩ := hboth
    exact h ⟨before, after, by simp [htext]⟩
  rw [singleSlashed, List.destutter_of_isChain _ _ hchain, String.ofList_toList]

/-- Names that are joined one after the other are not separated twice. -/
theorem joinAll_pieces {a : Char} {cs ds p : List Char} {ps : List (List Char)}
    (h : pieces '/' cs = p :: ps) :
    (Path.mk (String.ofList (ds ++ a :: p))).joinAll ps =
      ⟨String.ofList (ds ++ cs.destutter' NotBothSlashes a)⟩ := by
  -- `a` is the character written last, and `p` is what is behind it up to the next slash
  induction cs generalizing ds a p ps with
  | nil =>
      cases h
      simp
  | cons c cs ih =>
      obtain ⟨q, qs, hpieces⟩ := List.exists_cons_of_ne_nil (Text.pieces_ne_nil '/' cs)
      rw [pieces, hpieces] at h
      by_cases hc : c = '/'
      · rw [if_pos hc] at h
        cases h
        subst hc
        have hq : '/' ∉ q := Text.not_mem_of_mem_pieces (hpieces ▸ List.mem_cons_self)
        rw [joinAll_cons, join_of_relative (not_startsAtRoot_ofList hq), String.toList_ofList,
          String.toList_ofList]
        by_cases ha : a = '/'
        · -- nothing stands between a slash and a name
          have hdrop : ¬NotBothSlashes '/' '/' := by simp [NotBothSlashes]
          rw [ha, opened_concat_slash, List.append_assoc, List.singleton_append, ih hpieces,
            List.destutter'_cons_neg _ hdrop]
        · have hkeep : NotBothSlashes a '/' := Or.inl ha
          rw [opened_concat_of_ne ha, List.append_assoc, List.singleton_append, ih hpieces,
            List.destutter'_cons_pos _ hkeep, List.append_assoc, List.singleton_append]
      · rw [if_neg hc] at h
        cases h
        have hds : ds ++ a :: c :: q = ds ++ [a] ++ c :: q := by simp
        have hkeep : NotBothSlashes a c := Or.inr hc
        rw [hds, ih hpieces, List.destutter'_cons_pos _ hkeep, List.append_assoc,
          List.singleton_append]

/-- A path from the root of the tree is its slash, and what is behind it. -/
theorem exists_of_isAbsolute {p : Path} (h : p.isAbsolute = true) :
    ∃ cs, p.text.toList = '/' :: cs := by
  rw [isAbsolute, startsAtRoot, decide_eq_true_eq] at h
  exact List.head?_eq_some_iff.1 h

theorem singleSlashed_eq_joinAll {p : Path} {cs : List Char} (h : p.text.toList = '/' :: cs) :
    p.singleSlashed = (Path.mk "/").joinAll (pieces '/' cs) := by
  obtain ⟨q, qs, hpieces⟩ := List.exists_cons_of_ne_nil (Text.pieces_ne_nil '/' cs)
  have hq : '/' ∉ q := Text.not_mem_of_mem_pieces (hpieces ▸ List.mem_cons_self)
  have hjoin : (Path.mk "/").join (String.ofList q) = ⟨String.ofList ([] ++ '/' :: q)⟩ := by
    simp [join_of_relative (not_startsAtRoot_ofList hq), opened, separator]
  rw [singleSlashed, h, List.destutter_cons', hpieces, joinAll_cons, hjoin,
    joinAll_pieces hpieces, List.nil_append]

/-- **Writing rows of slashes as one** changes no part of a path. -/
theorem parts_singleSlashed {p : Path} (h : p.isAbsolute = true) :
    p.singleSlashed.parts = p.parts := by
  obtain ⟨cs, hcs⟩ := exists_of_isAbsolute h
  have hslash : ∀ name ∈ pieces '/' cs, '/' ∉ name := fun _ => Text.not_mem_of_mem_pieces
  rw [singleSlashed_eq_joinAll hcs, parts_joinAll isAbsolute_slash hslash,
    parts_of_isAbsolute isAbsolute_slash, parts_of_isAbsolute h, hcs]
  rfl

/-! ### Paths that end with a name -/

/-- The last name of a path is not empty, if the path has names behind its directory. -/
def EndsWithName (steps : List (List Char)) : Prop := steps.getLast? ≠ some []

theorem EndsWithName.of_cons {name : List Char} {steps : List (List Char)}
    (h : EndsWithName (name :: steps)) : EndsWithName steps := by
  cases steps with
  | nil => simp [EndsWithName]
  | cons next steps => rwa [EndsWithName, List.getLast?_cons_cons] at h

theorem beforeNames_of_getLast?_pieces {cs : List Char}
    (h : (Text.pieces '/' cs).getLast? = some []) : BeforeNames cs := by
  induction cs with
  | nil => exact Or.inl rfl
  | cons c cs ih =>
      obtain ⟨p, ps, hpieces⟩ := List.exists_cons_of_ne_nil (Text.pieces_ne_nil '/' cs)
      have hcons : BeforeNames cs → cs ≠ [] ∨ c = '/' → BeforeNames (c :: cs) := by
        rintro (rfl | ⟨ds, rfl⟩) hc
        · exact Or.inr ⟨[], by simpa using hc⟩
        · exact Or.inr ⟨c :: ds, rfl⟩
      rw [Text.pieces, hpieces] at h
      rw [hpieces] at ih
      by_cases hc : c = '/'
      · rw [if_pos hc, List.getLast?_cons_cons] at h
        exact hcons (ih h) (Or.inr hc)
      · rw [if_neg hc, Text.inFront] at h
        cases ps with
        | nil => simp at h
        | cons q ps =>
            rw [List.getLast?_cons_cons] at h ih
            refine hcons (ih h) (Or.inl ?_)
            rintro rfl
            cases hpieces

/-- A path from the root of the tree ends with a name unless it ends with a slash. -/
theorem endsWithName_pieces_iff {cs : List Char} :
    EndsWithName (Text.pieces '/' cs) ↔ ('/' :: cs).getLast? ≠ some '/' := by
  refine not_congr ⟨fun h => ?_, fun h => ?_⟩
  · rcases beforeNames_of_getLast?_pieces h with rfl | ⟨ds, rfl⟩
    · rfl
    · rw [← List.cons_append, List.getLast?_concat]
  · obtain ⟨ds, hds⟩ := List.getLast?_eq_some_iff.1 h
    exact (BeforeNames.of_cons (Or.inr ⟨ds, hds⟩)).getLast?_pieces

/-! ### Paths below others -/

/-- The path is absolute and **begins with all parts of another**. -/
structure Under (base path : Path) : Prop where
  isAbsolute : path.isAbsolute = true
  parts : base.parts <+: path.parts

theorem under_refl (h : base.isAbsolute = true) : base.Under base := ⟨h, List.prefix_rfl⟩

theorem Under.trans {p q r : Path} (h : p.Under q) (h' : q.Under r) : p.Under r :=
  ⟨h'.isAbsolute, h.parts.trans h'.parts⟩

theorem under_join (hbase : base.isAbsolute = true) (h : startsAtRoot rest.toList = false) :
    base.Under (base.join rest) :=
  ⟨isAbsolute_join hbase rest, parts_join hbase h ▸ List.prefix_append ..⟩

end Path

/-! ### What is on the way -/

namespace Disk

open Testbench.Path (EndsWithName joinAll)

variable {d : Disk}

/-- The **names of entries hold no slash**. -/
def NamesEntries (d : Disk) : Prop := ∀ entry ∈ d.nodes, ∀ name ∈ entry.1, '/' ∉ name.toList

instance (d : Disk) : Decidable d.NamesEntries :=
  inferInstanceAs (Decidable (∀ entry ∈ d.nodes, ∀ name ∈ entry.1, '/' ∉ name.toList))

theorem mem_entries_iff {place : Location} {name : String} {node : Node} :
    (name, node) ∈ d.entries place ↔ (name :: place, node) ∈ d.nodes := by
  rw [entries, List.mem_filterMap]
  constructor
  · rintro ⟨⟨location, node'⟩, hmem, hentry⟩
    cases location with
    | nil => cases hentry
    | cons name' parent =>
        obtain ⟨rfl, heq⟩ := Option.ite_none_right_eq_some.1 hentry
        cases heq
        exact hmem
  · intro hmem
    exact ⟨_, hmem, if_pos rfl⟩

theorem mem_of_find? {place : Location} {node : Node} {nodes : List (Location × Node)}
    (h : find? place nodes = some node) : (place, node) ∈ nodes := by
  induction nodes with
  | nil => cases h
  | cons entry rest ih =>
      obtain ⟨location, node'⟩ := entry
      rw [find?] at h
      split at h
      · next heq =>
          cases h
          rw [heq]
          exact List.mem_cons_self
      · exact List.mem_cons_of_mem _ (ih h)

/-- What is at a place below another is one of its entries. -/
theorem mem_entries_of_node? {place : Location} {name : String} {node : Node}
    (h : d.node? (name :: place) = some node) : (name, node) ∈ d.entries place := by
  rw [node?, if_neg (by simp)] at h
  exact mem_entries_iff.2 (mem_of_find? h)

theorem mem_children_iff {path : Path} {name : String} {node : Node} :
    (name, node) ∈ d.children path ↔
      ∃ place, d.stat true path.text = .ok (place, .directory) ∧
        (name, node) ∈ d.entries place := by
  rw [children]
  cases d.stat true path.text with
  | error fault => simp
  | ok met =>
      obtain ⟨place, found⟩ := met
      cases found with
      | directory => simp
      | file | link => simp

theorem NamesEntries.of_mem_children {path : Path} {name : String} {node : Node}
    (hd : d.NamesEntries) (h : (name, node) ∈ d.children path) : '/' ∉ name.toList := by
  obtain ⟨place, -, hentry⟩ := mem_children_iff.1 h
  exact hd _ (mem_entries_iff.1 hentry) name List.mem_cons_self

theorem isDirectory_iff {path : Path} :
    d.isDirectory path = true ↔ ∃ place, d.stat true path.text = .ok (place, .directory) := by
  rw [isDirectory]
  cases d.stat true path.text with
  | error fault => simp
  | ok met =>
      obtain ⟨place, found⟩ := met
      cases found with
      | directory => simp
      | file | link => simp

theorem isFile_iff {path : Path} :
    d.isFile path = true ↔ ∃ place content executable,
      d.stat true path.text = .ok (place, .file content executable) := by
  rw [isFile]
  cases d.stat true path.text with
  | error fault => simp
  | ok met =>
      obtain ⟨place, found⟩ := met
      cases found with
      | file => simp
      | directory | link => simp

/-- The name that a piece between slashes is followed by, if it is not empty. -/
def entryName? (piece : List Char) : Option String :=
  if piece = [] then none else some (String.ofList piece)

theorem names_eq_filterMap (cs : List Char) :
    names cs = (Text.pieces '/' cs).filterMap entryName? := by
  rw [names, ← List.filterMap_eq_map, ← List.filterMap_eq_filter, List.filterMap_filterMap]
  refine List.filterMap_congr fun piece _ => ?_
  by_cases h : piece = [] <;> simp [entryName?, h]

section

variable {here : Path} {steps : List (List Char)}

theorem names_joinAll (here : Path) (h : ∀ name ∈ steps, '/' ∉ name) :
    names (here.joinAll steps).text.toList =
      names here.text.toList ++ steps.filterMap entryName? := by
  induction steps generalizing here with
  | nil => simp
  | cons name steps ih =>
      obtain ⟨hname, hsteps⟩ := List.forall_mem_cons.1 h
      rw [Path.joinAll_cons, ih _ hsteps, names_eq_filterMap,
        Path.toList_join (Path.not_startsAtRoot_ofList hname),
        Path.filterMap_pieces_opened_append rfl, ← names_eq_filterMap, String.toList_ofList,
        Text.pieces_of_not_mem hname, List.append_assoc, ← List.filterMap_append,
        List.singleton_append]

/-- A text that some characters are left out of can be a path if it could before. -/
theorem IsPathText.of_sublist {path path' : String} (h : IsPathText path)
    (hpath : path'.toList.Sublist path.toList) (hne : path' ≠ "") : IsPathText path' := by
  have hsize := Text.width_le_of_sublist hpath
  rw [Text.width_toList, Text.width_toList] at hsize
  refine ⟨?_, hne, Nat.le_trans hsize h.fits⟩
  have hnul := h.noNul
  rw [← Bool.not_eq_true, List.contains_iff_mem] at hnul ⊢
  exact fun hmem => hnul (hpath.subset hmem)

theorem filterMap_ne_nil_of_endsWithName (h : EndsWithName steps) (hne : steps ≠ []) :
    steps.filterMap entryName? ≠ [] := by
  obtain ⟨rest, name, rfl⟩ := (List.eq_nil_or_concat' steps).resolve_left hne
  have hname : name ≠ [] := by simpa [EndsWithName] using h
  simp [entryName?, hname]

/-- A path that ends with a name does not end with a slash. -/
theorem wantsDirectory_of_endsWithName (h : EndsWithName steps) (hne : steps ≠ [])
    (hslash : ∀ name ∈ steps, '/' ∉ name) (here : Path) :
    wantsDirectory (here.joinAll steps).text = false := by
  obtain ⟨rest, name, rfl⟩ := (List.eq_nil_or_concat' steps).resolve_left hne
  have hname : name ≠ [] := by simpa [EndsWithName] using h
  have hlast : '/' ∉ name := hslash name (by simp)
  rw [Disk.wantsDirectory, decide_eq_false_iff_not, joinAll, List.foldl_append, List.foldl_cons,
    List.foldl_nil, Path.toList_join (Path.not_startsAtRoot_ofList hlast), String.toList_ofList,
    List.getLast?_append_of_ne_nil _ hname]
  exact fun hmem => hlast (List.mem_of_getLast? hmem)

theorem startFrom_of_isAbsolute {path : Path} (h : path.isAbsolute = true) (place : Location) :
    startFrom place path.text = [] := by
  rw [Path.isAbsolute] at h
  rw [startFrom, if_pos h]

theorem text_ne_empty_of_isAbsolute {path : Path} (h : path.isAbsolute = true) :
    path.text ≠ "" := by
  intro hempty
  rw [Path.isAbsolute, hempty] at h
  cases h

/-- **What a path runs through are directories.** -/
theorem stat_of_stat_joinAll {found : Location} {node : Node} (hhere : here.isAbsolute = true)
    (hslash : ∀ name ∈ steps, '/' ∉ name) (hname : steps.filterMap entryName? ≠ [])
    (h : d.stat true (here.joinAll steps).text = .ok (found, node)) :
    ∃ place hops, d.stat true here.text = .ok (place, .directory) ∧
      d.Leads true hops place (steps.filterMap entryName?) (.found found node) := by
  rw [stat_eq_ok_iff, resolve_eq_ok_iff, names_joinAll here hslash,
    startFrom_of_isAbsolute (Path.isAbsolute_joinAll hhere steps)] at h
  obtain ⟨hpath, -, hleads⟩ := h
  obtain ⟨place, hops, hfirst, hrest⟩ := hleads.exists_of_append hname
  have hhereText := hpath.of_sublist (Path.prefix_joinAll here hslash).sublist
    (text_ne_empty_of_isAbsolute hhere)
  refine ⟨place, hops, stat_eq_ok_iff.2 (resolve_eq_ok_iff.2 ⟨hhereText, ?_, ?_⟩), hrest⟩
  · exact fun _ => ⟨place, rfl⟩
  · rwa [startFrom_of_isAbsolute hhere]

theorem exists_stat_of_stat_joinAll {found : Location} {node : Node}
    (hhere : here.isAbsolute = true) (hslash : ∀ name ∈ steps, '/' ∉ name)
    (hlast : EndsWithName steps) (h : d.stat true (here.joinAll steps).text = .ok (found, node)) :
    ∃ met, d.stat true here.text = .ok met := by
  by_cases hne : steps = []
  · subst hne
    exact ⟨_, h⟩
  · obtain ⟨place, _, hplace, -⟩ :=
      stat_of_stat_joinAll hhere hslash (filterMap_ne_nil_of_endsWithName hlast hne) h
    exact ⟨_, hplace⟩

/-- What a path leads to is there, if only as a link. -/
theorem hasEntry_of_stat {path : Path} {met : Location × Node}
    (h : d.stat true path.text = .ok met) : d.hasEntry path = true := by
  obtain ⟨found, node⟩ := met
  obtain ⟨hpath, hsuits, hleads⟩ := resolve_eq_ok_iff.1 (stat_eq_ok_iff.1 h)
  have hstat : ∃ met, d.stat false path.text = .ok met := by
    cases hwants : wantsDirectory path.text with
    | true =>
        -- a path that ends with a slash is followed through the last link in any case
        refine ⟨(found, node), stat_eq_ok_iff.2 (resolve_eq_ok_iff.2 ⟨hpath, hsuits, ?_⟩)⟩
        rwa [hwants]
    | false =>
        obtain ⟨found', node', hleads'⟩ := hleads.exists_unfollowed
        refine ⟨(found', node'), stat_eq_ok_iff.2 (resolve_eq_ok_iff.2 ⟨hpath, ?_, ?_⟩)⟩
        · rw [Target.Suits, hwants]
          rintro ⟨⟩
        · rwa [hwants]
  obtain ⟨met, hmet⟩ := hstat
  rw [hasEntry, hmet]
  rfl

/-- **Writing rows of slashes as one** does not change where a path leads, unless it ends with a
slash. -/
theorem stat_singleSlashed {p : Path} {cs : List Char} {found : Location} {node : Node}
    (hp : p.text.toList = '/' :: cs) (hlast : EndsWithName (Text.pieces '/' cs))
    (h : d.stat true p.text = .ok (found, node)) :
    d.stat true p.singleSlashed.text = .ok (found, node) := by
  have hslash : ∀ name ∈ Text.pieces '/' cs, '/' ∉ name := fun _ => Text.not_mem_of_mem_pieces
  have hnames : names p.singleSlashed.text.toList = names p.text.toList := by
    rw [Path.singleSlashed_eq_joinAll hp, names_joinAll _ hslash, names_eq_filterMap p.text.toList,
      hp]
    rfl
  have habsolute : p.singleSlashed.isAbsolute = true := by
    rw [Path.singleSlashed_eq_joinAll hp]
    exact Path.isAbsolute_joinAll Path.isAbsolute_slash _
  have hwants : wantsDirectory p.singleSlashed.text = false := by
    rw [Path.singleSlashed_eq_joinAll hp]
    exact wantsDirectory_of_endsWithName hlast (Text.pieces_ne_nil _ _) hslash _
  have hp' : p.isAbsolute = true := by
    rw [Path.isAbsolute, hp]
    rfl
  rw [stat_eq_ok_iff, resolve_eq_ok_iff, startFrom_of_isAbsolute hp'] at h
  obtain ⟨hpath, -, hleads⟩ := h
  have hsublist : p.singleSlashed.text.toList.Sublist p.text.toList := by
    rw [Path.singleSlashed, String.toList_ofList]
    exact List.destutter_sublist ..
  rw [stat_eq_ok_iff, resolve_eq_ok_iff, startFrom_of_isAbsolute habsolute, hnames]
  refine ⟨hpath.of_sublist hsublist (text_ne_empty_of_isAbsolute habsolute), fun hw => ?_, hleads⟩
  rw [hwants] at hw
  cases hw

end

end Disk

end Testbench
