/-
**Where paths lead.**

A path is followed name by name, and a link on the way is replaced by its target.  What can be met
on the way is listed here once, as a relation with one rule for each thing that can be met, and what
is proved of paths is proved by going through these rules.

Main definitions:

* `Testbench.Disk.Leads` — following names from a place;
* `Testbench.Disk.Target.On` — a target that is what the disk has there;
* `Testbench.Disk.Writable`, `Testbench.Disk.Target.afterPut` — a place for a file, and what becomes
  of targets when a file is put there.

Main results:

* `Testbench.Disk.walk_eq_ok_iff` — the relation describes how paths are followed;
* `Testbench.Disk.Leads.exists_of_append` — names behind others are followed from a directory;
* `Testbench.Disk.Leads.on` — a path leads to what the disk has there;
* `Testbench.Disk.Leads.put`, `Testbench.Disk.resolve_put` — **putting a file somewhere changes
  where no path leads**.
-/

import Testbench.World.Disk

set_option relaxedAutoImplicit false
set_option autoImplicit false

namespace Testbench.Disk

/-! ### Following names -/

/-- The name of an entry: not a dot or two, and not too long. -/
structure IsEntryName (name : String) : Prop where
  ne_here : name ≠ "."
  ne_up : name ≠ ".."
  fits : name.utf8ByteSize ≤ longestName

/-- The place that a path starts from, taken from a directory. -/
def startFrom (place : Location) (path : String) : Location :=
  if Path.startsAtRoot path.toList then [] else place

/-- **Following names from a place**, through no more links than a number says. -/
inductive Leads (d : Disk) (follow : Bool) : Nat → Location → List String → Target → Prop
  | here {hops : Nat} {place : Location} {node : Node} (hnode : d.node? place = some node) :
      Leads d follow hops place [] (.found place node)
  | stay {hops : Nat} {place : Location} {rest : List String} {t : Target}
      (hplace : d.node? place = some .directory) (hrest : Leads d follow hops place rest t) :
      Leads d follow hops place ("." :: rest) t
  | up {hops : Nat} {place : Location} {rest : List String} {t : Target}
      (hplace : d.node? place = some .directory) (hrest : Leads d follow hops place.tail rest t) :
      Leads d follow hops place (".." :: rest) t
  /-- The last name is the name of nothing. -/
  | vacant {hops : Nat} {place : Location} {name : String}
      (hplace : d.node? place = some .directory) (hname : IsEntryName name)
      (hnode : d.node? (name :: place) = none) :
      Leads d follow hops place [name] (.vacant (name :: place))
  /-- The last name is that of a link, which is what was asked for. -/
  | keep {hops : Nat} {place : Location} {name target : String}
      (hplace : d.node? place = some .directory) (hname : IsEntryName name)
      (hnode : d.node? (name :: place) = some (.link target)) (hkeep : follow = false) :
      Leads d follow hops place [name] (.found (name :: place) (.link target))
  | jump {hops : Nat} {place : Location} {name target : String} {rest : List String} {t : Target}
      (hplace : d.node? place = some .directory) (hname : IsEntryName name)
      (hnode : d.node? (name :: place) = some (.link target)) (hgo : rest = [] → follow = true)
      (hrest : Leads d follow hops (startFrom place target) (names target.toList ++ rest) t) :
      Leads d follow (hops + 1) place (name :: rest) t
  | enter {hops : Nat} {place : Location} {name : String} {node : Node} {rest : List String}
      {t : Target} (hplace : d.node? place = some .directory) (hname : IsEntryName name)
      (hnode : d.node? (name :: place) = some node) (hlink : ∀ target, node ≠ .link target)
      (hrest : Leads d follow hops (name :: place) rest t) :
      Leads d follow hops place (name :: rest) t

variable {d : Disk} {follow : Bool} {hops : Nat} {place : Location} {t : Target}

/-- What is done at a link on the way. -/
def jumpOf (d : Disk) (follow : Bool) : Nat → Location → List String → Except Fault Target
  | 0 => fun _ _ => .error .tooManyLinks
  | hops + 1 => d.walk follow hops

theorem walk_eq_walkTo (d : Disk) (follow : Bool) (hops : Nat) :
    d.walk follow hops = d.walkTo follow (d.jumpOf follow hops) := by
  cases hops <;> rfl

/-- What is done with the name of an entry. -/
theorem walkTo_entry {jump : Location → List String → Except Fault Target} {name : String}
    (hplace : d.node? place = some .directory) (hname : IsEntryName name) (rest : List String) :
    d.walkTo follow jump place (name :: rest) =
      match d.node? (name :: place) with
      | none => if rest = [] then .ok (.vacant (name :: place)) else .error .noSuchFile
      | some (.link target) =>
          if rest = [] ∧ ¬follow then .ok (.found (name :: place) (.link target))
          else jump (startFrom place target) (names target.toList ++ rest)
      | some _ => d.walkTo follow jump (name :: place) rest := by
  rw [walkTo, hplace]
  simp only [hname.ne_here, hname.ne_up, Nat.not_lt.2 hname.fits, if_false]
  rfl

theorem Leads.walk_eq {names : List String} (h : d.Leads follow hops place names t) :
    d.walk follow hops place names = .ok t := by
  induction h with
  | here hnode => rw [walk_eq_walkTo, walkTo, hnode]
  | stay hplace _ ih | up hplace _ ih =>
      rw [walk_eq_walkTo] at ih ⊢
      simp [walkTo, hplace, ih]
  | vacant hplace hname hnode =>
      rw [walk_eq_walkTo, walkTo_entry hplace hname, hnode]
      rfl
  | keep hplace hname hnode hkeep =>
      rw [walk_eq_walkTo, walkTo_entry hplace hname, hnode, hkeep]
      rfl
  | jump hplace hname hnode hgo _ ih =>
      rw [walk_eq_walkTo, walkTo_entry hplace hname, hnode]
      refine (if_neg ?_).trans ih
      rintro ⟨hrest, hkeep⟩
      exact hkeep (hgo hrest)
  | @enter _ _ _ node _ _ hplace hname hnode hlink _ ih =>
      rw [walk_eq_walkTo] at ih ⊢
      rw [walkTo_entry hplace hname, hnode]
      cases node with
      | link target => exact absurd rfl (hlink target)
      | directory | file => exact ih

section Followed

-- what lies behind links is taken for granted here, and is known by induction on their number
variable (hjump : ∀ place names t, d.jumpOf follow hops place names = .ok t →
  ∃ fewer, hops = fewer + 1 ∧ d.Leads follow fewer place names t)
include hjump

theorem leads_of_entry {name : String} {rest : List String}
    (hplace : d.node? place = some .directory) (hname : IsEntryName name)
    (hrest : d.walkTo follow (d.jumpOf follow hops) (name :: place) rest = .ok t →
      d.Leads follow hops (name :: place) rest t)
    (h : d.walkTo follow (d.jumpOf follow hops) place (name :: rest) = .ok t) :
    d.Leads follow hops place (name :: rest) t := by
  rw [walkTo_entry hplace hname] at h
  cases hnode : d.node? (name :: place) with
  | none =>
      rw [hnode] at h
      dsimp only at h
      by_cases hlast : rest = []
      · rw [if_pos hlast] at h
        cases h
        subst hlast
        exact .vacant hplace hname hnode
      · rw [if_neg hlast] at h
        cases h
  | some node =>
      rw [hnode] at h
      cases node with
      | link target =>
          dsimp only at h
          by_cases hkeep : rest = [] ∧ ¬follow
          · rw [if_pos hkeep] at h
            cases h
            obtain ⟨rfl, hfollow⟩ := hkeep
            exact .keep hplace hname hnode (by simpa using hfollow)
          · rw [if_neg hkeep] at h
            obtain ⟨fewer, rfl, hleads⟩ := hjump _ _ _ h
            refine .jump hplace hname hnode (fun hlast => ?_) hleads
            exact Decidable.byContradiction fun hfollow => hkeep ⟨hlast, hfollow⟩
      | directory | file => exact .enter hplace hname hnode (by rintro _ ⟨⟩) (hrest h)

theorem leads_of_walkTo (names : List String) : ∀ place t,
    d.walkTo follow (d.jumpOf follow hops) place names = .ok t →
      d.Leads follow hops place names t := by
  induction names with
  | nil =>
      intro place t h
      rw [walkTo] at h
      cases hnode : d.node? place with
      | none => rw [hnode] at h; cases h
      | some node =>
          rw [hnode] at h
          cases h
          exact .here hnode
  | cons name rest ih =>
      intro place t h
      have hplace : d.node? place = some .directory := by
        rw [walkTo] at h
        split at h
        · assumption
        · cases h
        · cases h
      by_cases hhere : name = "."
      · subst hhere
        rw [walkTo, hplace] at h
        exact .stay hplace (ih _ _ h)
      by_cases hup : name = ".."
      · subst hup
        rw [walkTo, hplace] at h
        exact .up hplace (ih _ _ h)
      by_cases hfits : name.utf8ByteSize ≤ longestName
      · exact leads_of_entry hjump hplace ⟨hhere, hup, hfits⟩ (ih _ _) h
      · rw [walkTo, hplace] at h
        simp [hhere, hup, Nat.lt_of_not_le hfits] at h

end Followed

/-- **The rules describe how paths are followed.** -/
theorem walk_eq_ok_iff {names : List String} :
    d.walk follow hops place names = .ok t ↔ d.Leads follow hops place names t := by
  constructor
  · intro h
    rw [walk_eq_walkTo] at h
    -- the induction is on the links that may be met; on the names between two links it is inside
    induction hops generalizing place names t with
    | zero =>
        refine leads_of_walkTo (fun _ _ _ hjump => ?_) names place t h
        cases hjump
    | succ hops ih =>
        refine leads_of_walkTo (fun _ _ _ hjump => ⟨hops, rfl, ih ?_⟩) names place t h
        rwa [← walk_eq_walkTo]
  · exact Leads.walk_eq

/-! ### Names behind names -/

/-- An entry is looked for in a directory. -/
theorem Leads.directory_of_cons {name : String} {rest : List String}
    (h : d.Leads follow hops place (name :: rest) t) : d.node? place = some .directory := by
  cases h <;> assumption

theorem Leads.exists_of_nil_append {rest : List String} (hrest : rest ≠ [])
    (h : d.Leads follow hops place rest t) :
    ∃ between fewer, d.Leads true hops place [] (.found between .directory) ∧
      d.Leads follow fewer between rest t := by
  cases rest with
  | nil => exact absurd rfl hrest
  | cons name rest => exact ⟨place, hops, .here h.directory_of_cons, h⟩

/-- **Names behind others are followed from a directory** that the others lead to. -/
theorem Leads.exists_of_append {first rest : List String} (hrest : rest ≠ [])
    (h : d.Leads follow hops place (first ++ rest) t) :
    ∃ between fewer, d.Leads true hops place first (.found between .directory) ∧
      d.Leads follow fewer between rest t := by
  generalize hnames : first ++ rest = names at h
  induction h generalizing first with
  | here => exact absurd (List.append_eq_nil_iff.1 hnames).2 hrest
  | stay hplace hleads ih =>
      rcases List.append_eq_cons_iff.1 hnames with ⟨rfl, rfl⟩ | ⟨first, rfl, rfl⟩
      · exact (Leads.stay hplace hleads).exists_of_nil_append hrest
      · obtain ⟨between, fewer, hfirst, hleads⟩ := ih rfl
        exact ⟨between, fewer, .stay hplace hfirst, hleads⟩
  | up hplace hleads ih =>
      rcases List.append_eq_cons_iff.1 hnames with ⟨rfl, rfl⟩ | ⟨first, rfl, rfl⟩
      · exact (Leads.up hplace hleads).exists_of_nil_append hrest
      · obtain ⟨between, fewer, hfirst, hleads⟩ := ih rfl
        exact ⟨between, fewer, .up hplace hfirst, hleads⟩
  | vacant hplace hname hnode =>
      rcases List.append_eq_cons_iff.1 hnames with ⟨rfl, rfl⟩ | ⟨first, rfl, hlast⟩
      · exact (Leads.vacant hplace hname hnode).exists_of_nil_append hrest
      · exact absurd (List.append_eq_nil_iff.1 hlast.symm).2 hrest
  | keep hplace hname hnode hkeep =>
      rcases List.append_eq_cons_iff.1 hnames with ⟨rfl, rfl⟩ | ⟨first, rfl, hlast⟩
      · exact (Leads.keep hplace hname hnode hkeep).exists_of_nil_append hrest
      · exact absurd (List.append_eq_nil_iff.1 hlast.symm).2 hrest
  | jump hplace hname hnode hgo hleads ih =>
      rcases List.append_eq_cons_iff.1 hnames with ⟨rfl, rfl⟩ | ⟨first, rfl, rfl⟩
      · exact (Leads.jump hplace hname hnode hgo hleads).exists_of_nil_append hrest
      · -- the names in the link come first
        obtain ⟨between, fewer, hfirst, hleads⟩ := ih (List.append_assoc ..)
        exact ⟨between, fewer, .jump hplace hname hnode (fun _ => rfl) hfirst, hleads⟩
  | enter hplace hname hnode hlink hleads ih =>
      rcases List.append_eq_cons_iff.1 hnames with ⟨rfl, rfl⟩ | ⟨first, rfl, rfl⟩
      · exact (Leads.enter hplace hname hnode hlink hleads).exists_of_nil_append hrest
      · obtain ⟨between, fewer, hfirst, hleads⟩ := ih rfl
        exact ⟨between, fewer, .enter hplace hname hnode hlink hfirst, hleads⟩

/-- What is found behind links is found without following the last one. -/
theorem Leads.exists_unfollowed {names : List String} {node : Node} {found : Location}
    (h : d.Leads true hops place names (.found found node)) :
    ∃ found' node', d.Leads false hops place names (.found found' node') := by
  generalize htarget : Target.found found node = t at h
  induction h with
  | here hnode => exact ⟨_, _, .here hnode⟩
  | stay hplace _ ih =>
      obtain ⟨found', node', hleads⟩ := ih htarget
      exact ⟨found', node', .stay hplace hleads⟩
  | up hplace _ ih =>
      obtain ⟨found', node', hleads⟩ := ih htarget
      exact ⟨found', node', .up hplace hleads⟩
  | vacant => cases htarget
  | keep _ _ _ hkeep => cases hkeep
  | @jump _ _ _ _ rest _ hplace hname hnode hgo _ ih =>
      by_cases hlast : rest = []
      · subst hlast
        exact ⟨_, _, .keep hplace hname hnode rfl⟩
      · obtain ⟨found', node', hleads⟩ := ih htarget
        exact ⟨found', node', .jump hplace hname hnode (fun h => absurd h hlast) hleads⟩
  | enter hplace hname hnode hlink _ ih =>
      obtain ⟨found', node', hleads⟩ := ih htarget
      exact ⟨found', node', .enter hplace hname hnode hlink hleads⟩

/-- The name of an entry that is on the way is that of a node. -/
theorem Leads.exists_node?_of_cons {name : String} {rest : List String} {node : Node}
    {found : Location} (hhere : name ≠ ".") (hup : name ≠ "..")
    (h : d.Leads follow hops place (name :: rest) (.found found node)) :
    ∃ node', d.node? (name :: place) = some node' := by
  cases h with
  | stay => exact absurd rfl hhere
  | up => exact absurd rfl hup
  | keep _ _ hnode | jump _ _ hnode | enter _ _ hnode => exact ⟨_, hnode⟩

/-! ### Targets -/

/-- The target is what the disk has there. -/
def Target.On (d : Disk) : Target → Prop
  | .found place node => d.node? place = some node
  | .vacant place => d.node? place = none

/-- A path leads to what the disk has there. -/
theorem Leads.on {names : List String} (h : d.Leads follow hops place names t) : t.On d := by
  induction h with
  | here hnode => exact hnode
  | vacant _ _ hnode => exact hnode
  | keep _ _ hnode _ => exact hnode
  | stay _ _ ih | up _ _ ih | jump _ _ _ _ _ ih | enter _ _ _ _ _ ih => exact ih

/-- A file can be written at the place: there is one, or there is nothing. -/
def Writable (d : Disk) (place : Location) : Prop :=
  d.node? place = none ∨ ∃ content executable, d.node? place = some (.file content executable)

namespace Writable

variable {other : Location}

theorem ne_of_directory (h : d.Writable place) (ho : d.node? other = some .directory) :
    other ≠ place := by
  rintro rfl
  rcases h with hnone | ⟨_, _, hfile⟩
  · cases ho.symm.trans hnone
  · cases ho.symm.trans hfile

theorem ne_of_link {target : String} (h : d.Writable place)
    (ho : d.node? other = some (.link target)) : other ≠ place := by
  rintro rfl
  rcases h with hnone | ⟨_, _, hfile⟩
  · cases ho.symm.trans hnone
  · cases ho.symm.trans hfile

/-- The root is a directory. -/
theorem ne_root (h : d.Writable place) : place ≠ [] := by
  have hroot : d.node? [] = some .directory := rfl
  exact (h.ne_of_directory hroot).symm

end Writable

/-! ### Putting a file somewhere -/

/-- What becomes of a target when a node is put at a place. -/
def Target.afterPut (place : Location) (node : Node) : Target → Target
  | .found other n => .found other (if other = place then node else n)
  | .vacant other => if other = place then .found other node else .vacant other

theorem node?_put_of_ne (d : Disk) {other : Location} (hp : place ≠ []) (node : Node)
    (ho : other ≠ place) : (d.put place node).node? other = d.node? other := by
  rw [node?_put d hp, if_neg ho]

theorem replace_replace (place : Location) (node node' : Node) (nodes : List (Location × Node)) :
    replace place node' (replace place node nodes) = replace place node' nodes := by
  induction nodes with
  | nil => simp [replace]
  | cons entry rest ih =>
      by_cases h : entry.1 = place
      · simp [replace, h]
      · simp [replace, h, ih]

/-- Of two nodes put at one place the latter stays. -/
theorem put_put (d : Disk) (place : Location) (node node' : Node) :
    (d.put place node).put place node' = d.put place node' :=
  congrArg (Disk.mk · d.workingDirectory) (replace_replace place node node' d.nodes)

/-- **Putting a file somewhere changes where no path leads**, except that there is now something to
be found at that place. -/
theorem Leads.put {written : Location} {names : List String} (hw : d.Writable written)
    (content : List UInt8) (executable : Bool) (h : d.Leads follow hops place names t) :
    (d.put written (.file content executable)).Leads follow hops place names
      (t.afterPut written (.file content executable)) := by
  have hroot := hw.ne_root
  have hkept : ∀ {other}, other ≠ written →
      (d.put written (.file content executable)).node? other = d.node? other :=
    node?_put_of_ne d hroot _
  have hdirectory : ∀ {other}, d.node? other = some .directory →
      (d.put written (.file content executable)).node? other = some .directory := fun ho =>
    (hkept (hw.ne_of_directory ho)).trans ho
  have hwritten : ∀ {other}, other = written →
      (d.put written (.file content executable)).node? other =
        some (.file content executable) := fun ho => by
    rw [node?_put d hroot, if_pos ho]
  have hfile : ∀ target, Node.file content executable ≠ .link target := by
    rintro _ ⟨⟩
  induction h with
  | here hnode =>
      refine .here ?_
      rw [node?_put d hroot, hnode]
      split <;> rfl
  | stay hplace _ ih => exact .stay (hdirectory hplace) ih
  | up hplace _ ih => exact .up (hdirectory hplace) ih
  | @vacant _ place name hplace hname hnode =>
      rw [Target.afterPut]
      by_cases heq : name :: place = written
      · -- the name that was missing is now that of the file
        rw [if_pos heq]
        exact .enter (hdirectory hplace) hname (hwritten heq) hfile (.here (hwritten heq))
      · rw [if_neg heq]
        exact .vacant (hdirectory hplace) hname ((hkept heq).trans hnode)
  | keep hplace hname hnode hkeep =>
      have hne := hw.ne_of_link hnode
      rw [Target.afterPut, if_neg hne]
      exact .keep (hdirectory hplace) hname ((hkept hne).trans hnode) hkeep
  | jump hplace hname hnode hgo _ ih =>
      exact .jump (hdirectory hplace) hname ((hkept (hw.ne_of_link hnode)).trans hnode) hgo ih
  | @enter _ place name _ _ _ hplace hname hnode hlink _ ih =>
      by_cases heq : name :: place = written
      · -- a file was there before, so that this step is made on the way to it as it was before
        exact .enter (hdirectory hplace) hname (hwritten heq) hfile ih
      · exact .enter (hdirectory hplace) hname ((hkept heq).trans hnode) hlink ih

/-! ### Whole paths -/

/-- The text can be a path at all. -/
structure IsPathText (path : String) : Prop where
  noNul : path.toList.contains '\x00' = false
  ne_empty : path ≠ ""
  fits : path.utf8ByteSize ≤ longestPath

/-- The target, if the path may lead there: one that ends with a slash leads to a directory. -/
def suited (path : String) (t : Target) : Except Fault Target :=
  match wantsDirectory path, t with
  | true, .found _ .directory => .ok t
  | true, .found _ _ => .error .notDirectory
  | true, .vacant _ => .error .noSuchFile
  | false, _ => .ok t

/-- A path that ends with a slash leads to a directory, and other paths lead anywhere. -/
def Target.Suits (path : String) (t : Target) : Prop :=
  wantsDirectory path = true → ∃ place, t = .found place .directory

theorem suited_eq_ok_iff {path : String} {t' : Target} :
    suited path t = .ok t' ↔ t.Suits path ∧ t = t' := by
  cases hwants : wantsDirectory path with
  | false => simp [suited, Target.Suits, hwants]
  | true => rcases t with ⟨place, _ | _ | _⟩ | place <;> simp [suited, Target.Suits, hwants]

theorem resolve_of_isPathText {path : String} (h : IsPathText path) :
    d.resolve follow path = (d.walk (follow || wantsDirectory path) mostLinks
      (startFrom d.workingDirectory path) (names path.toList)).bind (suited path) := by
  rw [resolve]
  simp only [h.noNul, h.ne_empty, Nat.not_lt.2 h.fits, Bool.false_eq_true, if_false]
  rfl

theorem isPathText_of_resolve {path : String} (h : d.resolve follow path = .ok t) :
    IsPathText path := by
  by_cases hnul : path.toList.contains '\x00' = true
  · rw [resolve, if_pos hnul] at h
    cases h
  by_cases hempty : path = ""
  · rw [resolve, if_neg hnul, if_pos hempty] at h
    cases h
  by_cases hfits : path.utf8ByteSize ≤ longestPath
  · exact ⟨by simpa using hnul, hempty, hfits⟩
  · rw [resolve, if_neg hnul, if_neg hempty, if_pos (Nat.lt_of_not_le hfits)] at h
    cases h

/-- **Where a path leads**, by the rules. -/
theorem resolve_eq_ok_iff {path : String} :
    d.resolve follow path = .ok t ↔ IsPathText path ∧ t.Suits path ∧
      d.Leads (follow || wantsDirectory path) mostLinks (startFrom d.workingDirectory path)
        (names path.toList) t := by
  rw [← walk_eq_ok_iff]
  constructor
  · intro h
    have hpath := isPathText_of_resolve h
    rw [resolve_of_isPathText hpath] at h
    cases hwalk : d.walk (follow || wantsDirectory path) mostLinks
        (startFrom d.workingDirectory path) (names path.toList) with
    | error fault => rw [hwalk] at h; cases h
    | ok target =>
        rw [hwalk] at h
        obtain ⟨hsuits, rfl⟩ := suited_eq_ok_iff.1 h
        exact ⟨hpath, hsuits, rfl⟩
  · rintro ⟨hpath, hsuits, hwalk⟩
    rw [resolve_of_isPathText hpath, hwalk]
    exact suited_eq_ok_iff.2 ⟨hsuits, rfl⟩

/-- A path leads to what the disk has there. -/
theorem on_of_resolve {path : String} (h : d.resolve follow path = .ok t) : t.On d :=
  (resolve_eq_ok_iff.1 h).2.2.on

/-- **Putting a file somewhere changes where no path leads**, on the whole. -/
theorem resolve_put {written : Location} {path : String} (hw : d.Writable written)
    (content : List UInt8) (executable : Bool) (h : d.resolve follow path = .ok t) :
    (d.put written (.file content executable)).resolve follow path =
      .ok (t.afterPut written (.file content executable)) := by
  obtain ⟨hpath, hsuits, hleads⟩ := resolve_eq_ok_iff.1 h
  refine resolve_eq_ok_iff.2 ⟨hpath, fun hwants => ?_, hleads.put hw content executable⟩
  obtain ⟨place, rfl⟩ := hsuits hwants
  exact ⟨place, by rw [Target.afterPut, if_neg (hw.ne_of_directory hleads.on)]⟩

/-- A path has a node exactly if it leads to it. -/
theorem stat_eq_ok_iff {path : String} {node : Node} :
    d.stat follow path = .ok (place, node) ↔ d.resolve follow path = .ok (.found place node) := by
  rw [stat]
  cases d.resolve follow path with
  | error fault => constructor <;> (intro h; cases h)
  | ok target =>
      cases target with
      | found other n => constructor <;> (intro h; cases h; rfl)
      | vacant other => constructor <;> (intro h; cases h)

theorem node?_of_stat {path : String} {node : Node}
    (h : d.stat follow path = .ok (place, node)) : d.node? place = some node :=
  on_of_resolve (stat_eq_ok_iff.1 h)

theorem stat_put {written : Location} {path : String} {node : Node} (hw : d.Writable written)
    (content : List UInt8) (executable : Bool) (h : d.stat follow path = .ok (place, node)) :
    (d.put written (.file content executable)).stat follow path =
      .ok (place, if place = written then .file content executable else node) :=
  stat_eq_ok_iff.2 (resolve_put hw content executable (stat_eq_ok_iff.1 h))

/-- What can be read is a file. -/
theorem read_eq_ok_iff {path : Path} {content : List UInt8} :
    d.read path = .ok content ↔
      ∃ place executable, d.stat true path.text = .ok (place, .file content executable) := by
  rw [read]
  cases d.stat true path.text with
  | error fault =>
      constructor
      · intro h; cases h
      · rintro ⟨_, _, ⟨⟩⟩
  | ok met =>
      obtain ⟨place, node⟩ := met
      cases node with
      | file content' executable =>
          constructor
          · intro h; cases h; exact ⟨place, executable, rfl⟩
          · rintro ⟨_, _, h⟩; cases h; rfl
      | directory | link =>
          constructor
          · intro h; cases h
          · rintro ⟨_, _, h⟩; cases h

end Testbench.Disk
