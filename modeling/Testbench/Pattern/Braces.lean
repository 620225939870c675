/-
**Brace groups.**

A pattern may hold groups such as `{i,m,a}`; it stands for the patterns that arise by putting one
alternative in the place of each group.  Commas divide a group only at its own level, groups nest,
and a brace that is never closed leaves the whole pattern as it is.

The first group is replaced by each of its alternatives in turn, and what results is expanded
again, so that the first group varies slowest.

Main definitions:

* `Testbench.Braces.Group`, `Testbench.Braces.firstGroup?` — the first group of a pattern;
* `Testbench.Braces.expand` — the patterns that a pattern stands for.

Main results:

* `Testbench.Braces.firstGroup?_eq_some` — a group found, written out again, is the pattern;
* `Testbench.Braces.expand_induction` — induction along the expansion;
* `Testbench.Braces.expand_ne_nil` — every pattern stands for at least one.
-/

import Testbench.Text.Search

set_option relaxedAutoImplicit false
set_option autoImplicit false

namespace Testbench.Braces

/-! ### The first group -/

/-- The inside of a group up to its closing brace, at a depth of further open groups: the
alternatives, and the text after the group.  Nothing if the group is not closed. -/
def alternatives (depth : Nat) : List Char → Option (List (List Char) × List Char)
  | [] => none
  | c :: cs =>
      if c = '{' then
        (alternatives (depth + 1) cs).map fun (alts, tail) => (Text.inFront c alts, tail)
      else if c = '}' then
        if depth = 0 then some ([[]], cs)
        else (alternatives (depth - 1) cs).map fun (alts, tail) => (Text.inFront c alts, tail)
      else if c = ',' ∧ depth = 0 then
        (alternatives depth cs).map fun (alts, tail) => ([] :: alts, tail)
      else (alternatives depth cs).map fun (alts, tail) => (Text.inFront c alts, tail)

/-- A group inside a pattern: the text before it, its alternatives, and the text after it. -/
structure Group where
  before : List Char
  alts : List (List Char)
  after : List Char
deriving DecidableEq, Repr

/-- The group written out. -/
def Group.text (g : Group) : List Char :=
  g.before ++ '{' :: (Text.glue [','] g.alts ++ '}' :: g.after)

/-- The pattern with one alternative in the place of the group. -/
def Group.pick (g : Group) (alt : List Char) : List Char := g.before ++ alt ++ g.after

/-- The group at the first opening brace of a pattern, if the pattern has one that is closed. -/
def firstGroup? : List Char → Option Group
  | [] => none
  | c :: cs =>
      if c = '{' then (alternatives 0 cs).map fun (alts, tail) => ⟨[], alts, tail⟩
      else (firstGroup? cs).map fun g => { g with before := c :: g.before }

theorem alternatives_ne_nil {depth : Nat} {cs tail : List Char} {alts : List (List Char)}
    (h : alternatives depth cs = some (alts, tail)) : alts ≠ [] := by
  induction cs generalizing depth alts tail with
  | nil => simp [alternatives] at h
  | cons c cs ih =>
      have inFront_ne : ∀ ps, Text.inFront c ps ≠ [] := by
        intro ps
        cases ps <;> simp [Text.inFront]
      rw [alternatives] at h
      split at h
      · obtain ⟨⟨a, t⟩, -, hat⟩ := Option.map_eq_some_iff.1 h
        cases hat; exact inFront_ne a
      · split at h
        · split at h
          · cases h; simp
          · obtain ⟨⟨a, t⟩, -, hat⟩ := Option.map_eq_some_iff.1 h
            cases hat; exact inFront_ne a
        · split at h
          · obtain ⟨⟨a, t⟩, -, hat⟩ := Option.map_eq_some_iff.1 h
            cases hat; simp
          · obtain ⟨⟨a, t⟩, -, hat⟩ := Option.map_eq_some_iff.1 h
            cases hat; exact inFront_ne a

theorem glue_inFront (c : Char) {ps : List (List Char)} (h : ps ≠ []) :
    Text.glue [','] (Text.inFront c ps) = c :: Text.glue [','] ps := by
  cases ps with
  | nil => exact absurd rfl h
  | cons p ps => cases ps <;> simp [Text.inFront, Text.glue]

theorem glue_nil_cons {ps : List (List Char)} (h : ps ≠ []) :
    Text.glue [','] ([] :: ps) = ',' :: Text.glue [','] ps := by
  cases ps with
  | nil => exact absurd rfl h
  | cons p ps => simp [Text.glue]

/-- The inside of a group, written out again with its closing brace, is what was read. -/
theorem alternatives_eq_some {depth : Nat} {cs tail : List Char} {alts : List (List Char)}
    (h : alternatives depth cs = some (alts, tail)) : cs = Text.glue [','] alts ++ '}' :: tail := by
  induction cs generalizing depth alts tail with
  | nil => simp [alternatives] at h
  | cons c cs ih =>
      have step : ∀ {d : Nat},
          (alternatives d cs).map (fun (a, t) => (Text.inFront c a, t)) = some (alts, tail) →
          c :: cs = Text.glue [','] alts ++ '}' :: tail := by
        intro d h
        obtain ⟨⟨a, t⟩, ha, hat⟩ := Option.map_eq_some_iff.1 h
        cases hat
        rw [glue_inFront c (alternatives_ne_nil ha), List.cons_append, ← ih ha]
      rw [alternatives] at h
      split at h
      · exact step h
      · split at h
        · next hc =>
            split at h
            · cases h; simp [Text.glue, hc]
            · exact step h
        · split at h
          · next hc =>
              obtain ⟨⟨a, t⟩, ha, hat⟩ := Option.map_eq_some_iff.1 h
              cases hat
              rw [glue_nil_cons (alternatives_ne_nil ha), List.cons_append, ← ih ha, hc.1]
          · exact step h

/-- A group that was found, written out again, is the pattern. -/
theorem firstGroup?_eq_some {cs : List Char} {g : Group} (h : firstGroup? cs = some g) :
    g.text = cs := by
  induction cs generalizing g with
  | nil => simp [firstGroup?] at h
  | cons c cs ih =>
      rw [firstGroup?] at h
      split at h
      · next hc =>
          obtain ⟨⟨a, t⟩, ha, rfl⟩ := Option.map_eq_some_iff.1 h
          simp [Group.text, alternatives_eq_some ha, hc]
      · obtain ⟨g', hg, rfl⟩ := Option.map_eq_some_iff.1 h
        simpa [Group.text] using congrArg (c :: ·) (ih hg)

theorem firstGroup?_alts_ne_nil {cs : List Char} {g : Group} (h : firstGroup? cs = some g) :
    g.alts ≠ [] := by
  induction cs generalizing g with
  | nil => simp [firstGroup?] at h
  | cons c cs ih =>
      rw [firstGroup?] at h
      split at h
      · obtain ⟨⟨a, t⟩, ha, rfl⟩ := Option.map_eq_some_iff.1 h
        exact alternatives_ne_nil ha
      · obtain ⟨g', hg, rfl⟩ := Option.map_eq_some_iff.1 h
        exact ih (g := g') hg

theorem length_le_glue {alt : List Char} {alts : List (List Char)} (h : alt ∈ alts) :
    alt.length ≤ (Text.glue [','] alts).length := by
  induction alts with
  | nil => simp at h
  | cons p ps ih =>
      cases ps with
      | nil => simp_all [Text.glue]
      | cons q ps =>
          simp only [Text.glue, List.length_append]
          rcases List.mem_cons.1 h with rfl | h
          · omega
          · have := ih h; omega

/-- Picking an alternative makes the pattern at least two characters shorter. -/
theorem length_pick {cs : List Char} {g : Group} (h : firstGroup? cs = some g) {alt : List Char}
    (ha : alt ∈ g.alts) : (g.pick alt).length + 2 ≤ cs.length := by
  rw [← firstGroup?_eq_some h]
  have := length_le_glue ha
  simp only [Group.pick, Group.text, List.length_append, List.length_cons]
  omega

/-! ### Expansion -/

/-- The **patterns that a pattern stands for**, the first group varying slowest. -/
def expand (cs : List Char) : List (List Char) :=
  match h : firstGroup? cs with
  | none => [cs]
  | some g => g.alts.attach.flatMap fun ⟨alt, ha⟩ =>
      have : (g.pick alt).length < cs.length := by have := length_pick h ha; omega
      expand (g.pick alt)
termination_by cs.length

/-- The patterns that a pattern text stands for. -/
def expandText (pattern : String) : List String := (expand pattern.toList).map String.ofList

theorem expand_of_none {cs : List Char} (h : firstGroup? cs = none) : expand cs = [cs] := by
  rw [expand]; split
  · rfl
  · simp_all

theorem expand_of_some {cs : List Char} {g : Group} (h : firstGroup? cs = some g) :
    expand cs = g.alts.flatMap fun alt => expand (g.pick alt) := by
  rw [expand]; split
  · simp_all
  · next g' hg =>
      obtain rfl : g' = g := by simpa [hg] using h
      simp [List.flatMap, List.attach_map_val (f := fun alt => expand (g'.pick alt))]

/-- **Induction along the expansion**: what holds of every pattern without a group, and of a pattern
whenever it holds of all that arise by picking an alternative of its first group, holds of every
pattern. -/
@[elab_as_elim]
theorem expand_induction {motive : List Char → Prop}
    (alone : ∀ cs, firstGroup? cs = none → motive cs)
    (group : ∀ cs g, firstGroup? cs = some g → (∀ alt ∈ g.alts, motive (g.pick alt)) → motive cs)
    (cs : List Char) : motive cs := by
  -- the pattern gets shorter with every alternative that is picked
  induction hn : cs.length using Nat.strongRecOn generalizing cs with
  | _ n ih =>
      cases h : firstGroup? cs with
      | none => exact alone cs h
      | some g =>
          refine group cs g h fun alt halt => ?_
          have := length_pick h halt
          exact ih _ (by omega) _ rfl

/-- Every pattern stands for at least one. -/
theorem expand_ne_nil (cs : List Char) : expand cs ≠ [] := by
  induction cs using expand_induction with
  | alone cs h => simp [expand_of_none h]
  | group cs g h ih =>
      obtain ⟨alt, alts, halts⟩ := List.exists_cons_of_ne_nil (firstGroup?_alts_ne_nil h)
      have halt : alt ∈ g.alts := by simp [halts]
      rw [expand_of_some h]
      exact fun hnil => ih alt halt (List.flatMap_eq_nil_iff.1 hnil alt halt)

end Testbench.Braces
