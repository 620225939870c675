/-
**Expanding braces by positions.**

The expansion can be done on a text as bytes, without any list of characters: one pass looks for the
first brace and from there for the place where it is closed, counts how many braces are open, and
notes the positions of the commas that divide the group; then parts of the text are cut out between
these positions and put together anew.  There is much that can go wrong in this way of doing it: the
counter could be lowered when it is zero, a position could lie inside a character, a part could end
before it begins, and the texts that are put together could be as long as the one before.

None of this happens, whatever the text is.  The positions that are noted stand in ascending order,
each at a brace or a comma, which take one byte; and every text that is expanded next has lost a
pair of braces.

Main definitions:

* `Testbench.Braces.Scan`, `Testbench.Braces.Scan.step`, `Testbench.Braces.Scan.run` — the pass over
  a text;
* `Testbench.Braces.branches` — the texts that are expanded next;
* `Testbench.Braces.expandByPositions` — the expansion by positions, with all that can go wrong;
* `Testbench.Braces.Scan.Sound` — the invariant of the pass;
* `Testbench.Braces.Scan.Finds` — what it comes to;
* `Testbench.Braces.Scan.Marks` — what the positions are that it has noted.

Main results:

* `Testbench.Braces.Scan.sound_step`, `Testbench.Braces.Scan.sound_run` — the invariant is kept by
  every step, and nothing goes wrong;
* `Testbench.Braces.Scan.finds_run` — the pass finds the group, if it is closed;
* `Testbench.Braces.branches_eq` — what is expanded next are the choices of the first group;
* `Testbench.Braces.width_pick`, `Testbench.Braces.count_open_pick` — every choice has lost a pair
  of braces;
* `Testbench.Braces.expandByPositions_eq` — the expansion by positions is the expansion;
* `Testbench.Braces.expandByPositions_runs_through` — **the expansion by positions never goes
  wrong**.
-/

import Testbench.Proofs.StrayBraces
import Testbench.Proofs.TextOffsets

set_option relaxedAutoImplicit false
set_option autoImplicit false

namespace Testbench.Braces

open Text (Crash StandsAt indexed part width)

/-! ### The pass -/

/-- A search for the end of a group: the number of braces that are open, and the positions of the
commas that divide the group and of the brace that closes it. -/
structure Scan where
  depth : Nat := 0
  commas : List Nat := []
  close : Option Nat := none
deriving DecidableEq, Repr

namespace Scan

/-- Reads one character. -/
def step (s : Scan) (i : Nat) (c : Char) : Except Crash Scan :=
  if c = '{' then .ok { s with depth := s.depth + 1 }
  else if c = '}' then
    if s.depth = 0 then .error .belowZero
    else .ok { s with depth := s.depth - 1, close := if s.depth = 1 then some i else none }
  else if c = ',' ∧ s.depth = 1 then .ok { s with commas := s.commas ++ [i] }
  else .ok s

/-- Reads characters until the group is closed. -/
def run (s : Scan) : List (Nat × Char) → Except Crash Scan
  | [] => .ok s
  | (i, c) :: rest => do
      let s ← s.step i c
      if s.close.isSome then return s
      s.run rest

end Scan

/-! ### The expansion -/

/-- The position of the first brace that opens a group. -/
def opening? (p : String) : Option Nat := ((indexed 0 p.toList).find? (·.2 = '{')).map (·.1)

/-- The pass over the characters that stand from a position on. -/
def scanOver (opening : Nat) (read : List Char) : Except Crash Scan :=
  Scan.run {} ((indexed 0 read).map fun x => (opening + x.1, x.2))

/-- The pass over what stands in a text from a position on. -/
def scanFrom (p : String) (opening : Nat) : Except Crash Scan := do
  let rest ← part p opening p.utf8ByteSize
  scanOver opening rest.toList

/-- What stands between each of some positions and the next, without the character of one byte at
the former. -/
def partsBetween (p : String) (bounds : List Nat) : Except Crash (List String) :=
  (bounds.zip bounds.tail).mapM fun (i, j) => part p (i + 1) j

/-- The text with each of its alternatives in the place of a group, which is given by the positions
that were noted. -/
def choices (p : String) (opening : Nat) (commas : List Nat) (close : Nat) :
    Except Crash (List String) := do
  let before ← part p 0 opening
  let after ← part p (close + 1) p.utf8ByteSize
  let alts ← partsBetween p (opening :: (commas ++ [close]))
  return alts.map fun alt => before ++ alt ++ after

/-- The **texts that are expanded next**, if the first brace is closed. -/
def branches (p : String) : Except Crash (Option (List String)) :=
  match opening? p with
  | none => .ok none
  | some opening => do
      let found ← scanFrom p opening
      match found.close with
      | none => return none
      | some close => return some (← choices p opening found.commas close)

/-! ### The invariant of the pass -/

namespace Scan

/-- The positions that were noted, with the characters there. -/
def recorded (s : Scan) : List (Nat × Char) :=
  s.commas.map (·, ',') ++ s.close.toList.map (·, '}')

/-- The **invariant of the pass** behind the first brace: what was noted was read, in this order;
and some brace is open until the group is closed. -/
structure Sound (s : Scan) (read : List (Nat × Char)) : Prop where
  recorded : s.recorded.Sublist read
  depth_pos : s.close = none → 0 < s.depth
  depth_le : s.depth ≤ read.length + 1

theorem recorded_of_open {s : Scan} (h : s.close = none) :
    s.recorded = s.commas.map (·, ',') := by
  simp [Scan.recorded, h]

/-- **The invariant is kept by every step**, and no step goes wrong. -/
theorem sound_step {s : Scan} {read : List (Nat × Char)} (h : s.Sound read)
    (hopen : s.close = none) (i : Nat) (c : Char) :
    ∃ s', s.step i c = .ok s' ∧ s'.Sound (read ++ [(i, c)]) := by
  have hpos := h.depth_pos hopen
  have hle := h.depth_le
  have hread : (s.commas.map (·, ',')).Sublist read := by
    rw [← recorded_of_open hopen]
    exact h.recorded
  have hmore : (s.commas.map (·, ',')).Sublist (read ++ [(i, c)]) :=
    hread.trans (List.sublist_append_left ..)
  have hlength : (read ++ [(i, c)]).length = read.length + 1 := by simp
  unfold step
  by_cases ho : c = '{'
  · refine ⟨_, if_pos ho, ?_, ?_, ?_⟩
    · simpa [Scan.recorded, hopen] using hmore
    · intro _
      exact Nat.succ_pos _
    · simp only [hlength]
      omega
  rw [if_neg ho]
  by_cases hc : c = '}'
  · -- a brace is open, so that the counter can be lowered
    subst hc
    rw [if_pos rfl, if_neg (by omega)]
    refine ⟨_, rfl, ?_, ?_, ?_⟩
    · by_cases hone : s.depth = 1
      · simpa [Scan.recorded, hone] using hread.append (List.Sublist.refl [(i, '}')])
      · simpa [Scan.recorded, hone] using hmore
    · intro hnone
      by_cases hone : s.depth = 1
      · simp [hone] at hnone
      · simp only
        omega
    · simp only [hlength]
      omega
  rw [if_neg hc]
  by_cases hcomma : c = ',' ∧ s.depth = 1
  · obtain ⟨rfl, hone⟩ := hcomma
    rw [if_pos ⟨rfl, hone⟩]
    refine ⟨_, rfl, ?_, ?_, ?_⟩
    · simpa [Scan.recorded, hopen] using hread.append (List.Sublist.refl [(i, ',')])
    · intro _
      exact hpos
    · simp only [hlength]
      omega
  · rw [if_neg hcomma]
    refine ⟨_, rfl, ?_, fun _ => hpos, ?_⟩
    · rw [recorded_of_open hopen]
      exact hmore
    · rw [hlength]
      omega

/-- What was noted was read, however much is read later. -/
theorem Sound.mono {s : Scan} {read : List (Nat × Char)} (h : s.Sound read)
    (more : List (Nat × Char)) : s.Sound (read ++ more) where
  recorded := h.recorded.trans (List.sublist_append_left ..)
  depth_pos := h.depth_pos
  depth_le := by
    have hle := h.depth_le
    rw [List.length_append]
    omega

/-- **The pass never goes wrong**, and its invariant holds at the end. -/
theorem sound_run {s : Scan} {read : List (Nat × Char)} (h : s.Sound read) (hopen : s.close = none)
    (chars : List (Nat × Char)) :
    ∃ s', s.run chars = .ok s' ∧ s'.Sound (read ++ chars) := by
  induction chars generalizing s read with
  | nil => exact ⟨s, rfl, by rwa [List.append_nil]⟩
  | cons x chars ih =>
      obtain ⟨i, c⟩ := x
      obtain ⟨s', hstep, hsound⟩ := sound_step h hopen i c
      have hrun : s.run ((i, c) :: chars) =
          if s'.close.isSome then .ok s' else s'.run chars := by
        rw [run, hstep]
        rfl
      rw [hrun, List.append_cons]
      cases hclose : s'.close with
      | some close => exact ⟨s', rfl, hsound.mono chars⟩
      | none =>
          rw [Option.isSome_none, if_neg Bool.false_ne_true]
          exact ih hsound hclose

/-- Without a brace in front, a pass may go wrong. -/
example : run {} (indexed 0 ['a', '}']) = .error .belowZero := rfl

end Scan

/-! ### The pass finds the group -/

@[simp] theorem utf8Size_open : Char.utf8Size '{' = 1 := rfl

@[simp] theorem utf8Size_close : Char.utf8Size '}' = 1 := rfl

@[simp] theorem utf8Size_comma : Char.utf8Size ',' = 1 := rfl

/-- A comma at the own level of a group begins a new alternative. -/
theorem alternatives_comma (cs : List Char) :
    alternatives 0 (',' :: cs) =
      (alternatives 0 cs).map fun found => ([] :: found.1, found.2) := by
  rw [alternatives, if_neg (by decide), if_neg (by decide), if_pos ⟨rfl, rfl⟩]

/-- A character that neither opens nor closes nor divides belongs to the first alternative. -/
theorem alternatives_kept {depth : Nat} {c : Char} (ho : c ≠ '{') (hc : c ≠ '}')
    (hcomma : ¬(c = ',' ∧ depth = 0)) (cs : List Char) :
    alternatives depth (c :: cs) = (alternatives depth cs).map (prepend [c]) := by
  rw [alternatives, if_neg ho, if_neg hc, if_neg hcomma]
  rfl

namespace Scan

/-- The positions at which some alternatives end, one behind the other with one byte between. -/
def stops (i : Nat) : List (List Char) → List Nat
  | [] => []
  | alt :: alts => (i + width alt) :: stops (i + width alt + 1) alts

theorem stops_inFront (i : Nat) (c : Char) {alts : List (List Char)} (h : alts ≠ []) :
    stops i (Text.inFront c alts) = stops (i + c.utf8Size) alts := by
  cases alts with
  | nil => exact absurd rfl h
  | cons alt alts => simp [Text.inFront, stops, Nat.add_assoc]

theorem getLast?_stops (i : Nat) {alts : List (List Char)} (h : alts ≠ []) :
    (stops i alts).getLast? = some (i + width (Text.glue [','] alts)) := by
  induction alts generalizing i with
  | nil => exact absurd rfl h
  | cons alt alts ih =>
      cases alts with
      | nil => rfl
      | cons alt' alts =>
          rw [stops, List.getLast?_cons, ih (i + width alt + 1) (List.cons_ne_nil _ _), Text.glue]
          simp [Nat.add_assoc]

/-- What the pass notes, behind the commas that it had noted before: where the alternatives end, if
the group is closed. -/
def Finds (s : Scan) (commas : List Nat) (i : Nat) :
    Option (List (List Char) × List Char) → Prop
  | none => s.close = none
  | some (alts, _) => s.close.isSome ∧ s.commas ++ s.close.toList = commas ++ stops i alts

/-- One more character in front of the first alternative. -/
theorem Finds.inFront {s : Scan} {commas : List Nat} {i depth : Nat} {c : Char} {cs : List Char}
    (h : s.Finds commas (i + c.utf8Size) (alternatives depth cs)) :
    s.Finds commas i ((alternatives depth cs).map (prepend [c])) := by
  cases ha : alternatives depth cs with
  | none =>
      rw [ha] at h
      exact h
  | some found =>
      obtain ⟨alts, tail⟩ := found
      rw [ha] at h
      refine ⟨h.1, ?_⟩
      rw [h.2, ← stops_inFront i c (alternatives_ne_nil ha)]
      rfl

/-- **The pass finds the group**, if it is closed, with its alternatives. -/
theorem finds_run (depth : Nat) (commas : List Nat) (i : Nat) (cs : List Char) :
    ∃ s', run ⟨depth + 1, commas, none⟩ (indexed i cs) = .ok s' ∧
      s'.Finds commas i (alternatives depth cs) := by
  induction cs generalizing depth commas i with
  | nil => exact ⟨_, rfl, rfl⟩
  | cons c cs ih =>
      by_cases ho : c = '{'
      · subst ho
        obtain ⟨s', hrun, hfinds⟩ := ih (depth + 1) commas (i + Char.utf8Size '{')
        refine ⟨s', hrun, ?_⟩
        rw [alternatives_open]
        exact hfinds.inFront
      by_cases hc : c = '}'
      · subst hc
        cases depth with
        | zero => exact ⟨_, rfl, rfl, rfl⟩
        | succ depth =>
            obtain ⟨s', hrun, hfinds⟩ := ih depth commas (i + Char.utf8Size '}')
            refine ⟨s', hrun, ?_⟩
            rw [alternatives_close]
            exact hfinds.inFront
      by_cases hcomma : c = ',' ∧ depth = 0
      · obtain ⟨rfl, rfl⟩ := hcomma
        obtain ⟨s', hrun, hfinds⟩ := ih 0 (commas ++ [i]) (i + 1)
        refine ⟨s', hrun, ?_⟩
        rw [alternatives_comma]
        cases ha : alternatives 0 cs with
        | none =>
            rw [ha] at hfinds
            exact hfinds
        | some found =>
            rw [ha] at hfinds
            refine ⟨hfinds.1, hfinds.2.trans ?_⟩
            simp [stops]
      · obtain ⟨s', hrun, hfinds⟩ := ih depth commas (i + c.utf8Size)
        refine ⟨s', ?_, ?_⟩
        · have hkept : ¬(c = ',' ∧ depth + 1 = 1) := by
            intro h
            exact hcomma ⟨h.1, by omega⟩
          have hstep : step ⟨depth + 1, commas, none⟩ i c = .ok ⟨depth + 1, commas, none⟩ := by
            rw [step, if_neg ho, if_neg hc, if_neg hkept]
          rw [indexed, run, hstep]
          exact hrun
        · rw [alternatives_kept ho hc hcomma]
          exact hfinds.inFront

end Scan

/-! ### What is expanded next -/

theorem firstGroup?_append_open {l r : List Char} (hl : '{' ∉ l) :
    firstGroup? (l ++ '{' :: r) = (alternatives 0 r).map fun found => ⟨l, found.1, found.2⟩ := by
  induction l with
  | nil => rfl
  | cons c l ih =>
      obtain ⟨hc, hl⟩ := not_or.1 (mt List.mem_cons.2 hl)
      rw [List.cons_append, firstGroup?_cons (Ne.symm hc), ih hl, Option.map_map]
      rfl

/-- Where the first brace is, behind the characters in front of it. -/
theorem find?_indexed_open (i : Nat) {l r : List Char} (hl : '{' ∉ l) :
    (indexed i (l ++ '{' :: r)).find? (·.2 = '{') = some (i + width l, '{') := by
  induction l generalizing i with
  | nil => rfl
  | cons c l ih =>
      obtain ⟨hc, hl⟩ := not_or.1 (mt List.mem_cons.2 hl)
      rw [List.cons_append, indexed, List.find?_cons_of_neg (by simpa using Ne.symm hc), ih _ hl,
        Text.width_cons, Nat.add_assoc]

theorem opening?_eq_some {p : String} {l r : List Char} (hp : p.toList = l ++ '{' :: r)
    (hl : '{' ∉ l) : opening? p = some (width l) := by
  rw [opening?, hp, find?_indexed_open 0 hl, Option.map_some, Nat.zero_add]

theorem opening?_eq_none {p : String} (hp : '{' ∉ p.toList) : opening? p = none := by
  rw [opening?, Option.map_eq_none_iff, List.find?_eq_none]
  intro x hx
  obtain ⟨l, r, hsplit, -⟩ := Text.mem_indexed_iff.1 hx
  have hmem : x.2 ∈ p.toList := by
    rw [hsplit]
    exact List.mem_append_right l List.mem_cons_self
  simp only [decide_eq_true_eq]
  intro hbrace
  exact hp (hbrace ▸ hmem)

/-- The pass from a brace on is one behind it, with one brace open. -/
theorem scanOver_open (opening : Nat) (read : List Char) :
    scanOver opening ('{' :: read) =
      Scan.run ⟨1, [], none⟩ (indexed (opening + 1) read) := by
  rw [scanOver, Text.map_indexed]
  rfl

/-- What stands in a text from its first brace on. -/
theorem part_opening {p : String} {l r : List Char} (hp : p.toList = l ++ '{' :: r) :
    part p (width l) p.utf8ByteSize = .ok (String.ofList ('{' :: r)) := by
  refine Text.part_eq (r := []) (by rw [hp, List.append_nil]) rfl ?_
  rw [← Text.width_toList, hp, Text.width_append]

theorem scanFrom_eq {p : String} {l r : List Char} (hp : p.toList = l ++ '{' :: r) :
    scanFrom p (width l) = Scan.run ⟨1, [], none⟩ (indexed (width l + 1) r) := by
  rw [scanFrom, part_opening hp, ← scanOver_open]
  show scanOver _ _ = _
  rw [String.toList_ofList]

theorem partsBetween_cons (p : String) (i j : Nat) (bounds : List Nat) :
    partsBetween p (i :: j :: bounds) = do
      let first ← part p (i + 1) j
      let others ← partsBetween p (j :: bounds)
      return first :: others := by
  rw [partsBetween, List.tail_cons, List.zip_cons_cons, List.mapM_cons]
  rfl

/-- **What stands between the positions that were noted**: the alternatives. -/
theorem partsBetween_stops {p : String} {l r : List Char} {alts : List (List Char)}
    (hp : p.toList = l ++ Text.glue [','] alts ++ r) {opening : Nat} (hl : width l = opening + 1) :
    partsBetween p (opening :: Scan.stops (opening + 1) alts) =
      .ok (alts.map String.ofList) := by
  induction alts generalizing l opening with
  | nil => rfl
  | cons alt alts ih =>
      -- the first alternative, and what stands behind it
      obtain ⟨rest, hrest⟩ : ∃ rest, p.toList = l ++ alt ++ rest := by
        cases alts with
        | nil => exact ⟨r, hp⟩
        | cons alt' alts =>
            exact ⟨',' :: (Text.glue [','] (alt' :: alts) ++ r), by rw [hp]; simp [Text.glue]⟩
      have hfirst : part p (opening + 1) (opening + 1 + width alt) = .ok (String.ofList alt) :=
        Text.part_eq hrest hl.symm (by rw [hl])
      have hothers : partsBetween p
          ((opening + 1 + width alt) :: Scan.stops (opening + 1 + width alt + 1) alts) =
          .ok (alts.map String.ofList) := by
        cases alts with
        | nil => rfl
        | cons alt' alts =>
            refine ih (l := l ++ alt ++ [',']) ?_ ?_
            · rw [hp]
              simp [Text.glue]
            · simp [hl]
              omega
      rw [Scan.stops, partsBetween_cons, hfirst, hothers]
      rfl

/-- The text with each of the alternatives in the place of its first group. -/
theorem choices_eq {p : String} {g : Group} (hp : p.toList = g.text) (hne : g.alts ≠ [])
    {commas : List Nat} {close : Nat}
    (hstops : commas ++ [close] = Scan.stops (width g.before + 1) g.alts) :
    choices p (width g.before) commas close =
      .ok (g.alts.map fun alt => String.ofList (g.pick alt)) := by
  have hclose : close = width g.before + 1 + width (Text.glue [','] g.alts) := by
    have hlast := congrArg List.getLast? hstops
    rw [List.getLast?_append, Scan.getLast?_stops _ hne] at hlast
    simpa using hlast
  have hbefore : part p 0 (width g.before) = .ok (String.ofList g.before) :=
    Text.part_eq (l := []) hp rfl (by simp)
  have hafter : part p (close + 1) p.utf8ByteSize = .ok (String.ofList g.after) := by
    refine Text.part_eq (l := g.before ++ '{' :: (Text.glue [','] g.alts ++ ['}'])) (r := [])
      ?_ ?_ ?_
    · rw [hp]
      simp [Group.text]
    · simp [hclose]
      omega
    · rw [← Text.width_toList, hp]
      simp [Group.text]
      omega
  have halts : partsBetween p (width g.before :: (commas ++ [close])) =
      .ok (g.alts.map String.ofList) := by
    rw [hstops]
    refine partsBetween_stops (l := g.before ++ ['{']) (r := '}' :: g.after) ?_ ?_
    · rw [hp]
      simp [Group.text]
    · simp
  rw [choices, hbefore, hafter, halts]
  show Except.ok _ = _
  rw [List.map_map]
  refine congrArg Except.ok (List.map_congr_left fun alt _ => ?_)
  simp [Group.pick, String.append_assoc]

theorem branches_of_scan {p : String} {opening : Nat} {found : Scan}
    (hopening : opening? p = some opening) (hfound : scanFrom p opening = .ok found) :
    branches p = match found.close with
      | none => .ok none
      | some close => (choices p opening found.commas close).map some := by
  obtain ⟨depth, commas, close⟩ := found
  rw [branches, hopening]
  simp only
  rw [hfound]
  cases close <;> rfl

/-- **What is expanded next**: the pattern with each of the alternatives in the place of its first
group, if it has one. -/
theorem branches_eq (p : String) :
    branches p = .ok ((firstGroup? p.toList).map fun g =>
      g.alts.map fun alt => String.ofList (g.pick alt)) := by
  by_cases hmem : '{' ∈ p.toList
  · obtain ⟨l, r, hp, hl⟩ := List.eq_append_cons_of_mem hmem
    obtain ⟨found, hrun, hfinds⟩ := Scan.finds_run 0 [] (width l + 1) r
    rw [branches_of_scan (opening?_eq_some hp hl) ((scanFrom_eq hp).trans hrun)]
    have hgroup := firstGroup?_append_open (r := r) hl
    rw [← hp] at hgroup
    cases ha : alternatives 0 r with
    | none =>
        rw [ha] at hfinds hgroup
        have hclose : found.close = none := hfinds
        rw [hgroup, hclose]
        rfl
    | some group =>
        obtain ⟨alts, tail⟩ := group
        rw [ha] at hfinds hgroup
        obtain ⟨hsome, hstops⟩ := hfinds
        obtain ⟨close, hclose⟩ := Option.isSome_iff_exists.1 hsome
        rw [hclose] at hstops ⊢
        simp only
        rw [hgroup, choices_eq (g := ⟨l, alts, tail⟩) (firstGroup?_eq_some hgroup).symm
          (alternatives_ne_nil ha) hstops]
        rfl
  · rw [branches, opening?_eq_none hmem, firstGroup?_of_not_mem hmem]
    rfl

/-! ### Every choice has lost a pair of braces -/

theorem sublist_glue (sep : List Char) {alt : List Char} {alts : List (List Char)}
    (h : alt ∈ alts) :
    alt.Sublist (Text.glue sep alts) := by
  induction alts with
  | nil => simp at h
  | cons alt' alts ih =>
      cases alts with
      | nil =>
          obtain rfl := List.mem_singleton.1 h
          exact List.Sublist.refl alt
      | cons alt'' alts =>
          rcases List.mem_cons.1 h with rfl | h
          · rw [Text.glue, List.append_assoc]
            exact List.sublist_append_left ..
          · exact (ih h).trans (List.sublist_append_right ..)

/-- A choice is at least two bytes shorter than the pattern. -/
theorem width_pick {cs : List Char} {g : Group} (h : firstGroup? cs = some g) {alt : List Char}
    (halt : alt ∈ g.alts) : width (g.pick alt) + 2 ≤ width cs := by
  have hwidth := Text.width_le_of_sublist (sublist_glue [','] halt)
  rw [← firstGroup?_eq_some h]
  simp only [Group.pick, Group.text, Text.width_append, Text.width_cons, utf8Size_open,
    utf8Size_close]
  omega

/-- A choice has fewer braces that open a group than the pattern. -/
theorem count_open_pick {cs : List Char} {g : Group} (h : firstGroup? cs = some g)
    {alt : List Char} (halt : alt ∈ g.alts) : (g.pick alt).count '{' < cs.count '{' := by
  have hcount := (sublist_glue [','] halt).count_le '{'
  have hclose : ('}' :: g.after).count '{' = g.after.count '{' :=
    List.count_cons_of_ne (by decide)
  rw [← firstGroup?_eq_some h]
  simp only [Group.pick, Group.text, List.count_append, List.count_cons_self, hclose]
  omega

/-- **What is expanded next has lost a pair of braces.** -/
theorem shrinks_of_branches {p : String} {qs : List String} (h : branches p = .ok (some qs))
    {q : String} (hq : q ∈ qs) :
    q.utf8ByteSize + 2 ≤ p.utf8ByteSize ∧ q.toList.count '{' < p.toList.count '{' := by
  rw [branches_eq] at h
  obtain ⟨g, hg, rfl⟩ := Option.map_eq_some_iff.1 (Except.ok.inj h)
  obtain ⟨alt, halt, rfl⟩ := List.mem_map.1 hq
  rw [String.toList_ofList]
  refine ⟨?_, count_open_pick hg halt⟩
  rw [← Text.width_toList p]
  exact width_pick hg halt

/-! ### The expansion by positions -/

/-- The **expansion by positions**: a text stands for itself alone if nothing is expanded next. -/
def expandByPositions (p : String) : Except Crash (List String) :=
  match h : branches p with
  | .error crash => .error crash
  | .ok none => .ok [p]
  | .ok (some qs) => do
      let found ← qs.attach.mapM fun ⟨q, hq⟩ =>
        have : q.utf8ByteSize < p.utf8ByteSize := by
          have := (shrinks_of_branches h hq).1
          omega
        expandByPositions q
      return found.flatten
termination_by p.utf8ByteSize

theorem expandByPositions_alone {p : String} (h : branches p = .ok none) :
    expandByPositions p = .ok [p] := by
  rw [expandByPositions]
  split <;> simp_all

theorem mapM_eq_ok {α β ε : Type} {f : α → Except ε β} {g : α → β} {xs : List α}
    (h : ∀ x ∈ xs, f x = .ok (g x)) : xs.mapM f = .ok (xs.map g) := by
  induction xs with
  | nil => rfl
  | cons x xs ih =>
      obtain ⟨hx, hxs⟩ := List.forall_mem_cons.1 h
      rw [List.mapM_cons, hx, ih hxs]
      rfl

theorem expandByPositions_branches {p : String} {qs : List String}
    (h : branches p = .ok (some qs))
    (hqs : ∀ q ∈ qs, expandByPositions q = .ok (expandText q)) :
    expandByPositions p = .ok (qs.flatMap expandText) := by
  rw [expandByPositions]
  split
  · simp_all
  · simp_all
  · next qs' h' =>
      obtain rfl : qs' = qs := by simpa [h] using h'.symm
      rw [mapM_eq_ok (g := fun q => expandText q.1) fun q _ => hqs q.1 q.2]
      show Except.ok _ = _
      rw [List.attach_map_val]
      rfl

/-- **The expansion by positions is the expansion.** -/
theorem expandByPositions_eq (p : String) : expandByPositions p = .ok (expandText p) := by
  have hbranches : ∀ cs, branches (String.ofList cs) = .ok ((firstGroup? cs).map fun g =>
      g.alts.map fun alt => String.ofList (g.pick alt)) := by
    intro cs
    rw [branches_eq, String.toList_ofList]
  suffices h : ∀ cs, expandByPositions (String.ofList cs) = .ok ((expand cs).map String.ofList) by
    have hp := h p.toList
    rwa [String.ofList_toList] at hp
  intro cs
  induction cs using expand_induction with
  | alone cs hg =>
      have hnone := hbranches cs
      rw [hg] at hnone
      rw [expandByPositions_alone hnone, expand_of_none hg]
      rfl
  | group cs g hg ih =>
      have hsome := hbranches cs
      rw [hg] at hsome
      have hqs : ∀ q ∈ g.alts.map fun alt => String.ofList (g.pick alt),
          expandByPositions q = .ok (expandText q) := by
        intro q hq
        obtain ⟨alt, halt, rfl⟩ := List.mem_map.1 hq
        rw [ih alt halt, expandText_ofList]
      rw [expandByPositions_branches hsome hqs, expand_of_some hg, List.map_flatMap,
        List.flatMap_map]
      simp only [expandText_ofList]

theorem expandText_ne_nil (p : String) : expandText p ≠ [] := by
  rw [expandText, ne_eq, List.map_eq_nil_iff]
  exact expand_ne_nil p.toList

/-! ### What is noted -/

/-- What a pass **has noted** at some moment: ascending positions, each that of a brace or a comma,
and no more open braces than there are bytes. -/
structure Scan.Marks (s : Scan) (p : String) (opening : Nat) : Prop where
  ascending : (opening :: (s.commas ++ s.close.toList)).Pairwise (· < ·)
  opening : StandsAt p '{' opening
  commas : ∀ i ∈ s.commas, StandsAt p ',' i
  close : ∀ i ∈ s.close, StandsAt p '}' i
  depth : s.depth ≤ p.utf8ByteSize

theorem Scan.map_fst_recorded (s : Scan) :
    s.recorded.map (·.1) = s.commas ++ s.close.toList := by
  simp [Scan.recorded, Function.comp_def]

/-- What was noted while characters of the text were read stands in the text. -/
theorem Scan.marks_of_sublist {s : Scan} {p : String} {l r : List Char}
    (hp : p.toList = l ++ '{' :: r) (hread : s.recorded.Sublist (indexed (width l + 1) r))
    (hdepth : s.depth ≤ r.length + 1) : s.Marks p (width l) := by
  have hall : ((width l, '{') :: s.recorded).Sublist (indexed 0 p.toList) := by
    rw [hp, Text.indexed_append, Nat.zero_add]
    exact (hread.cons_cons _).trans (List.sublist_append_right ..)
  have hstands : ∀ i c, (i, c) ∈ (width l, '{') :: s.recorded →
      String.utf8EncodeChar c = [c.toUInt8] → StandsAt p c i := by
    intro i c hmem hc
    obtain ⟨l', r', hp', rfl⟩ := Text.mem_indexed_iff.1 (hall.subset hmem)
    rw [Nat.zero_add]
    exact Text.standsAt_width hp' hc
  refine ⟨?_, ?_, ?_, ?_, ?_⟩
  · have hascending := (Text.pairwise_indexed 0 p.toList).sublist hall
    rw [← s.map_fst_recorded]
    exact List.pairwise_map.2 hascending
  · exact hstands _ _ List.mem_cons_self (by decide)
  · intro i hi
    exact hstands i ',' (by simp [Scan.recorded, hi]) (by decide)
  · intro i hi
    exact hstands i '}' (by simp [Scan.recorded, Option.mem_def.1 hi]) (by decide)
  · have hlength := Text.length_le_width r
    rw [← Text.width_toList, hp, Text.width_append, Text.width_cons, utf8Size_open]
    omega

/-- **What the pass notes**, whatever it has read from the first brace on. -/
theorem scanOver_marks {p : String} {l r read : List Char} (hp : p.toList = l ++ '{' :: r)
    (hread : read <+: '{' :: r) :
    ∃ found, scanOver (width l) read = .ok found ∧ found.Marks p (width l) := by
  rcases List.prefix_cons_iff.1 hread with rfl | ⟨inside, rfl, rest, rfl⟩
  · exact ⟨{}, rfl, Scan.marks_of_sublist hp (List.nil_sublist _) (Nat.zero_le _)⟩
  · have hstart : Scan.Sound ⟨1, [], none⟩ [] :=
      ⟨List.Sublist.refl _, fun _ => Nat.one_pos, Nat.le_refl _⟩
    obtain ⟨found, hrun, hsound⟩ := Scan.sound_run hstart rfl (indexed (width l + 1) inside)
    have hmore := hsound.mono (indexed (width l + 1 + width inside) rest)
    rw [List.nil_append, ← Text.indexed_append] at hmore
    have hdepth := hmore.depth_le
    rw [Text.length_indexed] at hdepth
    exact ⟨found, (scanOver_open ..).trans hrun, Scan.marks_of_sublist hp hmore.recorded hdepth⟩

/-- The pass can be made from the first brace on. -/
theorem part_opening? {p : String} {opening : Nat} (h : opening? p = some opening) :
    ∃ rest, part p opening p.utf8ByteSize = .ok rest ∧ ∀ read, read <+: rest.toList →
      ∃ found, scanOver opening read = .ok found ∧ found.Marks p opening := by
  have hmem : '{' ∈ p.toList := by
    by_contra hmem
    rw [opening?_eq_none hmem] at h
    cases h
  obtain ⟨l, r, hp, hl⟩ := List.eq_append_cons_of_mem hmem
  obtain rfl : width l = opening := by simpa [opening?_eq_some hp hl] using h
  refine ⟨_, part_opening hp, fun read hread => scanOver_marks hp ?_⟩
  rwa [String.toList_ofList] at hread

/-- **The expansion by positions never goes wrong.**  For every text it ends with the expansion of
the text, which is never empty.  At every moment of the pass, the positions that were noted are those
of the first brace, of commas behind it and of the brace that closes it, in this order; and every
text that is expanded next is at least two bytes shorter, with fewer braces that open a group. -/
theorem expandByPositions_runs_through (p : String) :
    expandByPositions p = .ok (expandText p) ∧ expandText p ≠ [] ∧
      (∀ opening, opening? p = some opening →
        ∃ rest, part p opening p.utf8ByteSize = .ok rest ∧ ∀ read, read <+: rest.toList →
          ∃ found, scanOver opening read = .ok found ∧ found.Marks p opening) ∧
      ∀ qs, branches p = .ok (some qs) → ∀ q ∈ qs,
        q.utf8ByteSize + 2 ≤ p.utf8ByteSize ∧ q.toList.count '{' < p.toList.count '{' :=
  ⟨expandByPositions_eq p, expandText_ne_nil p, fun _ h => part_opening? h,
    fun _ h _ hq => shrinks_of_branches h hq⟩

/-- A pattern with characters of two bytes, a group inside another and a brace that stays open. -/
def nestedGroups : String := "é\x7bü,x\x7bb,c\x7d\x7d\x7b"

theorem expandByPositions_nestedGroups :
    opening? nestedGroups = some 2 ∧
      scanFrom nestedGroups 2 = .ok ⟨0, [5], some 12⟩ ∧
      branches nestedGroups = .ok (some ["éü\x7b", "éx\x7bb,c\x7d\x7b"]) ∧
      expandByPositions nestedGroups = .ok ["éü\x7b", "éxb\x7b", "éxc\x7b"] ∧
      (∃ rest, part nestedGroups 2 nestedGroups.utf8ByteSize = .ok rest ∧
        ∀ read, read <+: rest.toList →
          ∃ found, scanOver 2 read = .ok found ∧ found.Marks nestedGroups 2) ∧
      ∀ q ∈ ["éü\x7b", "éx\x7bb,c\x7d\x7b"], q.utf8ByteSize + 2 ≤ nestedGroups.utf8ByteSize ∧
        q.toList.count '{' < nestedGroups.toList.count '{' := by
  have hopening : opening? nestedGroups = some 2 := by decide +kernel
  have hbranches : branches nestedGroups = .ok (some ["éü\x7b", "éx\x7bb,c\x7d\x7b"]) := by
    decide +kernel
  obtain ⟨hexpand, -, hpass, hnext⟩ := expandByPositions_runs_through nestedGroups
  refine ⟨hopening, by decide +kernel, hbranches, ?_, hpass 2 hopening, hnext _ hbranches⟩
  rw [hexpand]
  decide +kernel

end Testbench.Braces
