/-
**Braces that are never closed.**

A brace is closed where, counting the braces behind it, as many have been closed as were opened.
The expansion looks for the first brace of a pattern and for the place where it is closed; if there
is none, it leaves everything from that brace on as it is.  The groups in front of it have been
replaced by then, those behind it are not looked at.

So an unclosed brace is kept as a character, but it is more than that: a pattern such as `x{y{a,b}`
stands for itself alone.  It would stand for `x{ya` and `x{yb` if the brace meant nothing.

Main definitions:

* `Testbench.Braces.StaysOpen`, `Testbench.Braces.Unclosed` — the braces of a text never close what
  was open before it;
* `Testbench.Braces.HoldsNoGroup` — the first brace of a text, if it has one, is never closed.

Main results:

* `Testbench.Braces.alternatives_eq_none_iff` — a group is not read exactly if it is not closed;
* `Testbench.Braces.expand_eq_singleton_iff` — a pattern stands for itself alone exactly if its
  first brace, if it has one, is not closed;
* `Testbench.Braces.expandText_unclosed` — **what an unclosed brace does to a pattern**.
-/

import Mathlib.Data.List.Infix
import Testbench.Proofs.BraceGrammar

set_option relaxedAutoImplicit false
set_option autoImplicit false

namespace Testbench.Braces

/-! ### Counting braces -/

/-- With so many more braces open around the one in front of it, the text never closes them all. -/
def StaysOpen (depth : Nat) (cs : List Char) : Prop :=
  ∀ s, s <+: cs → s.count '}' ≤ s.count '{' + depth

/-- The text **never closes the brace in front of it**: counting the braces inside, the depth never
returns to zero. -/
def Unclosed (cs : List Char) : Prop := StaysOpen 0 cs

instance (cs : List Char) : Decidable (Unclosed cs) :=
  decidable_of_iff (∀ s ∈ cs.inits, s.count '}' ≤ s.count '{') <| by
    simp [Unclosed, StaysOpen]

theorem staysOpen_nil (depth : Nat) : StaysOpen depth [] := by
  intro s hs
  rw [List.prefix_nil.1 hs]
  simp

theorem staysOpen_open_iff {depth : Nat} {cs : List Char} :
    StaysOpen depth ('{' :: cs) ↔ StaysOpen (depth + 1) cs := by
  constructor
  · intro h s hs
    have := h ('{' :: s) (List.cons_prefix_cons.2 ⟨rfl, hs⟩)
    simp at this
    omega
  · intro h s hs
    rcases List.prefix_cons_iff.1 hs with rfl | ⟨t, rfl, ht⟩
    · simp
    · have := h t ht
      simp
      omega

theorem staysOpen_close_iff {depth : Nat} {cs : List Char} :
    StaysOpen depth ('}' :: cs) ↔ 0 < depth ∧ StaysOpen (depth - 1) cs := by
  constructor
  · intro h
    have hone := h ['}'] (by simp)
    simp at hone
    refine ⟨hone, fun s hs => ?_⟩
    have := h ('}' :: s) (List.cons_prefix_cons.2 ⟨rfl, hs⟩)
    simp at this
    omega
  · rintro ⟨hdepth, h⟩ s hs
    rcases List.prefix_cons_iff.1 hs with rfl | ⟨t, rfl, ht⟩
    · simp
    · have := h t ht
      simp
      omega

theorem staysOpen_cons_iff {c : Char} (ho : c ≠ '{') (hc : c ≠ '}') {depth : Nat}
    {cs : List Char} : StaysOpen depth (c :: cs) ↔ StaysOpen depth cs := by
  constructor
  · intro h s hs
    simpa [List.count_cons, ho, hc] using h (c :: s) (List.cons_prefix_cons.2 ⟨rfl, hs⟩)
  · intro h s hs
    rcases List.prefix_cons_iff.1 hs with rfl | ⟨t, rfl, ht⟩
    · simp
    · simpa [List.count_cons, ho, hc] using h t ht

/-- **A group is not read exactly if it is not closed.** -/
theorem alternatives_eq_none_iff {depth : Nat} {cs : List Char} :
    alternatives depth cs = none ↔ StaysOpen depth cs := by
  induction cs generalizing depth with
  | nil => simp [alternatives, staysOpen_nil]
  | cons c cs ih =>
      by_cases ho : c = '{'
      · subst ho
        rw [alternatives_open, Option.map_eq_none_iff, ih, staysOpen_open_iff]
      by_cases hc : c = '}'
      · subst hc
        rw [staysOpen_close_iff]
        cases depth with
        | zero => simp [alternatives]
        | succ depth => simp [alternatives_close, ih]
      · rw [staysOpen_cons_iff ho hc, ← ih, alternatives, if_neg ho, if_neg hc]
        split <;> simp

/-! ### The first brace -/

/-- Nothing is read from a pattern whose first brace is not closed. -/
theorem firstGroup?_unclosed_iff {l r : List Char} (hl : '{' ∉ l) :
    firstGroup? (l ++ '{' :: r) = none ↔ Unclosed r := by
  induction l with
  | nil =>
      rw [List.nil_append, firstGroup?, if_pos rfl, Option.map_eq_none_iff,
        alternatives_eq_none_iff, Unclosed]
  | cons c l ih =>
      obtain ⟨hc, hl⟩ := not_or.1 (mt List.mem_cons.2 hl)
      rw [List.cons_append, firstGroup?_cons (Ne.symm hc), Option.map_eq_none_iff, ih hl]

theorem firstGroup?_of_not_mem {cs : List Char} (h : '{' ∉ cs) : firstGroup? cs = none := by
  induction cs with
  | nil => rfl
  | cons c cs ih =>
      obtain ⟨hc, hcs⟩ := not_or.1 (mt List.mem_cons.2 h)
      rw [firstGroup?_cons (Ne.symm hc), ih hcs]
      rfl

/-- The first brace of the text, if it has one, is never closed. -/
def HoldsNoGroup (cs : List Char) : Prop :=
  ∀ l r, cs = l ++ '{' :: r → '{' ∉ l → Unclosed r

theorem firstGroup?_eq_none_iff {cs : List Char} : firstGroup? cs = none ↔ HoldsNoGroup cs := by
  constructor
  · rintro h l r rfl hl
    exact (firstGroup?_unclosed_iff hl).1 h
  · intro h
    by_cases hmem : '{' ∈ cs
    · obtain ⟨l, r, rfl, hl⟩ := List.eq_append_cons_of_mem hmem
      exact (firstGroup?_unclosed_iff hl).2 (h l r rfl hl)
    · exact firstGroup?_of_not_mem hmem

/-! ### Expanding -/

/-- No expansion is longer than the pattern. -/
theorem length_le_of_mem_expand {cs x : List Char} (hx : x ∈ expand cs) :
    x.length ≤ cs.length := by
  induction cs using expand_induction with
  | alone cs hg =>
      rw [expand_of_none hg, List.mem_singleton] at hx
      rw [hx]
  | group cs g hg ih =>
      rw [expand_of_some hg] at hx
      obtain ⟨alt, halt, hx⟩ := List.mem_flatMap.1 hx
      have hlt := length_pick hg halt
      have hle := ih alt halt hx
      omega

/-- A pattern stands for itself alone exactly if it holds no group. -/
theorem expand_eq_singleton_iff {cs : List Char} : expand cs = [cs] ↔ HoldsNoGroup cs := by
  rw [← firstGroup?_eq_none_iff]
  constructor
  · intro h
    cases hg : firstGroup? cs with
    | none => rfl
    | some g =>
        -- every expansion is one of a shorter pattern
        have hcs : cs ∈ expand cs := by rw [h]; exact List.mem_singleton_self cs
        rw [expand_of_some hg] at hcs
        obtain ⟨alt, halt, hcs⟩ := List.mem_flatMap.1 hcs
        have hle := length_le_of_mem_expand hcs
        have hlt := length_pick hg halt
        omega
  · exact expand_of_none

/-- A pattern whose first brace is not closed stands for itself alone. -/
theorem expand_unclosed {l r : List Char} (hl : '{' ∉ l) (hr : Unclosed r) :
    expand (l ++ '{' :: r) = [l ++ '{' :: r] :=
  expand_of_none ((firstGroup?_unclosed_iff hl).2 hr)

theorem toList_append_brace (l r : String) :
    (l ++ "\x7b" ++ r).toList = l.toList ++ '{' :: r.toList := by
  simp

theorem ofList_append_brace (l : String) (r : List Char) :
    String.ofList (l.toList ++ '{' :: r) = l ++ "\x7b" ++ String.ofList r := by
  rw [← String.toList_inj]
  simp

theorem expandText_eq_singleton_iff {p : String} :
    expandText p = [p] ↔ HoldsNoGroup p.toList := by
  rw [← expand_eq_singleton_iff, expandText]
  constructor
  · intro h
    have := congrArg (List.map String.toList) h
    simpa [Function.comp_def] using this
  · intro h
    rw [h]
    simp

/-- **What an unclosed brace does to a pattern.**  If the first brace is not closed, the pattern
stands for itself alone; that is as if the brace were just a character exactly if the text behind it
holds no group.  The groups in front of such a brace are replaced, and everything from the brace on
is kept. -/
theorem expandText_unclosed {l r : String} (hl : '{' ∉ l.toList) (hr : Unclosed r.toList) :
    expandText (l ++ "\x7b" ++ r) = [l ++ "\x7b" ++ r] ∧
      (expandText (l ++ "\x7b" ++ r) = (expandText r).map (l ++ "\x7b" ++ ·) ↔
        HoldsNoGroup r.toList) ∧
      ∀ p : Pat .outside,
        expandText (p.text ++ "\x7b" ++ r) = p.meanings.map fun x => x ++ "\x7b" ++ r := by
  have halone : expandText (l ++ "\x7b" ++ r) = [l ++ "\x7b" ++ r] := by
    rw [expandText, toList_append_brace, expand_unclosed hl hr, List.map_singleton,
      ofList_append_brace, String.ofList_toList]
  refine ⟨halone, ?_, fun p => ?_⟩
  · rw [halone, ← expandText_eq_singleton_iff]
    constructor
    · intro h
      obtain ⟨x, hx⟩ : ∃ x, expandText r = [x] := by
        have hlength := congrArg List.length h
        rw [List.length_map] at hlength
        exact List.length_eq_one_iff.1 hlength.symm
      rw [hx, List.map_singleton, List.singleton_inj, String.append_right_inj] at h
      rw [hx, h]
    · intro h
      rw [h, List.map_singleton]
  · rw [expandText, toList_append_brace, Pat.text, String.toList_ofList, expand_chars_append,
      ← List.nil_append ('{' :: r.toList), expand_unclosed (by simp) hr, product_singleton_right]
    simp [Pat.meanings, String.ofList_append, String.append_assoc]

/-- A group behind an unclosed brace is not replaced. -/
theorem expandText_group_behind_unclosed :
    '{' ∉ "isa/".toList ∧ Unclosed "x{a,b}".toList ∧
      expandText ("isa/" ++ "\x7b" ++ "x{a,b}") = ["isa/\x7bx{a,b}"] ∧
      expandText ("isa/" ++ "\x7b" ++ "x{a,b}") ≠
        (expandText "x{a,b}").map ("isa/" ++ "\x7b" ++ ·) ∧
      expandText (optionalSuffix.text ++ "\x7b" ++ "x{a,b}") =
        ["x\x7bx{a,b}", "xb\x7bx{a,b}"] := by
  have hl : '{' ∉ "isa/".toList := by decide
  have hr : Unclosed "x{a,b}".toList := by decide
  obtain ⟨halone, hiff, hbefore⟩ := expandText_unclosed hl hr
  refine ⟨hl, hr, halone, fun h => ?_, (hbefore optionalSuffix).trans (by decide)⟩
  -- the text behind the brace holds the group that starts behind its first character
  exact absurd (hiff.1 h ['x'] "a,b\x7d".toList (by decide) (by decide)) (by decide)

/-- An unclosed brace is not just a character: it keeps groups behind it from being replaced. -/
theorem unclosed_is_not_literal : ¬∀ l r : String, '{' ∉ l.toList → Unclosed r.toList →
    expandText (l ++ "\x7b" ++ r) = (expandText r).map (l ++ "\x7b" ++ ·) := by
  intro h
  have hstray := h "" "{a,b}" (by decide) (by decide)
  revert hstray
  decide +kernel

end Testbench.Braces
