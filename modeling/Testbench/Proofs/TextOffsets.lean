/-
**Positions in a text.**

A position in a text is the number of bytes in front of it.  Not every number is one: a character
may take several bytes, and a number that falls between them cuts the character apart.  Here a part
of a text is taken out by two numbers, and that fails if they do not stand between characters or
stand in the wrong order; what comes out otherwise is said in terms of characters.

Main definitions:

* `Testbench.Text.width` — the number of bytes of some characters;
* `Testbench.Text.indexed` — characters, each with its position;
* `Testbench.Text.Crash`, `Testbench.Text.part` — the part of a text between two positions;
* `Testbench.Text.StandsAt` — a character of one byte stands at a position.

Main results:

* `Testbench.Text.mem_indexed_iff`, `Testbench.Text.pairwise_indexed` — which positions there are,
  and that they ascend;
* `Testbench.Text.part_eq` — **what stands between two positions**;
* `Testbench.Text.standsAt_width` — where a character of one byte stands.
-/

import Mathlib.Data.List.Basic
import Testbench.Text.Utf8

set_option relaxedAutoImplicit false
set_option autoImplicit false

namespace Testbench.Text

/-! ### Widths -/

/-- The number of bytes of some characters. -/
def width (cs : List Char) : Nat := (String.ofList cs).utf8ByteSize

@[simp] theorem width_nil : width [] = 0 := rfl

@[simp] theorem width_cons (c : Char) (cs : List Char) :
    width (c :: cs) = c.utf8Size + width cs := by
  rw [width, String.ofList_cons, String.utf8ByteSize_append, String.utf8ByteSize_singleton]
  rfl

@[simp] theorem width_append (cs ds : List Char) : width (cs ++ ds) = width cs + width ds := by
  rw [width, String.ofList_append, String.utf8ByteSize_append]
  rfl

theorem width_toList (s : String) : width s.toList = s.utf8ByteSize := by
  rw [width, String.ofList_toList]

theorem length_le_width (cs : List Char) : cs.length ≤ width cs := by
  induction cs with
  | nil => simp
  | cons c cs ih =>
      have hc := c.utf8Size_pos
      simp only [List.length_cons, width_cons]
      omega

/-- A text is not shorter for characters that are left out. -/
theorem width_le_of_sublist {cs ds : List Char} (h : cs.Sublist ds) : width cs ≤ width ds := by
  induction h with
  | slnil => exact Nat.le_refl _
  | cons c _ ih => rw [width_cons]; omega
  | cons_cons c _ ih => rw [width_cons, width_cons]; omega

/-! ### Characters and their positions -/

/-- Characters, **each with its position**, from a first position on. -/
def indexed (i : Nat) : List Char → List (Nat × Char)
  | [] => []
  | c :: cs => (i, c) :: indexed (i + c.utf8Size) cs

theorem indexed_append (i : Nat) (cs ds : List Char) :
    indexed i (cs ++ ds) = indexed i cs ++ indexed (i + width cs) ds := by
  induction cs generalizing i with
  | nil => rfl
  | cons c cs ih => rw [List.cons_append, indexed, indexed, ih, width_cons, Nat.add_assoc]; rfl

/-- Positions within a text that begins further on. -/
theorem map_indexed (i k : Nat) (cs : List Char) :
    (indexed i cs).map (fun x => (k + x.1, x.2)) = indexed (k + i) cs := by
  induction cs generalizing i with
  | nil => rfl
  | cons c cs ih => rw [indexed, List.map_cons, ih, indexed, Nat.add_assoc]

theorem length_indexed (i : Nat) (cs : List Char) : (indexed i cs).length = cs.length := by
  induction cs generalizing i with
  | nil => rfl
  | cons c cs ih => simp [indexed, ih]

/-- A character stands behind the characters in front of it. -/
theorem mem_indexed_iff {i j : Nat} {c : Char} {cs : List Char} :
    (j, c) ∈ indexed i cs ↔ ∃ l r, cs = l ++ c :: r ∧ j = i + width l := by
  induction cs generalizing i with
  | nil => simp [indexed]
  | cons d cs ih =>
      rw [indexed, List.mem_cons, ih]
      constructor
      · rintro (h | ⟨l, r, rfl, rfl⟩)
        · cases h
          exact ⟨[], cs, rfl, rfl⟩
        · exact ⟨d :: l, r, rfl, by rw [width_cons, Nat.add_assoc]⟩
      · rintro ⟨l, r, hsplit, rfl⟩
        cases l with
        | nil =>
            cases hsplit
            exact Or.inl rfl
        | cons e l =>
            cases hsplit
            exact Or.inr ⟨l, r, rfl, by rw [width_cons, Nat.add_assoc]⟩

/-- Every position is behind the first one. -/
theorem le_of_mem_indexed {i : Nat} {cs : List Char} {x : Nat × Char} (h : x ∈ indexed i cs) :
    i ≤ x.1 := by
  obtain ⟨l, r, -, hx⟩ := mem_indexed_iff.1 h
  omega

/-- **Positions ascend.** -/
theorem pairwise_indexed (i : Nat) (cs : List Char) :
    (indexed i cs).Pairwise fun x y => x.1 < y.1 := by
  induction cs generalizing i with
  | nil => exact List.Pairwise.nil
  | cons c cs ih =>
      refine List.Pairwise.cons ?_ (ih _)
      intro x hx
      have hle := le_of_mem_indexed hx
      have hc := c.utf8Size_pos
      omega

/-! ### Parts -/

/-- What cannot be done with the positions of a text. -/
inductive Crash
  /-- A counter is lowered that is zero. -/
  | belowZero
  /-- The two numbers are no positions of the text, or stand in the wrong order. -/
  | noPart (start stop : Nat)
deriving DecidableEq, Repr

/-- The **part of a text from one position to another**.  Both have to stand between two characters,
or at an end of the text. -/
def part (s : String) (start stop : Nat) : Except Crash String :=
  if h : String.Pos.Raw.IsValid s ⟨start⟩ ∧ String.Pos.Raw.IsValid s ⟨stop⟩ ∧ start ≤ stop then
    .ok (s.extract ⟨⟨start⟩, h.1⟩ ⟨⟨stop⟩, h.2.1⟩)
  else .error (.noPart start stop)

theorem isValid_width (l r : List Char) :
    String.Pos.Raw.IsValid (String.ofList (l ++ r)) ⟨width l⟩ :=
  String.Pos.Raw.isValid_iff_exists_append.2
    ⟨String.ofList l, String.ofList r, String.ofList_append, rfl⟩

/-- The bytes between two positions are those of the characters there. -/
theorem extract_toByteArray (l m r : List Char) :
    (String.ofList (l ++ m ++ r)).toByteArray.extract (width l) (width l + width m) =
      (String.ofList m).toByteArray := by
  have hsplit : (String.ofList (l ++ m ++ r)).toByteArray = (String.ofList l).toByteArray ++
      ((String.ofList m).toByteArray ++ (String.ofList r).toByteArray) := by
    rw [String.ofList_append, String.ofList_append, String.toByteArray_append,
      String.toByteArray_append, ByteArray.append_assoc]
  have hl : width l = (String.ofList l).toByteArray.size + 0 := rfl
  have hm : width l + width m =
      (String.ofList l).toByteArray.size + (String.ofList m).toByteArray.size := rfl
  rw [hsplit, hm, hl, ByteArray.extract_append_size_add, ByteArray.extract_append_size_left,
    ByteArray.extract_zero_size]

/-- **What stands between two positions**: the characters there. -/
theorem part_eq {s : String} {l m r : List Char} (hs : s.toList = l ++ m ++ r) {start stop : Nat}
    (hstart : start = width l) (hstop : stop = width l + width m) :
    part s start stop = .ok (String.ofList m) := by
  obtain rfl : s = String.ofList (l ++ m ++ r) := by rw [← hs, String.ofList_toList]
  subst hstart hstop
  have hl : String.Pos.Raw.IsValid (String.ofList (l ++ m ++ r)) ⟨width l⟩ := by
    rw [List.append_assoc]
    exact isValid_width l (m ++ r)
  have hm : String.Pos.Raw.IsValid (String.ofList (l ++ m ++ r)) ⟨width l + width m⟩ := by
    rw [← width_append]
    exact isValid_width (l ++ m) r
  rw [part, dif_pos ⟨hl, hm, Nat.le_add_right ..⟩]
  refine congrArg Except.ok (String.toByteArray_inj.1 ?_)
  rw [String.toByteArray_extract]
  exact extract_toByteArray l m r

/-- The second byte of a character is no position. -/
example : part "aé" 1 2 = .error (.noPart 1 2) := by decide +kernel

/-! ### Characters of one byte -/

/-- A character of one byte **stands at a position**: its byte is there, and a text can be parted in
front of it and behind it. -/
structure StandsAt (s : String) (c : Char) (i : Nat) : Prop where
  byte : (Utf8.encode s)[i]? = some c.toUInt8
  front : String.Pos.Raw.IsValid s ⟨i⟩
  back : String.Pos.Raw.IsValid s ⟨i + 1⟩

theorem length_encodeChars (cs : List Char) : (Utf8.encodeChars cs).length = width cs := by
  induction cs with
  | nil => rfl
  | cons c cs ih =>
      rw [Utf8.encodeChars, List.flatMap_cons, List.length_append, String.length_utf8EncodeChar,
        width_cons]
      exact congrArg (c.utf8Size + ·) ih

/-- **Where a character of one byte stands**: behind the characters in front of it. -/
theorem standsAt_width {s : String} {c : Char} {l r : List Char} (hs : s.toList = l ++ c :: r)
    (hc : String.utf8EncodeChar c = [c.toUInt8]) : StandsAt s c (width l) := by
  have hone : width l + 1 = width (l ++ [c]) := by
    have hsize : (String.utf8EncodeChar c).length = 1 := by rw [hc]; rfl
    rw [String.length_utf8EncodeChar] at hsize
    simp [hsize]
  obtain rfl : s = String.ofList (l ++ c :: r) := by rw [← hs, String.ofList_toList]
  refine ⟨?_, isValid_width l (c :: r), ?_⟩
  · have hbytes : Utf8.encode (String.ofList (l ++ c :: r)) =
        Utf8.encodeChars l ++ c.toUInt8 :: Utf8.encodeChars r := by
      rw [Utf8.encode, String.toList_ofList, Utf8.encodeChars, List.flatMap_append,
        List.flatMap_cons, hc]
      rfl
    rw [hbytes, ← length_encodeChars l]
    simp
  · rw [hone, List.append_cons]
    exact isValid_width (l ++ [c]) r

end Testbench.Text
