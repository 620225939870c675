/-
**The bytes of a character.**

The decoder of text knows a character by the way that its bytes take it: the first byte opens a
sequence, or is a character of its own, and each further byte goes on with the sequence until the
last one completes it.  The second byte of a sequence lies in a range of its own, so that no
character can be spelled in two ways and surrogates cannot be spelled at all.  This module shows
that the ways of the decoder are the encodings of characters, no more and no less.

Main definitions:

* `Testbench.Utf8.Completes`, `Testbench.Utf8.Spells` — the ways on which a character is reached;
* `Testbench.Utf8.Pending.Sound` — what an open sequence waits for.

Main results:

* `Testbench.Utf8.continuation_eq_inside_iff`, `Testbench.Utf8.continuation_eq_character_iff`,
  `Testbench.Utf8.lead_ranges` — what a byte does;
* `Testbench.Utf8.spells_iff` — **bytes spell a character if and only if they are its encoding**;
* `Testbench.Utf8.Pending.Sound.exists_completes` — every open sequence can be completed.
-/

import Testbench.Text.Utf8

set_option relaxedAutoImplicit false
set_option autoImplicit false

namespace Testbench.Utf8

/-! ### What a byte does -/

theorem continuation_eq_character_iff {p : Pending} {b : Nat} {c : Char} :
    continuation p b = .character c ↔ p.due ≤ 1 ∧ p.least ≤ b ∧ b ≤ p.most ∧
      Char.ofNat (p.bits * 64 + (b - 0x80)) = c := by
  simp only [continuation, Bool.or_eq_true, decide_eq_true_eq]
  split
  · next hout =>
      simp only [reduceCtorEq, false_iff]
      omega
  · next hin =>
      split
      · next hdue =>
          rw [Step.character.injEq]
          exact ⟨fun h => ⟨hdue, by omega, by omega, h⟩, fun h => h.2.2.2⟩
      · next hdue => simp [hdue]

theorem continuation_eq_inside_iff {p q : Pending} {b : Nat} :
    continuation p b = .inside q ↔ 1 < p.due ∧ p.least ≤ b ∧ b ≤ p.most ∧
      ⟨p.bits * 64 + (b - 0x80), p.due - 1, 0x80, 0xBF⟩ = q := by
  simp only [continuation, Bool.or_eq_true, decide_eq_true_eq]
  split
  · next hout =>
      simp only [reduceCtorEq, false_iff]
      omega
  · next hin =>
      split
      · next hdue =>
          simp only [reduceCtorEq, false_iff]
          omega
      · next hdue =>
          rw [Step.inside.injEq]
          exact ⟨fun h => ⟨by omega, by omega, by omega, h⟩, fun h => h.2.2.2⟩

theorem lead_one {b : Nat} (h : b < 0x80) : lead b = .character (Char.ofNat b) := by
  rw [lead, if_pos h]

theorem lead_two {b : Nat} (hleast : 0xC2 ≤ b) (hmost : b ≤ 0xDF) :
    lead b = .inside ⟨b - 0xC0, 1, 0x80, 0xBF⟩ := by
  rw [lead, if_neg (by omega), if_neg (by omega), if_pos (by omega)]

/-- A sequence of three bytes.  The second byte rules out codes below `0x800` and surrogates. -/
theorem lead_three {b : Nat} (hleast : 0xE0 ≤ b) (hmost : b ≤ 0xEF) :
    lead b = .inside
      ⟨b - 0xE0, 2, if b = 0xE0 then 0xA0 else 0x80, if b = 0xED then 0x9F else 0xBF⟩ := by
  by_cases hfirst : b = 0xE0
  · subst hfirst; rfl
  by_cases hsurrogates : b = 0xED
  · subst hsurrogates; rfl
  rw [lead, if_neg (by omega), if_neg (by omega), if_neg (by omega), if_neg hfirst,
    if_neg hsurrogates, if_pos (by omega), if_neg hfirst, if_neg hsurrogates]

/-- A sequence of four bytes.  The second byte rules out codes below `0x10000` and above
`0x10FFFF`. -/
theorem lead_four {b : Nat} (hleast : 0xF0 ≤ b) (hmost : b ≤ 0xF4) :
    lead b = .inside
      ⟨b - 0xF0, 3, if b = 0xF0 then 0x90 else 0x80, if b = 0xF4 then 0x8F else 0xBF⟩ := by
  by_cases hfirst : b = 0xF0
  · subst hfirst; rfl
  by_cases hlast : b = 0xF4
  · subst hlast; rfl
  rw [lead, if_neg (by omega), if_neg (by omega), if_neg (by omega), if_neg (by omega),
    if_neg (by omega), if_neg (by omega), if_neg hfirst, if_neg hlast, if_pos (by omega),
    if_neg hfirst, if_neg hlast]

theorem lead_broken {b : Nat} (h : 0x80 ≤ b ∧ b < 0xC2 ∨ 0xF4 < b) : lead b = .broken := by
  rcases h with ⟨hleast, hmost⟩ | hmost
  · rw [lead, if_neg (by omega), if_pos hmost]
  · rw [lead, if_neg (by omega), if_neg (by omega), if_neg (by omega), if_neg (by omega),
      if_neg (by omega), if_neg (by omega), if_neg (by omega), if_neg (by omega),
      if_neg (by omega)]

/-- A byte starts a sequence of one, two, three or four bytes, or none. -/
theorem lead_ranges (b : Nat) : b < 0x80 ∨ (0xC2 ≤ b ∧ b ≤ 0xDF) ∨ (0xE0 ≤ b ∧ b ≤ 0xEF) ∨
    (0xF0 ≤ b ∧ b ≤ 0xF4) ∨ (0x80 ≤ b ∧ b < 0xC2 ∨ 0xF4 < b) := by omega

/-! ### Spelling -/

/-- Bytes **complete** an open sequence to a character. -/
inductive Completes : Pending → List UInt8 → Char → Prop
  | last {p : Pending} {b : UInt8} {c : Char} (h : continuation p b.toNat = .character c) :
      Completes p [b] c
  | more {p q : Pending} {b : UInt8} {bs : List UInt8} {c : Char}
      (h : continuation p b.toNat = .inside q) (hbs : Completes q bs c) : Completes p (b :: bs) c

/-- Bytes **spell** a character, read from the start of a sequence. -/
inductive Spells : List UInt8 → Char → Prop
  | alone {b : UInt8} {c : Char} (h : lead b.toNat = .character c) : Spells [b] c
  | opened {b : UInt8} {q : Pending} {bs : List UInt8} {c : Char} (h : lead b.toNat = .inside q)
      (hbs : Completes q bs c) : Spells (b :: bs) c

theorem completes_last_iff {p : Pending} (hp : p.due = 1) {bs : List UInt8} {c : Char} :
    Completes p bs c ↔ ∃ b : UInt8, bs = [b] ∧ p.least ≤ b.toNat ∧ b.toNat ≤ p.most ∧
      Char.ofNat (p.bits * 64 + (b.toNat - 0x80)) = c := by
  constructor
  · intro h
    cases h with
    | last h => exact ⟨_, rfl, (continuation_eq_character_iff.1 h).2⟩
    | more h hbs =>
        have hdue := (continuation_eq_inside_iff.1 h).1
        omega
  · rintro ⟨b, rfl, h⟩
    exact .last (continuation_eq_character_iff.2 ⟨by omega, h⟩)

theorem completes_more_iff {p : Pending} (hp : 1 < p.due) {bs : List UInt8} {c : Char} :
    Completes p bs c ↔ ∃ (b : UInt8) (rest : List UInt8), bs = b :: rest ∧ p.least ≤ b.toNat ∧
      b.toNat ≤ p.most ∧
      Completes ⟨p.bits * 64 + (b.toNat - 0x80), p.due - 1, 0x80, 0xBF⟩ rest c := by
  constructor
  · intro h
    cases h with
    | last h =>
        have hdue := (continuation_eq_character_iff.1 h).1
        omega
    | more h hbs =>
        obtain ⟨-, hleast, hmost, rfl⟩ := continuation_eq_inside_iff.1 h
        exact ⟨_, _, rfl, hleast, hmost, hbs⟩
  · rintro ⟨b, rest, rfl, hleast, hmost, hrest⟩
    exact .more (continuation_eq_inside_iff.2 ⟨hp, hleast, hmost, rfl⟩) hrest

theorem completes_two_iff {bits least most : Nat} {bs : List UInt8} {c : Char} :
    Completes ⟨bits, 2, least, most⟩ bs c ↔ ∃ x y : UInt8, bs = [x, y] ∧
      least ≤ x.toNat ∧ x.toNat ≤ most ∧ 0x80 ≤ y.toNat ∧ y.toNat ≤ 0xBF ∧
      Char.ofNat ((bits * 64 + (x.toNat - 0x80)) * 64 + (y.toNat - 0x80)) = c := by
  rw [completes_more_iff (Nat.lt_succ_self 1)]
  constructor
  · rintro ⟨x, rest, rfl, hx, hx', hrest⟩
    obtain ⟨y, rfl, hy⟩ := (completes_last_iff rfl).1 hrest
    exact ⟨x, y, rfl, hx, hx', hy⟩
  · rintro ⟨x, y, rfl, hx, hx', hy⟩
    exact ⟨x, [y], rfl, hx, hx', (completes_last_iff rfl).2 ⟨y, rfl, hy⟩⟩

theorem completes_three_iff {bits least most : Nat} {bs : List UInt8} {c : Char} :
    Completes ⟨bits, 3, least, most⟩ bs c ↔ ∃ x y z : UInt8, bs = [x, y, z] ∧
      least ≤ x.toNat ∧ x.toNat ≤ most ∧ 0x80 ≤ y.toNat ∧ y.toNat ≤ 0xBF ∧
      0x80 ≤ z.toNat ∧ z.toNat ≤ 0xBF ∧
      Char.ofNat (((bits * 64 + (x.toNat - 0x80)) * 64 + (y.toNat - 0x80)) * 64 +
        (z.toNat - 0x80)) = c := by
  rw [completes_more_iff (Nat.lt_of_sub_eq_succ rfl)]
  constructor
  · rintro ⟨x, rest, rfl, hx, hx', hrest⟩
    obtain ⟨y, z, rfl, hyz⟩ := completes_two_iff.1 hrest
    exact ⟨x, y, z, rfl, hx, hx', hyz⟩
  · rintro ⟨x, y, z, rfl, hx, hx', hyz⟩
    exact ⟨x, [y, z], rfl, hx, hx', completes_two_iff.2 ⟨y, z, rfl, hyz⟩⟩

/-! ### Encodings -/

/-- The code of a character that is made from one. -/
theorem toNat_of_ofNat {n : Nat} {c : Char} (hc : Char.ofNat n = c)
    (h : n < 0xD800 ∨ 0xDFFF < n ∧ n < 0x110000) : c.toNat = n := by
  have hvalid : n.isValidChar := h
  rw [← hc, Char.ofNat, dif_pos hvalid]
  rfl

theorem toNat_ranges (c : Char) :
    c.toNat < 0xD800 ∨ 0xDFFF < c.toNat ∧ c.toNat < 0x110000 := c.valid

theorem ofNat_eq_of_eq {b : UInt8} {n : Nat} (h : n = b.toNat) : UInt8.ofNat n = b := by
  rw [h, UInt8.ofNat_toNat]

theorem toNat_ofNat_of_lt {n : Nat} (h : n < 256) : (UInt8.ofNat n).toNat = n := by
  rw [UInt8.toNat_ofNat', Nat.mod_eq_of_lt h]

theorem utf8EncodeChar_one {c : Char} (h : c.toNat ≤ 0x7F) :
    String.utf8EncodeChar c = [UInt8.ofNat c.toNat] := by
  change (if c.toNat ≤ 0x7F then _ else _) = _
  rw [if_pos h]
  rfl

theorem utf8EncodeChar_two {c : Char} (hleast : 0x7F < c.toNat) (hmost : c.toNat ≤ 0x7FF) :
    String.utf8EncodeChar c =
      [UInt8.ofNat (c.toNat / 64 % 32 + 192), UInt8.ofNat (c.toNat % 64 + 128)] := by
  change (if c.toNat ≤ 0x7F then _ else if c.toNat ≤ 0x7FF then _ else _) = _
  rw [if_neg (by omega), if_pos hmost]
  rfl

theorem utf8EncodeChar_three {c : Char} (hleast : 0x7FF < c.toNat) (hmost : c.toNat ≤ 0xFFFF) :
    String.utf8EncodeChar c =
      [UInt8.ofNat (c.toNat / 4096 % 16 + 224), UInt8.ofNat (c.toNat / 64 % 64 + 128),
        UInt8.ofNat (c.toNat % 64 + 128)] := by
  change (if c.toNat ≤ 0x7F then _ else if c.toNat ≤ 0x7FF then _ else
    if c.toNat ≤ 0xFFFF then _ else _) = _
  rw [if_neg (by omega), if_neg (by omega), if_pos hmost]
  rfl

theorem utf8EncodeChar_four {c : Char} (hleast : 0xFFFF < c.toNat) :
    String.utf8EncodeChar c =
      [UInt8.ofNat (c.toNat / 262144 % 8 + 240), UInt8.ofNat (c.toNat / 4096 % 64 + 128),
        UInt8.ofNat (c.toNat / 64 % 64 + 128), UInt8.ofNat (c.toNat % 64 + 128)] := by
  change (if c.toNat ≤ 0x7F then _ else if c.toNat ≤ 0x7FF then _ else
    if c.toNat ≤ 0xFFFF then _ else _) = _
  rw [if_neg (by omega), if_neg (by omega), if_neg (by omega)]
  rfl

/-! ### Bytes that spell a character are its encoding -/

section

variable {b : UInt8} {rest : List UInt8} {c : Char}

theorem encodes_of_alone (hb : b.toNat < 0x80) (hc : Char.ofNat b.toNat = c) :
    String.utf8EncodeChar c = [b] := by
  have hcode := toNat_of_ofNat hc (by omega)
  rw [utf8EncodeChar_one (by omega), ofNat_eq_of_eq hcode]

theorem encodes_of_two (hb : 0xC2 ≤ b.toNat) (hb' : b.toNat ≤ 0xDF)
    (h : Completes ⟨b.toNat - 0xC0, 1, 0x80, 0xBF⟩ rest c) :
    String.utf8EncodeChar c = b :: rest := by
  obtain ⟨x, rfl, hx, hx', hc⟩ := (completes_last_iff rfl).1 h
  dsimp only at hx hx' hc
  have hcode := toNat_of_ofNat hc (by omega)
  rw [utf8EncodeChar_two (by omega) (by omega)]
  simp only [List.cons.injEq, and_true]
  exact ⟨ofNat_eq_of_eq (by omega), ofNat_eq_of_eq (by omega)⟩

theorem encodes_of_three (hb : 0xE0 ≤ b.toNat) (hb' : b.toNat ≤ 0xEF)
    (h : Completes ⟨b.toNat - 0xE0, 2, if b.toNat = 0xE0 then 0xA0 else 0x80,
      if b.toNat = 0xED then 0x9F else 0xBF⟩ rest c) : String.utf8EncodeChar c = b :: rest := by
  obtain ⟨x, y, rfl, hx, hx', hy, hy', hc⟩ := completes_two_iff.1 h
  -- the ranges of the second byte, for the code and for the byte itself
  have hbyte : 0x80 ≤ x.toNat ∧ x.toNat ≤ 0xBF := by split at hx <;> split at hx' <;> omega
  have hlarge : b.toNat = 0xE0 → 0xA0 ≤ x.toNat := fun hb => by rwa [if_pos hb] at hx
  have hscalar : b.toNat = 0xED → x.toNat ≤ 0x9F := fun hb => by rwa [if_pos hb] at hx'
  have hcode := toNat_of_ofNat hc (by omega)
  rw [utf8EncodeChar_three (by omega) (by omega)]
  simp only [List.cons.injEq, and_true]
  exact ⟨ofNat_eq_of_eq (by omega), ofNat_eq_of_eq (by omega), ofNat_eq_of_eq (by omega)⟩

theorem encodes_of_four (hb : 0xF0 ≤ b.toNat) (hb' : b.toNat ≤ 0xF4)
    (h : Completes ⟨b.toNat - 0xF0, 3, if b.toNat = 0xF0 then 0x90 else 0x80,
      if b.toNat = 0xF4 then 0x8F else 0xBF⟩ rest c) : String.utf8EncodeChar c = b :: rest := by
  obtain ⟨x, y, z, rfl, hx, hx', hy, hy', hz, hz', hc⟩ := completes_three_iff.1 h
  have hbyte : 0x80 ≤ x.toNat ∧ x.toNat ≤ 0xBF := by split at hx <;> split at hx' <;> omega
  have hlarge : b.toNat = 0xF0 → 0x90 ≤ x.toNat := fun hb => by rwa [if_pos hb] at hx
  have hscalar : b.toNat = 0xF4 → x.toNat ≤ 0x8F := fun hb => by rwa [if_pos hb] at hx'
  have hcode := toNat_of_ofNat hc (by omega)
  rw [utf8EncodeChar_four (by omega)]
  simp only [List.cons.injEq, and_true]
  exact ⟨ofNat_eq_of_eq (by omega), ofNat_eq_of_eq (by omega), ofNat_eq_of_eq (by omega),
    ofNat_eq_of_eq (by omega)⟩

theorem encodes_of_spells {bs : List UInt8} (h : Spells bs c) : String.utf8EncodeChar c = bs := by
  cases h with
  | @alone b _ h =>
      rcases lead_ranges b.toNat with hb | ⟨hb, hb'⟩ | ⟨hb, hb'⟩ | ⟨hb, hb'⟩ | hb
      · rw [lead_one hb] at h
        exact encodes_of_alone hb (Step.character.inj h)
      · rw [lead_two hb hb'] at h; cases h
      · rw [lead_three hb hb'] at h; cases h
      · rw [lead_four hb hb'] at h; cases h
      · rw [lead_broken hb] at h; cases h
  | @opened b _ _ _ h hrest =>
      rcases lead_ranges b.toNat with hb | ⟨hb, hb'⟩ | ⟨hb, hb'⟩ | ⟨hb, hb'⟩ | hb
      · rw [lead_one hb] at h; cases h
      · rw [lead_two hb hb'] at h
        obtain rfl := Step.inside.inj h
        exact encodes_of_two hb hb' hrest
      · rw [lead_three hb hb'] at h
        obtain rfl := Step.inside.inj h
        exact encodes_of_three hb hb' hrest
      · rw [lead_four hb hb'] at h
        obtain rfl := Step.inside.inj h
        exact encodes_of_four hb hb' hrest
      · rw [lead_broken hb] at h; cases h

end

/-! ### The encoding of a character spells it -/

theorem spells_utf8EncodeChar (c : Char) : Spells (String.utf8EncodeChar c) c := by
  have hvalid := toNat_ranges c
  have hcode {n : Nat} (h : n = c.toNat) : Char.ofNat n = c := by rw [h, c.ofNat_toNat]
  have hsizes : c.toNat ≤ 0x7F ∨ (0x7F < c.toNat ∧ c.toNat ≤ 0x7FF) ∨
      (0x7FF < c.toNat ∧ c.toNat ≤ 0xFFFF) ∨ 0xFFFF < c.toNat := by omega
  rcases hsizes with hc | ⟨hc, hc'⟩ | ⟨hc, hc'⟩ | hc
  · rw [utf8EncodeChar_one hc]
    have hb := toNat_ofNat_of_lt (n := c.toNat) (by omega)
    refine .alone ?_
    rw [lead_one (by omega), hcode hb]
  · rw [utf8EncodeChar_two hc hc']
    have hb := toNat_ofNat_of_lt (n := c.toNat / 64 % 32 + 192) (by omega)
    have hx := toNat_ofNat_of_lt (n := c.toNat % 64 + 128) (by omega)
    refine .opened (lead_two (by omega) (by omega)) ((completes_last_iff rfl).2 ?_)
    refine ⟨_, rfl, ?_, ?_, hcode ?_⟩ <;> dsimp only <;> omega
  · rw [utf8EncodeChar_three hc hc']
    have hb := toNat_ofNat_of_lt (n := c.toNat / 4096 % 16 + 224) (by omega)
    have hx := toNat_ofNat_of_lt (n := c.toNat / 64 % 64 + 128) (by omega)
    have hy := toNat_ofNat_of_lt (n := c.toNat % 64 + 128) (by omega)
    refine .opened (lead_three (by omega) (by omega)) (completes_two_iff.2 ?_)
    refine ⟨_, _, rfl, ?_, ?_, ?_, ?_, hcode ?_⟩
    · split <;> omega
    · split <;> omega
    all_goals omega
  · rw [utf8EncodeChar_four hc]
    have hb := toNat_ofNat_of_lt (n := c.toNat / 262144 % 8 + 240) (by omega)
    have hx := toNat_ofNat_of_lt (n := c.toNat / 4096 % 64 + 128) (by omega)
    have hy := toNat_ofNat_of_lt (n := c.toNat / 64 % 64 + 128) (by omega)
    have hz := toNat_ofNat_of_lt (n := c.toNat % 64 + 128) (by omega)
    refine .opened (lead_four (by omega) (by omega)) (completes_three_iff.2 ?_)
    refine ⟨_, _, _, rfl, ?_, ?_, ?_, ?_, ?_, ?_, hcode ?_⟩
    · split <;> omega
    · split <;> omega
    all_goals omega

/-- **Bytes spell a character if and only if they are its encoding.** -/
theorem spells_iff {bs : List UInt8} {c : Char} : Spells bs c ↔ String.utf8EncodeChar c = bs :=
  ⟨encodes_of_spells, fun h => h ▸ spells_utf8EncodeChar c⟩

/-! ### Open sequences -/

/-- A sequence that is open **waits for a byte** between `0x80` and `0xBF`. -/
structure Pending.Sound (p : Pending) : Prop where
  least_ge : 0x80 ≤ p.least
  least_le : p.least ≤ p.most
  most_le : p.most ≤ 0xBF

theorem sound_of_lead {b : Nat} {q : Pending} (h : lead b = .inside q) : q.Sound := by
  rcases lead_ranges b with hb | ⟨hb, hb'⟩ | ⟨hb, hb'⟩ | ⟨hb, hb'⟩ | hb
  · rw [lead_one hb] at h; cases h
  · rw [lead_two hb hb'] at h
    obtain rfl := Step.inside.inj h
    constructor <;> dsimp only <;> omega
  · rw [lead_three hb hb'] at h
    obtain rfl := Step.inside.inj h
    constructor <;> dsimp only <;> split <;> (try split) <;> omega
  · rw [lead_four hb hb'] at h
    obtain rfl := Step.inside.inj h
    constructor <;> dsimp only <;> split <;> (try split) <;> omega
  · rw [lead_broken hb] at h; cases h

theorem sound_of_continuation {p q : Pending} {b : Nat} (h : continuation p b = .inside q) :
    q.Sound := by
  obtain ⟨-, -, -, rfl⟩ := continuation_eq_inside_iff.1 h
  constructor <;> dsimp only <;> omega

/-- **Every open sequence can be completed**, by the least bytes that it waits for. -/
theorem Pending.Sound.exists_completes {p : Pending} (hp : p.Sound) :
    ∃ bs c, Completes p bs c := by
  obtain ⟨hleast, hmost, hbyte⟩ := hp
  have hb : (UInt8.ofNat p.least).toNat = p.least := toNat_ofNat_of_lt (by omega)
  by_cases hdue : p.due ≤ 1
  · exact ⟨[.ofNat p.least], _, .last (continuation_eq_character_iff.2
      ⟨hdue, by omega, by omega, rfl⟩)⟩
  · have hopen : continuation p (UInt8.ofNat p.least).toNat = .inside _ :=
      continuation_eq_inside_iff.2 ⟨by omega, by omega, by omega, rfl⟩
    obtain ⟨bs, c, hbs⟩ := (sound_of_continuation hopen).exists_completes
    exact ⟨_, c, .more hopen hbs⟩
termination_by p.due

end Testbench.Utf8
