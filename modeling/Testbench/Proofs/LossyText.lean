/-
**The text of any bytes.**

Bytes that are no text are read all the same.  Where the encoding of a character stands, that
character is read.  Where none stands, the longest piece that could still have become one is passed
over, or a single byte if nothing could, and one replacement character stands for it.  Every list of
bytes is divided in this way, and in no other, so that this rule says what the text of the bytes is;
the decoder, which goes from byte to byte and never looks ahead, follows it.

A byte that is a character of its own belongs to no longer sequence.  So text may be cut behind
every line break and the lines decoded one by one.

Main definitions:

* `Testbench.Utf8.BeginsCharacter`, `Testbench.Utf8.BrokenBefore` — pieces that are no text;
* `Testbench.Utf8.ReadsAs` — **the rule**: which text is read from which bytes;
* `Testbench.Utf8.Opens` — bytes after which the decoder is inside a sequence.

Main results:

* `Testbench.Utf8.Opens.spells_append_iff`, `Testbench.Utf8.exists_opens` — the decoder is inside
  of a sequence exactly after the beginning of a character;
* `Testbench.Utf8.readsAs_iff` — **the decoder follows the rule**;
* `Testbench.Utf8.lossyChars_line_append` — behind a line break decoding starts afresh.
-/

import Mathlib.Data.List.Induction
import Testbench.Proofs.CharacterBytes

set_option relaxedAutoImplicit false
set_option autoImplicit false

namespace Testbench.Utf8

/-! ### The rule -/

/-- The bytes **begin a character**, or are all of one. -/
def BeginsCharacter (bs : List UInt8) : Prop := ∃ c : Char, bs <+: String.utf8EncodeChar c

/-- A piece in front of other bytes **is broken**: no character stands where it starts, and it is
the longest piece there that begins a character, or a single byte if there is no such piece. -/
structure BrokenBefore (piece rest : List UInt8) : Prop where
  ne_nil : piece ≠ []
  no_character : ∀ c : Char, ¬String.utf8EncodeChar c <+: piece ++ rest
  begins : piece.length = 1 ∨ BeginsCharacter piece
  longest : ∀ longer, longer <+: piece ++ rest → piece.length < longer.length →
    ¬BeginsCharacter longer

/-- The **text that is read from bytes**: the characters whose encodings stand there, and one
replacement character for each broken piece. -/
inductive ReadsAs : List UInt8 → List Char → Prop
  | nil : ReadsAs [] []
  | character (c : Char) {rest : List UInt8} {cs : List Char} (hrest : ReadsAs rest cs) :
      ReadsAs (String.utf8EncodeChar c ++ rest) (c :: cs)
  | broken {piece rest : List UInt8} {cs : List Char} (hpiece : BrokenBefore piece rest)
      (hrest : ReadsAs rest cs) : ReadsAs (piece ++ rest) (replacement :: cs)

theorem BeginsCharacter.of_prefix {bs longer : List UInt8} (h : BeginsCharacter longer)
    (hbs : bs <+: longer) : BeginsCharacter bs := by
  obtain ⟨c, hc⟩ := h
  exact ⟨c, hbs.trans hc⟩

/-- A piece that cannot be continued by the next byte is the longest. -/
theorem BrokenBefore.of_next {piece rest : List UInt8} (hne : piece ≠ [])
    (hno : ∀ c : Char, ¬String.utf8EncodeChar c <+: piece ++ rest)
    (hbegins : piece.length = 1 ∨ BeginsCharacter piece)
    (hnext : ∀ b, [b] <+: rest → ¬BeginsCharacter (piece ++ [b])) : BrokenBefore piece rest where
  ne_nil := hne
  no_character := hno
  begins := hbegins
  longest := by
    intro longer hlonger hlength hc
    obtain ⟨more, rfl⟩ := List.prefix_of_prefix_length_le (List.prefix_append piece rest) hlonger
      (Nat.le_of_lt hlength)
    cases more with
    | nil => simp at hlength
    | cons b more =>
        have hmore : b :: more <+: rest := (List.prefix_append_right_inj piece).1 hlonger
        have hb : [b] <+: b :: more := ⟨more, rfl⟩
        exact hnext b (hb.trans hmore) (hc.of_prefix ((List.prefix_append_right_inj piece).2 hb))

/-- Where no character stands, a broken piece does. -/
theorem exists_brokenBefore {piece rest : List UInt8} (hne : piece ≠ [])
    (hno : ∀ c : Char, ¬String.utf8EncodeChar c <+: piece ++ rest)
    (hbegins : piece.length = 1 ∨ BeginsCharacter piece) :
    ∃ piece' rest', piece ++ rest = piece' ++ rest' ∧ BrokenBefore piece' rest' := by
  -- the piece grows as long as it begins a character
  induction rest generalizing piece with
  | nil => exact ⟨piece, [], rfl, .of_next hne hno hbegins (by simp)⟩
  | cons b rest ih =>
      by_cases hb : BeginsCharacter (piece ++ [b])
      · rw [← List.singleton_append, ← List.append_assoc] at hno ⊢
        exact ih (by simp) hno (Or.inr hb)
      · refine ⟨piece, b :: rest, rfl, .of_next hne hno hbegins ?_⟩
        intro b' hb'
        rw [List.cons_prefix_cons] at hb'
        rwa [hb'.1]

/-- **Every list of bytes is read as some text.** -/
theorem exists_readsAs (bs : List UInt8) : ∃ cs, ReadsAs bs cs := by
  -- by induction on the number of bytes: every piece takes at least one of them
  induction hlength : bs.length using Nat.strongRecOn generalizing bs with
  | ind n ih =>
      subst hlength
      by_cases hchar : ∃ c : Char, String.utf8EncodeChar c <+: bs
      · obtain ⟨c, rest, rfl⟩ := hchar
        have hpos := List.length_pos_iff.2 (String.utf8EncodeChar_ne_nil (c := c))
        obtain ⟨cs, hcs⟩ := ih rest.length (by rw [List.length_append]; omega) rest rfl
        exact ⟨_, .character c hcs⟩
      · cases bs with
        | nil => exact ⟨[], .nil⟩
        | cons b bs =>
            have hno : ∀ c : Char, ¬String.utf8EncodeChar c <+: [b] ++ bs :=
              fun c hc => hchar ⟨c, hc⟩
            obtain ⟨piece, rest, heq, hpiece⟩ :=
              exists_brokenBefore (List.cons_ne_nil b []) hno (Or.inl rfl)
            rw [List.singleton_append] at heq
            have hpos := List.length_pos_iff.2 hpiece.ne_nil
            rw [heq] at ih ⊢
            obtain ⟨cs, hcs⟩ := ih rest.length (by rw [List.length_append]; omega) rest rfl
            exact ⟨_, .broken hpiece hcs⟩

/-! ### Inside a sequence -/

/-- Bytes after which the decoder is **inside a sequence**, read from the start of one. -/
inductive Opens : List UInt8 → Pending → Prop
  | first {b : UInt8} {q : Pending} (h : lead b.toNat = .inside q) : Opens [b] q
  | more {bs : List UInt8} {p q : Pending} {b : UInt8} (hbs : Opens bs p)
      (h : continuation p b.toNat = .inside q) : Opens (bs ++ [b]) q

theorem completes_cons_iff_of_inside {p q : Pending} {b : UInt8}
    (h : continuation p b.toNat = .inside q) {bs : List UInt8} {c : Char} :
    Completes p (b :: bs) c ↔ Completes q bs c := by
  constructor
  · intro hbs
    cases hbs with
    | last h' => cases h.symm.trans h'
    | more h' hbs =>
        obtain rfl := Step.inside.inj (h.symm.trans h')
        exact hbs
  · exact .more h

/-- A broken sequence is not completed. -/
theorem not_completes_of_broken {p : Pending} {b : UInt8} (h : continuation p b.toNat = .broken)
    {bs : List UInt8} {c : Char} : ¬Completes p (b :: bs) c := by
  intro hbs
  cases hbs with
  | last h' => cases h.symm.trans h'
  | more h' _ => cases h.symm.trans h'

theorem spells_cons_iff_of_inside {q : Pending} {b : UInt8} (h : lead b.toNat = .inside q)
    {bs : List UInt8} {c : Char} : Spells (b :: bs) c ↔ Completes q bs c := by
  constructor
  · intro hbs
    cases hbs with
    | alone h' => cases h.symm.trans h'
    | opened h' hbs =>
        obtain rfl := Step.inside.inj (h.symm.trans h')
        exact hbs
  · exact .opened h

theorem not_spells_of_broken {b : UInt8} (h : lead b.toNat = .broken) {bs : List UInt8}
    {c : Char} : ¬Spells (b :: bs) c := by
  intro hbs
  cases hbs with
  | alone h' => cases h.symm.trans h'
  | opened h' _ => cases h.symm.trans h'

theorem beginsCharacter_iff {bs : List UInt8} :
    BeginsCharacter bs ↔ ∃ more c, Spells (bs ++ more) c := by
  constructor
  · rintro ⟨c, more, hc⟩
    exact ⟨more, c, spells_iff.2 hc.symm⟩
  · rintro ⟨more, c, hc⟩
    exact ⟨c, more, (spells_iff.1 hc).symm⟩

namespace Opens

variable {bs : List UInt8} {p : Pending}

/-- After the beginning of a sequence a character is spelled by what completes the sequence. -/
theorem spells_append_iff (h : Opens bs p) {more : List UInt8} {c : Char} :
    Spells (bs ++ more) c ↔ Completes p more c := by
  induction h generalizing more with
  | first h => exact spells_cons_iff_of_inside h
  | more hbs h ih =>
      rw [List.append_assoc, List.singleton_append, ih, completes_cons_iff_of_inside h]

theorem sound (h : Opens bs p) : p.Sound := by
  cases h with
  | first h => exact sound_of_lead h
  | more hbs h => exact sound_of_continuation h

theorem beginsCharacter (h : Opens bs p) : BeginsCharacter bs := by
  obtain ⟨more, c, hmore⟩ := h.sound.exists_completes
  exact beginsCharacter_iff.2 ⟨more, c, h.spells_append_iff.2 hmore⟩

theorem not_beginsCharacter_of_broken (h : Opens bs p) {b : UInt8}
    (hb : continuation p b.toNat = .broken) : ¬BeginsCharacter (bs ++ [b]) := by
  rw [beginsCharacter_iff]
  rintro ⟨more, c, hc⟩
  rw [List.append_assoc, List.singleton_append, h.spells_append_iff] at hc
  exact not_completes_of_broken hb hc

/-- The decoder is inside the sequence. -/
theorem run (h : Opens bs p) (done : List Char) :
    Decoder.run ⟨done, none⟩ bs = ⟨done, some p⟩ := by
  induction h with
  | first h => simp [Decoder.feed, step, stepStart, h]
  | more hbs h ih => rw [Decoder.run_append, ih]; simp [Decoder.feed, step, h]

end Opens

/-- **After the beginning of a character the decoder is inside a sequence**, unless it has read all
of a character. -/
theorem exists_opens {bs : List UInt8} (hne : bs ≠ []) (h : BeginsCharacter bs)
    (hno : ∀ c : Char, ¬String.utf8EncodeChar c <+: bs) : ∃ p, Opens bs p := by
  induction bs using List.reverseRecOn with
  | nil => exact absurd rfl hne
  | append_singleton init b ih =>
      have hwhole : ∀ c, ¬Spells (init ++ [b]) c := fun c hc =>
        hno c (spells_iff.1 hc ▸ List.prefix_rfl)
      by_cases hinit : init = []
      · subst hinit
        cases hlead : lead b.toNat with
        | inside q => exact ⟨q, .first hlead⟩
        | character c => exact absurd (.alone hlead) (hwhole c)
        | broken =>
            obtain ⟨more, c, hc⟩ := beginsCharacter_iff.1 h
            exact absurd hc (not_spells_of_broken hlead)
      · have hprefix : init <+: init ++ [b] := List.prefix_append ..
        obtain ⟨p, hp⟩ := ih hinit (h.of_prefix hprefix) fun c hc => hno c (hc.trans hprefix)
        cases hnext : continuation p b.toNat with
        | inside q => exact ⟨q, .more hp hnext⟩
        | character c => exact absurd (hp.spells_append_iff.2 (.last hnext)) (hwhole c)
        | broken => exact absurd h (hp.not_beginsCharacter_of_broken hnext)

/-! ### The decoder -/

theorem run_of_completes {p : Pending} {bs : List UInt8} {c : Char} (h : Completes p bs c)
    (done : List Char) : Decoder.run ⟨done, some p⟩ bs = ⟨c :: done, none⟩ := by
  induction h with
  | last h => simp [Decoder.feed, step, h]
  | more h _ ih => simpa [Decoder.feed, step, h] using ih

/-- Bytes that spell a character are read as that character. -/
theorem run_of_spells {bs : List UInt8} {c : Char} (h : Spells bs c) (done : List Char) :
    Decoder.run ⟨done, none⟩ bs = ⟨c :: done, none⟩ := by
  cases h with
  | alone h => simp [Decoder.feed, step, stepStart, h]
  | opened h hbs => simpa [Decoder.feed, step, stepStart, h] using run_of_completes hbs done

/-- Where no sequence is open, decoding starts afresh. -/
theorem lossyChars_append {bs : List UInt8} (h : (Decoder.run {} bs).pending = none)
    (rest : List UInt8) : lossyChars (bs ++ rest) = lossyChars bs ++ lossyChars rest := by
  simp only [lossyChars, Decoder.run_append]
  cases hrun : Decoder.run {} bs with
  | mk done pending =>
      rw [hrun] at h
      dsimp only at h
      subst h
      rw [Decoder.run_done]
      simp [Decoder.text, Utf8.rest]

theorem lossyChars_utf8EncodeChar_append (c : Char) (rest : List UInt8) :
    lossyChars (String.utf8EncodeChar c ++ rest) = c :: lossyChars rest := by
  have hrun : Decoder.run {} (String.utf8EncodeChar c) = ⟨[c], none⟩ :=
    run_of_spells (spells_utf8EncodeChar c) []
  rw [lossyChars_append (by rw [hrun]), lossyChars, hrun]
  rfl

/-- A byte that breaks a sequence is read as if the sequence had been a character. -/
theorem feed_of_broken {p : Pending} {b : UInt8} (h : continuation p b.toNat = .broken)
    (done : List Char) :
    Decoder.feed ⟨done, some p⟩ b = Decoder.feed ⟨replacement :: done, none⟩ b := by
  simp [Decoder.feed, step, h]

/-- One replacement character is read for a broken piece. -/
theorem lossyChars_broken_append {piece rest : List UInt8} (h : BrokenBefore piece rest) :
    lossyChars (piece ++ rest) = replacement :: lossyChars rest := by
  have hrest : (Decoder.run ⟨[replacement], none⟩ rest).text = replacement :: lossyChars rest := by
    rw [Decoder.run_done]
    simp [lossyChars, Decoder.text]
  have hno : ∀ c : Char, ¬String.utf8EncodeChar c <+: piece := fun c hc =>
    h.no_character c (hc.trans (List.prefix_append ..))
  by_cases hbegins : BeginsCharacter piece
  · -- the next byte, if there is one, breaks the sequence
    obtain ⟨p, hp⟩ := exists_opens h.ne_nil hbegins hno
    cases rest with
    | nil => rw [List.append_nil, lossyChars, hp.run]; rfl
    | cons b rest =>
        have hlonger : ¬BeginsCharacter (piece ++ [b]) := h.longest _
          ((List.prefix_append_right_inj piece).2 ⟨rest, rfl⟩) (by simp)
        have hbroken : continuation p b.toNat = .broken := by
          cases hnext : continuation p b.toNat with
          | broken => rfl
          | inside q => exact absurd (Opens.more hp hnext).beginsCharacter hlonger
          | character c =>
              refine absurd (beginsCharacter_iff.2 ⟨[], c, ?_⟩) hlonger
              rw [List.append_nil]
              exact hp.spells_append_iff.2 (.last hnext)
        rw [lossyChars, Decoder.run_append, hp.run, Decoder.run_cons, feed_of_broken hbroken,
          ← Decoder.run_cons]
        exact hrest
  · -- a single byte with which no sequence starts
    obtain ⟨b, rfl⟩ := List.length_eq_one_iff.1 (h.begins.resolve_right hbegins)
    have hbroken : lead b.toNat = .broken := by
      cases hlead : lead b.toNat with
      | broken => rfl
      | inside q => exact absurd (Opens.first hlead).beginsCharacter hbegins
      | character c =>
          exact absurd (beginsCharacter_iff.2 ⟨[], c, .alone hlead⟩) hbegins
    have hfeed : Decoder.feed {} b = ⟨[replacement], none⟩ := by
      simp [Decoder.feed, step, stepStart, hbroken]
    rw [lossyChars, List.singleton_append, Decoder.run_cons, hfeed]
    exact hrest

/-- **The decoder follows the rule**: the text that it reads is the one that the rule gives. -/
theorem readsAs_iff {bs : List UInt8} {cs : List Char} : ReadsAs bs cs ↔ lossyChars bs = cs := by
  have hreads : ∀ {bs cs}, ReadsAs bs cs → lossyChars bs = cs := by
    intro bs cs h
    induction h with
    | nil => rfl
    | character c hrest ih => rw [lossyChars_utf8EncodeChar_append, ih]
    | broken hpiece hrest ih => rw [lossyChars_broken_append hpiece, ih]
  constructor
  · exact hreads
  · rintro rfl
    obtain ⟨cs, hcs⟩ := exists_readsAs bs
    rwa [hreads hcs]

/-! ### Line breaks -/

/-- A sequence that the decoder is inside of waits for no byte below `0x80`. -/
theorem sound_run (bs : List UInt8) {p : Pending} (h : (Decoder.run {} bs).pending = some p) :
    p.Sound := by
  induction bs using List.reverseRecOn generalizing p with
  | nil => cases h
  | append_singleton bs b ih =>
      have hstart : ∀ {q}, (stepStart b).2 = some q → q.Sound := by
        intro q hq
        rw [stepStart] at hq
        cases hlead : lead b.toNat with
        | inside q' =>
            rw [hlead] at hq
            cases hq
            exact sound_of_lead hlead
        | character c => rw [hlead] at hq; cases hq
        | broken => rw [hlead] at hq; cases hq
      rw [Decoder.run_append, Decoder.run_cons, Decoder.run_nil, Decoder.feed] at h
      dsimp only at h
      cases hpending : (Decoder.run {} bs).pending with
      | none =>
          rw [hpending] at h
          exact hstart h
      | some q =>
          rw [hpending, step] at h
          cases hnext : continuation q b.toNat with
          | inside q' =>
              rw [hnext] at h
              cases h
              exact sound_of_continuation hnext
          | character c => rw [hnext] at h; cases h
          | broken =>
              rw [hnext] at h
              exact hstart h

/-- Behind a line break no sequence is open. -/
theorem pending_line (bs : List UInt8) : (Decoder.run {} (bs ++ [10])).pending = none := by
  rw [Decoder.run_append, Decoder.run_cons, Decoder.run_nil, Decoder.feed]
  dsimp only
  cases hpending : (Decoder.run {} bs).pending with
  | none => rfl
  | some p =>
      have hleast := (sound_run bs hpending).least_ge
      have hbroken : continuation p (10 : UInt8).toNat = .broken := by
        have hout : (10 : UInt8).toNat < p.least := Nat.lt_of_lt_of_le (by decide) hleast
        rw [continuation, if_pos (by rw [decide_eq_true hout, Bool.true_or])]
      rw [step, hbroken]
      rfl

/-- **Behind a line break decoding starts afresh.** -/
theorem lossyChars_line_append (line rest : List UInt8) :
    lossyChars (line ++ [10] ++ rest) = lossyChars (line ++ [10]) ++ lossyChars rest :=
  lossyChars_append (pending_line line) rest

end Testbench.Utf8
