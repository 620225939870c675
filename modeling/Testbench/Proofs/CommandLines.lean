/-
**What a command line may hold.**

However a command line is divided into words, an option that is found on it is one that its dialect
offers, and it stands there with a value of its kind.  The invariant is kept by every word, and by
the option that is still open when a word is read.  So it can be told from the options of a line
alone which ones were given.

Main definitions:

* `Testbench.CommandLine.Opt.Admits` — what may stand with an option;
* `Testbench.CommandLine.Scan.Reads` — the ways in which a word is read;
* `Testbench.CommandLine.Scan.Within` — the invariant;
* `Testbench.CommandLine.readAs` — the command, the dialect and the words of a line.

Main results:

* `Testbench.CommandLine.Scan.word_eq_ok_iff` — a word is read in one of these ways, or refused;
* `Testbench.CommandLine.Scan.Within.word`, `Testbench.CommandLine.Scan.Within.words` — every word
  keeps the invariant;
* `Testbench.CommandLine.Dialect.offers_of_parse` — **a line holds nothing but what its dialect
  offers**;
* `Testbench.CommandLine.Found.legible_of_offers` — what was given can be read;
* `Testbench.CommandLine.parse_eq_ok_iff` — the lines that are accepted.
-/

import Testbench.CommandLine.Options

set_option relaxedAutoImplicit false
set_option autoImplicit false

namespace Testbench.CommandLine

/-! ### Steps that may fail -/

section Steps

variable {ε α β : Type} {x : Except ε α}

/-- Of two steps that succeed the first one did. -/
theorem bind_eq_ok {f : α → Except ε β} {b : β} (h : x.bind f = .ok b) :
    ∃ a, x = .ok a ∧ f a = .ok b := by
  cases x with
  | error e => cases h
  | ok a => exact ⟨a, rfl, h⟩

/-- What is said of a failure does not matter to a success. -/
theorem mapError_eq_ok {ε' : Type} {g : ε → ε'} {a : α} (h : x.mapError g = .ok a) : x = .ok a := by
  cases x with
  | error e => cases h
  | ok a' =>
      cases h
      rfl

theorem map_eq_ok_iff {g : α → β} {b : β} : x.map g = .ok b ↔ ∃ a, x = .ok a ∧ b = g a := by
  cases x with
  | error e => simp [Except.map]
  | ok a => simp [Except.map, eq_comm]

end Steps

/-! ### Values -/

/-- The values of a kind. -/
def ValueKind.Admits : ValueKind → Value → Prop
  | .text, v => ∃ s, v = .text s
  | .path, v => ∃ s, s ≠ "" ∧ v = .text s
  | .number least, v => ∃ n, least ≤ n ∧ n < UInt64.size ∧ v = .number n

theorem ValueKind.admits_of_read {kind : ValueKind} {s : String} {v : Value}
    (h : kind.read s = .ok v) : kind.Admits v := by
  cases kind with
  | text =>
      cases h
      exact ⟨s, rfl⟩
  | path =>
      rw [read] at h
      split at h
      · cases h
      · next hs =>
          cases h
          exact ⟨s, hs, rfl⟩
  | number least =>
      rw [read] at h
      cases hn : readNumber s with
      | none =>
          rw [hn] at h
          cases h
      | some n =>
          rw [hn] at h
          dsimp only at h
          split at h
          · next hbounds =>
              cases h
              exact ⟨n, hbounds.1, hbounds.2, rfl⟩
          · cases h

/-- What may stand with an option: a value of its kind, or nothing. -/
def Opt.Admits (o : Opt) (v : Option Value) : Prop :=
  match o.shape with
  | .switch => v = none
  | .single kind => ∃ w, v = some w ∧ kind.Admits w
  | .repeatable => ∃ s, v = some (.text s)
  | .stop => False

/-- The dialect offers an option with what stands with it. -/
def Dialect.Offers (d : Dialect) (e : Opt × Option Value) : Prop :=
  e.1 ∈ d.options ∧ e.1.Admits e.2

namespace Scan

variable {d : Dialect} {s s' : Scan} {w : String} {o : Opt}

/-! ### Reading one word -/

/-- **The ways in which a word is read**: as the value of the option that waits for one, as the two
hyphens behind which there are no options, as a long option, or as short options. -/
inductive Reads (d : Dialect) (s : Scan) (w : String) : Scan → Prop
  | value {o : Opt} (hopen : s.trailing = false) (hwaiting : s.waiting = some o)
      (htakes : o.takesHyphens = true ∨ kindOf w = .plain) :
      Reads d s w { s with pending := some (o, some w) }
  | hyphens (hopen : s.trailing = false)
      (hfree : ∀ o, s.waiting = some o → o.takesHyphens = false) (hkind : kindOf w = .twoHyphens) :
      Reads d s w { s with trailing := true }
  | long {name : String} {value : Option String} {t : Scan} (hopen : s.trailing = false)
      (hfree : ∀ o, s.waiting = some o → o.takesHyphens = false)
      (hkind : kindOf w = .long name value) (h : s.longWord d name value = .ok t) : Reads d s w t
  | short {letters : List Char} {t : Scan} (hopen : s.trailing = false)
      (hfree : ∀ o, s.waiting = some o → o.takesHyphens = false)
      (hkind : kindOf w = .short letters) (h : s.shortWord d letters = .ok t) : Reads d s w t

theorem word_of_value (hopen : s.trailing = false) (hwaiting : s.waiting = some o)
    (htakes : o.takesHyphens = true ∨ kindOf w = .plain) :
    s.word d w = .ok { s with pending := some (o, some w) } := by
  rw [word, hopen, hwaiting]
  simp [htakes]

/-- A word that is no value is read by its kind. -/
theorem word_of_free (hopen : s.trailing = false)
    (hfree : ∀ o, s.waiting = some o → o.takesHyphens = false ∧ kindOf w ≠ .plain) :
    s.word d w =
      match kindOf w with
      | .twoHyphens => .ok { s with trailing := true }
      | .long name value => s.longWord d name value
      | .short letters => s.shortWord d letters
      | .plain => .error (s.stray d w) := by
  rw [word, hopen]
  cases hwaiting : s.waiting with
  | none => cases kindOf w <;> rfl
  | some o =>
      obtain ⟨hhyphens, hplain⟩ := hfree o hwaiting
      cases hkind : kindOf w with
      | plain => exact absurd hkind hplain
      | twoHyphens => simp [hhyphens]
      | long name value => simp [hhyphens]
      | short letters => simp [hhyphens]

/-- **A word is read in one of these ways, or refused.** -/
theorem word_eq_ok_iff : s.word d w = .ok s' ↔ Reads d s w s' := by
  constructor
  · intro h
    cases hopen : s.trailing with
    | true => simp [word, hopen] at h
    | false =>
        by_cases hvalue : ∃ o, s.waiting = some o ∧ (o.takesHyphens = true ∨ kindOf w = .plain)
        · obtain ⟨o, hwaiting, htakes⟩ := hvalue
          rw [word_of_value hopen hwaiting htakes] at h
          cases h
          exact .value hopen hwaiting htakes
        · have hhyphens : ∀ o, s.waiting = some o → o.takesHyphens = false := by
            intro o hwaiting
            rw [← Bool.not_eq_true]
            exact fun htakes => hvalue ⟨o, hwaiting, Or.inl htakes⟩
          have hplain : ∀ o, s.waiting = some o → kindOf w ≠ .plain :=
            fun o hwaiting hkind => hvalue ⟨o, hwaiting, Or.inr hkind⟩
          rw [word_of_free hopen fun o ho => ⟨hhyphens o ho, hplain o ho⟩] at h
          cases hkind : kindOf w with
          | plain =>
              rw [hkind] at h
              cases h
          | twoHyphens =>
              rw [hkind] at h
              cases h
              exact .hyphens hopen hhyphens hkind
          | long name value =>
              rw [hkind] at h
              exact .long hopen hhyphens hkind h
          | short letters =>
              rw [hkind] at h
              exact .short hopen hhyphens hkind h
  · intro h
    cases h with
    | value hopen hwaiting htakes => exact word_of_value hopen hwaiting htakes
    | hyphens hopen hfree hkind =>
        rw [word_of_free hopen fun o ho => ⟨hfree o ho, by simp [hkind]⟩, hkind]
    | long hopen hfree hkind h =>
        rw [word_of_free hopen fun o ho => ⟨hfree o ho, by simp [hkind]⟩, hkind]
        exact h
    | short hopen hfree hkind h =>
        rw [word_of_free hopen fun o ho => ⟨hfree o ho, by simp [hkind]⟩, hkind]
        exact h

/-- An option that waits for its value is open. -/
theorem pending_of_waiting (h : s.waiting = some o) : s.pending = some (o, none) := by
  rw [waiting] at h
  split at h
  · next hpending =>
      cases h
      exact hpending
  · cases h

/-! ### The invariant -/

/-- Nothing is met on a line but what its dialect offers. -/
structure Within (d : Dialect) (s : Scan) : Prop where
  found : ∀ e ∈ s.found, d.Offers e
  pending : ∀ e, s.pending = some e → e.1 ∈ d.options

theorem within_empty (d : Dialect) : Within d {} := ⟨nofun, nofun⟩

/-- All that completing an option can do. -/
theorem complete_eq_ok {value : Option String} (h : s.complete o value = .ok s') :
    ∃ v, o.Admits v ∧ s' = s.add o v := by
  unfold complete at h
  cases hshape : o.shape with
  | stop =>
      rw [hshape] at h
      cases h
  | switch =>
      rw [hshape] at h
      dsimp only at h
      split at h
      · cases h
      · cases h
        exact ⟨none, by rw [Opt.Admits, hshape], rfl⟩
  | repeatable =>
      rw [hshape] at h
      cases value with
      | none => cases h
      | some text =>
          cases h
          exact ⟨some (.text text), by rw [Opt.Admits, hshape]; exact ⟨text, rfl⟩, rfl⟩
  | single kind =>
      rw [hshape] at h
      cases value with
      | none => cases h
      | some text =>
          dsimp only at h
          split at h
          · cases h
          · obtain ⟨w, hread, rfl⟩ := map_eq_ok_iff.1 h
            refine ⟨some w, ?_, rfl⟩
            rw [Opt.Admits, hshape]
            exact ⟨w, rfl, ValueKind.admits_of_read hread⟩

namespace Within

theorem complete {value : Option String} (hs : s.Within d) (ho : o ∈ d.options)
    (h : s.complete o value = .ok s') : s'.Within d := by
  obtain ⟨v, hv, rfl⟩ := complete_eq_ok h
  refine ⟨fun e he => ?_, hs.pending⟩
  rcases List.mem_append.1 he with he | he
  · exact hs.found e he
  · rw [List.mem_singleton.1 he]
    exact ⟨ho, hv⟩

theorem settle (hs : s.Within d) (h : s.settle = .ok s') : s'.Within d := by
  rw [Scan.settle] at h
  cases hpending : s.pending with
  | none =>
      rw [hpending] at h
      cases h
      exact hs
  | some e =>
      rw [hpending] at h
      have hopen : ({ s with pending := none } : Scan).Within d := ⟨hs.found, nofun⟩
      exact hopen.complete (hs.pending e hpending) h

theorem meet {attached : Option String} (hs : s.Within d) (ho : o ∈ d.options)
    (h : s.meet o attached = .ok s') : s'.Within d := by
  have hstarted : ({ s with started := true } : Scan).Within d := ⟨hs.found, hs.pending⟩
  rw [Scan.meet] at h
  obtain ⟨t, hsettle, h⟩ := bind_eq_ok h
  have ht := hstarted.settle hsettle
  split at h
  · cases h
    refine ⟨ht.found, fun e he => ?_⟩
    cases he
    exact ho
  · exact ht.complete ho h

theorem longWord {name : String} {value : Option String} (hs : s.Within d)
    (h : s.longWord d name value = .ok s') : s'.Within d := by
  rw [Scan.longWord] at h
  cases hfind : d.options.find? fun o => o.long = name with
  | none =>
      rw [hfind] at h
      cases h
  | some o =>
      rw [hfind] at h
      dsimp only at h
      split at h
      · cases h
      · exact hs.meet (List.mem_of_find?_eq_some hfind) h

/-- A word of short options is read letter by letter. -/
theorem shortWord {letters : List Char} (hs : s.Within d)
    (h : s.shortWord d letters = .ok s') : s'.Within d := by
  induction letters generalizing s with
  | nil =>
      cases h
      exact hs
  | cons c cs ih =>
      rw [Scan.shortWord] at h
      cases hfind : d.options.find? fun o => o.short = some c with
      | none =>
          rw [hfind] at h
          cases h
      | some o =>
          have ho := List.mem_of_find?_eq_some hfind
          rw [hfind] at h
          dsimp only at h
          split at h
          · exact hs.meet ho h
          · obtain ⟨t, hmeet, h⟩ := bind_eq_ok h
            exact ih (hs.meet ho hmeet) h

/-- **Every word keeps the invariant.** -/
theorem word {w : String} (hs : s.Within d) (h : s.word d w = .ok s') : s'.Within d := by
  cases word_eq_ok_iff.1 h with
  | value _ hwaiting _ =>
      refine ⟨hs.found, fun e he => ?_⟩
      cases he
      exact hs.pending (_, none) (pending_of_waiting hwaiting)
  | hyphens => exact ⟨hs.found, hs.pending⟩
  | long _ _ _ hlong => exact hs.longWord hlong
  | short _ _ _ hshort => exact hs.shortWord hshort

theorem words {ws : List String} (hs : s.Within d) (h : s.words d ws = .ok s') :
    s'.Within d := by
  induction ws generalizing s with
  | nil =>
      cases h
      exact hs
  | cons w ws ih =>
      rw [Scan.words, List.foldlM_cons] at h
      obtain ⟨t, hword, h⟩ := bind_eq_ok h
      exact ih (hs.word hword) h

end Within

/-- The options of a line that has ended. -/
theorem offers_of_finish {f : Found} (hs : s.Within d) (h : s.finish = .ok f) :
    ∀ e ∈ f, d.Offers e := by
  rw [finish] at h
  obtain ⟨t, hsettle, h⟩ := bind_eq_ok h
  have ht := hs.settle hsettle
  split at h
  · cases h
  · cases h
    exact ht.found

end Scan

/-- **A line holds nothing but what its dialect offers**, each option with a value of its kind. -/
theorem Dialect.offers_of_parse {d : Dialect} {ws : List String} {f : Found}
    (h : d.parse ws = .ok f) : ∀ e ∈ f, d.Offers e := by
  obtain ⟨s, hwords, hfinish⟩ := bind_eq_ok h
  have hs := (Scan.within_empty d).words hwords
  exact Scan.offers_of_finish hs hfinish

/-! ### What was given -/

namespace Found

variable {d : Dialect} {f : Found} {o : Opt}

theorem has_iff : has f o = true ↔ ∃ v, (o, v) ∈ f := by
  rw [has, List.any_eq_true]
  constructor
  · rintro ⟨⟨p, v⟩, hmem, hp⟩
    obtain rfl : p = o := of_decide_eq_true hp
    exact ⟨v, hmem⟩
  · rintro ⟨v, hmem⟩
    exact ⟨(o, v), hmem, decide_eq_true rfl⟩

/-- An option that the dialect does not offer is not given. -/
theorem has_eq_false (hf : ∀ e ∈ f, d.Offers e) (ho : o ∉ d.options) : has f o = false := by
  rw [Bool.eq_false_iff, ne_eq, has_iff]
  rintro ⟨v, hmem⟩
  exact ho (hf _ hmem).1

/-- An option that is not given has no values. -/
theorem values_eq_nil (h : has f o = false) : values f o = [] := by
  rw [values, List.filterMap_eq_nil_iff]
  rintro ⟨p, v⟩ hmem
  have hp : p ≠ o := by
    rintro rfl
    rw [has_iff.2 ⟨v, hmem⟩] at h
    cases h
  exact if_neg hp

theorem texts_eq_nil (h : has f o = false) : texts f o = [] := by
  rw [texts, values_eq_nil h]
  rfl

theorem text?_eq_none (h : has f o = false) : text? f o = none := by
  rw [text?, texts_eq_nil h]
  rfl

theorem texts?_eq_none (h : has f o = false) : texts? f o = none := by
  rw [texts?, h]
  rfl

theorem path?_eq_none (h : has f o = false) : path? f o = none := by
  rw [path?, text?_eq_none h]
  rfl

theorem number?_eq_none (h : has f o = false) : number? f o = none := by
  rw [number?, values_eq_nil h]
  rfl

/-- The first of the things that come of a list. -/
theorem isSome_head?_filterMap {α β : Type} {l : List α} {g : α → Option β} {a : α} {b : β}
    (ha : a ∈ l) (hb : g a = some b) : (l.filterMap g).head?.isSome = true := by
  have hmem : b ∈ l.filterMap g := List.mem_filterMap.2 ⟨a, ha, hb⟩
  cases hl : l.filterMap g with
  | nil =>
      rw [hl] at hmem
      cases hmem
  | cons c cs => rfl

theorem mem_values {v : Value} (h : (o, some v) ∈ f) : v ∈ values f o :=
  List.mem_filterMap.2 ⟨_, h, if_pos rfl⟩

/-- **What was given can be read**: an option that takes a text has one if it was given, and only
then, and so has an option that takes a number. -/
structure Legible (f : Found) : Prop where
  text : ∀ o, o.shape = .single .text ∨ o.shape = .single .path ∨ o.shape = .repeatable →
    (text? f o).isSome = has f o
  number : ∀ o least, o.shape = .single (.number least) → (number? f o).isSome = has f o

theorem legible_of_offers (hf : ∀ e ∈ f, d.Offers e) : Legible f where
  text := by
    intro o ho
    cases hgiven : has f o with
    | false => rw [text?_eq_none hgiven, Option.isSome_none]
    | true =>
        obtain ⟨v, hmem⟩ := has_iff.1 hgiven
        have htext : ∃ s, v = some (.text s) := by
          have hadmits := (hf _ hmem).2
          rcases ho with ho | ho | ho <;> simp only [Opt.Admits, ho] at hadmits
          · obtain ⟨_, rfl, s, rfl⟩ := hadmits
            exact ⟨s, rfl⟩
          · obtain ⟨_, rfl, s, -, rfl⟩ := hadmits
            exact ⟨s, rfl⟩
          · exact hadmits
        obtain ⟨s, rfl⟩ := htext
        exact isSome_head?_filterMap (mem_values hmem) rfl
  number := by
    intro o least ho
    cases hgiven : has f o with
    | false => rw [number?_eq_none hgiven, Option.isSome_none]
    | true =>
        obtain ⟨v, hmem⟩ := has_iff.1 hgiven
        have hadmits := (hf _ hmem).2
        simp only [Opt.Admits, ho] at hadmits
        obtain ⟨_, rfl, n, -, -, rfl⟩ := hadmits
        exact isSome_head?_filterMap (mem_values hmem) rfl

end Found

/-! ### Whole lines -/

/-- How a line is read, unless it asks for help: the command that it chooses, the options that it
may hold, and the words that are left. -/
def readAs : List String → Option (Mode × Dialect × List String)
  | [] => some (.run, bare, [])
  | first :: rest =>
      if first = "run" then some (.run, runDialect, rest)
      else if first = "riscof" then some (.riscof, riscofDialect, rest)
      else if first = "help" then none
      else some (.run, bare, first :: rest)

/-- Every command has its own dialect, and running tests has a second one for lines without a
command. -/
theorem readAs_eq_some {words rest : List String} {mode : Mode} {d : Dialect}
    (h : readAs words = some (mode, d, rest)) :
    mode = .run ∧ (d = bare ∨ d = runDialect) ∨ mode = .riscof ∧ d = riscofDialect := by
  cases words with
  | nil =>
      cases h
      exact Or.inl ⟨rfl, Or.inl rfl⟩
  | cons first others =>
      rw [readAs] at h
      split at h
      · cases h
        exact Or.inl ⟨rfl, Or.inr rfl⟩
      · split at h
        · cases h
          exact Or.inr ⟨rfl, rfl⟩
        · split at h
          · cases h
          · cases h
            exact Or.inl ⟨rfl, Or.inl rfl⟩

/-- **The lines that are accepted.** -/
theorem parse_eq_ok_iff {words : List String} {o : Options} :
    parse words = .ok o ↔ ∃ mode d rest f,
      readAs words = some (mode, d, rest) ∧ d.parse rest = .ok f ∧ o = ofFound mode f := by
  have hread : ∀ mode (d : Dialect) rest, (d.parse rest).map (ofFound mode) = .ok o ↔
      ∃ mode' d' rest' f, some (mode, d, rest) = some (mode', d', rest') ∧
        d'.parse rest' = .ok f ∧ o = ofFound mode' f := by
    intro mode d rest
    rw [map_eq_ok_iff]
    constructor
    · rintro ⟨f, hf, rfl⟩
      exact ⟨mode, d, rest, f, rfl, hf, rfl⟩
    · rintro ⟨_, _, _, f, hsame, hf, rfl⟩
      cases hsame
      exact ⟨f, hf, rfl⟩
  cases words with
  | nil => exact hread .run bare []
  | cons first rest =>
      rw [parse, readAs]
      by_cases hrun : first = "run"
      · rw [if_pos hrun, if_pos hrun]
        exact hread ..
      · rw [if_neg hrun, if_neg hrun]
        by_cases hriscof : first = "riscof"
        · rw [if_pos hriscof, if_pos hriscof]
          exact hread ..
        · rw [if_neg hriscof, if_neg hriscof]
          by_cases hhelp : first = "help"
          · rw [if_pos hhelp, if_pos hhelp]
            constructor
            · intro h
              cases h
            · rintro ⟨_, _, _, _, hnone, -⟩
              cases hnone
          · rw [if_neg hhelp, if_neg hhelp]
            exact hread ..

end Testbench.CommandLine
