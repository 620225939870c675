/-
**The command that may be left out.**

A command line that chooses no command runs tests, as it does behind the word for it.  The two kinds
of lines are read differently: before the first option a word may choose a command, and a line
without a command offers one option more, which ends the reading.  Neither makes a difference to
lines that are accepted.  An option that ends the reading is on no line that is accepted, and a
command can be chosen by the first word alone, because every word that is read as something else
meets an option or closes the line for options.

Main definitions:

* `Testbench.CommandLine.Dialect.OnlyStopsMore` — two dialects that differ in options that end the
  reading;
* `Testbench.CommandLine.Dialect.ReadAlike` — two dialects that read options alike;
* `Testbench.CommandLine.SelectsCommand` — a word of a line chooses a command.

Main results:

* `Testbench.CommandLine.Dialect.OnlyStopsMore.readAlike`,
  `Testbench.CommandLine.Dialect.ReadAlike.parse_eq_ok_iff` — an option that ends the reading
  changes nothing about lines that are accepted;
* `Testbench.CommandLine.selectsCommand_iff` — only the first word can choose a command;
* `Testbench.CommandLine.parse_run_cons_iff` — **the command that runs tests may be left out**.
-/

import Testbench.Proofs.CommandLines

set_option relaxedAutoImplicit false
set_option autoImplicit false

namespace Testbench.CommandLine

/-! ### Options that end the reading -/

/-- A dialect offers what another one offers, and besides only options that end the reading. -/
def Dialect.OnlyStopsMore (d' d : Dialect) : Prop :=
  ∃ stops, d'.options = d.options ++ stops ∧ ∀ o ∈ stops, o.shape = .stop

namespace Scan

variable {d d' : Dialect} {s t : Scan} {o : Opt}

/-- An option that ends the reading is never accepted. -/
theorem meet_ne_ok_of_stop {attached : Option String} (ho : o.shape = .stop) :
    s.meet o attached ≠ .ok t := by
  intro h
  rw [meet] at h
  obtain ⟨u, -, h⟩ := bind_eq_ok h
  simp [Opt.takesValue, complete, ho] at h

/-- Where one of the dialects offers nothing, the other offers nothing but an option that ends the
reading. -/
theorem find?_of_onlyStopsMore (hd : d'.OnlyStopsMore d) (p : Opt → Bool) :
    d'.options.find? p = d.options.find? p ∨
      d.options.find? p = none ∧ ∃ o, d'.options.find? p = some o ∧ o.shape = .stop := by
  obtain ⟨stops, hoptions, hstops⟩ := hd
  rw [hoptions, List.find?_append]
  cases hfind : d.options.find? p with
  | some o => exact Or.inl rfl
  | none =>
      cases hstop : stops.find? p with
      | none => exact Or.inl rfl
      | some o => exact Or.inr ⟨rfl, o, rfl, hstops o (List.mem_of_find?_eq_some hstop)⟩

theorem longWord_eq_ok_iff_of_onlyStopsMore (hd : d'.OnlyStopsMore d) (name : String)
    (value : Option String) : s.longWord d' name value = .ok t ↔ s.longWord d name value = .ok t := by
  rcases find?_of_onlyStopsMore hd fun o => o.long = name with hsame | ⟨hnone, o, hsome, ho⟩
  · rw [longWord, longWord, hsame]
  · rw [longWord, longWord, hnone, hsome]
    dsimp only
    split
    · simp
    · simp [meet_ne_ok_of_stop ho]

theorem shortWord_eq_ok_iff_of_onlyStopsMore (hd : d'.OnlyStopsMore d) (letters : List Char) :
    s.shortWord d' letters = .ok t ↔ s.shortWord d letters = .ok t := by
  induction letters generalizing s with
  | nil => rfl
  | cons c cs ih =>
      rw [shortWord, shortWord]
      rcases find?_of_onlyStopsMore hd fun o => o.short = some c with hsame | ⟨hnone, o, hsome, ho⟩
      · rw [hsame]
        cases hfind : d.options.find? fun o => o.short = some c with
        | none => rfl
        | some o =>
            dsimp only
            split
            · rfl
            · cases hmeet : s.meet o none with
              | error e => rfl
              | ok u => exact ih
      · rw [hnone, hsome]
        have hvalue : o.takesValue = false := by rw [Opt.takesValue, ho]
        cases hmeet : s.meet o none with
        | error e => simp [hvalue, hmeet, Except.bind]
        | ok u => exact absurd hmeet (meet_ne_ok_of_stop ho)

end Scan

/-! ### Dialects that accept the same lines -/

/-- Two dialects read options alike, if they read them. -/
structure Dialect.ReadAlike (d d' : Dialect) : Prop where
  long : ∀ (s t : Scan) name value,
    s.longWord d name value = .ok t ↔ s.longWord d' name value = .ok t
  short : ∀ (s t : Scan) letters, s.shortWord d letters = .ok t ↔ s.shortWord d' letters = .ok t

namespace Dialect.ReadAlike

variable {d d' : Dialect} {s t : Scan}

theorem symm (hd : d.ReadAlike d') : d'.ReadAlike d :=
  ⟨fun s t name value => (hd.long s t name value).symm,
    fun s t letters => (hd.short s t letters).symm⟩

theorem reads {w : String} (hd : d.ReadAlike d') (h : Scan.Reads d s w t) :
    Scan.Reads d' s w t := by
  cases h with
  | value hopen hwaiting htakes => exact .value hopen hwaiting htakes
  | hyphens hopen hfree hkind => exact .hyphens hopen hfree hkind
  | long hopen hfree hkind h => exact .long hopen hfree hkind ((hd.long ..).1 h)
  | short hopen hfree hkind h => exact .short hopen hfree hkind ((hd.short ..).1 h)

theorem readsWords {ws : List String} (hd : d.ReadAlike d') (h : s.words d ws = .ok t) :
    s.words d' ws = .ok t := by
  induction ws generalizing s with
  | nil => exact h
  | cons w ws ih =>
      rw [Scan.words, List.foldlM_cons] at h
      obtain ⟨u, hword, h⟩ := bind_eq_ok h
      have hword' := Scan.word_eq_ok_iff.2 (hd.reads (Scan.word_eq_ok_iff.1 hword))
      rw [Scan.words, List.foldlM_cons, hword']
      exact ih h

theorem accepts {ws : List String} {f : Found} (hd : d.ReadAlike d') (h : d.parse ws = .ok f) :
    d'.parse ws = .ok f := by
  obtain ⟨t, hwords, hfinish⟩ := bind_eq_ok h
  rw [Dialect.parse, hd.readsWords hwords]
  exact hfinish

/-- **Dialects that read options alike accept the same lines**, and find the same on them. -/
theorem parse_eq_ok_iff {ws : List String} {f : Found} (hd : d.ReadAlike d') :
    d.parse ws = .ok f ↔ d'.parse ws = .ok f :=
  ⟨hd.accepts, hd.symm.accepts⟩

end Dialect.ReadAlike

/-- An option that ends the reading changes nothing about what is read. -/
theorem Dialect.OnlyStopsMore.readAlike {d d' : Dialect} (hd : d'.OnlyStopsMore d) :
    d'.ReadAlike d :=
  ⟨fun _ _ => Scan.longWord_eq_ok_iff_of_onlyStopsMore hd,
    fun _ _ => Scan.shortWord_eq_ok_iff_of_onlyStopsMore hd⟩

/-- A line without a command offers its version besides what the command that runs tests offers. -/
theorem onlyStopsMore_bare : bare.OnlyStopsMore runDialect :=
  ⟨[.version], rfl, by simp [Opt.shape]⟩

/-! ### Where a command can be chosen -/

namespace Scan

variable {d : Dialect} {s t : Scan} {w : String} {o : Opt}

/-- Nothing was met that stands before a command: no option, and not the two hyphens. -/
structure AwaitsCommand (s : Scan) : Prop where
  waiting : s.waiting = none
  started : s.started = false
  trailing : s.trailing = false

/-- An option that is open was met. -/
def Begun (s : Scan) : Prop := s.pending ≠ none → s.started = true

theorem settle_started (h : s.settle = .ok t) : t.started = s.started := by
  rw [settle] at h
  cases hpending : s.pending with
  | none =>
      rw [hpending] at h
      cases h
      rfl
  | some e =>
      rw [hpending] at h
      obtain ⟨v, -, rfl⟩ := complete_eq_ok h
      rfl

theorem meet_started {attached : Option String} (h : s.meet o attached = .ok t) :
    t.started = true := by
  rw [meet] at h
  obtain ⟨u, hsettle, h⟩ := bind_eq_ok h
  have hu : u.started = true := settle_started hsettle
  split at h
  · cases h
    exact hu
  · obtain ⟨v, -, rfl⟩ := complete_eq_ok h
    exact hu

theorem longWord_started {name : String} {value : Option String}
    (h : s.longWord d name value = .ok t) : t.started = true := by
  rw [longWord] at h
  split at h
  · cases h
  · split at h
    · cases h
    · exact meet_started h

theorem shortWord_started {letters : List Char} (hsome : letters ≠ [] ∨ s.started = true)
    (h : s.shortWord d letters = .ok t) : t.started = true := by
  induction letters generalizing s with
  | nil =>
      cases h
      simpa using hsome
  | cons c cs ih =>
      rw [shortWord] at h
      split at h
      · cases h
      · split at h
        · exact meet_started h
        · obtain ⟨u, hmeet, h⟩ := bind_eq_ok h
          exact ih (Or.inr (meet_started hmeet)) h

/-- A word of short options has a letter. -/
theorem ne_nil_of_kindOf_short {letters : List Char} (h : kindOf w = .short letters) :
    letters ≠ [] := by
  rw [kindOf] at h
  split at h <;> cases h
  simp

/-- **Behind a word no command can be chosen**: an option was met, or no options follow. -/
theorem Reads.started_or_trailing (hs : s.Begun) (h : Reads d s w t) :
    t.started = true ∨ t.trailing = true := by
  cases h with
  | value _ hwaiting _ => exact Or.inl (hs (by simp [pending_of_waiting hwaiting]))
  | hyphens => exact Or.inr rfl
  | long _ _ _ h => exact Or.inl (longWord_started h)
  | short _ _ hkind h => exact Or.inl (shortWord_started (Or.inl (ne_nil_of_kindOf_short hkind)) h)

theorem Begun.reads (hs : s.Begun) (h : Reads d s w t) : t.Begun := by
  intro hpending
  cases h with
  | value _ hwaiting _ => exact hs (by simp [pending_of_waiting hwaiting])
  | hyphens => exact hs hpending
  | long _ _ _ h => exact longWord_started h
  | short _ _ hkind h => exact shortWord_started (Or.inl (ne_nil_of_kindOf_short hkind)) h

theorem Begun.words {ws : List String} (hs : s.Begun) (h : s.words d ws = .ok t) : t.Begun := by
  induction ws generalizing s with
  | nil =>
      cases h
      exact hs
  | cons w ws ih =>
      rw [Scan.words, List.foldlM_cons] at h
      obtain ⟨u, hword, h⟩ := bind_eq_ok h
      exact ih (hs.reads (word_eq_ok_iff.1 hword)) h

/-- Only at the start of a line a command can be chosen. -/
theorem AwaitsCommand.eq_nil {ws : List String} (ht : t.AwaitsCommand)
    (h : Scan.words d {} ws = .ok t) : ws = [] := by
  rcases List.eq_nil_or_concat ws with rfl | ⟨before, w, rfl⟩
  · rfl
  · rw [List.concat_eq_append, words_append] at h
    obtain ⟨s, hbefore, h⟩ := bind_eq_ok h
    rw [Scan.words, List.foldlM_cons] at h
    obtain ⟨u, hword, h⟩ := bind_eq_ok h
    cases h
    have hs : s.Begun := Begun.words (fun hpending => absurd rfl hpending) hbefore
    rcases (word_eq_ok_iff.1 hword).started_or_trailing hs with hmet | hclosed
    · rw [ht.started] at hmet
      cases hmet
    · rw [ht.trailing] at hclosed
      cases hclosed

end Scan

/-- **A word of the line chooses a command**: it is the word for one, and where it stands no option
was met, none waits for a value, and options may still follow. -/
def SelectsCommand (ws : List String) : Prop :=
  ∃ before w behind s, ws = before ++ w :: behind ∧ Scan.words bare {} before = .ok s ∧
    s.AwaitsCommand ∧ w ∈ bare.commands

/-- **Only the first word can choose a command.** -/
theorem selectsCommand_iff {ws : List String} :
    SelectsCommand ws ↔ ∃ w rest, ws = w :: rest ∧ w ∈ bare.commands := by
  constructor
  · rintro ⟨before, w, behind, s, rfl, hbefore, hs, hw⟩
    obtain rfl := hs.eq_nil hbefore
    exact ⟨w, behind, rfl, hw⟩
  · rintro ⟨w, rest, rfl, hw⟩
    exact ⟨[], w, rest, {}, rfl, rfl, ⟨rfl, rfl, rfl⟩, hw⟩

/-- A line that chooses no command is read as a line that runs tests. -/
theorem parse_of_not_selectsCommand {ws : List String} (h : ¬SelectsCommand ws) :
    parse ws = (bare.parse ws).map (ofFound .run) := by
  cases ws with
  | nil => rfl
  | cons w rest =>
      have hw : w ∉ bare.commands := fun hw => h (selectsCommand_iff.2 ⟨w, rest, rfl, hw⟩)
      simp only [bare, commandWords, List.mem_cons, List.not_mem_nil, not_or] at hw
      rw [parse, if_neg hw.1, if_neg hw.2.1, if_neg hw.2.2.1]

/-- Behind the command that runs tests, the word for a command belongs to nothing. -/
theorem not_selectsCommand_of_parse {ws : List String} {f : Found}
    (h : runDialect.parse ws = .ok f) : ¬SelectsCommand ws := by
  intro hselects
  obtain ⟨w, rest, rfl, hw⟩ := selectsCommand_iff.1 hselects
  have hplain : Scan.kindOf w = .plain := by
    simp only [bare, commandWords, List.mem_cons, List.not_mem_nil, or_false] at hw
    rcases hw with rfl | rfl | rfl <;> decide
  obtain ⟨t, hwords, -⟩ := bind_eq_ok h
  rw [Scan.words, List.foldlM_cons] at hwords
  obtain ⟨u, hword, -⟩ := bind_eq_ok hwords
  cases Scan.word_eq_ok_iff.1 hword with
  | value _ hwaiting _ => cases hwaiting
  | hyphens _ _ hkind => rw [hplain] at hkind; cases hkind
  | long _ _ hkind _ => rw [hplain] at hkind; cases hkind
  | short _ _ hkind _ => rw [hplain] at hkind; cases hkind

/-- **The command that runs tests may be left out.**  A line that chooses no command is accepted if
and only if it is accepted behind the word for that command, and then both ask for the same. -/
theorem parse_run_cons_iff (args : List String) (o : Options) :
    parse args = .ok o ∧ ¬SelectsCommand args ↔ parse ("run" :: args) = .ok o := by
  have hrun : parse ("run" :: args) = (runDialect.parse args).map (ofFound .run) := rfl
  rw [hrun, map_eq_ok_iff]
  constructor
  · rintro ⟨hparse, hselects⟩
    rw [parse_of_not_selectsCommand hselects, map_eq_ok_iff] at hparse
    obtain ⟨f, hf, ho⟩ := hparse
    exact ⟨f, onlyStopsMore_bare.readAlike.parse_eq_ok_iff.1 hf, ho⟩
  · rintro ⟨f, hf, ho⟩
    have hselects := not_selectsCommand_of_parse hf
    refine ⟨?_, hselects⟩
    rw [parse_of_not_selectsCommand hselects, map_eq_ok_iff]
    exact ⟨f, onlyStopsMore_bare.readAlike.parse_eq_ok_iff.2 hf, ho⟩

/-- A word for a command that is the value of an option chooses nothing.  Lines that are refused may
be refused for different reasons. -/
example : parse ["--flag", "--", "-r", "riscof"] = parse ["run", "--flag", "--", "-r", "riscof"] ∧
    parse ["-V"] = .error .displayVersion ∧ parse ["run", "-V"] = .error .unknownArgument :=
  ⟨rfl, rfl, rfl⟩

end Testbench.CommandLine
