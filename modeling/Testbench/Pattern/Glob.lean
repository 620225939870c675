/-
**Wildcards.**

A wildcard pattern is a path whose components may hold `?` for one character, `*` for any number
of them, `[…]` for one of some characters and `[!…]` for one of none of them.  The component `**`
stands for any number of directories.  A pattern that breaks the rules is refused with the place of
the fault, counted in characters.

The pattern is checked as a whole first and then divided at its slashes, each component read by
itself.

Main definitions:

* `Testbench.Glob.Token`, `Testbench.Glob.tokens` — what the characters of a pattern mean;
* `Testbench.Glob.Refusal` — why a pattern is refused;
* `Testbench.Glob.matchesChars` — a name fits a component;
* `Testbench.Glob.Component`, `Testbench.Glob`, `Testbench.Glob.compile` — a pattern ready to be
  looked up;
* `Testbench.Glob.escape` — the pattern that stands for a text taken literally.

Main results:

* `Testbench.Glob.matchesChars_cons` — a token for one character takes the first one of a text.
-/

import Testbench.Path
import Testbench.Text.Decimal

set_option relaxedAutoImplicit false
set_option autoImplicit false

namespace Testbench

namespace Glob

/-! ### Tokens -/

/-- A member of a character class. -/
inductive Member
  | single (c : Char)
  /-- All characters between two, by code point, both included. -/
  | range (least most : Char)
deriving DecidableEq, Repr

/-- What a piece of a pattern stands for. -/
inductive Token
  | char (c : Char)
  /-- Any one character. -/
  | one
  /-- Any number of characters. -/
  | many
  /-- Any number of directories. -/
  | deep
  /-- One character of a class. -/
  | within (members : List Member)
  /-- One character outside a class. -/
  | outside (members : List Member)
deriving DecidableEq, Repr

/-- The rules a pattern can break. -/
inductive Complaint
  /-- Three or more stars in a row. -/
  | tooManyStars
  /-- Two stars that are not a component of their own. -/
  | deepInsideComponent
  /-- A class that is empty or never closed. -/
  | badClass
deriving DecidableEq, Repr

/-- Why a pattern is refused, and near which of its characters, counted from zero. -/
structure Refusal where
  position : Nat
  complaint : Complaint
deriving DecidableEq, Repr

/-- The rule that was broken, in words. -/
def Complaint.text : Complaint → String
  | tooManyStars => "wildcards are either regular \x60*\x60 or recursive \x60**\x60"
  | deepInsideComponent => "recursive wildcards must form a single path component"
  | badClass => "invalid range pattern"

/-- The refusal in words. -/
def Refusal.message (r : Refusal) : String :=
  "Pattern syntax error near position " ++ Decimal.ofNat r.position ++ ": " ++ r.complaint.text

/-! ### Reading a pattern -/

/-- The characters before the next closing bracket, and those after it. -/
def untilBracket : List Char → Option (List Char × List Char)
  | [] => none
  | c :: cs =>
      if c = ']' then some ([], cs)
      else (untilBracket cs).map fun (inside, rest) => (c :: inside, rest)

/-- The characters of a class, at least one: the first is a member even if it is a bracket. -/
def classBody : List Char → Option (List Char × List Char)
  | [] => none
  | c :: cs => (untilBracket cs).map fun (inside, rest) => (c :: inside, rest)

/-- The members that the characters of a class spell; two characters with a hyphen between them are
a range. -/
def members : List Char → List Member
  | a :: '-' :: b :: cs => .range a b :: members cs
  | a :: cs => .single a :: members cs
  | [] => []

/-- The class whose inside starts here, and the characters after it. -/
def readClass : List Char → Option (Token × List Char)
  | '!' :: cs => (classBody cs).map fun (inside, rest) => (.outside (members inside), rest)
  | cs => (classBody cs).map fun (inside, rest) => (.within (members inside), rest)

theorem untilBracket_length {cs inside rest : List Char}
    (h : untilBracket cs = some (inside, rest)) : rest.length < cs.length := by
  induction cs generalizing inside with
  | nil => simp [untilBracket] at h
  | cons c cs ih =>
      rw [untilBracket] at h
      split at h
      · cases h; simp
      · obtain ⟨⟨i, r⟩, hi, hir⟩ := Option.map_eq_some_iff.1 h
        cases hir
        have := ih hi
        simp only [List.length_cons]; omega

theorem classBody_length {cs inside rest : List Char}
    (h : classBody cs = some (inside, rest)) : rest.length < cs.length := by
  cases cs with
  | nil => simp [classBody] at h
  | cons c cs =>
      obtain ⟨⟨i, r⟩, hi, hir⟩ := Option.map_eq_some_iff.1 h
      cases hir
      have := untilBracket_length hi
      simp only [List.length_cons]; omega

theorem readClass_length {cs rest : List Char} {t : Token}
    (h : readClass cs = some (t, rest)) : rest.length < cs.length := by
  unfold readClass at h
  split at h
  · obtain ⟨⟨i, r⟩, hi, hir⟩ := Option.map_eq_some_iff.1 h
    cases hir
    have := classBody_length hi
    simp only [List.length_cons]; omega
  · obtain ⟨⟨i, r⟩, hi, hir⟩ := Option.map_eq_some_iff.1 h
    cases hir
    exact classBody_length hi

/-- The meaning of the characters from position `i` on; `fresh` says that they start the pattern or
follow a slash. -/
def tokensFrom (i : Nat) (fresh : Bool) (cs : List Char) : Except Refusal (List Token) :=
  match cs with
  | [] => .ok []
  | '?' :: cs => (tokensFrom (i + 1) false cs).map (.one :: ·)
  | '*' :: '*' :: '*' :: _ => .error ⟨i + 2, .tooManyStars⟩
  | '*' :: '*' :: cs =>
      if fresh then
        match cs with
        | [] => .ok [.deep]
        | '/' :: cs => (tokensFrom (i + 3) true cs).map (.deep :: ·)
        | _ => .error ⟨i + 2, .deepInsideComponent⟩
      else .error ⟨i - 1, .deepInsideComponent⟩
  | '*' :: cs => (tokensFrom (i + 1) false cs).map (.many :: ·)
  | '[' :: cs =>
      match h : readClass cs with
      | none => .error ⟨i, .badClass⟩
      | some (t, rest) =>
          have := readClass_length h
          (tokensFrom (i + 1 + (cs.length - rest.length)) false rest).map (t :: ·)
  | c :: cs => (tokensFrom (i + 1) (c = '/') cs).map (.char c :: ·)
termination_by cs.length

/-- The **meaning of a pattern**, or why it is refused. -/
def tokens (cs : List Char) : Except Refusal (List Token) := tokensFrom 0 true cs

/-! ### Matching -/

/-- The character belongs to the member. -/
def Member.covers : Member → Char → Bool
  | .single a, c => a = c
  | .range least most, c => least ≤ c && c ≤ most

/-- The token stands for this one character. -/
def Token.fits : Token → Char → Bool
  | .char a, c => a = c
  | .one, _ => true
  | .many, _ | .deep, _ => false
  | .within ms, c => ms.any (·.covers c)
  | .outside ms, c => !ms.any (·.covers c)

/-- The token stands for any number of characters. -/
def Token.repeats : Token → Bool
  | .many | .deep => true
  | _ => false

/-- The text fits the tokens. -/
def matchesChars (ts : List Token) (cs : List Char) : Bool :=
  match ts, cs with
  | [], [] => true
  | [], _ :: _ => false
  | t :: ts, [] => t.repeats && matchesChars ts []
  | t :: ts, c :: cs =>
      if t.repeats then matchesChars ts (c :: cs) || matchesChars (t :: ts) cs
      else t.fits c && matchesChars ts cs
termination_by ts.length + cs.length

/-- A token that stands for one character takes the first one of the text. -/
theorem matchesChars_cons {t : Token} (ht : t.repeats = false) (ts : List Token) (cs : List Char) :
    matchesChars (t :: ts) cs = true ↔
      ∃ c rest, cs = c :: rest ∧ t.fits c = true ∧ matchesChars ts rest = true := by
  cases cs with
  | nil => rw [matchesChars, ht]; simp
  | cons c cs =>
      rw [matchesChars, ht]
      simp only [Bool.false_eq_true, if_false, Bool.and_eq_true, List.cons.injEq]
      constructor
      · rintro h; exact ⟨c, cs, ⟨rfl, rfl⟩, h⟩
      · rintro ⟨_, _, ⟨rfl, rfl⟩, h⟩; exact h

/-! ### Components -/

/-- One step of a pattern through the tree of files. -/
inductive Component
  /-- An entry of a known name. -/
  | named (name : String)
  /-- Any number of directories. -/
  | deep
  /-- The entries that fit some tokens. -/
  | fitting (shape : List Token)
deriving DecidableEq, Repr

/-- The text of tokens that hold no wildcard. -/
def literal? : List Token → Option (List Char)
  | [] => some []
  | .char c :: ts => (literal? ts).map (c :: ·)
  | _ :: _ => none

/-- The step that tokens spell. -/
def Component.ofTokens (ts : List Token) : Component :=
  match literal? ts with
  | some cs => .named (String.ofList cs)
  | none => if ts = [.deep] then .deep else .fitting ts

end Glob

/-- A pattern ready to be looked up. -/
structure Glob where
  /-- The pattern starts at the root. -/
  absolute : Bool
  components : List Glob.Component
  /-- The pattern ends with a slash, so that only directories count. -/
  directoriesOnly : Bool
deriving DecidableEq, Repr

namespace Glob

/-- The pieces between slashes, without an empty one at the end. -/
def componentTexts (cs : List Char) : List (List Char) :=
  let all := Text.pieces '/' cs
  if all.getLast? = some [] then all.dropLast else all

/-- Several steps of any number of directories in a row are one. -/
def mergeDeep : List Component → List Component
  | .deep :: .deep :: cs => mergeDeep (.deep :: cs)
  | c :: cs => c :: mergeDeep cs
  | [] => []

/-- Reads a pattern: first as a whole, then component by component.  A pattern that is nothing
but its root has one component without a name. -/
def compile (pattern : String) : Except Refusal Glob := do
  let cs := pattern.toList
  let _ ← tokens cs
  let absolute := Path.startsAtRoot cs
  let relative := if absolute then cs.drop 1 else cs
  let components ← (componentTexts relative).mapM fun piece =>
    (tokens piece).map Component.ofTokens
  return {
    absolute
    components := mergeDeep (if relative.isEmpty then components ++ [.named ""] else components)
    directoriesOnly := cs.getLast? = some '/' }

/-- The characters that mean something in a pattern. -/
def isSpecial (c : Char) : Bool := c = '?' || c = '*' || c = '[' || c = ']'

/-- Each special character in a class of its own, so that the pattern stands for the text alone. -/
def escapeChars (cs : List Char) : List Char :=
  cs.flatMap fun c => if isSpecial c then ['[', c, ']'] else [c]

/-- The **pattern that stands for a text taken literally**. -/
def escape (text : String) : String := String.ofList (escapeChars text.toList)

end Glob

end Testbench
