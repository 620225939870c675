/-
**JSON that can be read back.**

The two layouts that data is written in are two ways to spell it, and they differ only in the blanks
between the signs.  So there is a grammar: what a text has to look like to spell some data, with any
blanks in between.  Whatever spells data is read as that data, up to what follows it; and both
layouts spell.  Numbers that are not whole are left out, since only their numeral is known.

Main definitions:

* `Testbench.Data.isExact` — data without numbers that are not whole;
* `Testbench.Json.Gap` — blanks between the signs;
* `Testbench.Json.Spells`, `Testbench.Json.SpellsItems`, `Testbench.Json.SpellsFields` — the
  grammar.

Main results:

* `Testbench.Json.readValue_of_spells` — **whatever spells data is read as that data**;
* `Testbench.Json.spells_compact`, `Testbench.Json.spells_prettyAt` — both layouts spell;
* `Testbench.Json.parse?_compact`, `Testbench.Json.parse?_pretty` — both layouts are read back.
-/

import Mathlib.Data.List.DropRight
import Testbench.Proofs.JsonScalars

set_option relaxedAutoImplicit false
set_option autoImplicit false

namespace Testbench.Data

mutual

/-- The data hold no number whose numeral alone is known. -/
def isExact : Data → Bool
  | .real _ => false
  | .list items => itemsExact items
  | .record fields => fieldsExact fields
  | _ => true

def itemsExact : List Data → Bool
  | [] => true
  | d :: ds => isExact d && itemsExact ds

def fieldsExact : List (String × Data) → Bool
  | [] => true
  | (_, d) :: fs => isExact d && fieldsExact fs

end

theorem itemsExact_eq_all (ds : List Data) : itemsExact ds = ds.all isExact := by
  induction ds with
  | nil => rfl
  | cons d ds ih => rw [itemsExact, ih, List.all_cons]

theorem fieldsExact_eq_all (fs : Fields) : fieldsExact fs = fs.all fun f => isExact f.2 := by
  induction fs with
  | nil => rfl
  | cons f fs ih => rw [fieldsExact, ih, List.all_cons]

end Testbench.Data

namespace Testbench.Json

/-! ### The grammar -/

/-- Blanks between the signs. -/
def Gap (cs : List Char) : Prop := cs.all isBlank = true

mutual

/-- **The text spells the data**, with any blanks between its signs. -/
inductive Spells : Data → List Char → Prop
  | null : Spells .null ['n', 'u', 'l', 'l']
  | yes : Spells (.bool true) ['t', 'r', 'u', 'e']
  | no : Spells (.bool false) ['f', 'a', 'l', 's', 'e']
  | int (n : Int) : Spells (.int n) (Decimal.ofInt n).toList
  | text (s : String) : Spells (.text s) (quote s)
  | noItems {gap : List Char} : Gap gap → Spells (.list []) ('[' :: (gap ++ [']']))
  | items {ds : List Data} {cs : List Char} :
      SpellsItems ds cs → Spells (.list ds) ('[' :: (cs ++ [']']))
  | noFields {gap : List Char} : Gap gap → Spells (.record []) ('{' :: (gap ++ ['}']))
  | fields {fs : Data.Fields} {cs : List Char} :
      SpellsFields fs cs → Spells (.record fs) ('{' :: (cs ++ ['}']))

/-- The text spells items with commas between them, at least one. -/
inductive SpellsItems : List Data → List Char → Prop
  | one {d : Data} {before cs after : List Char} :
      Gap before → Spells d cs → Gap after → SpellsItems [d] (before ++ (cs ++ after))
  | more {d : Data} {ds : List Data} {before cs after others : List Char} :
      Gap before → Spells d cs → Gap after → SpellsItems ds others →
      SpellsItems (d :: ds) (before ++ (cs ++ (after ++ ',' :: others)))

/-- The text spells fields with commas between them, at least one. -/
inductive SpellsFields : Data.Fields → List Char → Prop
  | one {name : String} {d : Data} {before colon gap cs after : List Char} :
      Gap before → Gap colon → Gap gap → Spells d cs → Gap after →
      SpellsFields [(name, d)] (before ++ (quote name ++ (colon ++ ':' :: (gap ++ (cs ++ after)))))
  | more {name : String} {d : Data} {fs : Data.Fields}
      {before colon gap cs after others : List Char} :
      Gap before → Gap colon → Gap gap → Spells d cs → Gap after → SpellsFields fs others →
      SpellsFields ((name, d) :: fs)
        (before ++ (quote name ++ (colon ++ ':' :: (gap ++ (cs ++ (after ++ ',' :: others))))))

end

/-! ### Blanks -/

theorem gap_nil : Gap [] := rfl

/-- Blanks are skipped up to what follows them. -/
theorem skipBlanks_gap {gap : List Char} (h : Gap gap) (cs : List Char) :
    skipBlanks (gap ++ cs) = skipBlanks cs :=
  List.dropWhile_append_of_pos (List.all_eq_true.1 h)

theorem skipBlanks_sign {c : Char} (hc : isBlank c = false) (cs : List Char) :
    skipBlanks (c :: cs) = c :: cs :=
  List.dropWhile_cons_of_neg (by simp [hc])

/-- A gap and the sign behind it. -/
theorem skipBlanks_gap_sign {gap : List Char} (h : Gap gap) {c : Char} (hc : isBlank c = false)
    (cs : List Char) : skipBlanks (gap ++ c :: cs) = c :: cs := by
  rw [skipBlanks_gap h, skipBlanks_sign hc]

theorem skipBlanks_skipBlanks (cs : List Char) : skipBlanks (skipBlanks cs) = skipBlanks cs :=
  List.dropWhile_idempotent isBlank cs

/-- A blank does not belong to a number. -/
theorem continuesNumber_of_isBlank {c : Char} (h : isBlank c = true) :
    continuesNumber c = false := by
  simp only [isBlank, Bool.or_eq_true, decide_eq_true_eq] at h
  rcases h with ((rfl | rfl) | rfl) | rfl <;> decide

/-- Blanks and then a sign end a number. -/
theorem stops_gap {gap : List Char} (hgap : Gap gap) {rest : List Char} (hrest : Stops rest) :
    Stops (gap ++ rest) := by
  cases gap with
  | nil => exact hrest
  | cons c more =>
      rw [Gap, List.all_cons, Bool.and_eq_true] at hgap
      exact stops_cons (continuesNumber_of_isBlank hgap.1) _

/-- What spells data starts with a sign, and not with the end of a list. -/
theorem Spells.start {d : Data} {cs : List Char} (h : Spells d cs) :
    ∃ c more, cs = c :: more ∧ isBlank c = false ∧ c ≠ ']' := by
  cases h with
  | int n =>
      obtain ⟨c, more, hcs, hc⟩ := toList_ofInt n
      refine ⟨c, more, hcs, ?_, ?_⟩
      · cases hblank : isBlank c with
        | false => rfl
        | true =>
            simp only [isBlank, Bool.or_eq_true, decide_eq_true_eq] at hblank
            rcases hblank with ((rfl | rfl) | rfl) | rfl <;> exact absurd hc (by decide)
      · rintro rfl
        exact absurd hc (by decide)
  | _ => exact ⟨_, _, rfl, by decide, by decide⟩

theorem SpellsItems.start {ds : List Data} {cs : List Char} (h : SpellsItems ds cs)
    (rest more : List Char) : skipBlanks (cs ++ rest) ≠ ']' :: more := by
  obtain ⟨before, c, after, hcs, hbefore, hblank, hend⟩ : ∃ before c after,
      cs = before ++ c :: after ∧ Gap before ∧ isBlank c = false ∧ c ≠ ']' := by
    cases h with
    | one hbefore hd _ | more hbefore hd _ _ =>
        obtain ⟨c, after, rfl, hblank, hend⟩ := hd.start
        exact ⟨_, c, _, rfl, hbefore, hblank, hend⟩
  rw [hcs, List.append_assoc, List.cons_append, skipBlanks_gap_sign hbefore hblank]
  exact fun hsame => hend (List.cons.inj hsame).1

theorem SpellsFields.start {fs : Data.Fields} {cs : List Char} (h : SpellsFields fs cs)
    (rest more : List Char) : skipBlanks (cs ++ rest) ≠ '}' :: more := by
  obtain ⟨before, after, hcs, hbefore⟩ : ∃ before after, cs = before ++ '"' :: after ∧
      Gap before := by
    cases h with
    | one hbefore | more hbefore => exact ⟨_, _, rfl, hbefore⟩
  rw [hcs, List.append_assoc, List.cons_append, skipBlanks_gap_sign hbefore (by decide)]
  exact fun hsame => absurd (List.cons.inj hsame).1 (by decide)

/-! ### Reading one sign after the other -/

/-- Every reader skips the blanks in front. -/
theorem readValue_congr {cs cs' : List Char} (h : skipBlanks cs = skipBlanks cs') (fuel : Nat) :
    readValue fuel cs = readValue fuel cs' := by
  cases fuel with
  | zero => rw [readValue, readValue]
  | succ fuel => rw [readValue, readValue, h]

theorem readItems_congr {cs cs' : List Char} (h : skipBlanks cs = skipBlanks cs') (fuel : Nat) :
    readItems fuel cs = readItems fuel cs' := by
  cases fuel with
  | zero => rw [readItems, readItems]
  | succ fuel => rw [readItems, readItems, readValue_congr h]

theorem readFields_congr {cs cs' : List Char} (h : skipBlanks cs = skipBlanks cs') (fuel : Nat) :
    readFields fuel cs = readFields fuel cs' := by
  cases fuel with
  | zero => rw [readFields, readFields]
  | succ fuel => rw [readFields, readFields, h]

theorem readValue_gap {gap : List Char} (h : Gap gap) (fuel : Nat) (cs : List Char) :
    readValue fuel (gap ++ cs) = readValue fuel cs :=
  readValue_congr (skipBlanks_gap h cs) fuel

theorem readValue_text (fuel : Nat) (s : String) (rest : List Char) :
    readValue (fuel + 1) (quote s ++ rest) = some (.text s, rest) := by
  rw [quote_append, readValue, skipBlanks_sign (by decide)]
  simp only [readQuoted_escaped, Option.map_some, List.reverse_nil, List.nil_append,
    String.ofList_toList]

/-- No word and no other sign starts like a number. -/
theorem readValue_number {c : Char} (hc : Decimal.isDigit c = true ∨ c = '-') (fuel : Nat)
    {cs : List Char} (hsign : isBlank c = false) :
    readValue (fuel + 1) (c :: cs) = readNumber (c :: cs) := by
  rw [readValue, skipBlanks_sign hsign]
  split
  all_goals first
    | rfl
    | (next hcs => cases hcs; exact absurd hc (by decide))

/-- The items of a list that does not end at once. -/
theorem readValue_items {cs : List Char} (hcs : ∀ more, skipBlanks cs ≠ ']' :: more)
    {fuel : Nat} {ds : List Data} {rest : List Char}
    (hitems : readItems fuel cs = some (ds, rest)) :
    readValue (fuel + 1) ('[' :: cs) = some (.list ds, rest) := by
  rw [readValue, skipBlanks_sign (by decide)]
  simp only
  rw [readItems_congr (skipBlanks_skipBlanks cs), hitems]
  rfl

/-- The fields of a record that does not end at once. -/
theorem readValue_fields {cs : List Char} (hcs : ∀ more, skipBlanks cs ≠ '}' :: more)
    {fuel : Nat} {fs : Data.Fields} {rest : List Char}
    (hfields : readFields fuel cs = some (fs, rest)) :
    readValue (fuel + 1) ('{' :: cs) = some (.record fs, rest) := by
  rw [readValue, skipBlanks_sign (by decide)]
  simp only
  rw [readFields_congr (skipBlanks_skipBlanks cs), hfields]
  rfl

section

variable {before colon gap : List Char} (hbefore : Gap before) (hcolon : Gap colon)
  (hgap : Gap gap) (name : String) {fuel : Nat} {cs rest more : List Char} {d : Data}
  (hvalue : readValue fuel cs = some (d, rest))

include hbefore hcolon hgap hvalue

/-- A field with others behind it. -/
theorem readFields_more (hrest : skipBlanks rest = ',' :: more) {fs : Data.Fields}
    {after : List Char} (hfields : readFields fuel more = some (fs, after)) :
    readFields (fuel + 1) (before ++ (quote name ++ (colon ++ ':' :: (gap ++ cs)))) =
      some ((name, d) :: fs, after) := by
  rw [readFields, quote_append, skipBlanks_gap_sign hbefore (by decide)]
  simp only [readQuoted_escaped, skipBlanks_gap_sign hcolon (show isBlank ':' = false by decide),
    readValue_gap hgap, hvalue, hrest, hfields, List.reverse_nil, List.nil_append,
    String.ofList_toList, Option.map_some]

/-- The last field. -/
theorem readFields_last (hrest : skipBlanks rest = '}' :: more) :
    readFields (fuel + 1) (before ++ (quote name ++ (colon ++ ':' :: (gap ++ cs)))) =
      some ([(name, d)], more) := by
  rw [readFields, quote_append, skipBlanks_gap_sign hbefore (by decide)]
  simp only [readQuoted_escaped, skipBlanks_gap_sign hcolon (show isBlank ':' = false by decide),
    readValue_gap hgap, hvalue, hrest, List.reverse_nil, List.nil_append, String.ofList_toList]

end

/-! ### Reading what spells data -/

mutual

/-- **Whatever spells data is read as that data**, up to what follows it. -/
theorem readValue_of_spells {d : Data} {cs : List Char} (h : Spells d cs) {fuel : Nat}
    (hfuel : cs.length ≤ fuel) {rest : List Char} (hrest : Stops rest) :
    readValue fuel (cs ++ rest) = some (d, rest) := by
  -- a list or a record takes one unit of fuel and has two signs more than what is inside
  obtain ⟨c, more, hstart, hblank, -⟩ := h.start
  obtain ⟨fuel, rfl⟩ : ∃ n, fuel = n + 1 := by
    cases fuel with
    | zero => simp [hstart] at hfuel
    | succ n => exact ⟨n, rfl⟩
  cases h with
  | null | yes | no =>
      rw [readValue, skipBlanks]
      rfl
  | text s => exact readValue_text fuel s rest
  | int n =>
      obtain ⟨c', more', hnumeral, hc⟩ := toList_ofInt n
      have hread := readNumber_ofInt n hrest
      rw [hnumeral] at hstart hread ⊢
      obtain ⟨rfl, rfl⟩ := List.cons.inj hstart
      exact (readValue_number hc fuel hblank).trans hread
  | noItems hgap =>
      rw [List.cons_append, List.append_assoc, readValue, skipBlanks_sign (by decide)]
      simp only
      rw [List.cons_append, skipBlanks_gap_sign hgap (by decide)]
      rfl
  | noFields hgap =>
      rw [List.cons_append, List.append_assoc, readValue, skipBlanks_sign (by decide)]
      simp only
      rw [List.cons_append, skipBlanks_gap_sign hgap (by decide)]
      rfl
  | items hitems =>
      rw [List.cons_append, List.append_assoc]
      have hlength := hfuel
      rw [List.length_cons, List.length_append, List.length_singleton] at hlength
      exact readValue_items (hitems.start _) (readItems_of_spells hitems (by omega) rest)
  | fields hfields =>
      rw [List.cons_append, List.append_assoc]
      have hlength := hfuel
      rw [List.length_cons, List.length_append, List.length_singleton] at hlength
      exact readValue_fields (hfields.start _) (readFields_of_spells hfields (by omega) rest)

/-- The items of a list are read up to its end. -/
theorem readItems_of_spells {ds : List Data} {cs : List Char} (h : SpellsItems ds cs) {fuel : Nat}
    (hfuel : cs.length + 1 ≤ fuel) (rest : List Char) :
    readItems fuel (cs ++ ']' :: rest) = some (ds, rest) := by
  obtain ⟨fuel, rfl⟩ : ∃ n, fuel = n + 1 := ⟨fuel - 1, by omega⟩
  cases h with
  | @one d before cs after hbefore hd hafter =>
      have hstops : Stops (after ++ ']' :: rest) := stops_gap hafter (stops_cons (by decide) rest)
      simp only [List.length_append] at hfuel
      rw [readItems, List.append_assoc, readValue_gap hbefore, List.append_assoc,
        readValue_of_spells hd (by omega) hstops]
      simp only [skipBlanks_gap_sign hafter (show isBlank ']' = false by decide)]
  | @more d ds before cs after others hbefore hd hafter hothers =>
      have hstops : Stops (after ++ ',' :: (others ++ ']' :: rest)) :=
        stops_gap hafter (stops_cons (by decide) _)
      simp only [List.length_append, List.length_cons] at hfuel
      rw [readItems, List.append_assoc, readValue_gap hbefore, List.append_assoc,
        List.append_assoc, List.cons_append, readValue_of_spells hd (by omega) hstops]
      simp only [skipBlanks_gap_sign hafter (show isBlank ',' = false by decide)]
      rw [readItems_of_spells hothers (by omega)]
      rfl

/-- The fields of a record are read up to its end. -/
theorem readFields_of_spells {fs : Data.Fields} {cs : List Char} (h : SpellsFields fs cs)
    {fuel : Nat} (hfuel : cs.length + 1 ≤ fuel) (rest : List Char) :
    readFields fuel (cs ++ '}' :: rest) = some (fs, rest) := by
  obtain ⟨fuel, rfl⟩ : ∃ n, fuel = n + 1 := ⟨fuel - 1, by omega⟩
  cases h with
  | @one name d before colon gap cs after hbefore hcolon hgap hd hafter =>
      have hstops : Stops (after ++ '}' :: rest) := stops_gap hafter (stops_cons (by decide) rest)
      simp only [List.length_append, List.length_cons] at hfuel
      have hvalue := readValue_of_spells hd (show cs.length ≤ fuel by omega) hstops
      simp only [List.append_assoc, List.cons_append]
      exact readFields_last hbefore hcolon hgap name hvalue
        (skipBlanks_gap_sign hafter (by decide) _)
  | @more name d fs before colon gap cs after others hbefore hcolon hgap hd hafter hothers =>
      have hstops : Stops (after ++ ',' :: (others ++ '}' :: rest)) :=
        stops_gap hafter (stops_cons (by decide) _)
      simp only [List.length_append, List.length_cons] at hfuel
      have hvalue := readValue_of_spells hd (show cs.length ≤ fuel by omega) hstops
      have hfields := readFields_of_spells hothers (show others.length + 1 ≤ fuel by omega) rest
      simp only [List.append_assoc, List.cons_append]
      exact readFields_more hbefore hcolon hgap name hvalue
        (skipBlanks_gap_sign hafter (by decide) _) hfields

end

/-- **A text that spells data is read as that data**, with blanks behind it. -/
theorem parseChars?_of_spells {d : Data} {cs gap : List Char} (h : Spells d cs) (hgap : Gap gap) :
    parseChars? (cs ++ gap) = some d := by
  have hstops : Stops gap := by
    have hgapped := stops_gap hgap stops_nil
    rwa [List.append_nil] at hgapped
  have hlength : cs.length ≤ 2 * (cs ++ gap).length + 2 := by
    rw [List.length_append]
    omega
  have hskip : skipBlanks gap = [] := by
    have hskipped := skipBlanks_gap hgap []
    rwa [List.append_nil] at hskipped
  rw [parseChars?, readValue_of_spells h hlength hstops]
  simp only [hskip, List.isEmpty_nil, if_true]

/-! ### Both layouts spell -/

mutual

/-- **The layout on one line spells the data.** -/
theorem spells_compact : ∀ d : Data, d.isExact = true → Spells d (compact d)
  | .null, _ => .null
  | .bool true, _ => .yes
  | .bool false, _ => .no
  | .int n, _ => .int n
  | .text s, _ => .text s
  | .list [], _ => .noItems gap_nil
  | .list (d :: ds), h => .items (spellsItems_compact (d :: ds) h (List.cons_ne_nil d ds))
  | .record [], _ => .noFields gap_nil
  | .record (f :: fs), h => .fields (spellsFields_compact (f :: fs) h (List.cons_ne_nil f fs))

theorem spellsItems_compact : ∀ ds : List Data, Data.itemsExact ds = true → ds ≠ [] →
    SpellsItems ds (compactItems ds)
  | [], _, hne => absurd rfl hne
  | [d], h, _ => by
      rw [Data.itemsExact, Bool.and_eq_true] at h
      have hone := SpellsItems.one gap_nil (spells_compact d h.1) gap_nil
      rwa [List.nil_append, List.append_nil] at hone
  | d :: e :: ds, h, _ => by
      rw [Data.itemsExact, Bool.and_eq_true] at h
      exact .more gap_nil (spells_compact d h.1) gap_nil
        (spellsItems_compact (e :: ds) h.2 (List.cons_ne_nil e ds))

theorem spellsFields_compact : ∀ fs : Data.Fields, Data.fieldsExact fs = true → fs ≠ [] →
    SpellsFields fs (compactFields fs)
  | [], _, hne => absurd rfl hne
  | [(name, d)], h, _ => by
      rw [Data.fieldsExact, Bool.and_eq_true] at h
      have hone : SpellsFields [(name, d)] (quote name ++ ':' :: (compact d ++ [])) :=
        .one gap_nil gap_nil gap_nil (spells_compact d h.1) gap_nil
      rwa [List.append_nil] at hone
  | (name, d) :: e :: fs, h, _ => by
      rw [Data.fieldsExact, Bool.and_eq_true] at h
      exact .more gap_nil gap_nil gap_nil (spells_compact d h.1) gap_nil
        (spellsFields_compact (e :: fs) h.2 (List.cons_ne_nil e fs))

end

theorem gap_newLine (level : Nat) : Gap (newLine level) := by
  rw [Gap, newLine, List.all_cons, List.all_replicate]
  simp [isBlank]

theorem gap_space : Gap [' '] := rfl

mutual

/-- **The layout over several lines spells the data.** -/
theorem spells_prettyAt : ∀ (level : Nat) (d : Data), d.isExact = true →
    Spells d (prettyAt level d)
  | _, .null, _ => .null
  | _, .bool true, _ => .yes
  | _, .bool false, _ => .no
  | _, .int n, _ => .int n
  | _, .text s, _ => .text s
  | _, .list [], _ => .noItems gap_nil
  | level, .list (d :: ds), h => by
      have hitems := Spells.items (spellsItems_pretty (level + 1) (d :: ds) h
        (List.cons_ne_nil d ds) (gap_newLine level))
      rwa [List.append_assoc] at hitems
  | _, .record [], _ => .noFields gap_nil
  | level, .record (f :: fs), h => by
      have hfields := Spells.fields (spellsFields_pretty (level + 1) (f :: fs) h
        (List.cons_ne_nil f fs) (gap_newLine level))
      rwa [List.append_assoc] at hfields

/-- What follows the last item is the new line in front of the closing sign. -/
theorem spellsItems_pretty : ∀ (level : Nat) (ds : List Data), Data.itemsExact ds = true →
    ds ≠ [] → ∀ {after : List Char}, Gap after → SpellsItems ds (prettyItems level ds ++ after)
  | _, [], _, hne, _, _ => absurd rfl hne
  | level, [d], h, _, after, hafter => by
      rw [Data.itemsExact, Bool.and_eq_true] at h
      rw [prettyItems, List.append_assoc]
      exact .one (gap_newLine level) (spells_prettyAt level d h.1) hafter
  | level, d :: e :: ds, h, _, after, hafter => by
      rw [Data.itemsExact, Bool.and_eq_true] at h
      rw [prettyItems, List.append_assoc, List.append_assoc]
      exact .more (gap_newLine level) (spells_prettyAt level d h.1) gap_nil
        (spellsItems_pretty level (e :: ds) h.2 (List.cons_ne_nil e ds) hafter)

theorem spellsFields_pretty : ∀ (level : Nat) (fs : Data.Fields), Data.fieldsExact fs = true →
    fs ≠ [] → ∀ {after : List Char}, Gap after → SpellsFields fs (prettyFields level fs ++ after)
  | _, [], _, hne, _, _ => absurd rfl hne
  | level, [(name, d)], h, _, after, hafter => by
      rw [Data.fieldsExact, Bool.and_eq_true] at h
      rw [prettyFields, List.append_assoc, List.append_assoc]
      exact .one (gap_newLine level) gap_nil gap_space (spells_prettyAt level d h.1) hafter
  | level, (name, d) :: e :: fs, h, _, after, hafter => by
      rw [Data.fieldsExact, Bool.and_eq_true] at h
      rw [prettyFields]
      simp only [List.append_assoc, List.cons_append]
      exact .more (gap_newLine level) gap_nil gap_space (spells_prettyAt level d h.1) gap_nil
        (spellsFields_pretty level (e :: fs) h.2 (List.cons_ne_nil e fs) hafter)

end

/-! ### Both layouts are read back -/

/-- **What is written on one line is read back.** -/
theorem parse?_compact {d : Data} (h : d.isExact = true) :
    parse? (String.ofList (compact d)) = some d := by
  rw [parse?, String.toList_ofList, ← List.append_nil (compact d)]
  exact parseChars?_of_spells (spells_compact d h) gap_nil

/-- **What is written over several lines is read back**, with the line ended or not. -/
theorem parse?_pretty {d : Data} (h : d.isExact = true) {gap : String} (hgap : Gap gap.toList) :
    parse? (String.ofList (pretty d) ++ gap) = some d := by
  rw [parse?, String.toList_append, String.toList_ofList]
  exact parseChars?_of_spells (spells_prettyAt 0 d h) hgap

end Testbench.Json
