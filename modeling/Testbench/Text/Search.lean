/-
**Searching and dividing text.**

Main definitions:

* `Testbench.Text.contains`, `Testbench.Text.endsWith` — a text inside another, or at its end;
* `Testbench.Text.pieces`, `Testbench.Text.glue` — a text divided at a separator, and put together
  again.

Main results:

* `Testbench.Text.contains_iff` — what it means to occur;
* `Testbench.Text.pieces_append_cons` — a text is divided at each separator by itself;
* `Testbench.Text.not_mem_of_mem_pieces` — no piece holds the separator.
-/

set_option relaxedAutoImplicit false
set_option autoImplicit false

namespace Testbench.Text

/-! ### Occurrence -/

/-- The characters `needle` occur in a row somewhere in the text. -/
def containsChars (needle : List Char) : List Char → Bool
  | [] => needle.isEmpty
  | c :: cs => needle.isPrefixOf (c :: cs) || containsChars needle cs

/-- `needle` occurs somewhere in the text. -/
def contains (text needle : String) : Bool := containsChars needle.toList text.toList

/-- The text ends with `tail`. -/
def endsWith (text tail : String) : Bool := tail.toList.isSuffixOf text.toList

theorem containsChars_iff (needle cs : List Char) :
    containsChars needle cs = true ↔ needle <:+: cs := by
  induction cs with
  | nil => simp [containsChars, List.isEmpty_iff, List.infix_nil]
  | cons c cs ih =>
      simp only [containsChars, Bool.or_eq_true, List.isPrefixOf_iff_prefix, ih,
        List.infix_cons_iff]

theorem contains_iff (text needle : String) :
    contains text needle = true ↔ needle.toList <:+: text.toList :=
  containsChars_iff _ _

theorem endsWith_iff (text tail : String) :
    endsWith text tail = true ↔ tail.toList <:+ text.toList := by
  simp [endsWith, List.isSuffixOf_iff_suffix]

/-! ### Division -/

/-- Puts a character in front of the first piece. -/
def inFront (c : Char) : List (List Char) → List (List Char)
  | [] => [[c]]
  | p :: ps => (c :: p) :: ps

/-- The pieces between separators: one more than there are separators. -/
def pieces (sep : Char) : List Char → List (List Char)
  | [] => [[]]
  | c :: cs => if c = sep then [] :: pieces sep cs else inFront c (pieces sep cs)

/-- Pieces with a separator between any two. -/
def glue (sep : List Char) : List (List Char) → List Char
  | [] => []
  | [p] => p
  | p :: q :: ps => p ++ sep ++ glue sep (q :: ps)

/-- Texts with a separator between any two. -/
def joined (sep : String) (parts : List String) : String :=
  String.ofList (glue sep.toList (parts.map String.toList))

theorem pieces_ne_nil (sep : Char) (cs : List Char) : pieces sep cs ≠ [] := by
  cases cs with
  | nil => simp [pieces]
  | cons c cs =>
      rw [pieces]; split
      · simp
      · cases pieces sep cs <;> simp [inFront]

theorem inFront_append (c : Char) {ps : List (List Char)} (h : ps ≠ []) (qs : List (List Char)) :
    inFront c (ps ++ qs) = inFront c ps ++ qs := by
  cases ps with
  | nil => exact absurd rfl h
  | cons p ps => rfl

/-- The pieces on both sides of a separator. -/
theorem pieces_append_cons (sep : Char) (xs ys : List Char) :
    pieces sep (xs ++ sep :: ys) = pieces sep xs ++ pieces sep ys := by
  induction xs with
  | nil => simp [pieces]
  | cons c xs ih =>
      rw [List.cons_append, pieces, pieces, ih]
      split
      · rfl
      · exact inFront_append c (pieces_ne_nil sep xs) _

/-- A text without the separator is one piece. -/
theorem pieces_of_not_mem {sep : Char} {cs : List Char} (h : sep ∉ cs) : pieces sep cs = [cs] := by
  induction cs with
  | nil => rfl
  | cons c cs ih =>
      obtain ⟨hc, hcs⟩ := not_or.1 (mt List.mem_cons.2 h)
      rw [pieces, if_neg (Ne.symm hc), ih hcs]
      rfl

/-- No piece holds the separator. -/
theorem not_mem_of_mem_pieces {sep : Char} {cs p : List Char} (h : p ∈ pieces sep cs) :
    sep ∉ p := by
  induction cs generalizing p with
  | nil => simp [pieces] at h; simp [h]
  | cons c cs ih =>
      rw [pieces] at h
      split at h
      · rcases List.mem_cons.1 h with rfl | h
        · simp
        · exact ih h
      · next hc =>
          cases hp : pieces sep cs with
          | nil => exact absurd hp (pieces_ne_nil sep cs)
          | cons q ps =>
              rw [hp] at h ih
              simp only [inFront, List.mem_cons] at h
              rcases h with rfl | h
              · simpa [Ne.symm hc] using ih List.mem_cons_self
              · exact ih (List.mem_cons_of_mem _ h)

end Testbench.Text
