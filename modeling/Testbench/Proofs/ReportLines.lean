/-
**The report of a person is read back.**

A report is lines, and a text is divided into its lines again as long as no line holds a break of
its own.  The names of tests and the reasons of crashes are the only parts that could; all others
are fixed words and numerals.

A line of a result shows where the name ends by a mark.  A name may hold that mark as well, and
commas, numerals and brackets of any kind, so that the first occurrence of the mark tells nothing.
It is the last one that counts: behind the name comes a numeral, and then at most a reason in
brackets, and if the reason does not hold the mark neither does the line.  No line of the summary
holds it, so that the results end where the first line without it stands.

Main definitions:

* `Testbench.Text.linesOf` — the lines of a text;
* `Testbench.Report.Plain`, `Testbench.Report.Unmarked` — names and reasons that can be told apart;
* `Testbench.Report.Told`, `Testbench.Report.told` — what the text of a report tells.

Main results:

* `Testbench.Text.linesOf_unlines` — lines without breaks are read back;
* `Testbench.Text.append_mark_inj` — the last occurrence of a mark divides a text in one way;
* `Testbench.TestResult.line_inj` — **a line tells a name and a code**;
* `Testbench.Summary.lines_append_inj` — the lines of a summary tell its counters;
* `Testbench.Report.text_read_back` — **the text of a report is complete and is read back**.
-/

import Testbench.Proofs.JsonScalars
import Testbench.Report.Text

set_option relaxedAutoImplicit false
set_option autoImplicit false

namespace Testbench

/-! ### Lines -/

namespace Text

/-- The **lines of a text**: what stands in front of each of its line breaks. -/
def linesOf (text : String) : List String :=
  (pieces '\n' text.toList).dropLast.map String.ofList

/-- **Lines without breaks are read back.** -/
theorem linesOf_unlines {ls : List String} (h : ∀ l ∈ ls, '\n' ∉ l.toList) :
    linesOf (Report.unlines ls) = ls := by
  have hpieces : pieces '\n' (Report.unlines ls).toList = ls.map String.toList ++ [[]] := by
    induction ls with
    | nil => rfl
    | cons l ls ih =>
        have htext : (Report.unlines (l :: ls)).toList =
            l.toList ++ '\n' :: (Report.unlines ls).toList := by
          simp [Report.unlines]
        rw [htext, pieces_append_cons, pieces_of_not_mem (h l List.mem_cons_self),
          ih fun l hl => h l (List.mem_cons_of_mem _ hl)]
        rfl
  rw [linesOf, hpieces, List.dropLast_concat, List.map_map]
  exact List.map_id'' (fun _ => String.ofList_toList) ls

/-! ### Marks -/

/-- A mark is not met again at a later place, if nothing behind it holds the mark. -/
theorem eq_nil_of_mark_append {c : Char} {mark x y shift : List Char} (hc : c ∉ mark)
    (hy : ¬c :: mark <:+: y) (h : c :: mark ++ y = shift ++ (c :: mark ++ x)) : shift = [] := by
  cases shift with
  | nil => rfl
  | cons d shift =>
      rw [List.cons_append, List.cons_append, List.cons.injEq] at h
      rcases List.append_eq_append_iff.1 h.2 with ⟨more, -, hmore⟩ | ⟨more, hmark, hmore⟩
      · exact absurd ⟨more, x, by rw [hmore, List.append_assoc]⟩ hy
      · cases more with
        | nil => exact absurd ⟨[], x, hmore⟩ hy
        | cons d' more =>
            rw [List.cons_append, List.cons_append, List.cons.injEq] at hmore
            exact absurd (hmark ▸ List.mem_append_right _ (hmore.1 ▸ List.mem_cons_self)) hc

/-- **The last occurrence of a mark divides a text in one way.**  The mark starts with a character
that it does not hold again, so that no two of its occurrences overlap. -/
theorem append_mark_inj {c : Char} {mark a b x y : List Char} (hc : c ∉ mark)
    (hx : ¬c :: mark <:+: x) (hy : ¬c :: mark <:+: y)
    (h : a ++ (c :: mark ++ x) = b ++ (c :: mark ++ y)) : a = b ∧ x = y := by
  rcases List.append_eq_append_iff.1 h with ⟨shift, rfl, hshift⟩ | ⟨shift, rfl, hshift⟩
  · obtain rfl := eq_nil_of_mark_append hc hx hshift
    exact ⟨(List.append_nil a).symm, List.append_cancel_left hshift⟩
  · obtain rfl := eq_nil_of_mark_append hc hy hshift
    exact ⟨List.append_nil b, (List.append_cancel_left hshift).symm⟩

/-- A mark does not start in front of where its first character can stand. -/
theorem infix_of_infix_append {c : Char} {mark front x : List Char} (hfront : c ∉ front)
    (h : c :: mark <:+: front ++ x) : c :: mark <:+: x := by
  induction front with
  | nil => exact h
  | cons d front ih =>
      rw [List.mem_cons, not_or] at hfront
      rw [List.cons_append, List.infix_cons_iff, List.cons_prefix_cons] at h
      exact ih hfront.2 (h.resolve_left fun hhead => hfront.1 hhead.1)

/-- A mark does not end behind where its last character can stand. -/
theorem infix_of_infix_concat {c d : Char} {mark x : List Char} (hne : c ≠ d)
    (h : mark ++ [c] <:+: x ++ [d]) : mark ++ [c] <:+: x := by
  rw [List.infix_concat_iff, List.suffix_concat_iff] at h
  rcases h with (h | ⟨t, ht, -⟩) | h
  · simp at h
  · exact absurd (List.append_inj_right' ht rfl) (by simpa using hne)
  · exact h

end Text

/-! ### Numerals -/

namespace Decimal

theorem not_mem_ofNat {c : Char} (h : isDigit c = false) (n : Nat) : c ∉ (ofNat n).toList := by
  rw [ofNat, String.toList_ofList]
  intro hc
  rw [List.all_eq_true.1 (all_isDigit_digits n) c hc] at h
  cases h

theorem not_mem_ofInt {c : Char} (h : isDigit c = false) (hminus : c ≠ '-') (n : Int) :
    c ∉ (ofInt n).toList := by
  cases n with
  | ofNat n => exact not_mem_ofNat h n
  | negSucc n =>
      rw [ofInt, String.toList_append, List.mem_append, not_or]
      exact ⟨by simpa using hminus, not_mem_ofNat h _⟩

theorem not_mem_padded {c : Char} (h : isDigit c = false) (width n : Nat) :
    c ∉ padded width n := by
  rw [padded, List.mem_append, not_or]
  constructor
  · intro hc
    rw [List.eq_of_mem_replicate hc] at h
    cases h
  · rw [← String.toList_ofList (l := digits n)]
    exact not_mem_ofNat h n

/-- A numeral is known from what stands there, if what follows does not belong to a number. -/
theorem ofInt_append_inj {m n : Int} {rest rest' : List Char} (hrest : Json.Stops rest)
    (hrest' : Json.Stops rest') (h : (ofInt m).toList ++ rest = (ofInt n).toList ++ rest') :
    m = n ∧ rest = rest' := by
  have hread := Json.readNumber_ofInt m hrest
  rw [h, Json.readNumber_ofInt n hrest'] at hread
  cases hread
  exact ⟨rfl, rfl⟩

theorem ofNat_append_inj {m n : Nat} {rest rest' : List Char} (hrest : Json.Stops rest)
    (hrest' : Json.Stops rest') (h : (ofNat m).toList ++ rest = (ofNat n).toList ++ rest') :
    m = n ∧ rest = rest' :=
  (ofInt_append_inj (m := .ofNat m) (n := .ofNat n) hrest hrest' h).imp Int.ofNat.inj id

end Decimal

/-! ### The line of a result -/

/-- The mark between the name of a test and its code. -/
def codeMark : String := ", ret_code: "

namespace TestResult

/-- What the line of a result says behind the code. -/
def remark (r : TestResult) : String :=
  match r.outcome with
  | .crashOrTimeout reason => " (" ++ reason ++ ")"
  | _ => ""

/-- What a line of a result shows: the name of the test, and the code. -/
def shown (r : TestResult) (style : PathStyle) : String × Int := (r.test.display style, r.exitCode)

/-- The reason of a crash, if there is one, **holds a text**. -/
def reasonHolds (r : TestResult) (needle : String) : Bool :=
  match r.outcome with
  | .crashOrTimeout reason => Text.contains reason needle
  | _ => false

variable {r r' : TestResult} {style style' : PathStyle}

theorem line_eq (r : TestResult) (style : PathStyle) :
    r.line style = r.test.display style ++ codeMark ++ Decimal.ofInt r.exitCode ++ r.remark := by
  rw [line, remark]
  cases r.outcome <;> simp [codeMark, String.append_assoc]

theorem remark_cases (r : TestResult) : r.remark.toList = [] ∨
    ∃ reason, r.outcome = .crashOrTimeout reason ∧
      r.remark.toList = [' ', '('] ++ reason.toList ++ [')'] := by
  rw [remark]
  cases r.outcome with
  | crashOrTimeout reason => exact Or.inr ⟨reason, rfl, by simp⟩
  | pass => exact Or.inl rfl
  | fail code => exact Or.inl rfl

theorem reasonHolds_of_infix {reason needle : String} (hreason : r.outcome = .crashOrTimeout reason)
    (h : needle.toList <:+: reason.toList) : r.reasonHolds needle = true := by
  rw [reasonHolds, hreason]
  exact (Text.contains_iff reason needle).2 h

theorem stops_remark (r : TestResult) : Json.Stops r.remark.toList := by
  rcases remark_cases r with h | ⟨reason, -, h⟩
  · rw [h]
    exact Json.stops_nil
  · rw [h]
    exact Json.stops_cons (by decide) _

/-- The mark does not occur behind the code, unless a reason holds it. -/
theorem reasonHolds_of_mark (h : codeMark.toList <:+: (Decimal.ofInt r.exitCode).toList ++
    r.remark.toList) : r.reasonHolds codeMark = true := by
  -- the mark starts with a comma, and no numeral holds one
  have hremark : codeMark.toList <:+: r.remark.toList :=
    Text.infix_of_infix_append (Decimal.not_mem_ofInt (by decide) (by decide) _) h
  rcases remark_cases r with hnone | ⟨reason, hreason, hsome⟩
  · rw [hnone] at hremark
    exact absurd (List.infix_nil.1 hremark) (by decide)
  · rw [hsome, List.append_assoc] at hremark
    have hbehind : ", ret_code:".toList ++ [' '] <:+: reason.toList ++ [')'] :=
      Text.infix_of_infix_append (by decide) hremark
    exact reasonHolds_of_infix hreason (Text.infix_of_infix_concat (by decide) hbehind)

/-- **A line tells a name and a code.** -/
theorem line_inj (hr : r.reasonHolds codeMark = false) (hr' : r'.reasonHolds codeMark = false)
    (h : r.line style = r'.line style') : r.shown style = r'.shown style' := by
  rw [line_eq, line_eq, ← String.toList_inj] at h
  simp only [String.toList_append, List.append_assoc] at h
  obtain ⟨hname, htail⟩ := Text.append_mark_inj (c := ',') (by decide)
    (fun hmark => Bool.false_ne_true (hr.symm.trans (reasonHolds_of_mark hmark)))
    (fun hmark => Bool.false_ne_true (hr'.symm.trans (reasonHolds_of_mark hmark))) h
  obtain ⟨hcode, -⟩ := Decimal.ofInt_append_inj r.stops_remark r'.stops_remark htail
  rw [shown, shown, String.toList_inj.1 hname, hcode]

/-- The lines of results tell their names and codes, in order. -/
theorem map_line_inj {results results' : List TestResult}
    (hr : ∀ r ∈ results, r.reasonHolds codeMark = false)
    (hr' : ∀ r ∈ results', r.reasonHolds codeMark = false)
    (h : results.map (·.line style) = results'.map (·.line style')) :
    results.map (·.shown style) = results'.map (·.shown style') := by
  induction results generalizing results' with
  | nil => rw [List.map_eq_nil_iff.1 h.symm]; rfl
  | cons r results ih =>
      cases results' with
      | nil => cases h
      | cons r' results' =>
          rw [List.map_cons, List.map_cons, List.cons.injEq] at h
          rw [List.forall_mem_cons] at hr hr'
          rw [List.map_cons, List.map_cons, line_inj hr.1 hr'.1 h.1, ih hr.2 hr'.2 h.2]

theorem contains_line (r : TestResult) (style : PathStyle) :
    Text.contains (r.line style) codeMark = true := by
  rw [Text.contains_iff, line_eq]
  simp only [String.toList_append, List.append_assoc]
  exact ⟨(r.test.display style).toList, _, List.append_assoc ..⟩

/-- A line holds a break only if the name or the reason does. -/
theorem newline_not_mem_line (hname : '\n' ∉ (r.test.display style).toList)
    (hreason : r.reasonHolds "\n" = false) : '\n' ∉ (r.line style).toList := by
  rw [line_eq]
  simp only [String.toList_append, List.mem_append, not_or]
  refine ⟨⟨⟨hname, by decide⟩, Decimal.not_mem_ofInt (by decide) (by decide) _⟩, ?_⟩
  rcases remark_cases r with h | ⟨reason, hoc, h⟩
  · rw [h]
    exact List.not_mem_nil
  · rw [h]
    intro hmem
    have hmem : '\n' ∈ reason.toList := by simpa using hmem
    obtain ⟨front, back, hsplit⟩ := List.append_of_mem hmem
    have hholds : r.reasonHolds "\n" = true :=
      reasonHolds_of_infix hoc ⟨front, back, by rw [hsplit, List.append_assoc]; rfl⟩
    exact Bool.false_ne_true (hreason.symm.trans hholds)

end TestResult

/-! ### The lines of a summary -/

namespace Summary

theorem newline_not_mem_reportText (ms : Nat) : '\n' ∉ (Span.reportText ms).toList := by
  rw [Span.reportText]
  have hdigits := Decimal.not_mem_ofNat (c := '\n') (by decide)
  have hpadded := Decimal.not_mem_padded (c := '\n') (by decide)
  split <;> simp [hdigits, hpadded]

theorem newline_not_mem_lines (s : Summary) : ∀ l ∈ s.lines, '\n' ∉ l.toList := by
  have hdigits := Decimal.not_mem_ofNat (c := '\n') (by decide)
  intro l hl
  simp only [lines, List.mem_append, List.mem_cons, List.mem_ite_nil_right, List.not_mem_nil,
    or_false] at hl
  rcases hl with (((rfl | rfl) | ⟨-, rfl⟩) | rfl) | ⟨-, rfl⟩
  · decide
  · simp [hdigits]
  · simp [hdigits]
  · simp [newline_not_mem_reportText]
  · decide

theorem length_lines (s : Summary) : s.lines.length =
    3 + (if 0 < s.notRun then 1 else 0) + if s.interrupted = some true then 1 else 0 := by
  simp only [lines, List.length_append, List.length_cons, List.length_nil]
  split <;> split <;> rfl

/-- The line of the counters tells them. -/
theorem counters_inj {a b c a' b' c' : Nat}
    (h : "  " ++ Decimal.ofNat a ++ " tests run, " ++ Decimal.ofNat b ++ " passed, " ++
      Decimal.ofNat c ++ " failed" = "  " ++ Decimal.ofNat a' ++ " tests run, " ++
      Decimal.ofNat b' ++ " passed, " ++ Decimal.ofNat c' ++ " failed") :
    a = a' ∧ b = b' ∧ c = c' := by
  rw [← String.toList_inj] at h
  simp only [String.toList_append, List.append_assoc] at h
  have hstops : ∀ {word : String} (c : Char) (more : List Char), word.toList = c :: more →
      Json.continuesNumber c = false → ∀ rest, Json.Stops (word.toList ++ rest) := by
    rintro word c more hword hc rest
    rw [hword]
    exact Json.stops_cons hc _
  obtain ⟨ha, h⟩ := Decimal.ofNat_append_inj (hstops ' ' _ rfl rfl _) (hstops ' ' _ rfl rfl _)
    (List.append_cancel_left h)
  obtain ⟨hb, h⟩ := Decimal.ofNat_append_inj (hstops ' ' _ rfl rfl _) (hstops ' ' _ rfl rfl _)
    (List.append_cancel_left h)
  obtain ⟨hc, -⟩ := Decimal.ofNat_append_inj (Json.stops_cons rfl _) (Json.stops_cons rfl _)
    (List.append_cancel_left h)
  exact ⟨ha, hb, hc⟩

/-- The line of the tests that were left out tells their number, also by not being there. -/
theorem notRun_inj {n n' : Nat} {duration duration' : String} {rest rest' : List String}
    (h : (if 0 < n then ["  Not run: " ++ Decimal.ofNat n ++ " tests"] else []) ++
        ("  Duration: " ++ duration) :: rest =
      (if 0 < n' then ["  Not run: " ++ Decimal.ofNat n' ++ " tests"] else []) ++
        ("  Duration: " ++ duration') :: rest') : n = n' := by
  have hother : ∀ (n : Nat) (duration : String),
      "  Not run: " ++ Decimal.ofNat n ++ " tests" ≠ "  Duration: " ++ duration := by
    intro n duration heq
    rw [← String.toList_inj] at heq
    simp at heq
  by_cases hn : 0 < n <;> by_cases hn' : 0 < n'
  · rw [if_pos hn, if_pos hn'] at h
    have hline := (List.cons.inj h).1
    rw [← String.toList_inj] at hline
    simp only [String.toList_append, List.append_assoc] at hline
    exact (Decimal.ofNat_append_inj (Json.stops_cons rfl _) (Json.stops_cons rfl _)
      (List.append_cancel_left hline)).1
  · rw [if_pos hn, if_neg hn'] at h
    exact absurd (List.cons.inj h).1 (hother n duration')
  · rw [if_neg hn, if_pos hn'] at h
    exact absurd (List.cons.inj h).1.symm (hother n' duration)
  · omega

/-- The last line tells an interrupt, also by not being there. -/
theorem status_inj {i i' : Option Bool} {failures failures' : List String}
    (hf : failures = [] ∨ ∃ more, failures = "" :: more)
    (hf' : failures' = [] ∨ ∃ more, failures' = "" :: more)
    (h : (if i = some true then ["  Status: Interrupted by user"] else []) ++ failures =
      (if i' = some true then ["  Status: Interrupted by user"] else []) ++ failures') :
    i = some true ↔ i' = some true := by
  have hother : ∀ {failures rest : List String}, (failures = [] ∨ ∃ more, failures = "" :: more) →
      "  Status: Interrupted by user" :: rest ≠ failures := by
    rintro failures rest (rfl | ⟨more, rfl⟩) heq
    · cases heq
    · exact absurd (List.cons.inj heq).1 (by decide)
  by_cases hi : i = some true <;> by_cases hi' : i' = some true
  · exact ⟨fun _ => hi', fun _ => hi⟩
  · rw [if_pos hi, if_neg hi'] at h
    exact absurd h (hother hf')
  · rw [if_neg hi, if_pos hi'] at h
    exact absurd h.symm (hother hf)
  · exact ⟨fun h => absurd h hi, fun h => absurd h hi'⟩

/-- **The lines of a summary tell its counters and its mark**, whatever failures follow. -/
theorem lines_append_inj {s s' : Summary} {failures failures' : List String}
    (hf : failures = [] ∨ ∃ more, failures = "" :: more)
    (hf' : failures' = [] ∨ ∃ more, failures' = "" :: more)
    (h : s.lines ++ failures = s'.lines ++ failures') :
    s.dispatched = s'.dispatched ∧ s.passed = s'.passed ∧ s.failed = s'.failed ∧
      s.notRun = s'.notRun ∧ (s.interrupted = some true ↔ s'.interrupted = some true) := by
  simp only [lines, List.append_assoc, List.cons_append, List.nil_append, List.cons.injEq] at h
  obtain ⟨-, hcounters, hrest⟩ := h
  obtain ⟨hdispatched, hpassed, hfailed⟩ := counters_inj hcounters
  have hnotRun := notRun_inj hrest
  rw [hnotRun] at hrest
  have hstatus := (List.cons.inj (List.append_cancel_left hrest)).2
  exact ⟨hdispatched, hpassed, hfailed, hnotRun, status_inj hf hf' hstatus⟩

end Summary

/-! ### The text of a report -/

namespace Report

/-- The names and reasons of a report **hold no breaks**. -/
structure Plain (r : Report) (style : PathStyle) : Prop where
  names : ∀ x ∈ r.results.results, '\n' ∉ (x.test.display style).toList
  reasons : ∀ x ∈ r.results.results, x.reasonHolds "\n" = false

/-- The reasons of a report **hold no mark** of a code. -/
def Unmarked (r : Report) : Prop := ∀ x ∈ r.results.results, x.reasonHolds codeMark = false

instance (r : Report) (style : PathStyle) : Decidable (r.Plain style) :=
  decidable_of_iff ((∀ x ∈ r.results.results, '\n' ∉ (x.test.display style).toList) ∧
    ∀ x ∈ r.results.results, x.reasonHolds "\n" = false)
    ⟨fun h => ⟨h.1, h.2⟩, fun h => ⟨h.names, h.reasons⟩⟩

instance (r : Report) : Decidable r.Unmarked :=
  inferInstanceAs (Decidable (∀ x ∈ r.results.results, x.reasonHolds codeMark = false))

/-- What the text of a report **tells**. -/
structure Told where
  /-- The names that are shown and the codes, in order. -/
  shown : List (String × Int)
  dispatched : Nat
  passed : Nat
  failed : Nat
  notRun : Nat
  interrupted : Bool
deriving DecidableEq

/-- What the text of a report tells in a style. -/
def told (r : Report) (style : PathStyle) : Told where
  shown := r.results.results.map (·.shown style)
  dispatched := r.summary.dispatched
  passed := r.summary.passed
  failed := r.summary.failed
  notRun := r.summary.notRun
  interrupted := r.summary.interrupted = some true

variable {r r' : Report} {style style' : PathStyle}

theorem newline_not_mem_lines (h : r.Plain style) : ∀ l ∈ r.lines style, '\n' ∉ l.toList := by
  have hresult : ∀ x ∈ r.results.results, '\n' ∉ (x.line style).toList := fun x hx =>
    TestResult.newline_not_mem_line (h.names x hx) (h.reasons x hx)
  intro l hl
  rw [lines, List.mem_append, List.mem_append] at hl
  rcases hl with (hl | hl) | hl
  · rw [resultLines, List.mem_append] at hl
    rcases hl with hl | hl
    · obtain ⟨x, hx, rfl⟩ := List.mem_map.1 hl
      exact hresult x hx
    · rw [List.mem_ite_nil_left, List.mem_singleton] at hl
      rw [hl.2]
      exact List.not_mem_nil
  · exact r.summary.newline_not_mem_lines l hl
  · rw [failureLines, List.mem_ite_nil_left, List.mem_cons, List.mem_cons, List.mem_map] at hl
    rcases hl.2 with rfl | rfl | ⟨x, hx, rfl⟩
    · exact List.not_mem_nil
    · decide
    · have hmem : x ∈ r.results.results := (List.mem_filter.1 hx).1
      simp [hresult x hmem]

theorem length_failureLines (failures : List TestResult) (style : PathStyle) :
    (failureLines failures style).length =
      if failures = [] then 0 else failures.length + 2 := by
  cases failures <;> simp [failureLines]

theorem length_lines (r : Report) (style : PathStyle) : (r.lines style).length =
    r.results.results.length + (if r.results.results = [] then 0 else 1) + 3 +
      (if 0 < r.summary.notRun then 1 else 0) +
      (if r.summary.interrupted = some true then 1 else 0) +
      if r.results.failures = [] then 0 else r.results.failures.length + 2 := by
  rw [lines, List.length_append, List.length_append, length_failureLines, Summary.length_lines,
    resultLines, List.length_append, List.length_map]
  cases r.results.results with
  | nil => simp
  | cons x results => simp; omega

theorem failureLines_cases (failures : List TestResult) (style : PathStyle) :
    failureLines failures style = [] ∨ ∃ more, failureLines failures style = "" :: more := by
  cases failures with
  | nil => exact Or.inl rfl
  | cons x failures => exact Or.inr ⟨_, rfl⟩

/-- **The results end where the first line without the mark stands.** -/
theorem takeWhile_lines (r : Report) (style : PathStyle) :
    (r.lines style).takeWhile (Text.contains · codeMark) =
      r.results.results.map (·.line style) := by
  have hmarked : ∀ l ∈ r.results.results.map (·.line style),
      Text.contains l codeMark = true := by
    rw [List.forall_mem_map]
    exact fun x _ => x.contains_line style
  rw [lines_eq, resultLines, List.append_assoc, List.takeWhile_append_of_pos hmarked]
  -- the next line is empty, or the heading of the summary
  have hblank : Text.contains "" codeMark = false := by decide
  have hheading : Text.contains "Run Summary:" codeMark = false := by decide
  cases r.results.results with
  | nil => simp [Summary.lines, hheading]
  | cons x results => simp [hblank]

/-- Reports with the same lines tell the same. -/
theorem told_eq_of_lines_eq (hr : r.Unmarked) (hr' : r'.Unmarked)
    (h : r.lines style = r'.lines style') : r.told style = r'.told style' := by
  have hresults := congrArg (List.takeWhile (Text.contains · codeMark)) h
  rw [takeWhile_lines, takeWhile_lines] at hresults
  have hempty : r.results.results.isEmpty = r'.results.results.isEmpty := by
    have hlength := congrArg List.length hresults
    rw [List.length_map, List.length_map] at hlength
    rw [Bool.eq_iff_iff, List.isEmpty_iff_length_eq_zero, List.isEmpty_iff_length_eq_zero, hlength]
  rw [lines_eq, lines_eq, resultLines, resultLines, hresults, hempty] at h
  obtain ⟨hdispatched, hpassed, hfailed, hnotRun, hinterrupted⟩ := Summary.lines_append_inj
    (failureLines_cases ..) (failureLines_cases ..) (List.append_cancel_left h)
  simp only [told, TestResult.map_line_inj hr hr' hresults, hdispatched, hpassed, hfailed, hnotRun,
    hinterrupted]

/-- **The text of a report is complete and is read back**, if no name and no reason holds a break.
It has a line for every result, in order, and each is shown once; one behind them if there are any;
those of the summary; and, if a test failed, the line of every failure once more at its end, under a
heading.  If no reason of a crash holds the mark of a code, names and codes, the counters and the
mark of an interrupt are known from the text alone, whatever the names are and in whatever style
they are shown. -/
theorem text_read_back (h : r.Plain style) :
    unlines (Text.linesOf (r.text style)) = r.text style ∧
      (Text.linesOf (r.text style)).length =
        r.results.results.length + (if r.results.results = [] then 0 else 1) + 3 +
          (if 0 < r.summary.notRun then 1 else 0) +
          (if r.summary.interrupted = some true then 1 else 0) +
          (if r.results.failures = [] then 0 else r.results.failures.length + 2) ∧
      (Text.linesOf (r.text style)).take r.results.results.length =
        r.results.results.map (·.line style) ∧
      (r.results.failures ≠ [] →
        "Failures:" :: r.results.failures.map ("  " ++ ·.line style) <:+
          Text.linesOf (r.text style)) ∧
      (r.Unmarked → ∀ (r' : Report) (style' : PathStyle), r'.Plain style' → r'.Unmarked →
        r'.text style' = r.text style → r'.told style' = r.told style) := by
  have hlines : ∀ {r : Report} {style : PathStyle}, r.Plain style →
      Text.linesOf (r.text style) = r.lines style :=
    fun h => Text.linesOf_unlines (newline_not_mem_lines h)
  rw [hlines h]
  refine ⟨rfl, length_lines r style, ?_, ?_, ?_⟩
  · rw [lines_eq, resultLines, List.append_assoc]
    exact List.take_left' (List.length_map _)
  · intro hne
    rw [lines_eq, failureLines, if_neg (by simpa using hne)]
    exact ⟨resultLines r.results.results style ++ (r.summary.lines ++ [""]), by simp⟩
  · intro hr r' style' h' hr' htext
    refine told_eq_of_lines_eq hr' hr ?_
    rw [← hlines h', htext, hlines h]

/-- A report on two tests below a directory; the name of the first looks like a line of its own. -/
def lookalike (directory : String) : Report where
  startedAt := default
  smoke := none
  results := ⟨[⟨⟨directory ++ "a, ret_code: 1 (b)"⟩, 0, directory, .pass, 1⟩,
    ⟨⟨directory ++ "b"⟩, 124, directory, .crashOrTimeout "timed out after 1s", 1000⟩]⟩
  summary := ⟨2, 1, 1, 3, 1500, some true⟩

theorem plain_lookalike : (lookalike "").Plain .full ∧ (lookalike "/t/").Plain .basename := by
  decide +kernel

theorem unmarked_lookalike : (lookalike "").Unmarked ∧ (lookalike "/t/").Unmarked := by
  decide +kernel

/-- Two reports that show the same names in different styles have one text, of eleven lines, and
tell the same. -/
theorem told_of_lookalike : (lookalike "").Plain .full ∧ (lookalike "").Unmarked ∧
    (lookalike "/t/").Plain .basename ∧ (lookalike "/t/").Unmarked ∧
      (lookalike "/t/").text .basename = (lookalike "").text .full ∧
      (Text.linesOf ((lookalike "").text .full)).length = 11 ∧
      (lookalike "/t/").told .basename = (lookalike "").told .full := by
  obtain ⟨-, hlength, -, -, htold⟩ := text_read_back plain_lookalike.1
  have htext : (lookalike "/t/").text .basename = (lookalike "").text .full := by decide +kernel
  exact ⟨plain_lookalike.1, unmarked_lookalike.1, plain_lookalike.2, unmarked_lookalike.2, htext,
    hlength, htold unmarked_lookalike.1 _ _ plain_lookalike.2 unmarked_lookalike.2 htext⟩

end Report

end Testbench
