/-
**The life of a progress line.**

A progress line counts results and may be finished at any time, once or several times or never;
whoever made it drops it in the end, and a line that is dropped is finished if it was not before.
Whatever the order of these calls, the line that stays is drawn once: at the first finish, with what
has been counted by then.  A result that is counted later is drawn like any other.

In a session the results are counted in the order in which they become known, and the line is
finished when all are known.  So the line that stays shows the counters of the report, which are
worked out from the results alone.

Main definitions:

* `Testbench.Progress.Call`, `Testbench.Progress.live` — what is done with a line until it is
  dropped;
* `Testbench.Progress.counting` — a line that has counted some results;
* `Testbench.Progress.lines`, `Testbench.Progress.linesSoFar` — the lines that are drawn during some
  calls, with the end of the line and without it;
* `Testbench.LeavesLine` — an action that does not draw the line;
* `Testbench.Batch.Counted` — the invariant of a line while tests are at work.

Main results:

* `Testbench.Progress.run_record`, `Testbench.Progress.run_finish` — one call;
* `Testbench.Progress.run_calls`, `Testbench.Progress.run_live` — **all that is drawn from the first
  call to the end**;
* `Testbench.Batch.counted_turn`, `Testbench.Batch.counted_result` — the invariant is kept by every
  turn, and holds at the end;
* `Testbench.Session.drawn_closing` — what a session draws;
* `Testbench.Session.progress_line_counts` — **the counters of a line, and what it draws**.
-/

import Mathlib.Data.List.TakeWhile
import Testbench.Proofs.Accounting

set_option relaxedAutoImplicit false
set_option autoImplicit false

namespace Testbench

variable {α : Type}

/-! ### What is drawn -/

/-- The text that an event draws as the progress line. -/
def Event.drawn? : Event → Option String
  | .progress text => some text
  | _ => none

namespace Scene

/-- The texts that were drawn as the progress line, in order. -/
def drawn (s : Scene) : List String := s.trace.filterMap Event.drawn?

/-- The scene with some texts drawn. -/
def draws (s : Scene) (texts : List String) : Scene :=
  { s with trace := s.trace ++ texts.map .progress }

@[simp] theorem draws_nil (s : Scene) : s.draws [] = s := by simp [draws]

theorem draws_draws (s : Scene) (texts texts' : List String) :
    (s.draws texts).draws texts' = s.draws (texts ++ texts') := by
  simp [draws]

theorem drawn_draws (s : Scene) (texts : List String) :
    (s.draws texts).drawn = s.drawn ++ texts := by
  simp [drawn, draws, List.filterMap_map, Function.comp_def, Event.drawn?]

theorem drawn_add (s : Scene) (e : Event) : (s.add e).drawn = s.drawn ++ e.drawn?.toList := by
  rw [drawn, add_trace, List.filterMap_append, drawn]
  cases h : e.drawn? <;> simp [h]

end Scene

theorem run_draw {text : String} (h : text ≠ "") (s : Scene) :
    (draw text).run s = ((), s.draws [text]) := by
  rw [draw, if_neg h]; rfl

theorem run_draw_empty (s : Scene) : (draw "").run s = ((), s) := rfl

namespace Progress

/-! ### Calls -/

/-- What is done with a progress line before it is dropped. -/
inductive Call
  /-- A result is counted. -/
  | record (result : TestResult)
  /-- The line is finished. -/
  | finish
deriving DecidableEq, Repr

/-- One call. -/
def call (p : Progress) : Call → Flow Progress
  | .record r => countResult p r
  | .finish => do
      draw p.finish.1
      return p.finish.2

/-- A line **from its first call to its end**: when it is dropped, it is finished. -/
def live (p : Progress) (calls : List Call) : Flow Unit := do
  let p ← calls.foldlM call p
  draw p.finish.1

/-- The result that a call counts. -/
def Call.result? : Call → Option TestResult
  | .record r => some r
  | .finish => none

/-- The results that some calls count, in order. -/
def recorded (calls : List Call) : List TestResult := calls.filterMap Call.result?

/-! ### Lines -/

/-- Counters in words. -/
def tally (completed total passed failed : Nat) : String :=
  "Completed " ++ Decimal.ofNat completed ++ "/" ++ Decimal.ofNat total ++
    " tests (passed: " ++ Decimal.ofNat passed ++ ", failed: " ++ Decimal.ofNat failed ++ ")"

/-- The counters of some results in words. -/
def tallyOf (total : Nat) (seen : List TestResult) : String :=
  tally seen.length total (seen.countP (·.outcome.isPass)) (seen.countP (!·.outcome.isPass))

/-- The line that is drawn again with every result. -/
def redraw (total : Nat) (seen : List TestResult) : String := "\r" ++ tallyOf total seen

/-- The line that stays. -/
def completion (total : Nat) (seen : List TestResult) : String :=
  "\r✓ " ++ tallyOf total seen ++ "\n"

/-- The lines that are drawn when results are counted one by one, after some that were counted
before. -/
def redraws (total : Nat) (seen : List TestResult) : List TestResult → List String
  | [] => []
  | r :: rs => redraw total (seen ++ [r]) :: redraws total (seen ++ [r]) rs

/-- The line that stays, if there is anything to count. -/
def lastLine (total : Nat) (seen : List TestResult) : List String :=
  if total = 0 then [] else [completion total seen]

/-- The results that are counted until the line is finished for the first time, or dropped. -/
def early (calls : List Call) : List TestResult := recorded (calls.takeWhile (· ≠ .finish))

/-- The results that are counted when the line has been finished. -/
def late (calls : List Call) : List TestResult := recorded (calls.dropWhile (· ≠ .finish))

/-- The **lines that are drawn during some calls** and at the end of them. -/
def lines (total : Nat) (calls : List Call) : List String :=
  redraws total [] (early calls) ++ lastLine total (early calls) ++
    redraws total (early calls) (late calls)

theorem redraws_concat (total : Nat) (seen rs : List TestResult) (r : TestResult) :
    redraws total seen (rs ++ [r]) =
      redraws total seen rs ++ [redraw total (seen ++ rs ++ [r])] := by
  induction rs generalizing seen with
  | nil => simp [redraws]
  | cons r' rs ih => simp [redraws, ih]

theorem length_redraws (total : Nat) (seen rs : List TestResult) :
    (redraws total seen rs).length = rs.length := by
  induction rs generalizing seen with
  | nil => rfl
  | cons r rs ih => simp [redraws, ih]

theorem exists_redraw_of_mem {total : Nat} {seen rs : List TestResult} {line : String}
    (h : line ∈ redraws total seen rs) : ∃ seen', line = redraw total seen' := by
  induction rs generalizing seen with
  | nil => simp [redraws] at h
  | cons r rs ih =>
      rcases List.mem_cons.1 h with rfl | h
      · exact ⟨_, rfl⟩
      · exact ih h

theorem recorded_append (calls calls' : List Call) :
    recorded (calls ++ calls') = recorded calls ++ recorded calls' := List.filterMap_append

theorem early_append_late (calls : List Call) : early calls ++ late calls = recorded calls := by
  rw [early, late, ← recorded_append, List.takeWhile_append_dropWhile]

/-! ### A line that has counted -/

/-- A line that **has counted some results**. -/
def counting (enabled : Bool) (total : Nat) (finished : Bool) (seen : List TestResult) :
    Progress where
  enabled
  total
  passed := seen.countP (·.outcome.isPass)
  failed := seen.countP (!·.outcome.isPass)
  finished

variable {enabled finished : Bool} {total : Nat} {seen : List TestResult}

theorem count_counting (r : TestResult) :
    (counting enabled total finished seen).count r =
      counting enabled total finished (seen ++ [r]) := by
  cases h : r.outcome.isPass <;> simp [count, counting, h]

theorem completed_counting : (counting enabled total finished seen).completed = seen.length := by
  have h := List.length_eq_countP_add_countP (fun r : TestResult => r.outcome.isPass) (l := seen)
  simpa [completed, counting] using h.symm

theorem counters_eq_tally (p : Progress) :
    p.counters = tally p.completed p.total p.passed p.failed := rfl

theorem counters_counting :
    (counting enabled total finished seen).counters = tallyOf total seen := by
  rw [counters_eq_tally, completed_counting]
  rfl

theorem redraw_ne_empty (total : Nat) (seen : List TestResult) : redraw total seen ≠ "" := by
  simp [redraw]

theorem completion_ne_empty (total : Nat) (seen : List TestResult) :
    completion total seen ≠ "" := by
  simp [completion]

/-- **Counting a result** draws the line again, with the counters after it. -/
theorem run_record (r : TestResult) (s : Scene) :
    (call (counting enabled total finished seen) (.record r)).run s =
      (counting enabled total finished (seen ++ [r]),
        s.draws (if enabled then [redraw total (seen ++ [r])] else [])) := by
  have hrun : (call (counting enabled total finished seen) (.record r)).run s =
      ((counting enabled total finished seen).count r,
        ((draw ((counting enabled total finished seen).record r).1).run s).2) := rfl
  rw [hrun, record, count_counting, counters_counting]
  cases enabled with
  | false => simp [counting, run_draw_empty]
  | true => exact congrArg (Prod.mk _ ·.2) (run_draw (redraw_ne_empty total (seen ++ [r])) s)

theorem finish_counting :
    (counting enabled total finished seen).finish =
      (if enabled && !finished && total ≠ 0 then completion total seen else "",
        counting enabled total true seen) := by
  rw [finish, counters_counting]
  cases finished with
  | false => cases enabled <;> rfl
  | true => cases enabled <;> rfl

/-- What is drawn when a line is finished. -/
theorem run_draw_finish (s : Scene) :
    (draw (counting enabled total finished seen).finish.1).run s =
      ((), s.draws (if enabled && !finished then lastLine total seen else [])) := by
  rw [finish_counting, lastLine]
  by_cases hdraws : (enabled && !finished) = true
  · by_cases htotal : total = 0
    · simp [hdraws, htotal, run_draw_empty]
    · simp [hdraws, htotal, run_draw (completion_ne_empty total seen)]
  · simp [hdraws, run_draw_empty]

/-- **Finishing a line** draws the line that stays, unless that was done before. -/
theorem run_finish (s : Scene) :
    (call (counting enabled total finished seen) .finish).run s =
      (counting enabled total true seen,
        s.draws (if enabled && !finished then lastLine total seen else [])) := by
  have hrun : (call (counting enabled total finished seen) .finish).run s =
      ((counting enabled total finished seen).finish.2,
        ((draw (counting enabled total finished seen).finish.1).run s).2) := rfl
  rw [hrun, run_draw_finish, finish_counting]

/-! ### All calls -/

theorem run_calls_cons (p : Progress) (c : Call) (calls : List Call) (s : Scene) :
    ((c :: calls).foldlM call p).run s =
      (calls.foldlM call ((call p c).run s).1).run ((call p c).run s).2 := by
  rw [List.foldlM_cons, run_bind]

theorem run_calls_append (p : Progress) (calls calls' : List Call) (s : Scene) :
    ((calls ++ calls').foldlM call p).run s =
      (calls'.foldlM call ((calls.foldlM call p).run s).1).run ((calls.foldlM call p).run s).2 := by
  rw [List.foldlM_append, run_bind]

/-- **As long as no call finishes the line for the first time**, every result is drawn and nothing
else. -/
theorem run_calls_of_settled {calls : List Call} (h : finished = true ∨ .finish ∉ calls)
    (s : Scene) :
    (calls.foldlM call (counting enabled total finished seen)).run s =
      (counting enabled total finished (seen ++ recorded calls),
        s.draws (if enabled then redraws total seen (recorded calls) else [])) := by
  induction calls generalizing seen s with
  | nil =>
      have hnil : recorded [] = [] := rfl
      rw [hnil, List.append_nil]
      cases enabled <;> simp [redraws] <;> rfl
  | cons c calls ih =>
      have hrest : finished = true ∨ .finish ∉ calls :=
        h.imp_right fun hmem hlater => hmem (List.mem_cons_of_mem c hlater)
      rw [run_calls_cons]
      cases c with
      | record r =>
          have hcons : recorded (.record r :: calls) = r :: recorded calls := rfl
          rw [run_record, ih hrest, Scene.draws_draws, hcons, List.append_assoc]
          cases enabled <;> rfl
      | finish =>
          -- the line has been finished before, so that nothing is drawn now
          have hfinished : finished = true :=
            h.resolve_right fun hmem => hmem List.mem_cons_self
          have hcons : recorded (.finish :: calls) = recorded calls := rfl
          subst hfinished
          rw [run_finish, ih hrest, hcons]
          simp

theorem forall_ne_finish {calls : List Call} (h : .finish ∉ calls) :
    ∀ c ∈ calls, decide (c ≠ .finish) = true := by
  intro c hc
  refine decide_eq_true ?_
  rintro rfl
  exact h hc

/-- What some calls draw if none of them finishes the line. -/
theorem lines_of_not_mem {calls : List Call} (h : .finish ∉ calls) (total : Nat) :
    lines total calls = redraws total [] (recorded calls) ++ lastLine total (recorded calls) := by
  have hall := forall_ne_finish h
  have hearly : early calls = recorded calls := by
    rw [early, List.takeWhile_eq_self_iff.2 hall]
  have hlate : late calls = [] := by
    rw [late, List.dropWhile_eq_nil_iff.2 hall]
    rfl
  rw [lines, hearly, hlate, redraws, List.append_nil]

/-- What some calls draw around the first that finishes the line. -/
theorem lines_append_finish {pre : List Call} (h : .finish ∉ pre) (post : List Call)
    (total : Nat) :
    lines total (pre ++ .finish :: post) =
      redraws total [] (recorded pre) ++ lastLine total (recorded pre) ++
        redraws total (recorded pre) (recorded post) := by
  have hall := forall_ne_finish h
  have hearly : early (pre ++ .finish :: post) = recorded pre := by
    rw [early, List.takeWhile_append_of_pos hall, List.takeWhile_cons_of_neg (by simp),
      List.append_nil]
  have hlate : late (pre ++ .finish :: post) = recorded post := by
    rw [late, List.dropWhile_append_of_pos hall, List.dropWhile_cons_of_neg (by simp)]
    rfl
  rw [lines, hearly, hlate]

/-- The lines that are drawn **during some calls**, before the line is dropped. -/
def linesSoFar (total : Nat) (calls : List Call) : List String :=
  if .finish ∈ calls then lines total calls else redraws total [] (recorded calls)

/-- **What some calls come to**: they count what they record, and the line that stays is drawn with
the first that finishes it. -/
theorem run_calls (calls : List Call) (s : Scene) :
    (calls.foldlM call (counting enabled total false [])).run s =
      (counting enabled total (.finish ∈ calls) (recorded calls),
        s.draws (if enabled then linesSoFar total calls else [])) := by
  rw [linesSoFar]
  by_cases hmem : .finish ∈ calls
  · obtain ⟨pre, post, rfl, hpre⟩ := List.eq_append_cons_of_mem hmem
    have hrecorded : recorded (pre ++ .finish :: post) = recorded pre ++ recorded post :=
      recorded_append ..
    rw [run_calls_append, run_calls_cons, run_calls_of_settled (Or.inr hpre), run_finish,
      run_calls_of_settled (Or.inl rfl), if_pos hmem, lines_append_finish hpre, decide_eq_true hmem,
      hrecorded]
    cases enabled <;> simp [Scene.draws_draws]
  · rw [run_calls_of_settled (Or.inr hmem), if_neg hmem, decide_eq_false hmem]
    rfl

/-- **All that is drawn from the first call to the end.** -/
theorem run_live (calls : List Call) (s : Scene) :
    (live (counting enabled total false []) calls).run s =
      ((), s.draws (if enabled then lines total calls else [])) := by
  rw [live, run_bind, run_calls, run_draw_finish, linesSoFar]
  by_cases hmem : .finish ∈ calls
  · -- nothing is left to be drawn when the line is dropped
    simp [hmem]
  · rw [lines_of_not_mem hmem]
    cases enabled <;> simp [hmem, Scene.draws_draws]

/-! ### Telling the lines apart -/

/-- The line stays where it is: what is shown next stands below it. -/
def stays (line : String) : Bool := Text.endsWith line "\n"

theorem stays_completion (total : Nat) (seen : List TestResult) :
    stays (completion total seen) = true := by
  rw [stays, Text.endsWith_iff, completion, String.toList_append]
  exact List.suffix_append ..

theorem exists_tally_eq_append (completed total passed failed : Nat) :
    ∃ front, tally completed total passed failed = front ++ ")" := ⟨_, rfl⟩

theorem not_stays_redraw (total : Nat) (seen : List TestResult) :
    stays (redraw total seen) = false := by
  have hlast : (redraw total seen).toList.getLast? = some ')' := by
    obtain ⟨front, hfront⟩ := exists_tally_eq_append seen.length total
      (seen.countP (·.outcome.isPass)) (seen.countP (!·.outcome.isPass))
    rw [redraw, tallyOf, hfront, ← String.append_assoc, String.toList_append]
    exact List.getLast?_concat ..
  rw [stays, ← Bool.not_eq_true, Text.endsWith_iff]
  rintro ⟨front, hfront⟩
  rw [← hfront] at hlast
  simp at hlast

theorem not_stays_of_mem_redraws {total : Nat} {seen rs : List TestResult} {line : String}
    (h : line ∈ redraws total seen rs) : stays line = false := by
  obtain ⟨seen', rfl⟩ := exists_redraw_of_mem h
  exact not_stays_redraw total seen'

/-- **One line stays**, if there is anything to count. -/
theorem countP_stays_lines (total : Nat) (calls : List Call) :
    (lines total calls).countP stays = if total = 0 then 0 else 1 := by
  have hnone : ∀ seen rs, (redraws total seen rs).countP stays = 0 := by
    intro seen rs
    rw [List.countP_eq_zero]
    intro line hline
    simp [not_stays_of_mem_redraws hline]
  rw [lines, List.countP_append, List.countP_append, hnone, hnone, lastLine]
  split <;> simp [stays_completion]

/-- **Every result is drawn once.** -/
theorem countP_not_stays_lines (total : Nat) (calls : List Call) :
    (lines total calls).countP (!stays ·) = (recorded calls).length := by
  have hall : ∀ seen rs, (redraws total seen rs).countP (!stays ·) = rs.length := by
    intro seen rs
    rw [← length_redraws total seen rs, List.countP_eq_length]
    intro line hline
    simp [not_stays_of_mem_redraws hline]
  have hlast : ∀ seen, (lastLine total seen).countP (!stays ·) = 0 := by
    intro seen
    rw [lastLine]
    split <;> simp [stays_completion]
  rw [lines, List.countP_append, List.countP_append, hall, hall, hlast, Nat.add_zero,
    ← List.length_append, early_append_late]

end Progress

/-! ### Actions that leave the line alone -/

/-- An action that **does not draw the line**. -/
structure LeavesLine (x : Flow α) : Prop where
  drawn : ∀ s, (x.run s).2.drawn = s.drawn

theorem composes_leavesLine : Composes (@LeavesLine) where
  pure _ := ⟨fun _ => rfl⟩
  bind hx hf := ⟨fun s => by rw [run_bind, (hf _).drawn, hx.drawn]⟩

theorem leavesLine_emit {e : Event} (h : e.drawn? = none) : LeavesLine (emit e) := by
  constructor
  intro s
  have hadd : ((emit e).run s).2.drawn = s.drawn ++ e.drawn?.toList := s.drawn_add e
  rw [hadd, h]
  exact List.append_nil _

theorem leavesLine_note (level : Level) (origin text : String) :
    LeavesLine (note level origin text) := leavesLine_emit rfl

theorem filterMap_drawn_echoEvents (l : Lifeline) (limit : Option Span) :
    (echoEvents l limit).filterMap Event.drawn? = [] := by
  rw [List.filterMap_eq_nil_iff]
  intro e he
  obtain ⟨bytes, -, rfl⟩ := List.mem_map.1 he
  rfl

theorem filterMap_drawn_killEvents (l : Lifeline) (limit : Option Span) :
    (killEvents l limit).filterMap Event.drawn? = [] := by
  rw [killEvents]
  cases l.killedAt limit <;> rfl

theorem Scene.drawn_attempt (s : Scene) (command : Command) :
    (s.attempt command).drawn = s.drawn := by
  rw [attempt, drawn_add, drawn_add]
  simp [Event.drawn?]

/-- No program draws the line, whatever is shown of it. -/
theorem leavesLine_execute (m : Machine) (command : Command) (options : ExecOptions) :
    LeavesLine (execute m command options) := by
  constructor
  intro s
  rw [run_execute]
  cases m.launch s.disk command with
  | error fault =>
      change ((s.attempt command).add (.refused command fault)).drawn = s.drawn
      rw [Scene.drawn_add, s.drawn_attempt]
      exact List.append_nil _
  | ok l =>
      have hecho : (if options.echo then echoEvents l options.timeout else []).filterMap
          Event.drawn? = [] := by
        cases options.echo with
        | false => rfl
        | true => exact filterMap_drawn_echoEvents l options.timeout
      have hadded : ((s.attempt command).afterRun command options l).drawn =
          (s.attempt command).drawn := by
        rw [Scene.drawn, Scene.afterRun]
        simp only [List.filterMap_append, hecho, filterMap_drawn_killEvents]
        simp [Event.drawn?, Scene.drawn]
      exact hadded.trans (s.drawn_attempt command)

/-! ### Tests at work -/

namespace Batch

open Progress

variable {b : Batch Progress} {enabled : Bool} {total : Nat} {before : List String}

/-- The **invariant of a line while tests are at work**: it has counted the results that are known,
and was drawn once for each. -/
structure Counted (enabled : Bool) (total : Nat) (before : List String)
    (s : (Pool × Progress × List TestResult) × Scene) : Prop where
  line : s.1.2.1 = counting enabled total false s.1.2.2
  drawn : s.2.drawn = before ++ if enabled then redraws total [] s.1.2.2 else []

/-- A result that becomes known is counted. -/
theorem counted_observe (hb : b.observe = countResult) {pool pool' : Pool} {p : Progress}
    {calls : List TestResult} {s : Scene} (r : TestResult)
    (h : Counted enabled total before ((pool, p, calls), s)) :
    Counted enabled total before
      ((pool', ((b.recording.observe (p, calls) r).run s).1),
        ((b.recording.observe (p, calls) r).run s).2) := by
  have hrun : (b.recording.observe (p, calls) r).run s =
      ((((call p (.record r)).run s).1, calls ++ [r]), ((call p (.record r)).run s).2) := by
    change _ = ((((countResult p r).run s).1, calls ++ [r]), ((countResult p r).run s).2)
    rw [← hb]
    rfl
  obtain ⟨rfl, hdrawn⟩ : p = counting enabled total false calls ∧ _ := ⟨h.line, h.drawn⟩
  rw [hrun, run_record]
  refine ⟨rfl, ?_⟩
  change (s.draws _).drawn = _
  rw [Scene.drawn_draws, hdrawn, redraws_concat]
  cases enabled <;> simp

/-- **The invariant is kept by every turn.** -/
theorem counted_turn (hb : b.observe = countResult)
    {s : (Pool × Progress × List TestResult) × Scene} (h : Counted enabled total before s)
    (t : Turn) :
    Counted enabled total before
      ((Pool.turn b.tests b.runOne b.recording.observe s.1 t).run s.2) := by
  obtain ⟨⟨pool, p, calls⟩, scene⟩ := s
  cases t with
  | interrupt => exact ⟨h.line, h.drawn⟩
  | start i =>
      rw [Pool.turn]
      cases b.tests[i]? with
      | none => exact h
      | some test =>
          cases hp : pool.interrupted with
          | true =>
              simp only [hp]
              exact ⟨h.line, h.drawn⟩
          | false =>
              -- running a test does not draw the line
              have hrun : LeavesLine (b.runOne test) :=
                composes_leavesLine.runTest leavesLine_note (fun _ => leavesLine_execute ..) test
              simp only [hp]
              exact ⟨h.line, (hrun.drawn scene).trans h.drawn⟩
  | deliver i =>
      rw [Pool.turn]
      rcases Pool.take i pool.mail with _ | ⟨_ | r, mail⟩
      · exact h
      · exact ⟨h.line, h.drawn⟩
      · exact counted_observe hb r h

/-- The invariant holds after every beginning of the turns. -/
theorem counted_after (hb : b.observe = countResult)
    (hseen : b.seen = counting enabled total false []) (turns : List Turn) :
    Counted enabled total b.scene.drawn (b.recording.after turns) := by
  induction turns using List.reverseRecOn with
  | nil =>
      refine ⟨hseen, ?_⟩
      have hopening : b.recording.opening.drawn = b.scene.drawn ++ [] := b.scene.drawn_add _
      change b.recording.opening.drawn = _
      rw [hopening]
      cases enabled <;> rfl
  | append_singleton pre t ih =>
      rw [after_concat]
      exact counted_turn hb ih t

/-- **What a line comes to when all results are known.** -/
theorem counted_result (hc : b.Complete) (hb : b.observe = countResult)
    (hseen : b.seen = counting enabled total false []) :
    ∃ noted : List TestResult, noted.Perm b.result.1.1.results ∧
      b.result.1.2 = counting enabled total false noted ∧
      b.result.2.drawn = b.scene.drawn ++ if enabled then redraws total [] noted else [] := by
  refine ⟨_, calls_perm_results hc, ?_⟩
  have hrecording := result_recording hc
  by_cases hnil : b.tests = []
  · -- without tests nothing becomes known
    have hnone : (Turn.deliveries b.turns).filterMap b.message = [] := by
      have hperm := calls_perm_results hc
      rw [result_of_nil hnil] at hperm
      exact hperm.eq_nil
    rw [hnone, result_of_nil hnil]
    refine ⟨hseen, ?_⟩
    cases enabled <;> simp [redraws]
  · have hne : b.recording.tests ≠ [] := hnil
    rw [result_of_ne_nil hne] at hrecording
    have hcounted := counted_after hb hseen b.recording.turns
    have hline : (b.recording.after b.recording.turns).1.2 =
        (b.result.1.2, (Turn.deliveries b.turns).filterMap b.message) :=
      congrArg (·.1.2) hrecording
    have hscene : (b.recording.after b.recording.turns).2 = b.result.2 :=
      congrArg Prod.snd hrecording
    have hcount := hcounted.line
    have hdrawn := hcounted.drawn
    rw [hline] at hcount hdrawn
    rw [hscene] at hdrawn
    exact ⟨hcount, hdrawn⟩

end Batch

/-! ### Sessions -/

namespace Session

open Progress

variable {S : Session} {tests : List Path}

/-- Nothing is drawn before the tests are run. -/
theorem drawn_smoke (S : Session) (tests : List Path) :
    (S.smoke tests).2.drawn = S.scene.drawn := by
  have hstatus : ∀ text, LeavesLine (emit (.status text)) := fun _ => leavesLine_emit rfl
  have hannounced : (S.announced tests).drawn = S.scene.drawn := by
    rw [announced, (composes_leavesLine.announce leavesLine_note hstatus tests).drawn,
      Scene.afterResolving, Scene.drawn_add]
    exact List.append_nil _
  have hgate : (S.gate tests).2.drawn = S.scene.drawn := by
    have hpass : LeavesLine (passBuildGate S.machine S.config S.request).run :=
      composes_leavesLine.passBuildGate leavesLine_note hstatus fun _ => leavesLine_execute ..
    rw [gate, hpass.drawn, hannounced]
  have hsmoke : LeavesLine (runSmoke S.machine S.config S.request) :=
    composes_leavesLine.runSmoke leavesLine_note hstatus fun _ => leavesLine_execute ..
  rw [smoke, hsmoke.drawn, hgate]

/-- The calls of a session: each result is counted when it becomes known, and at the end the line is
finished. -/
def lineCalls (noted : List TestResult) : List Call := noted.map .record ++ [.finish]

theorem lines_lineCalls (total : Nat) (noted : List TestResult) :
    lines total (lineCalls noted) = redraws total [] noted ++ lastLine total noted := by
  have hmem : .finish ∉ noted.map Call.record := by simp
  have hrecorded : recorded (noted.map Call.record) = noted := by
    simp [recorded, List.filterMap_map, Function.comp_def, Call.result?]
  rw [lineCalls, lines_append_finish hmem, hrecorded]
  exact List.append_nil _

/-- **What a session draws.** -/
theorem drawn_closing (hm : S.machine.RunsEach) (tests : List Path) :
    ∃ noted : List TestResult, noted.Perm (S.report tests).results.results ∧
      (S.closing tests).drawn = S.scene.drawn ++
        if S.request.showProgress then lines tests.length (lineCalls noted) else [] := by
  have hseen : (S.batch tests).seen =
      counting S.request.showProgress tests.length false [] := rfl
  obtain ⟨noted, hperm, hline, hdrawn⟩ := Batch.counted_result (complete_batch hm tests) rfl hseen
  refine ⟨noted, hperm.trans (results_report_perm S tests).symm, ?_⟩
  have hscene : (S.batch tests).scene.drawn = S.scene.drawn := S.drawn_smoke tests
  rw [closing, hline, run_draw_finish, Scene.drawn_draws, hdrawn, hscene, lines_lineCalls]
  cases S.request.showProgress <;> simp

/-- The line that stays shows the counters of the report. -/
theorem completion_of_perm {report : Report} {total : Nat} {noted : List TestResult}
    (haccounts : report.Accounts total) (hperm : noted.Perm report.results.results) :
    completion total noted =
      "\r✓ " ++ tally report.summary.dispatched total report.summary.passed report.summary.failed ++
        "\n" := by
  have hcompleted : noted.length = report.summary.dispatched :=
    hperm.length_eq.trans haccounts.dispatched.symm
  have hpassed : noted.countP (·.outcome.isPass) = report.summary.passed :=
    (hperm.countP_eq _).trans haccounts.passed.symm
  have hfailed : noted.countP (!·.outcome.isPass) = report.summary.failed := by
    rw [haccounts.failed, hperm.countP_eq, List.countP_eq_length_filter]
    rfl
  rw [completion, tallyOf, hcompleted, hpassed, hfailed]

/-- **The counters of a progress line, and what it draws.**  Whatever is done with a line, it has
counted the results that were recorded.  A line that is switched off draws nothing.  One that is
switched on is drawn again with every result; and one more line is drawn that stays, if there is
anything to count: when the line is finished for the first time, or else when it is dropped, with
the counters of that moment.

In a session that succeeds, the line is drawn for every result of the report, and the line that
stays shows the counters of the report and the number of the tests. -/
theorem progress_line_counts (enabled : Bool) (total : Nat) (calls : List Call) (s : Scene) :
    (∃ p : Progress,
      (calls.foldlM call { enabled, total }).run s =
        (p, s.draws (if enabled then linesSoFar total calls else [])) ∧
      p.completed = (recorded calls).length ∧
      p.passed = (recorded calls).countP (·.outcome.isPass) ∧
      p.failed = (recorded calls).countP (!·.outcome.isPass)) ∧
    (live { enabled, total } calls).run s =
      ((), s.draws (if enabled then lines total calls else [])) ∧
    (lines total calls).countP stays = (if total = 0 then 0 else 1) ∧
    (lines total calls).countP (!stays ·) = (recorded calls).length ∧
    ∀ S : Session, S.machine.RunsEach → ∀ report s', S.result = (.ok report, s') →
      ∃ tests noted, S.tests? = .ok tests ∧ countLine tests ∈ s'.trace ∧
        noted.Perm report.results.results ∧
        s'.drawn = S.scene.drawn ++
          (if S.request.showProgress then lines tests.length (lineCalls noted) else []) ∧
        (S.request.showProgress = true → tests ≠ [] →
          s'.drawn = S.scene.drawn ++ redraws tests.length [] noted ++
            ["\r✓ " ++ tally report.summary.dispatched tests.length report.summary.passed
              report.summary.failed ++ "\n"]) := by
  refine ⟨⟨_, run_calls calls s, completed_counting, rfl, rfl⟩, run_live calls s,
    countP_stays_lines total calls, countP_not_stays_lines total calls, ?_⟩
  intro S hm report s' h
  obtain ⟨tests, htests, -, rfl, rfl⟩ := S.result_eq_ok_iff.1 h
  obtain ⟨noted, hperm, hdrawn⟩ := drawn_closing hm tests
  obtain ⟨rest, hrest⟩ := trace_closing S tests
  refine ⟨tests, noted, htests, by rw [hrest]; simp, hperm, hdrawn, ?_⟩
  intro hshown hne
  have hcount : tests.length ≠ 0 := fun hzero => hne (List.length_eq_zero_iff.1 hzero)
  rw [hdrawn, hshown, if_pos rfl, lines_lineCalls, lastLine, if_neg hcount,
    completion_of_perm (accounts_report hm tests) hperm, List.append_assoc]

/-- The line in a run of two tests, the first of which becomes known last. -/
example : ({ twoTests with request := { showProgress := true } } : Session).result.2.progressText =
    "\rCompleted 1/2 tests (passed: 1, failed: 0)" ++
      "\rCompleted 2/2 tests (passed: 1, failed: 1)" ++
      "\r✓ Completed 2/2 tests (passed: 1, failed: 1)\n" := by decide +kernel

/-- Two tests whose progress is shown. -/
def watched : Session := { twoTests with request := { showProgress := true } }

/-- The line that stays tells of both tests, one of which passed. -/
theorem drawn_of_watched : watched.machine.RunsEach ∧
    ∃ report s', watched.result = (.ok report, s') ∧ report.results.size = 2 ∧
      ∃ redrawn, redrawn.length = 2 ∧
        s'.drawn = redrawn ++ ["\r✓ Completed 2/2 tests (passed: 1, failed: 1)\n"] := by
  have htests : watched.tests? = .ok [⟨"/t/a"⟩, ⟨"/t/b"⟩] := by decide +kernel
  have h := watched.result_eq_ok_iff.2 ⟨_, htests, rfl, rfl, rfl⟩
  obtain ⟨-, -, -, -, hsession⟩ := progress_line_counts true 2 [] watched.scene
  obtain ⟨tests, noted, htests', -, hperm, -, hdrawn⟩ := hsession watched runsEach_hasty _ _ h
  obtain rfl : tests = [⟨"/t/a"⟩, ⟨"/t/b"⟩] := Except.ok.inj (htests'.symm.trans htests)
  have haccounts := accounts_report (S := watched) runsEach_hasty [⟨"/t/a"⟩, ⟨"/t/b"⟩]
  have hresults := results_report_perm watched [⟨"/t/a"⟩, ⟨"/t/b"⟩]
  have hsize : (watched.report [⟨"/t/a"⟩, ⟨"/t/b"⟩]).results.size = 2 :=
    hresults.length_eq.trans (by decide +kernel)
  have hpassed : (watched.report [⟨"/t/a"⟩, ⟨"/t/b"⟩]).summary.passed = 1 :=
    (hresults.countP_eq _).trans (by decide +kernel)
  have hdispatched := haccounts.dispatched.trans hsize
  have hfailed : (watched.report [⟨"/t/a"⟩, ⟨"/t/b"⟩]).summary.failed = 1 := by
    have hsum := haccounts.passed_add_failed
    omega
  have htext : "\r✓ " ++ tally 2 2 1 1 ++ "\n" =
      "\r✓ Completed 2/2 tests (passed: 1, failed: 1)\n" := by decide +kernel
  have hlast := hdrawn rfl (List.cons_ne_nil _ _)
  rw [hpassed, hdispatched, hfailed] at hlast
  change _ = redraws 2 [] noted ++ ["\r✓ " ++ tally 2 2 1 1 ++ "\n"] at hlast
  rw [htext] at hlast
  have hredrawn : (redraws 2 [] noted).length = 2 :=
    (length_redraws 2 [] noted).trans (hperm.length_eq.trans hsize)
  exact ⟨runsEach_hasty, _, _, h, hsize, redraws 2 [] noted, hredrawn, hlast⟩

end Session

end Testbench
