/-
**Interrupts.**

A run can be interrupted at any moment, and an interrupt is never taken back.  Tests that are taken
up later are skipped, and the outcome of the run is marked, so that nobody takes it for a whole one.
The mark is set whenever the interrupt comes: before the run has begun, between any two turns, or
when all tests are at work and none is left to be skipped.

A run without tests never gets to this point.  It hands back an outcome that is not marked, also if
the run was interrupted before, where the way that all other runs take would mark it.

Main results:

* `Testbench.Pool.interrupted_turn`, `Testbench.Batch.interrupted_after` — **an interrupt stays**:
  what one turn does with it, and what all of them do;
* `Testbench.Batch.after_of_nil` — the way of all other runs, taken without tests;
* `Testbench.Batch.result_eq_outcome_iff` — when the shortcut agrees with that way;
* `Testbench.Session.interrupts_are_marked` — **a run that has tests is marked if and only if it is
  interrupted**.
-/

import Testbench.Proofs.Accounting

set_option relaxedAutoImplicit false
set_option autoImplicit false

namespace Testbench

variable {α : Type}

/-! ### An interrupt stays -/

theorem Turn.contains_interrupt_concat (pre : List Turn) (t : Turn) :
    (pre ++ [t]).contains .interrupt = (pre.contains .interrupt || t = .interrupt) := by
  simp [List.contains_eq_mem, eq_comm]

/-- Only an interrupt interrupts, and nothing takes it back. -/
theorem Pool.interrupted_turn (tests : List Path) (run : Path → Flow TestResult)
    (observe : α → TestResult → Flow α) (p : Pool × α) (t : Turn) (s : Scene) :
    ((Pool.turn tests run observe p t).run s).1.1.interrupted =
      (p.1.interrupted || t = .interrupt) := by
  cases t with
  | interrupt => exact (Bool.or_true _).symm
  | start i =>
      refine Eq.trans ?_ (Bool.or_false _).symm
      rw [Pool.turn]
      cases tests[i]? with
      | none => rfl
      | some test => cases hp : p.1.interrupted <;> simp only [hp] <;> rfl
  | deliver i =>
      refine Eq.trans ?_ (Bool.or_false _).symm
      rw [Pool.turn]
      cases Pool.take i p.1.mail with
      | none => rfl
      | some found =>
          obtain ⟨message, mail⟩ := found
          cases message <;> rfl

/-- Without tests a turn does nothing else. -/
theorem Pool.turn_of_nil (run : Path → Flow TestResult) (observe : α → TestResult → Flow α)
    (interrupted : Bool) (a : α) (t : Turn) (s : Scene) :
    (Pool.turn [] run observe (Pool.ofCount interrupted 0, a) t).run s =
      ((Pool.ofCount (interrupted || t = .interrupt) 0, a), s) := by
  cases t with
  | interrupt => rw [decide_eq_true rfl, Bool.or_true]; rfl
  | start i => exact congrArg (fun flag => ((Pool.ofCount flag 0, a), s)) (Bool.or_false _).symm
  | deliver i => exact congrArg (fun flag => ((Pool.ofCount flag 0, a), s)) (Bool.or_false _).symm

namespace Batch

variable {b : Batch α}

/-- **An interrupt stays**: after some turns the run is interrupted if it was before, or if one of
the turns is an interrupt. -/
theorem interrupted_after (b : Batch α) (turns : List Turn) :
    (b.after turns).1.1.interrupted = (b.options.interrupted || turns.contains .interrupt) := by
  induction turns using List.reverseRecOn with
  | nil => exact (Bool.or_false _).symm
  | append_singleton pre t ih =>
      rw [after_concat, Pool.interrupted_turn, ih, Turn.contains_interrupt_concat, Bool.or_assoc]

theorem uninterrupted_iff (b : Batch α) :
    b.Uninterrupted ↔ (b.options.interrupted || b.turns.contains .interrupt) = false := by
  rw [Uninterrupted, Bool.or_eq_false_iff, List.contains_eq_mem, decide_eq_false_iff_not]

/-! ### Runs without tests -/

/-- The way of all other runs, taken without tests: nothing happens on it, but an interrupt is
seen. -/
theorem after_of_nil (h : b.tests = []) (turns : List Turn) :
    b.after turns =
      ((Pool.ofCount (b.options.interrupted || turns.contains .interrupt) 0, b.seen),
        b.opening) := by
  induction turns using List.reverseRecOn with
  | nil => rw [after, h, List.contains_nil, Bool.or_false]; rfl
  | append_singleton pre t ih =>
      rw [after_concat, ih, h, Pool.turn_of_nil, Turn.contains_interrupt_concat, Bool.or_assoc]

/-- **The shortcut agrees with the way of all other runs** exactly if the run is not interrupted. -/
theorem result_eq_outcome_iff (h : b.tests = []) :
    b.result.1.1 = (b.after b.turns).1.1.outcome ↔ b.Uninterrupted := by
  rw [result_of_nil h, after_of_nil h, uninterrupted_iff]
  generalize (b.options.interrupted || b.turns.contains .interrupt) = interrupted
  cases interrupted <;> simp [Pool.outcome, Pool.ofCount]

/-- A batch is marked if it has tests and is interrupted. -/
theorem interrupted_result_iff (b : Batch α) :
    b.result.1.1.interrupted = true ↔ b.tests ≠ [] ∧ ¬b.Uninterrupted := by
  by_cases h : b.tests = []
  · rw [result_of_nil h]
    simp [h]
  · rw [result_of_ne_nil h, uninterrupted_iff, Bool.not_eq_false]
    change (b.after b.turns).1.1.interrupted = true ↔ _
    rw [interrupted_after]
    exact ⟨fun hflag => ⟨h, hflag⟩, And.right⟩

end Batch

/-! ### Sessions -/

theorem summaryOf_interrupted (outcome : RunOutcome) (duration : Span) :
    ((summaryOf outcome duration).interrupted = some true ↔ outcome.interrupted = true) ∧
      ((summaryOf outcome duration).interrupted = none ↔ outcome.interrupted = false) := by
  rw [summaryOf]
  cases outcome.interrupted <;> simp

namespace Session

/-- **A run that has tests is marked if and only if it is interrupted**, at whatever moment that is:
before its tests begin, or in any of their turns.  The mark is in the outcome of every batch, and in
the summary of the report of every session, which has none at all otherwise.  A run without tests is
never marked, so that it agrees with what the way of all other runs comes to only if it is not
interrupted. -/
theorem interrupts_are_marked {α : Type} (b : Batch α) (S : Session) :
    (b.result.1.1.interrupted = true ↔ b.tests ≠ [] ∧ ¬b.Uninterrupted) ∧
      (b.tests = [] → (b.result.1.1 = (b.after b.turns).1.1.outcome ↔ b.Uninterrupted)) ∧
      ∀ (report : Report) (s' : Scene), S.result = (.ok report, s') →
        ∃ tests, S.tests? = .ok tests ∧
          (report.summary.interrupted = some true ↔
            tests ≠ [] ∧ ¬(S.batch tests).Uninterrupted) ∧
          (report.summary.interrupted = none ↔ tests = [] ∨ (S.batch tests).Uninterrupted) := by
  refine ⟨b.interrupted_result_iff, Batch.result_eq_outcome_iff, ?_⟩
  intro report s' h
  obtain ⟨tests, htests, -, rfl, -⟩ := S.result_eq_ok_iff.1 h
  have hmarked := (S.batch tests).interrupted_result_iff
  obtain ⟨hsome, hnone⟩ := summaryOf_interrupted (S.batch tests).result.1.1
    ⟨(S.closing tests).elapsed.nanoseconds - S.scene.elapsed.nanoseconds⟩
  refine ⟨tests, htests, hsome.trans hmarked, hnone.trans ?_⟩
  rw [← Bool.not_eq_true, hmarked, not_and_or, not_not, not_not]
  rfl

/-- Two tests, interrupted before they begin. -/
def stoppedEarly : Session := { twoTests with request := { interrupted := true } }

/-- A batch that is interrupted while its tests are at work is marked, and so is the report on tests
that were all skipped. -/
theorem report_of_stoppedEarly : Batch.lateInterrupt.result.1.1.interrupted = true ∧
    ∃ report s', stoppedEarly.result = (.ok report, s') ∧
      report.summary.interrupted = some true := by
  have htests : stoppedEarly.tests? = .ok [⟨"/t/a"⟩, ⟨"/t/b"⟩] := by decide +kernel
  have h := stoppedEarly.result_eq_ok_iff.2 ⟨_, htests, rfl, rfl, rfl⟩
  obtain ⟨hbatch, -, hreport⟩ := interrupts_are_marked Batch.lateInterrupt stoppedEarly
  obtain ⟨tests, htests', hmarked, -⟩ := hreport _ _ h
  obtain rfl : tests = [⟨"/t/a"⟩, ⟨"/t/b"⟩] := Except.ok.inj (htests'.symm.trans htests)
  have hlate : ¬Batch.lateInterrupt.Uninterrupted := fun hu => hu.2 (by decide)
  exact ⟨hbatch.2 ⟨List.cons_ne_nil _ _, hlate⟩, _, _, h,
    hmarked.2 ⟨List.cons_ne_nil _ _, fun hu => Bool.noConfusion hu.1⟩⟩

/-- No tests, interrupted before they would begin. -/
def stoppedEmpty : Session :=
  { stoppedEarly with config := { twoTests.config with patterns := [] } }

/-- **A run without tests is not marked**: it is interrupted, and the way of all other runs would
mark it, but its report is that of a run that is not interrupted. -/
theorem unmarked_of_stoppedEmpty : stoppedEmpty.tests? = .ok [] ∧
    (stoppedEmpty.batch []).options.interrupted = true ∧
      ((stoppedEmpty.batch []).after (stoppedEmpty.batch []).turns).1.1.outcome.interrupted = true ∧
      (stoppedEmpty.batch []).result.1.1.interrupted = false ∧
      ∃ report s', stoppedEmpty.result = (.ok report, s') ∧ report.summary.interrupted = none := by
  have htests : stoppedEmpty.tests? = .ok [] := by decide +kernel
  have h := stoppedEmpty.result_eq_ok_iff.2 ⟨_, htests, rfl, rfl, rfl⟩
  exact ⟨htests, rfl, rfl, rfl, _, _, h, rfl⟩

end Session

end Testbench
