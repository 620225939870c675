/-
**What becomes of the tests of a batch.**

The tests of a batch are taken up and noted in an order that nothing fixes, and the run may be
interrupted at any moment.  Whatever happens, every test has exactly one fate: it is among the
results, at the place that its number gives it, or it is counted as not run.

Main results:

* `Testbench.runTest_test` — the result of a test is about that test;
* `Testbench.Batch.map_test_results` — the tests that have results;
* `Testbench.Batch.length_results_add_notRun` — no test is lost or counted twice;
* `Testbench.Batch.results_in_test_order` — **the results of a batch depend on what each test came
  to, and not on the order in which that became known**.
-/

import Mathlib.Data.List.Basic
import Testbench.Proofs.Turns

set_option relaxedAutoImplicit false
set_option autoImplicit false

namespace Testbench

theorem test_testResult (test : Path) (result : Except Fault Output) :
    (testResult test result).test = test := by
  cases result <;> rfl

/-- The result of a test is about that test. -/
theorem runTest_test (m : Machine) (simulator : Simulator) (options : ExecOptions) (test : Path)
    (s : Scene) : ((runTest m simulator options test).run s).1.test = test := test_testResult ..

namespace Batch

variable {α : Type}

/-! ### One test -/

theorem message_of_lt {b : Batch α} {i : Nat} (hi : i < b.tests.length) :
    b.message i =
      if b.clearAt i then some ((b.runOne b.tests[i]).run (b.sceneAt i)).1 else none := by
  rw [message, List.getElem?_eq_getElem hi]; rfl

theorem isNone_message {b : Batch α} {i : Nat} (hi : i < b.tests.length) :
    (b.message i).isNone = !b.clearAt i := by
  rw [message_of_lt hi]
  cases b.clearAt i <;> rfl

/-- A test that has a result is the one that was run. -/
theorem map_test_message (b : Batch α) (i : Nat) :
    (b.message i).map (·.test) = if b.clearAt i then b.tests[i]? else none := by
  rw [message]
  cases b.clearAt i with
  | false => rfl
  | true =>
      cases htest : b.tests[i]? with
      | none => simp
      | some test => exact congrArg some (runTest_test ..)

/-! ### All tests -/

variable {b : Batch α}

/-- The tests that have results are those that were taken up before an interrupt, in order. -/
theorem map_test_results (hc : b.Complete) :
    b.result.1.1.results.map (·.test) =
      ((List.range b.tests.length).filter b.clearAt).filterMap (b.tests[·]?) := by
  rw [results_eq hc, List.map_filterMap, List.filterMap_filter]
  exact List.filterMap_congr fun i _ => map_test_message b i

theorem filterMap_getElem?_range {β : Type} (l : List β) :
    (List.range l.length).filterMap (l[·]?) = l := by
  induction l using List.reverseRecOn with
  | nil => rfl
  | append_singleton l a ih =>
      have hsame : (List.range l.length).filterMap ((l ++ [a])[·]?) = l := by
        refine Eq.trans (List.filterMap_congr fun i hi => ?_) ih
        rw [List.getElem?_append_left (List.mem_range.1 hi)]
      rw [List.length_append, List.length_singleton, List.range_succ, List.filterMap_append, hsame]
      simp

/-- The tests that have results stand in the order of the tests. -/
theorem map_test_results_sublist (hc : b.Complete) :
    (b.result.1.1.results.map (·.test)).Sublist b.tests := by
  have h := List.Sublist.filterMap (b.tests[·]?)
    (List.filter_sublist (p := b.clearAt) (l := List.range b.tests.length))
  rwa [← map_test_results hc, filterMap_getElem?_range] at h

/-- No test is lost or counted twice. -/
theorem length_results_add_notRun (hc : b.Complete) :
    b.result.1.1.results.length + b.result.1.1.notRun = b.tests.length := by
  have hnone : ∀ i ∈ List.range b.tests.length,
      (decide ¬(b.message i).isSome = true) = true ↔ (b.message i).isNone = true := by simp
  have hsplit := List.length_eq_countP_add_countP (fun i => (b.message i).isSome)
    (l := List.range b.tests.length)
  rw [List.countP_congr hnone, List.length_range] at hsplit
  rw [results_eq hc, notRun_eq hc, List.length_filterMap_eq_countP]
  exact hsplit.symm

/-- A test is left out only after an interrupt. -/
theorem interrupted_of_notRun_pos (hc : b.Complete) (h : 0 < b.result.1.1.notRun) :
    b.result.1.1.interrupted = true := by
  rw [notRun_eq hc, List.countP_pos_iff] at h
  obtain ⟨i, hi, hnone⟩ := h
  have hlt := List.mem_range.1 hi
  have hne : b.tests ≠ [] := by
    intro hnil
    rw [hnil] at hlt
    exact Nat.not_lt_zero i hlt
  -- the test that was skipped has seen the interrupt when it was taken up
  rw [isNone_message hlt, clearAt, Bool.not_not, Bool.or_eq_true] at hnone
  rw [interrupted_eq hc hne, Bool.or_eq_true]
  refine hnone.imp_right fun hmem => ?_
  rw [List.contains_iff_mem] at hmem ⊢
  exact (List.takeWhile_sublist _).subset hmem

/-- Without an interrupt every test has a result. -/
theorem map_test_results_of_uninterrupted (hc : b.Complete) (hu : b.Uninterrupted) :
    b.result.1.1.results.map (·.test) = b.tests := by
  obtain ⟨hopen, hturns⟩ := hu
  have hclear : ∀ i, b.clearAt i = true := by
    intro i
    have hmem : Turn.interrupt ∉ Turn.before b.turns (.start i) :=
      fun h => hturns ((List.takeWhile_sublist _).subset h)
    simp [clearAt, hopen, hmem]
  rw [map_test_results hc, List.filter_eq_self.2 fun i _ => hclear i, filterMap_getElem?_range]

/-- What the observer is shown are the results, in some order. -/
theorem calls_perm_results (hc : b.Complete) :
    ((Turn.deliveries b.turns).filterMap b.message).Perm b.result.1.1.results := by
  rw [results_eq hc]
  exact (deliveries_perm hc).filterMap _

/-- **What becomes of the tests of a batch**, whatever the order of its turns.  The results are
those of the tests that were taken up before an interrupt, in the order of the tests, each what
running its own test gave; every other test is counted as not run, which happens only after an
interrupt; and the observer is shown every result once and nothing else.  Two batches whose tests
come to the same have the same results and skip as many, whatever else they differ in. -/
theorem results_in_test_order (hc : b.Complete) :
    b.result.1.1.results = (List.range b.tests.length).filterMap b.message ∧
      b.result.1.1.results.map (·.test) =
        ((List.range b.tests.length).filter b.clearAt).filterMap (b.tests[·]?) ∧
      b.result.1.1.results.length + b.result.1.1.notRun = b.tests.length ∧
      (∃ calls : List TestResult, calls.Perm b.result.1.1.results ∧
        b.recording.result = ((b.result.1.1, b.result.1.2, calls), b.result.2)) ∧
      (0 < b.result.1.1.notRun → b.result.1.1.interrupted = true) ∧
      ∀ {β : Type} (b' : Batch β), b'.Complete → b'.tests.length = b.tests.length →
        (∀ i < b.tests.length, b'.message i = b.message i) →
        b'.result.1.1.results = b.result.1.1.results ∧
          b'.result.1.1.notRun = b.result.1.1.notRun := by
  refine ⟨results_eq hc, map_test_results hc, length_results_add_notRun hc,
    ⟨_, calls_perm_results hc, result_recording hc⟩, interrupted_of_notRun_pos hc, ?_⟩
  intro β b' hc' hlength hsame
  rw [results_eq hc, results_eq hc', notRun_eq hc, notRun_eq hc', hlength]
  constructor
  · exact List.filterMap_congr fun i hi => hsame i (List.mem_range.1 hi)
  · exact List.countP_congr fun i hi => by rw [hsame i (List.mem_range.1 hi)]

/-- Three tests on two workers.  The last one is taken up first, and the run is interrupted while
the first is at work. -/
def lateInterrupt : Batch Nat where
  machine :=
    { launch := fun disk _ => .ok
        { directory := [], writes := [], endsAt := ⟨1⟩, ended := .exited 0, goneAt := ⟨1⟩
          leaves := fun _ => disk, group := 1 }
      schedule := fun _ _ =>
        [.start 2, .start 0, .deliver 2, .interrupt, .start 1, .deliver 1, .deliver 0] }
  tests := [⟨"a"⟩, ⟨"b"⟩, ⟨"c"⟩]
  simulator := { base := { program := "spike" } }
  options := { jobs := 2 }
  observe := fun count _ => return count + 1
  seen := 0
  scene := { disk := {} }

/-- The test that waited for a worker is skipped, and the others stand in the order of the tests. -/
theorem results_of_lateInterrupt :
    lateInterrupt.Complete ∧ lateInterrupt.result.1.1.results.map (·.test) = [⟨"a"⟩, ⟨"c"⟩] ∧
      lateInterrupt.result.1.1.notRun = 1 ∧ lateInterrupt.result.1.1.interrupted = true := by
  have hc : lateInterrupt.Complete := ⟨by decide, by decide, by decide⟩
  obtain ⟨-, htests, hcount, -, hmarked, -⟩ := results_in_test_order hc
  have hac : lateInterrupt.result.1.1.results.map (·.test) = [⟨"a"⟩, ⟨"c"⟩] :=
    htests.trans (by decide)
  have hlength : lateInterrupt.result.1.1.results.length = 2 := by
    rw [← List.length_map (·.test), hac]; rfl
  have hone : lateInterrupt.result.1.1.notRun = 1 := by
    change _ = 3 at hcount
    omega
  exact ⟨hc, hac, hone, hmarked (by omega)⟩

end Batch

end Testbench
