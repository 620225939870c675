/-
**Codes and outcomes.**

How a test went is told twice: by a code, which orders the results and decides at the gates of a
run, and by an outcome, which the report shows.  Both come from the way in which the program ended,
or from the fault that kept it from being started, but by different ways.  They agree because a
system ends programs with codes that are bytes and numbers its signals from 1 on: then a code is
zero for a pass alone, and below zero for a signal alone.  So in the order of the codes those that
were killed by a signal stand first, and those that passed follow them in one block.

Main definitions:

* `Testbench.Ending.InRange`, `Testbench.Machine.NumbersEnds` — codes are bytes, and signals are
  numbered from 1 on;
* `Testbench.Trial` — a test that is run, with all that its result depends on;
* `Testbench.Trial.Consistent` — code and outcome agree;
* `Testbench.Trial.blocks` — the results of tests, divided by how they went.

Main results:

* `Testbench.success_eq_isPass` — a gate opens for what would be a pass;
* `Testbench.Trial.consistent` — code and outcome of a test agree;
* `Testbench.ResultSet.eq_append_of_ascending` — results in order are divided by the sign of their
  codes;
* `Testbench.codes_agree_with_outcomes` — **codes and outcomes never contradict each other**.
-/

import Mathlib.Data.List.Basic
import Testbench.Proofs.Isolation
import Testbench.Proofs.ResultOrder

set_option relaxedAutoImplicit false
set_option autoImplicit false

namespace Testbench

/-! ### Endings -/

/-- A program ended in a way that a system knows: its exit code is a byte, and signals are numbered
from 1 on. -/
def Ended.InRange : Ended → Prop
  | exited code => 0 ≤ code ∧ code ≤ 255
  | signaled signal => 1 ≤ signal

/-- **Programs end in the ways that a system knows.** -/
def Machine.NumbersEnds (m : Machine) : Prop :=
  ∀ d command l, m.launch d command = .ok l → l.ended.InRange

/-- The same of an ending under a limit. -/
def Ending.InRange : Ending → Prop
  | exited code => 0 ≤ code ∧ code ≤ 255
  | signaled signal => 1 ≤ signal
  | timedOut _ => True

namespace Ending

variable {e : Ending}

/-- Zero is the code of a pass, and of nothing else. -/
theorem outcome_eq_pass_iff (h : e.InRange) : e.outcome = .pass ↔ e.code = 0 := by
  cases e with
  | exited code =>
      by_cases hcode : code = 0 <;> simp [outcome, Outcome.ofExitCode, Ending.code, hcode]
  | signaled signal =>
      have hsignal : 1 ≤ signal := h
      simp only [outcome, Ending.code, reduceCtorEq, false_iff]
      omega
  | timedOut limit => simp [outcome, Ending.code, timeoutCode]

/-- A program that fails ends with a code of its own. -/
theorem eq_exited_of_fail {code : Int} (h : e.InRange) (hfail : e.outcome = .fail code) :
    e = .exited code ∧ 1 ≤ code ∧ code ≤ 255 := by
  cases e with
  | exited own =>
      have hbounds : 0 ≤ own ∧ own ≤ 255 := h
      simp only [outcome, Outcome.ofExitCode] at hfail
      split at hfail
      · cases hfail
      · cases hfail
        exact ⟨rfl, by omega, hbounds.2⟩
  | signaled signal => cases hfail
  | timedOut limit => cases hfail

/-- A crash is a signal, or the end of the time. -/
theorem eq_of_crash {reason : String} (h : e.outcome = .crashOrTimeout reason) :
    (∃ signal, e = .signaled signal) ∨ ∃ limit, e = .timedOut limit := by
  cases e with
  | exited code =>
      simp only [outcome, Outcome.ofExitCode] at h
      split at h <;> cases h
  | signaled signal => exact Or.inl ⟨signal, rfl⟩
  | timedOut limit => exact Or.inr ⟨limit, rfl⟩

/-- The codes below zero are those of signals. -/
theorem code_neg_iff (h : e.InRange) : e.code < 0 ↔ ∃ signal, e = .signaled signal := by
  cases e with
  | exited code =>
      have hbounds : 0 ≤ code ∧ code ≤ 255 := h
      simp only [Ending.code, reduceCtorEq, exists_false, iff_false]
      omega
  | signaled signal =>
      have hsignal : 1 ≤ signal := h
      simp only [Ending.code, Ending.signaled.injEq, exists_eq', iff_true]
      omega
  | timedOut limit => simp [Ending.code, timeoutCode]

end Ending

namespace Lifeline

/-- A program ends by itself, or at the limit that was given. -/
theorem ending_cases (l : Lifeline) (limit : Option Span) :
    (∃ code, l.ended = .exited code ∧ l.ending limit = .exited code) ∨
      (∃ signal, l.ended = .signaled signal ∧ l.ending limit = .signaled signal) ∨
        ∃ s, limit = some s ∧ l.ending limit = .timedOut s := by
  rw [ending]
  cases hkilled : l.killedAt limit with
  | some s => exact Or.inr (Or.inr ⟨s, (Option.filter_eq_some_iff.1 hkilled).1, rfl⟩)
  | none =>
      cases hended : l.ended with
      | exited code => exact Or.inl ⟨code, rfl, rfl⟩
      | signaled signal => exact Or.inr (Or.inl ⟨signal, rfl, rfl⟩)

theorem ending_inRange {l : Lifeline} (h : l.ended.InRange) (limit : Option Span) :
    (l.ending limit).InRange := by
  rcases l.ending_cases limit with ⟨code, hended, he⟩ | ⟨signal, hended, he⟩ | ⟨s, -, he⟩
  · rw [hended] at h
    rw [he]
    exact h
  · rw [hended] at h
    rw [he]
    exact h
  · rw [he]
    trivial

/-- Only a program that was given a limit runs out of time. -/
theorem limit_of_timedOut {l : Lifeline} {limit : Option Span} {s : Span}
    (h : l.ending limit = .timedOut s) : limit = some s := by
  rcases l.ending_cases limit with ⟨code, -, he⟩ | ⟨signal, -, he⟩ | ⟨s', hlimit, he⟩
  · simp [he] at h
  · simp [he] at h
  · rw [he] at h
    cases h
    exact hlimit

end Lifeline

theorem Outcome.isPass_iff {o : Outcome} : o.isPass = true ↔ o = .pass := by
  cases o <;> simp [isPass]

/-- **A command succeeds if its output would be a pass**, whatever program was run. -/
theorem success_eq_isPass {m : Machine} (hm : m.NumbersEnds) {command : Command}
    {options : ExecOptions} {s : Scene} {output : Output}
    (h : ((execute m command options).run s).1 = .ok output) :
    output.success = output.outcome.isPass := by
  rw [value_execute, Machine.outcome] at h
  cases hlaunch : m.launch s.disk command with
  | error fault =>
      rw [hlaunch] at h
      cases h
  | ok l =>
      rw [hlaunch] at h
      cases h
      have hrange := Lifeline.ending_inRange (hm _ _ _ hlaunch) options.timeout
      rw [Bool.eq_iff_iff, Outcome.isPass_iff, Output.success, decide_eq_true_iff]
      exact (Ending.outcome_eq_pass_iff hrange).symm

/-! ### Tests -/

/-- **A test that is run**, with all that its result depends on. -/
structure Trial where
  machine : Machine
  simulator : Simulator
  options : ExecOptions
  test : Path
  scene : Scene

namespace Trial

/-- What becomes known of the test. -/
def result (t : Trial) : TestResult :=
  ((runTest t.machine t.simulator t.options t.test).run t.scene).1

/-- How the program of the test ends, or why it cannot be started. -/
def ending (t : Trial) : Except Fault Ending :=
  (t.machine.launch t.scene.disk (t.simulator.commandFor t.test)).map (·.ending t.options.timeout)

/-- The test was killed by a signal. -/
def isKilled (t : Trial) : Bool :=
  match t.ending with
  | .ok (.signaled _) => true
  | _ => false

/-- The test passed. -/
def isPassed (t : Trial) : Bool := t.result.outcome.isPass

/-- **Code and outcome agree.** -/
structure Consistent (t : Trial) : Prop where
  pass : t.result.outcome = .pass ↔ t.result.exitCode = 0
  fail : ∀ code, t.result.outcome = .fail code →
    code = t.result.exitCode ∧ 1 ≤ code ∧ code ≤ 255
  crash : ∀ reason, t.result.outcome = .crashOrTimeout reason →
    (∃ signal, 1 ≤ signal ∧ t.ending = .ok (.signaled signal) ∧ t.result.exitCode = -signal) ∨
      (∃ limit, t.options.timeout = some limit ∧ t.ending = .ok (.timedOut limit) ∧
        t.result.exitCode = 124) ∨
      ∃ fault, t.ending = .error fault ∧ t.result.exitCode = 127

variable {t : Trial}

theorem result_of_error {fault : Fault} (h : t.ending = .error fault) :
    t.result = .dispatchFailure t.test fault := by
  rw [result, value_runTest, Machine.outcome]
  rw [ending] at h
  cases hlaunch : t.machine.launch t.scene.disk (t.simulator.commandFor t.test) with
  | error own =>
      rw [hlaunch] at h
      cases h
      rfl
  | ok l =>
      rw [hlaunch] at h
      cases h

/-- The result of a test whose program ended, and what is known of the ending. -/
theorem result_of_ok (ht : t.machine.NumbersEnds) {e : Ending} (h : t.ending = .ok e) :
    t.result.exitCode = e.code ∧ t.result.outcome = e.outcome ∧ e.InRange ∧
      ∀ limit, e = .timedOut limit → t.options.timeout = some limit := by
  rw [result, value_runTest, Machine.outcome]
  rw [ending] at h
  cases hlaunch : t.machine.launch t.scene.disk (t.simulator.commandFor t.test) with
  | error own =>
      rw [hlaunch] at h
      cases h
  | ok l =>
      rw [hlaunch] at h
      cases h
      exact ⟨rfl, rfl, Lifeline.ending_inRange (ht _ _ _ hlaunch) _,
        fun limit => Lifeline.limit_of_timedOut⟩

/-- **Code and outcome of a test agree**, whatever its program does. -/
theorem consistent (ht : t.machine.NumbersEnds) : t.Consistent := by
  cases hending : t.ending with
  | error fault =>
      have hresult := result_of_error hending
      constructor
      · simp [hresult, TestResult.dispatchFailure, dispatchFailureCode]
      · intro code hfail
        simp [hresult, TestResult.dispatchFailure] at hfail
      · intro reason _
        exact Or.inr (Or.inr ⟨fault, hending, by rw [hresult]; rfl⟩)
  | ok e =>
      obtain ⟨hcode, houtcome, hrange, hlimit⟩ := result_of_ok ht hending
      constructor
      · rw [houtcome, hcode]
        exact Ending.outcome_eq_pass_iff hrange
      · intro code hfail
        rw [houtcome] at hfail
        obtain ⟨rfl, hbounds⟩ := Ending.eq_exited_of_fail hrange hfail
        exact ⟨hcode.symm, hbounds⟩
      · intro reason hcrash
        rw [houtcome] at hcrash
        rcases Ending.eq_of_crash hcrash with ⟨signal, rfl⟩ | ⟨limit, rfl⟩
        · exact Or.inl ⟨signal, hrange, hending, hcode⟩
        · exact Or.inr (Or.inl ⟨limit, hlimit limit rfl, hending, hcode⟩)

theorem isPassed_iff (ht : t.machine.NumbersEnds) :
    t.isPassed = true ↔ t.result.exitCode = 0 := by
  rw [isPassed, Outcome.isPass_iff]
  exact (consistent ht).pass

/-- Codes below zero are those of tests that were killed by a signal. -/
theorem isKilled_iff (ht : t.machine.NumbersEnds) :
    t.isKilled = true ↔ t.result.exitCode < 0 := by
  cases hending : t.ending with
  | error fault =>
      rw [result_of_error hending]
      simp [isKilled, hending, TestResult.dispatchFailure, dispatchFailureCode]
  | ok e =>
      obtain ⟨hcode, -, hrange, -⟩ := result_of_ok ht hending
      rw [hcode, Ending.code_neg_iff hrange]
      cases e <;> simp [isKilled, hending]

end Trial

/-! ### Blocks of results -/

namespace ResultSet

/-- Results in order are divided by any code. -/
theorem eq_filter_lt_append {l : List TestResult} (code : Int)
    (h : l.Pairwise fun a b => a.exitCode ≤ b.exitCode) :
    l = l.filter (·.exitCode < code) ++ l.filter (code ≤ ·.exitCode) := by
  induction l with
  | nil => rfl
  | cons r l ih =>
      have hl := ih h.of_cons
      by_cases hr : r.exitCode < code
      · have hnot : ¬code ≤ r.exitCode := by omega
        simp [hr, hnot, ← hl]
      · -- nothing behind a result is below it
        have hnone : l.filter (·.exitCode < code) = [] := by
          refine List.filter_eq_nil_iff.2 fun x hx => ?_
          have hle := List.rel_of_pairwise_cons h hx
          rw [decide_eq_true_iff]
          omega
        have hcode : code ≤ r.exitCode := by omega
        rw [hnone, List.nil_append] at hl
        simp [hr, hcode, hnone, ← hl]

/-- **Results in order are divided by the sign of their codes.** -/
theorem eq_append_of_ascending {l : List TestResult}
    (h : l.Pairwise fun a b => a.exitCode ≤ b.exitCode) :
    l = l.filter (·.exitCode < 0) ++ (l.filter (·.exitCode = 0) ++ l.filter (0 < ·.exitCode)) := by
  have hrest : l.filter (0 ≤ ·.exitCode) = _ := eq_filter_lt_append 1 (h.filter _)
  rw [List.filter_filter, List.filter_filter] at hrest
  have hzero : ∀ r ∈ l, (decide (r.exitCode < 1) && decide (0 ≤ r.exitCode)) =
      decide (r.exitCode = 0) := by
    intro r _
    rw [← Bool.decide_and, decide_eq_decide]
    omega
  have hpos : ∀ r ∈ l, (decide (1 ≤ r.exitCode) && decide (0 ≤ r.exitCode)) =
      decide (0 < r.exitCode) := by
    intro r _
    rw [← Bool.decide_and, decide_eq_decide]
    omega
  rw [List.filter_congr hzero, List.filter_congr hpos] at hrest
  rw [← hrest]
  exact eq_filter_lt_append 0 h

/-- Results can be chosen before they are put in order. -/
theorem filter_ofList (p : TestResult → Bool) (given : List TestResult) :
    (ofList given).results.filter p = (ofList (given.filter p)).results := by
  refine stablyOrders_iff.1 ⟨(ofList_perm given).filter p, (pairwise_exitCode given).filter p, ?_⟩
  intro code
  rw [List.filter_comm, filter_exitCode, List.filter_comm]

end ResultSet

namespace Trial

variable {trials : List Trial}

theorem filter_map_result {p : TestResult → Bool} {q : Trial → Bool}
    (h : ∀ t ∈ trials, p t.result = q t) :
    (trials.map result).filter p = (trials.filter q).map result := by
  rw [List.filter_map]
  exact congrArg (List.map result) (List.filter_congr h)

/-- **The results of tests in blocks**: first those that were killed by a signal, by their codes,
then those that passed, in the order in which they are given, and then all others, by their
codes. -/
def blocks (trials : List Trial) : List TestResult :=
  (ResultSet.ofList ((trials.filter isKilled).map result)).results ++
    ((trials.filter isPassed).map result ++
      (ResultSet.ofList ((trials.filter fun t => !t.isKilled && !t.isPassed).map result)).results)

theorem results_in_blocks (h : ∀ t ∈ trials, t.machine.NumbersEnds) :
    (ResultSet.ofList (trials.map result)).results = blocks trials := by
  have hkilled : (trials.map result).filter (·.exitCode < 0) =
      (trials.filter isKilled).map result :=
    filter_map_result fun t ht => by
      rw [Bool.eq_iff_iff, isKilled_iff (h t ht), decide_eq_true_iff]
  have hpassed : (trials.map result).filter (·.exitCode = 0) =
      (trials.filter isPassed).map result :=
    filter_map_result fun t ht => by
      rw [Bool.eq_iff_iff, isPassed_iff (h t ht), decide_eq_true_iff]
  have hothers : (trials.map result).filter (0 < ·.exitCode) =
      (trials.filter fun t => !t.isKilled && !t.isPassed).map result :=
    filter_map_result fun t ht => by
      rw [Bool.eq_iff_iff, decide_eq_true_iff, Bool.and_eq_true, Bool.not_eq_true',
        Bool.not_eq_true', ← Bool.not_eq_true, ← Bool.not_eq_true, isKilled_iff (h t ht),
        isPassed_iff (h t ht)]
      omega
  have hblocks := ResultSet.eq_append_of_ascending (ResultSet.pairwise_exitCode (trials.map result))
  rwa [ResultSet.filter_ofList, hkilled, ResultSet.filter_exitCode, hpassed,
    ResultSet.filter_ofList, hothers] at hblocks

end Trial

/-- **Codes and outcomes never contradict each other.**  The code of a test is zero if and only if
it passed; a test that fails has the code that is told with its failure; and a crash has the code of
what befell the program.  A command succeeds if and only if its output would be a pass.  So results
in order begin with the tests that were killed by a signal, and those that passed follow in one
block. -/
theorem codes_agree_with_outcomes :
    (∀ t : Trial, t.machine.NumbersEnds → t.Consistent) ∧
    (∀ m : Machine, m.NumbersEnds → ∀ command options s output,
      ((execute m command options).run s).1 = .ok output →
        output.success = output.outcome.isPass) ∧
    (∀ trials : List Trial, (∀ t ∈ trials, t.machine.NumbersEnds) →
      (ResultSet.ofList (trials.map Trial.result)).results = Trial.blocks trials) :=
  ⟨fun _ ht => Trial.consistent ht,
    fun _ hm _ _ _ _ h => success_eq_isPass hm h,
    fun _ h => Trial.results_in_blocks h⟩

namespace Trial

/-- A test on a machine on which every program has the same fate. -/
def fated (fate : Except Fault Ended) (limit : Option Span) : Trial where
  machine := Session.idle fun _ => fate
  simulator := { base := { program := "spike" } }
  options := { timeout := limit }
  test := ⟨"/t/a"⟩
  scene := { disk := {} }

theorem numbersEnds_fated {fate : Except Fault Ended} (h : ∀ ended, fate = .ok ended → ended.InRange)
    (limit : Option Span) : (fated fate limit).machine.NumbersEnds := by
  intro d command l hl
  cases fate with
  | error fault => cases hl
  | ok ended =>
      cases hl
      exact h ended rfl

/-- Tests with all kinds of fates. -/
def mixed : List Trial :=
  [fated (.ok (.exited 3)) none, fated (.ok (.exited 0)) none, fated (.ok (.signaled 9)) none,
    fated (.ok (.exited 0)) (some ⟨1⟩), fated (.error .noSuchFile) none]

/-- The test that was killed by a signal stands first, and the one that passed follows; the test
that would have passed had it had more time is no pass. -/
theorem results_of_mixed :
    (∀ t ∈ mixed, t.machine.NumbersEnds) ∧
      (∃ others, (ResultSet.ofList (mixed.map result)).results =
        (fated (.ok (.signaled 9)) none).result :: (fated (.ok (.exited 0)) none).result ::
          others) ∧
      (fated (.ok (.exited 0)) (some ⟨1⟩)).result.exitCode = 124 ∧
      (fated (.ok (.exited 0)) (some ⟨1⟩)).result.outcome ≠ .pass ∧
      ∃ output, ((execute (Session.idle fun _ => .ok (.signaled 9)) { program := "spike" } {}).run
        { disk := {} }).1 = .ok output ∧ output.success = output.outcome.isPass := by
  have hmixed : ∀ t ∈ mixed, t.machine.NumbersEnds := by
    intro t ht
    simp only [mixed, List.mem_cons, List.not_mem_nil, or_false] at ht
    rcases ht with rfl | rfl | rfl | rfl | rfl <;> refine numbersEnds_fated (fun e he => ?_) _ <;>
      cases he <;> simp [Ended.InRange]
  obtain ⟨hconsistent, hsuccess, hblocks⟩ := codes_agree_with_outcomes
  refine ⟨hmixed, ?_, rfl, fun hpass => ?_, _, rfl, ?_⟩
  · have hkilled : mixed.filter isKilled = [fated (.ok (.signaled 9)) none] := rfl
    have hpassed : mixed.filter isPassed = [fated (.ok (.exited 0)) none] := rfl
    have hone : ∀ r : TestResult, (ResultSet.ofList [r]).results = [r] := fun r => by
      rw [ResultSet.ofList_of_ascending (List.pairwise_singleton ..)]
    refine ⟨(ResultSet.ofList ((mixed.filter fun t => !t.isKilled && !t.isPassed).map
      result)).results, ?_⟩
    rw [hblocks mixed hmixed, blocks, hkilled, hpassed, List.map_singleton, List.map_singleton, hone,
      List.singleton_append, List.singleton_append]
  · have hcode := (hconsistent _ (hmixed (fated (.ok (.exited 0)) (some ⟨1⟩))
      (by simp [mixed]))).pass.1 hpass
    cases hcode
  · exact hsuccess _ (hmixed (fated (.ok (.signaled 9)) none) (by simp [mixed])) _ _ _ _ rfl

end Trial

end Testbench
