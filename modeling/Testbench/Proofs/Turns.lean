/-
**Tests at work, turn by turn.**

The tests of a run are taken up and noted in an order that the run does not choose.  All that is
assumed of the order is that every test is taken up once and noted once, in this order; how many
workers there are then makes no difference.  What a test comes to is fixed when it is taken up: it
is skipped if the run was interrupted before, and else it is run in the scene of that moment.

The invariant says of every beginning of the turns what the pool holds: the messages of the tests
that were taken up and are not noted wait in the mail, those of the tests that were noted stand in
their places or were counted, and the observer was shown the results among them in the order of
noting.

Main definitions:

* `Testbench.Turn.Complete`, `Testbench.Machine.RunsEach` — every test is taken up, and then noted,
  once;
* `Testbench.Batch` — all that running tests depends on;
* `Testbench.Batch.clearAt`, `Testbench.Batch.sceneAt`, `Testbench.Batch.message` — what a test
  comes to when it is taken up;
* `Testbench.Batch.recording` — the observer with a record of what it is shown;
* `Testbench.Batch.Follows` — the invariant.

Main results:

* `Testbench.Batch.after_recording` — keeping a record changes nothing;
* `Testbench.Batch.follows_after` — **the invariant holds after every beginning of the turns**;
* `Testbench.Batch.results_eq`, `Testbench.Batch.notRun_eq`, `Testbench.Batch.interrupted_eq`,
  `Testbench.Batch.result_recording` — what a batch comes to.
-/

import Mathlib.Data.List.Induction
import Testbench.Run.Tests

set_option relaxedAutoImplicit false
set_option autoImplicit false

namespace Testbench

/-! ### Turns -/

namespace Turn

/-- The number of the test that a turn takes up. -/
def started? : Turn → Option Nat
  | .start i => some i
  | _ => none

/-- The number of the test that a turn notes. -/
def delivered? : Turn → Option Nat
  | .deliver i => some i
  | _ => none

/-- The numbers of the tests that are taken up, in order. -/
def starts (turns : List Turn) : List Nat := turns.filterMap started?

/-- The numbers of the tests that are noted, in order. -/
def deliveries (turns : List Turn) : List Nat := turns.filterMap delivered?

/-- The turns before a turn. -/
def before (turns : List Turn) (t : Turn) : List Turn := turns.takeWhile (· ≠ t)

/-- **Every test is taken up once, and noted once, after it was taken up.** -/
structure Complete (count : Nat) (turns : List Turn) : Prop where
  starts_perm : (starts turns).Perm (List.range count)
  deliveries_perm : (deliveries turns).Perm (List.range count)
  started_first : ∀ i < count, start i ∈ before turns (deliver i)

theorem started?_eq_some_iff {t : Turn} {i : Nat} : t.started? = some i ↔ t = .start i := by
  cases t <;> simp [started?]

theorem delivered?_eq_some_iff {t : Turn} {i : Nat} : t.delivered? = some i ↔ t = .deliver i := by
  cases t <;> simp [delivered?]

theorem mem_starts_iff {turns : List Turn} {i : Nat} : i ∈ starts turns ↔ .start i ∈ turns := by
  simp [starts, List.mem_filterMap, started?_eq_some_iff]

theorem mem_deliveries_iff {turns : List Turn} {i : Nat} :
    i ∈ deliveries turns ↔ .deliver i ∈ turns := by
  simp [deliveries, List.mem_filterMap, delivered?_eq_some_iff]

theorem starts_append (pre post : List Turn) : starts (pre ++ post) = starts pre ++ starts post :=
  List.filterMap_append

theorem deliveries_append (pre post : List Turn) :
    deliveries (pre ++ post) = deliveries pre ++ deliveries post := List.filterMap_append

/-- A turn that takes up no test. -/
theorem starts_concat_of_none (pre : List Turn) {t : Turn} (h : t.started? = none) :
    starts (pre ++ [t]) = starts pre := by
  have hlast : starts [t] = [] := List.filterMap_cons_none h
  rw [starts_append, hlast, List.append_nil]

/-- A turn that notes no test. -/
theorem deliveries_concat_of_none (pre : List Turn) {t : Turn} (h : t.delivered? = none) :
    deliveries (pre ++ [t]) = deliveries pre := by
  have hlast : deliveries [t] = [] := List.filterMap_cons_none h
  rw [deliveries_append, hlast, List.append_nil]

/-- The turns before the first occurrence of a turn. -/
theorem before_append_cons {pre post : List Turn} {t : Turn} (h : t ∉ pre) :
    before (pre ++ t :: post) t = pre := by
  have hpre : ∀ u ∈ pre, decide (u ≠ t) = true := fun u hu => by
    simp only [ne_eq, decide_not, Bool.not_eq_true', decide_eq_false_iff_not]
    rintro rfl
    exact h hu
  rw [before, List.takeWhile_append_of_pos hpre, List.takeWhile_cons_of_neg (by simp),
    List.append_nil]

namespace Complete

variable {count : Nat} {pre post : List Turn} {i : Nat}

theorem lt_of_start (h : Complete count (pre ++ .start i :: post)) : i < count := by
  have hmem : i ∈ starts (pre ++ .start i :: post) := mem_starts_iff.2 (by simp)
  exact List.mem_range.1 (h.starts_perm.mem_iff.1 hmem)

theorem lt_of_deliver (h : Complete count (pre ++ .deliver i :: post)) : i < count := by
  have hmem : i ∈ deliveries (pre ++ .deliver i :: post) := mem_deliveries_iff.2 (by simp)
  exact List.mem_range.1 (h.deliveries_perm.mem_iff.1 hmem)

/-- A test that is taken up was not taken up before. -/
theorem start_not_mem (h : Complete count (pre ++ .start i :: post)) : .start i ∉ pre := by
  have hnodup := h.starts_perm.nodup_iff.2 List.nodup_range
  rw [starts_append] at hnodup
  intro hmem
  have hi : i ∈ starts (.start i :: post) := mem_starts_iff.2 List.mem_cons_self
  exact (List.nodup_append.1 hnodup).2.2 i (mem_starts_iff.2 hmem) i hi rfl

/-- A test that is noted was not noted before. -/
theorem deliver_not_mem (h : Complete count (pre ++ .deliver i :: post)) : .deliver i ∉ pre := by
  have hnodup := h.deliveries_perm.nodup_iff.2 List.nodup_range
  rw [deliveries_append] at hnodup
  intro hmem
  have hi : i ∈ deliveries (.deliver i :: post) := mem_deliveries_iff.2 List.mem_cons_self
  exact (List.nodup_append.1 hnodup).2.2 i (mem_deliveries_iff.2 hmem) i hi rfl

/-- A test that is noted was taken up before. -/
theorem start_mem (h : Complete count (pre ++ .deliver i :: post)) : .start i ∈ pre := by
  have hmem := h.started_first i h.lt_of_deliver
  rwa [before_append_cons h.deliver_not_mem] at hmem

end Complete

/-! ### One test after the other -/

theorem starts_inOrder (count : Nat) : starts (inOrder count) = List.range count := by
  rw [starts, inOrder, List.filterMap_flatMap]
  exact List.flatMap_singleton' _

theorem deliveries_inOrder (count : Nat) : deliveries (inOrder count) = List.range count := by
  rw [deliveries, inOrder, List.filterMap_flatMap]
  exact List.flatMap_singleton' _

theorem inOrder_succ (count : Nat) :
    inOrder (count + 1) = inOrder count ++ [.start count, .deliver count] := by
  rw [inOrder, List.range_succ, List.flatMap_append]; rfl

/-- The turns of one test among those of all. -/
theorem inOrder_eq_append {i count : Nat} (h : i < count) :
    ∃ post, inOrder count = (inOrder i ++ [.start i]) ++ .deliver i :: post := by
  induction count with
  | zero => exact absurd h (Nat.not_lt_zero i)
  | succ count ih =>
      rw [inOrder_succ]
      rcases Nat.lt_or_eq_of_le (Nat.le_of_lt_succ h) with hlt | rfl
      · obtain ⟨post, hpost⟩ := ih hlt
        refine ⟨post ++ [.start count, .deliver count], ?_⟩
        rw [hpost, List.append_assoc, List.cons_append]
      · refine ⟨[], ?_⟩
        rw [List.append_assoc]; rfl

/-- Tests that are run one after the other are each taken up once and noted once. -/
theorem complete_inOrder (count : Nat) : Complete count (inOrder count) where
  starts_perm := by rw [starts_inOrder]
  deliveries_perm := by rw [deliveries_inOrder]
  started_first := by
    intro i hi
    obtain ⟨post, hpost⟩ := inOrder_eq_append hi
    have hnoted : .deliver i ∉ inOrder i ++ [.start i] := by
      rw [List.mem_append, ← mem_deliveries_iff, deliveries_inOrder]
      simp
    rw [hpost, before_append_cons hnoted]
    simp

end Turn

/-- **A machine runs each test**: in every order that it chooses, every test is taken up once and
noted once.  So the workers can be started, whatever their number. -/
def Machine.RunsEach (m : Machine) : Prop :=
  ∀ workers count, Turn.Complete count (m.schedule workers count)

/-! ### Batches -/

/-- All that running tests depends on. -/
structure Batch (α : Type) where
  machine : Machine
  tests : List Path
  simulator : Simulator
  options : RunOptions
  observe : α → TestResult → Flow α
  /-- What the observer knows at first. -/
  seen : α
  scene : Scene

namespace Batch

variable {α : Type}

/-- The order in which the tests are taken up and noted. -/
def turns (b : Batch α) : List Turn :=
  b.machine.schedule (b.machine.workers b.options.jobs) b.tests.length

/-- Every test is taken up, and then noted, once. -/
def Complete (b : Batch α) : Prop := Turn.Complete b.tests.length b.turns

/-- The run is not interrupted, neither before its first turn nor later. -/
def Uninterrupted (b : Batch α) : Prop :=
  b.options.interrupted = false ∧ .interrupt ∉ b.turns

/-- Running the tests. -/
def result (b : Batch α) : (RunOutcome × α) × Scene :=
  (runTests b.machine b.tests b.simulator b.options b.observe b.seen).run b.scene

/-- Running one test of the batch. -/
def runOne (b : Batch α) (test : Path) : Flow TestResult :=
  runTest b.machine b.simulator { timeout := b.options.timeout } test

/-- The scene in which the first turn is taken. -/
def opening (b : Batch α) : Scene :=
  b.scene.add (.notice .debug "simharness::runner"
    ("dispatching " ++ Decimal.ofNat b.tests.length ++ " tests on " ++
      Decimal.ofNat (b.machine.workers b.options.jobs) ++ " workers"))

/-- The pool, the observer and the scene after some turns. -/
def after (b : Batch α) (turns : List Turn) : (Pool × α) × Scene :=
  (turns.foldlM (Pool.turn b.tests b.runOne b.observe)
    (Pool.ofCount b.options.interrupted b.tests.length, b.seen)).run b.opening

/-- The run was not interrupted when the test of a number was taken up. -/
def clearAt (b : Batch α) (i : Nat) : Bool :=
  !(b.options.interrupted || (Turn.before b.turns (.start i)).contains .interrupt)

/-- The scene in which the test of a number was taken up. -/
def sceneAt (b : Batch α) (i : Nat) : Scene := (b.after (Turn.before b.turns (.start i))).2

/-- What the test of a number comes to when it is taken up: it is run in the scene of that moment,
or skipped after an interrupt. -/
def message (b : Batch α) (i : Nat) : Message :=
  if b.clearAt i then b.tests[i]?.map fun test => ((b.runOne test).run (b.sceneAt i)).1 else none

/-- The batch with an observer that keeps a record of what it is shown. -/
def recording (b : Batch α) : Batch (α × List TestResult) :=
  { b with
    observe := fun (a, calls) r => do
      let a ← b.observe a r
      return (a, calls ++ [r])
    seen := (b.seen, []) }

theorem result_of_nil {b : Batch α} (h : b.tests = []) : b.result = (({}, b.seen), b.scene) := by
  rw [result, runTests, h]; rfl

theorem result_of_ne_nil {b : Batch α} (h : b.tests ≠ []) :
    b.result = (((b.after b.turns).1.1.outcome, (b.after b.turns).1.2), (b.after b.turns).2) := by
  have hempty : b.tests.isEmpty = false := by simpa using h
  rw [result, runTests, hempty]; rfl

theorem after_concat (b : Batch α) (pre : List Turn) (t : Turn) :
    b.after (pre ++ [t]) =
      (Pool.turn b.tests b.runOne b.observe (b.after pre).1 t).run (b.after pre).2 := by
  rw [after, List.foldlM_append]; rfl

/-! ### Keeping a record -/

/-- What is left without the record. -/
def forget (s : (Pool × α × List TestResult) × Scene) : (Pool × α) × Scene :=
  ((s.1.1, s.1.2.1), s.2)

theorem forget_turn (b : Batch α) (s : (Pool × α × List TestResult) × Scene) (t : Turn) :
    forget ((Pool.turn b.tests b.runOne b.recording.observe s.1 t).run s.2) =
      (Pool.turn b.tests b.runOne b.observe (forget s).1 t).run (forget s).2 := by
  obtain ⟨⟨p, a, calls⟩, scene⟩ := s
  -- no branch of a turn looks at the record
  cases t with
  | interrupt => rfl
  | start i =>
      rw [Pool.turn, Pool.turn]
      cases b.tests[i]? with
      | none => rfl
      | some test =>
          cases hp : p.interrupted <;> simp only [forget, hp] <;> rfl
  | deliver i =>
      simp only [Pool.turn, forget]
      cases Pool.take i p.mail with
      | none => rfl
      | some found =>
          obtain ⟨message, mail⟩ := found
          cases message <;> rfl

/-- **Keeping a record changes nothing.** -/
theorem after_recording (b : Batch α) (turns : List Turn) :
    forget (b.recording.after turns) = b.after turns := by
  induction turns using List.reverseRecOn with
  | nil => rfl
  | append_singleton pre t ih =>
      rw [after_concat, after_concat, ← ih, ← forget_turn b (b.recording.after pre) t]
      rfl

theorem pool_recording (b : Batch α) (turns : List Turn) :
    (b.recording.after turns).1.1 = (b.after turns).1.1 :=
  congrArg (·.1.1) (after_recording b turns)

theorem scene_recording (b : Batch α) (turns : List Turn) :
    (b.recording.after turns).2 = (b.after turns).2 := congrArg Prod.snd (after_recording b turns)

/-! ### The invariant -/

/-- What holds after a **beginning of the turns**, of an observer that keeps a record. -/
structure Follows (b : Batch α) (pre : List Turn) (s : Pool × α × List TestResult) : Prop where
  interrupted : s.1.interrupted = (b.options.interrupted || pre.contains .interrupt)
  /-- The messages that are not noted yet are in the mail. -/
  mail : ∃ waiting, s.1.mail = waiting.map (fun i => (i, b.message i)) ∧
    (Turn.starts pre).Perm (Turn.deliveries pre ++ waiting)
  slots : s.1.slots =
    (List.range b.tests.length).map fun i => if i ∈ Turn.deliveries pre then b.message i else none
  notRun : s.1.notRun = (Turn.deliveries pre).countP fun i => (b.message i).isNone
  calls : s.2.2 = (Turn.deliveries pre).filterMap b.message

/-- What is taken out of the mail. -/
theorem take_map (f : Nat → Message) {i : Nat} {waiting : List Nat} (h : i ∈ waiting) :
    Pool.take i (waiting.map fun j => (j, f j)) =
      some (f i, (waiting.erase i).map fun j => (j, f j)) := by
  induction waiting with
  | nil => simp at h
  | cons j waiting ih =>
      rw [List.map_cons, Pool.take]
      by_cases hj : j = i
      · rw [if_pos hj, hj, List.erase_cons_head]
      · have hi : i ∈ waiting := (List.mem_cons.1 h).resolve_left (Ne.symm hj)
        rw [if_neg hj, ih hi, List.erase_cons_tail (by simpa using hj)]
        rfl

/-- Putting a message in its place. -/
theorem set_map_range (f : Nat → Message) (noted : List Nat) {n i : Nat} (r : TestResult)
    (hr : f i = some r) :
    ((List.range n).map fun j => if j ∈ noted then f j else none).set i (some r) =
      (List.range n).map fun j => if j ∈ noted ++ [i] then f j else none := by
  refine List.ext_getElem (by simp) fun j h₁ h₂ => ?_
  rw [List.getElem_set, List.getElem_map, List.getElem_map, List.getElem_range]
  by_cases hj : i = j
  · subst hj
    simp [hr]
  · simp [hj, Ne.symm hj]

/-- A message that says nothing leaves its place empty. -/
theorem map_range_of_none (f : Nat → Message) (noted : List Nat) {n i : Nat} (hi : f i = none) :
    ((List.range n).map fun j => if j ∈ noted then f j else none) =
      (List.range n).map fun j => if j ∈ noted ++ [i] then f j else none := by
  refine List.map_congr_left fun j _ => ?_
  by_cases hj : j = i
  · subst hj
    simp [hi]
  · simp [hj]

theorem follows_nil (b : Batch α) : b.Follows [] (b.recording.after []).1 where
  interrupted := (Bool.or_false _).symm
  mail := ⟨[], rfl, List.Perm.refl _⟩
  slots := by
    refine (List.eq_replicate_iff.2 ⟨?_, by simp [Turn.deliveries]⟩).symm
    rw [List.length_map, List.length_range]; rfl
  notRun := rfl
  calls := rfl

/-- The message of a test is fixed by the turns before it is taken up. -/
theorem message_of_turns_eq {b : Batch α} {pre post : List Turn} {i : Nat} (hc : b.Complete)
    (hturns : b.turns = pre ++ .start i :: post) :
    b.clearAt i = !(b.options.interrupted || pre.contains .interrupt) ∧
      b.sceneAt i = (b.after pre).2 := by
  have hbefore : Turn.before b.turns (.start i) = pre := by
    rw [Complete, hturns] at hc
    rw [hturns, Turn.before_append_cons hc.start_not_mem]
  exact ⟨by rw [clearAt, hbefore], by rw [sceneAt, hbefore]⟩

variable {b : Batch α} {pre post : List Turn}

theorem follows_interrupt (h : b.Follows pre (b.recording.after pre).1) :
    b.Follows (pre ++ [.interrupt]) (b.recording.after (pre ++ [.interrupt])).1 := by
  have hafter : b.recording.after (pre ++ [.interrupt]) =
      (({ (b.recording.after pre).1.1 with interrupted := true }, (b.recording.after pre).1.2),
        (b.recording.after pre).2) := by rw [after_concat]; rfl
  obtain ⟨waiting, hmail, hperm⟩ := h.mail
  have hstarts : Turn.starts (pre ++ [.interrupt]) = Turn.starts pre :=
    Turn.starts_concat_of_none pre rfl
  have hdeliveries : Turn.deliveries (pre ++ [.interrupt]) = Turn.deliveries pre :=
    Turn.deliveries_concat_of_none pre rfl
  rw [hafter]
  exact {
    interrupted := by simp
    mail := ⟨waiting, hmail, by rwa [hstarts, hdeliveries]⟩
    slots := by rw [hdeliveries]; exact h.slots
    notRun := by rw [hdeliveries]; exact h.notRun
    calls := by rw [hdeliveries]; exact h.calls }

/-- A test that is taken up sends its message. -/
theorem after_start {i : Nat} (hc : b.Complete) (hturns : b.turns = pre ++ .start i :: post)
    (h : b.Follows pre (b.recording.after pre).1) :
    (b.recording.after (pre ++ [.start i])).1 =
      ({ (b.recording.after pre).1.1 with
          mail := (b.recording.after pre).1.1.mail ++ [(i, b.message i)] },
        (b.recording.after pre).1.2) := by
  have hi : i < b.tests.length := by
    rw [Complete, hturns] at hc
    exact hc.lt_of_start
  have htest : b.recording.tests[i]? = some (b.tests[i]) := List.getElem?_eq_getElem hi
  obtain ⟨hclear, hscene⟩ := message_of_turns_eq hc hturns
  have hsame : (b.recording.after pre).2 = (b.after pre).2 := scene_recording b pre
  have hflag : b.clearAt i = !(b.recording.after pre).1.1.interrupted := by
    rw [hclear, h.interrupted]
  rw [after_concat, Pool.turn, htest]
  cases hp : (b.recording.after pre).1.1.interrupted with
  | true =>
      have hmessage : b.message i = none := by rw [message, hflag, hp]; rfl
      simp only [hp, if_true, hmessage]
      rfl
  | false =>
      have hmessage : b.message i =
          some ((b.runOne b.tests[i]).run (b.recording.after pre).2).1 := by
        rw [message, hflag, hp, List.getElem?_eq_getElem hi, hscene, hsame]; rfl
      simp only [hp, hmessage]
      rfl

theorem follows_start {i : Nat} (hc : b.Complete) (hturns : b.turns = pre ++ .start i :: post)
    (h : b.Follows pre (b.recording.after pre).1) :
    b.Follows (pre ++ [.start i]) (b.recording.after (pre ++ [.start i])).1 := by
  obtain ⟨waiting, hmail, hperm⟩ := h.mail
  have hstarts : Turn.starts (pre ++ [.start i]) = Turn.starts pre ++ [i] := Turn.starts_append ..
  have hdeliveries : Turn.deliveries (pre ++ [.start i]) = Turn.deliveries pre :=
    Turn.deliveries_concat_of_none pre rfl
  rw [after_start hc hturns h]
  exact {
    interrupted := by rw [h.interrupted]; simp
    mail := by
      refine ⟨waiting ++ [i], by rw [hmail, List.map_append]; rfl, ?_⟩
      rw [hstarts, hdeliveries, ← List.append_assoc]
      exact hperm.append_right [i]
    slots := by rw [hdeliveries]; exact h.slots
    notRun := by rw [hdeliveries]; exact h.notRun
    calls := by rw [hdeliveries]; exact h.calls }

/-- A test that is noted waited in the mail. -/
theorem take_of_deliver {i : Nat} (hc : b.Complete) (hturns : b.turns = pre ++ .deliver i :: post)
    (h : b.Follows pre (b.recording.after pre).1) :
    ∃ waiting, Pool.take i (b.recording.after pre).1.1.mail =
        some (b.message i, waiting.map fun j => (j, b.message j)) ∧
      (Turn.starts pre).Perm (Turn.deliveries pre ++ [i] ++ waiting) := by
  obtain ⟨waiting, hmail, hperm⟩ := h.mail
  rw [Complete, hturns] at hc
  -- the test was taken up and is not noted yet, so that its message is still in the mail
  have hi : i ∈ waiting := by
    have hstart := hperm.mem_iff.1 (Turn.mem_starts_iff.2 hc.start_mem)
    refine (List.mem_append.1 hstart).resolve_left fun hnoted => ?_
    exact hc.deliver_not_mem (Turn.mem_deliveries_iff.1 hnoted)
  refine ⟨waiting.erase i, by rw [hmail, take_map b.message hi], hperm.trans ?_⟩
  rw [List.append_assoc]
  exact (List.perm_cons_erase hi).append_left _

theorem follows_deliver {i : Nat} (hc : b.Complete) (hturns : b.turns = pre ++ .deliver i :: post)
    (h : b.Follows pre (b.recording.after pre).1) :
    b.Follows (pre ++ [.deliver i]) (b.recording.after (pre ++ [.deliver i])).1 := by
  obtain ⟨waiting, htake, hperm⟩ := take_of_deliver hc hturns h
  have hstarts : Turn.starts (pre ++ [.deliver i]) = Turn.starts pre :=
    Turn.starts_concat_of_none pre rfl
  have hdeliveries : Turn.deliveries (pre ++ [.deliver i]) = Turn.deliveries pre ++ [i] :=
    Turn.deliveries_append ..
  have hflag : (b.options.interrupted || (pre ++ [Turn.deliver i]).contains .interrupt) =
      (b.options.interrupted || pre.contains .interrupt) := by simp
  cases hmessage : b.message i with
  | none =>
      have hafter : (b.recording.after (pre ++ [.deliver i])).1 =
          ({ (b.recording.after pre).1.1 with
              mail := waiting.map fun j => (j, b.message j)
              notRun := (b.recording.after pre).1.1.notRun + 1 },
            (b.recording.after pre).1.2) := by
        rw [after_concat, Pool.turn, htake, hmessage]; rfl
      rw [hafter]
      exact {
        interrupted := by rw [hflag]; exact h.interrupted
        mail := ⟨waiting, rfl, by rwa [hstarts, hdeliveries]⟩
        slots := by rw [hdeliveries, ← map_range_of_none b.message _ hmessage]; exact h.slots
        notRun := by rw [hdeliveries, h.notRun]; simp [hmessage]
        calls := by rw [hdeliveries, h.calls]; simp [hmessage] }
  | some r =>
      have hafter : ∃ a, (b.recording.after (pre ++ [.deliver i])).1 =
          ({ (b.recording.after pre).1.1 with
              mail := waiting.map fun j => (j, b.message j)
              slots := (b.recording.after pre).1.1.slots.set i (some r) },
            a, (b.recording.after pre).1.2.2 ++ [r]) := by
        rw [after_concat, Pool.turn, htake, hmessage]
        exact ⟨_, rfl⟩
      obtain ⟨a, hafter⟩ := hafter
      rw [hafter]
      exact {
        interrupted := by rw [hflag]; exact h.interrupted
        mail := ⟨waiting, rfl, by rwa [hstarts, hdeliveries]⟩
        slots := by rw [hdeliveries, ← set_map_range b.message _ r hmessage, h.slots]
        notRun := by rw [hdeliveries, h.notRun]; simp [hmessage]
        calls := by rw [hdeliveries, h.calls]; simp [hmessage] }

/-- **The invariant holds after every beginning of the turns.** -/
theorem follows_after (hc : b.Complete) :
    ∀ pre post, b.turns = pre ++ post → b.Follows pre (b.recording.after pre).1 := by
  intro pre
  -- a beginning of the turns grows at its end
  induction pre using List.reverseRecOn with
  | nil => exact fun _ _ => follows_nil b
  | append_singleton pre t ih =>
      intro post hturns
      rw [List.append_assoc, List.singleton_append] at hturns
      have h := ih (t :: post) hturns
      cases t with
      | interrupt => exact follows_interrupt h
      | start i => exact follows_start hc hturns h
      | deliver i => exact follows_deliver hc hturns h

/-! ### What a batch comes to -/

/-- At the end all messages are noted. -/
theorem deliveries_perm (hc : b.Complete) :
    (Turn.deliveries b.turns).Perm (List.range b.tests.length) := hc.deliveries_perm

theorem follows_turns (hc : b.Complete) : b.Follows b.turns (b.recording.after b.turns).1 :=
  follows_after hc b.turns [] (List.append_nil _).symm

/-- The places hold the message of every test. -/
theorem slots_after (hc : b.Complete) :
    (b.after b.turns).1.1.slots = (List.range b.tests.length).map b.message := by
  rw [← pool_recording, (follows_turns hc).slots]
  refine List.map_congr_left fun i hi => ?_
  rw [if_pos ((deliveries_perm hc).mem_iff.2 hi)]

/-- **The results are those of the tests that were run, in the order of the tests.** -/
theorem results_eq (hc : b.Complete) :
    b.result.1.1.results = (List.range b.tests.length).filterMap b.message := by
  by_cases hnil : b.tests = []
  · rw [result_of_nil hnil, hnil]; rfl
  · rw [result_of_ne_nil hnil]
    change (b.after b.turns).1.1.slots.filterMap id = _
    rw [slots_after hc, List.filterMap_map]
    rfl

/-- Every test that was skipped is counted. -/
theorem notRun_eq (hc : b.Complete) :
    b.result.1.1.notRun = (List.range b.tests.length).countP fun i => (b.message i).isNone := by
  by_cases hnil : b.tests = []
  · rw [result_of_nil hnil, hnil]; rfl
  · rw [result_of_ne_nil hnil]
    change (b.after b.turns).1.1.notRun = _
    rw [← pool_recording, (follows_turns hc).notRun, (deliveries_perm hc).countP_eq]

/-- The outcome of a batch that has tests tells whether the run was interrupted at any moment. -/
theorem interrupted_eq (hc : b.Complete) (hne : b.tests ≠ []) :
    b.result.1.1.interrupted = (b.options.interrupted || b.turns.contains .interrupt) := by
  rw [result_of_ne_nil hne]
  change (b.after b.turns).1.1.interrupted = _
  rw [← pool_recording, (follows_turns hc).interrupted]

/-- **The observer is shown every result, in the order of noting, and nothing else.** -/
theorem result_recording (hc : b.Complete) :
    b.recording.result = ((b.result.1.1, b.result.1.2,
      (Turn.deliveries b.turns).filterMap b.message), b.result.2) := by
  by_cases hnil : b.tests = []
  · -- without tests the turns are not looked at, and there are none that note a test
    have hturns : Turn.deliveries b.turns = [] := by
      have hlen := (deliveries_perm hc).length_eq
      rw [hnil] at hlen
      exact List.length_eq_zero_iff.1 hlen
    have hrec : b.recording.tests = [] := hnil
    rw [result_of_nil hrec, result_of_nil hnil, hturns]
    rfl
  · have hrec : b.recording.tests ≠ [] := hnil
    have hforget := after_recording b b.turns
    rw [result_of_ne_nil hrec, result_of_ne_nil hnil, ← hforget, ← (follows_turns hc).calls]
    rfl

end Batch

end Testbench
