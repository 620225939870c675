/-
**The order of results.**

Results are put in the order of their codes by a sort that is stable: results of one code stay in
the order in which they were given.  No other list of the same results does that, so that what is
in order already is left as it is.  When results are given in the order of their tests, which is
strict, the two orders together are strict as well, and then the results alone fix the list.

Main definitions:

* `Testbench.TestResult.Before` — the lower code first, then the path that comes first;
* `Testbench.ResultSet.StablyOrders` — a list is another one in stable order.

Main results:

* `Testbench.ResultSet.ofList_perm`, `Testbench.ResultSet.pairwise_exitCode` — the results are put
  in the order of their codes;
* `Testbench.ResultSet.filter_exitCode` — **results of one code keep their order**;
* `Testbench.ResultSet.eq_of_ascending` — order and stability fix a list;
* `Testbench.ResultSet.ofList_orders_stably` — **results stand in the one stable order**, and each
  of them passed or is among the failures;
* `Testbench.ResultSet.pairwise_before` — results given in the order of their tests;
* `Testbench.TestResult.Before.eq_of_perm` — the results alone fix the order.
-/

import Mathlib.Data.List.Basic
import Testbench.Report.Result

set_option relaxedAutoImplicit false
set_option autoImplicit false

namespace Testbench

/-- One result stands before another: its code is lower, or the codes are the same and its test
comes first in the order of paths. -/
def TestResult.Before (a b : TestResult) : Prop :=
  a.exitCode < b.exitCode ∨ a.exitCode = b.exitCode ∧ Path.cmp a.test b.test = .lt

namespace TestResult.Before

theorem asymm {a b : TestResult} (h : Before a b) : ¬ Before b a := by
  rintro (hba | ⟨hba, hcmp⟩)
  · rcases h with hab | ⟨hab, -⟩ <;> omega
  · rcases h with hab | ⟨-, hlt⟩
    · omega
    · rw [Std.OrientedCmp.gt_iff_lt.2 hlt] at hcmp
      cases hcmp

/-- **The results alone fix the order.** -/
theorem eq_of_perm {l₁ l₂ : List TestResult} (h₁ : l₁.Pairwise Before) (h₂ : l₂.Pairwise Before)
    (hperm : l₁.Perm l₂) : l₁ = l₂ :=
  hperm.eq_of_pairwise (fun _ _ _ _ hab hba => absurd hba hab.asymm) h₁ h₂

end TestResult.Before

namespace ResultSet

/-- The order that results are put in. -/
def codeAtMost (a b : TestResult) : Bool := a.exitCode ≤ b.exitCode

theorem codeAtMost_iff {a b : TestResult} : codeAtMost a b = true ↔ a.exitCode ≤ b.exitCode :=
  decide_eq_true_iff

theorem codeAtMost_trans (a b c : TestResult) (hab : codeAtMost a b = true)
    (hbc : codeAtMost b c = true) : codeAtMost a c = true := by
  rw [codeAtMost_iff] at *
  omega

theorem codeAtMost_total (a b : TestResult) : (codeAtMost a b || codeAtMost b a) = true := by
  rw [Bool.or_eq_true, codeAtMost_iff, codeAtMost_iff]
  omega

theorem ofList_perm (results : List TestResult) : (ofList results).results.Perm results :=
  List.mergeSort_perm ..

theorem size_ofList (results : List TestResult) : (ofList results).size = results.length :=
  (ofList_perm results).length_eq

/-- The codes do not descend. -/
theorem pairwise_exitCode (results : List TestResult) :
    (ofList results).results.Pairwise fun a b => a.exitCode ≤ b.exitCode :=
  (List.pairwise_mergeSort codeAtMost_trans codeAtMost_total results).imp codeAtMost_iff.1

/-- **Results of one code keep their order.** -/
theorem filter_exitCode (results : List TestResult) (code : Int) :
    (ofList results).results.filter (·.exitCode = code) =
      results.filter (·.exitCode = code) := by
  have hsame : (results.filter (·.exitCode = code)).Pairwise
      fun a b => codeAtMost a b = true := by
    refine List.pairwise_of_forall_mem_list fun a ha b hb => ?_
    have ha := of_decide_eq_true (List.mem_filter.1 ha).2
    have hb := of_decide_eq_true (List.mem_filter.1 hb).2
    rw [codeAtMost_iff]
    omega
  -- the results of one code are in order as they stand, and a stable sort leaves them so
  have hsub : (results.filter (·.exitCode = code)).Sublist (ofList results).results :=
    List.sublist_mergeSort codeAtMost_trans codeAtMost_total hsame List.filter_sublist
  have hfilter := hsub.filter (·.exitCode = code)
  rw [List.filter_filter] at hfilter
  simp only [Bool.and_self] at hfilter
  have hlength := ((ofList_perm results).filter (·.exitCode = code)).length_eq
  exact (hfilter.eq_of_length hlength.symm).symm

/-! ### The one stable order -/

/-- A list is another one **in stable order**: it holds the same results, their codes do not
descend, and results of one code stand as they were given. -/
structure StablyOrders (given ordered : List TestResult) : Prop where
  perm : ordered.Perm given
  ascending : ordered.Pairwise fun a b => a.exitCode ≤ b.exitCode
  stable : ∀ code, ordered.filter (·.exitCode = code) = given.filter (·.exitCode = code)

theorem stablyOrders_ofList (given : List TestResult) :
    StablyOrders given (ofList given).results where
  perm := ofList_perm given
  ascending := pairwise_exitCode given
  stable := filter_exitCode given

/-- Lists that hold the same results of every code hold the same results. -/
theorem mem_iff_of_filter_eq {l₁ l₂ : List TestResult}
    (h : ∀ code, l₁.filter (·.exitCode = code) = l₂.filter (·.exitCode = code)) (r : TestResult) :
    r ∈ l₁ ↔ r ∈ l₂ := by
  have hown : ∀ l : List TestResult, r ∈ l ↔ r ∈ l.filter (·.exitCode = r.exitCode) := by
    intro l
    simp [List.mem_filter]
  rw [hown l₁, h, ← hown l₂]

/-- **Order and stability fix a list**: two lists whose codes do not descend are the same if they
hold the same results of every code, in the same order. -/
theorem eq_of_ascending {l₁ l₂ : List TestResult}
    (h₁ : l₁.Pairwise fun a b => a.exitCode ≤ b.exitCode)
    (h₂ : l₂.Pairwise fun a b => a.exitCode ≤ b.exitCode)
    (h : ∀ code, l₁.filter (·.exitCode = code) = l₂.filter (·.exitCode = code)) : l₁ = l₂ := by
  induction l₁ generalizing l₂ with
  | nil =>
      refine (List.eq_nil_iff_forall_not_mem.2 fun b hb => ?_).symm
      exact List.not_mem_nil ((mem_iff_of_filter_eq h b).2 hb)
  | cons a l₁ ih =>
      cases l₂ with
      | nil => exact absurd ((mem_iff_of_filter_eq h a).1 List.mem_cons_self) List.not_mem_nil
      | cons b l₂ =>
          have hba : b.exitCode ≤ a.exitCode := by
            rcases List.mem_cons.1 ((mem_iff_of_filter_eq h a).1 List.mem_cons_self) with rfl | ha
            · exact Int.le_refl _
            · exact List.rel_of_pairwise_cons h₂ ha
          have hab : a.exitCode ≤ b.exitCode := by
            rcases List.mem_cons.1 ((mem_iff_of_filter_eq h b).2 List.mem_cons_self) with rfl | hb
            · exact Int.le_refl _
            · exact List.rel_of_pairwise_cons h₁ hb
          have hcode : a.exitCode = b.exitCode := by omega
          -- both lists begin with the first result of the lowest code
          obtain rfl : a = b := by
            have hfirst := h b.exitCode
            simp only [List.filter_cons, hcode, decide_true, if_true] at hfirst
            exact (List.cons.inj hfirst).1
          have htail : ∀ code, l₁.filter (·.exitCode = code) = l₂.filter (·.exitCode = code) := by
            intro code
            have hboth := h code
            simp only [List.filter_cons] at hboth
            split at hboth
            · exact (List.cons.inj hboth).2
            · exact hboth
          rw [ih h₁.of_cons h₂.of_cons htail]

theorem stablyOrders_iff {given ordered : List TestResult} :
    StablyOrders given ordered ↔ ordered = (ofList given).results := by
  constructor
  · intro h
    refine eq_of_ascending h.ascending (pairwise_exitCode given) fun code => ?_
    rw [h.stable, filter_exitCode]
  · rintro rfl
    exact stablyOrders_ofList given

/-- Results in order are left as they are. -/
theorem ofList_of_ascending {l : List TestResult}
    (h : l.Pairwise fun a b => a.exitCode ≤ b.exitCode) : ofList l = ⟨l⟩ := by
  have hsame : StablyOrders l l := ⟨List.Perm.refl l, h, fun _ => rfl⟩
  have hlist : l = (ofList l).results := stablyOrders_iff.1 hsame
  cases hset : ofList l with
  | mk results => rw [hlist, hset]

/-- Of every result, as many stand among the failures as there are in all, unless it passed. -/
theorem count_failures (s : ResultSet) (r : TestResult) :
    s.failures.count r = if r.outcome = .pass then 0 else s.results.count r := by
  split
  · next hpass =>
      refine List.count_eq_zero.2 fun hmem => ?_
      have hfailed := (List.mem_filter.1 hmem).2
      simp [hpass, Outcome.isPass] at hfailed
  · next hpass =>
      refine List.count_filter ?_
      cases hout : r.outcome <;> simp_all [Outcome.isPass]

/-- **Results stand in the one stable order.**  A list of results in order holds the same results,
their codes do not descend, and results of one code stand as they were given; no other list does
that, so that putting results in order again changes nothing.  Every result passed or is among the
failures, which stand in the order of all results and are those that are no pass. -/
theorem ofList_orders_stably (given : List TestResult) :
    (∀ ordered, StablyOrders given ordered ↔ ordered = (ofList given).results) ∧
      ofList (ofList given).results = ofList given ∧
      (ofList given).size = given.length ∧
      (ofList given).passed = given.countP (·.outcome = .pass) ∧
      (ofList given).passed + (ofList given).failures.length = (ofList given).size ∧
      (ofList given).failures.Sublist (ofList given).results ∧
      ∀ r, (ofList given).failures.count r = if r.outcome = .pass then 0 else given.count r := by
  refine ⟨fun ordered => stablyOrders_iff, ?_, size_ofList given, ?_,
    passed_add_failures _, List.filter_sublist, fun r => ?_⟩
  · exact ofList_of_ascending (pairwise_exitCode given)
  · rw [passed, (ofList_perm given).countP_eq]
    refine List.countP_congr fun r _ => ?_
    cases hout : r.outcome <;> simp [Outcome.isPass]
  · rw [count_failures, (ofList_perm given).count_eq]

/-- Results that are given in the order of their tests stand in a strict order. -/
theorem pairwise_before {results : List TestResult}
    (h : (results.map (·.test)).Pairwise fun p q => Path.cmp p q = .lt) :
    (ofList results).results.Pairwise TestResult.Before := by
  refine List.pairwise_iff_forall_sublist.2 fun {a b} hab => ?_
  have hle := List.pairwise_iff_forall_sublist.1 (pairwise_exitCode results) hab
  rcases Int.lt_or_eq_of_le hle with hlt | heq
  · exact Or.inl hlt
  · -- both results stand in the list of their code, which the sort has left as it was
    refine Or.inr ⟨heq, ?_⟩
    have hfilter := hab.filter (·.exitCode = b.exitCode)
    rw [filter_exitCode] at hfilter
    simp only [List.filter_cons, heq, decide_true, if_true, List.filter_nil] at hfilter
    have hpair := List.pairwise_map.1 h
    exact List.pairwise_iff_forall_sublist.1 hpair (hfilter.trans List.filter_sublist)

end ResultSet

end Testbench
