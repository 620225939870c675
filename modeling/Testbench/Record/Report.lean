/-
**Reports as data.**

Main definitions:

* `Testbench.Outcome.toData`, `Testbench.Outcome.ofData?` — outcomes, told apart by their kind;
* `Testbench.TestResult.toData`, `Testbench.TestResult.ofData?` — results;
* `Testbench.ResultSet.toData`, `Testbench.ResultSet.ofData?` — results in order;
* `Testbench.Summary.toData`, `Testbench.Summary.ofData?` — counters;
* `Testbench.Report.toData`, `Testbench.Report.ofData?` — reports.
-/

import Testbench.Record.Command
import Testbench.Report.Result

set_option relaxedAutoImplicit false
set_option autoImplicit false

namespace Testbench

namespace Outcome

/-- An outcome as data: its kind, and what belongs to that kind. -/
def toData : Outcome → Data
  | pass => .record [("kind", .text "pass")]
  | fail code => .record [("kind", .text "fail"), ("code", .int code)]
  | crashOrTimeout reason =>
      .record [("kind", .text "crash_or_timeout"), ("reason", .text reason)]

/-- The outcome of a kind with its fields. -/
def ofKind? (kind : String) (fields : Data.Fields) : Option Outcome :=
  if kind = "pass" then some pass
  else if kind = "fail" then (Data.field fields "code" Data.integer?).map fail
  else if kind = "crash_or_timeout" then
    (Data.field fields "reason" Data.text?).map crashOrTimeout
  else none

/-- The fields that belong to a kind. -/
def kindFields (kind : String) : List String :=
  if kind = "fail" then ["code"] else if kind = "crash_or_timeout" then ["reason"] else []

/-- The outcome that data describe.  A list has the kind first and may not be longer than the kind
allows. -/
def ofData? : Data → Option Outcome
  | .record fields => (Data.field fields "kind" Data.text?).bind fun kind => ofKind? kind fields
  | .list (.text kind :: items) =>
      if (kindFields kind).length < items.length then none
      else ofKind? kind ((kindFields kind).zip items)
  | _ => none

end Outcome

namespace TestResult

/-- The fields of a result, in order. -/
def fieldNames : List String := ["test", "exit_code", "combined_output", "outcome", "duration_ms"]

/-- A result as data. -/
def toData (r : TestResult) : Data :=
  .record
    [("test", r.test.toData), ("exit_code", .int r.exitCode), ("combined_output", .text r.output),
      ("outcome", r.outcome.toData), ("duration_ms", .ofNat r.durationMs)]

/-- The result that data describe. -/
def ofData? (v : Data.Convention) (d : Data) : Option TestResult := do
  let fields ← d.fields? v fieldNames 5
  let test ← Data.field fields "test" Path.ofData?
  let exitCode ← Data.field fields "exit_code" Data.integer?
  let output ← Data.field fields "combined_output" Data.text?
  let outcome ← Data.field fields "outcome" Outcome.ofData?
  let durationMs ← Data.field fields "duration_ms" Data.natural?
  return { test, exitCode, output, outcome, durationMs }

end TestResult

namespace ResultSet

/-- Results as data, in their order. -/
def toData (s : ResultSet) : Data := .list (s.results.map TestResult.toData)

/-- The results that data describe, in the order in which they are written. -/
def ofData? (v : Data.Convention) (d : Data) : Option ResultSet :=
  (d.list? (TestResult.ofData? v)).map ResultSet.mk

end ResultSet

namespace Summary

/-- The fields of the counters, in order. -/
def fieldNames : List String :=
  ["dispatched", "passed", "failed", "not_run", "duration_ms", "interrupted"]

/-- Counters as data; the mark of an interrupt is left out when there is none. -/
def toData (s : Summary) : Data :=
  .record
    ([("dispatched", .ofNat s.dispatched), ("passed", .ofNat s.passed),
      ("failed", .ofNat s.failed), ("not_run", .ofNat s.notRun),
      ("duration_ms", .ofNat s.durationMs)] ++
      Data.fieldIfAny "interrupted" Data.bool s.interrupted)

/-- The counters that data describe. -/
def ofData? (v : Data.Convention) (d : Data) : Option Summary := do
  let fields ← d.fields? v fieldNames 6
  let dispatched ← Data.field fields "dispatched" Data.natural?
  let passed ← Data.field fields "passed" Data.natural?
  let failed ← Data.field fields "failed" Data.natural?
  let notRun ← Data.field fields "not_run" Data.natural?
  let durationMs ← Data.field fields "duration_ms" Data.natural?
  let interrupted ← Data.optional fields "interrupted" Data.bool?
  return { dispatched, passed, failed, notRun, durationMs, interrupted }

end Summary

/-- A moment as data. -/
def Moment.toData (m : Moment) : Data := .text m.text

/-- The moment that a text spells. -/
def Moment.ofData? (d : Data) : Option Moment := d.text?.bind Moment.parse?

namespace Report

/-- The fields of a report, in order. -/
def fieldNames : List String := ["started_at", "smoke", "results", "summary"]

/-- A report as data; the smoke test is left out when there was none. -/
def toData (r : Report) : Data :=
  .record
    (("started_at", r.startedAt.toData) ::
      (Data.fieldIfAny "smoke" TestResult.toData r.smoke ++
        [("results", r.results.toData), ("summary", r.summary.toData)]))

/-- The report that data describe. -/
def ofData? (v : Data.Convention) (d : Data) : Option Report := do
  let fields ← d.fields? v fieldNames 4
  let startedAt ← Data.field fields "started_at" Moment.ofData?
  let smoke ← Data.optional fields "smoke" (TestResult.ofData? v)
  let results ← Data.field fields "results" (ResultSet.ofData? v)
  let summary ← Data.field fields "summary" (Summary.ofData? v)
  return { startedAt, smoke, results, summary }

end Report

end Testbench
