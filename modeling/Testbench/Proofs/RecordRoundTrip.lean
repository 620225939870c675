/-
**Records that come back.**

Whatever is configured or reported can be written down and read again.  For every record it is shown
which fields are written and that each of them comes back, next to the fields of a command and where
fields are left out.  The numbers have to fit where they are kept: counters in 64 bits, exit codes
in 32, and moments in a year of up to four digits.

Main definitions:

* `Testbench.Config.Fits`, `Testbench.Layer.Fits`, `Testbench.Outcome.Fits`,
  `Testbench.TestResult.Fits`, `Testbench.Summary.Fits`, `Testbench.Report.Fits` — the numbers fit;
* `Testbench.Json.RoundTrips` — a value comes back from data and from both layouts.

Main results:

* `Testbench.Config.recovers`, `Testbench.Layer.recovers` — configurations and layers come back;
* `Testbench.TestResult.recovers`, `Testbench.Report.recovers` — results and reports come back;
* `Testbench.Json.roundTrips_records` — **every record comes back from JSON**, and a report from the
  text that is written for it.
-/

import Testbench.Proofs.MomentText
import Testbench.Proofs.Recovery
import Testbench.Record.Config
import Testbench.Record.Report
import Testbench.Report.Text

set_option relaxedAutoImplicit false
set_option autoImplicit false

namespace Testbench

/-! ### Commands -/

theorem Path.recovers (p : Path) : Data.Recovers Path.toData Path.ofData? p := ⟨nofun, rfl, rfl⟩

namespace Command

theorem fieldsExact_toFields (c : Command) : Data.fieldsExact c.toFields = true := by
  have hargs := (Data.recovers_texts c.args).exact
  rw [toFields, Data.fieldsExact_append, Data.fieldsExact_fieldIfAny fun p _ => p.recovers,
    Bool.and_true, Data.fieldsExact, Data.fieldsExact, hargs]
  rfl

/-- **Other fields may stand behind those of a command**, under names of their own. -/
theorem ofFields?_append (c : Command) {others : Data.Fields}
    (h : ∀ name ∈ ["program", "args", "workdir"], Data.get? others name = none) :
    ofFields? (c.toFields ++ others) = some c := by
  have hprogram : Data.get? others "program" = none := h _ (by simp)
  have hargs : Data.get? others "args" = none := h _ (by simp)
  have hworkdir : Data.get? others "workdir" = none := h _ (by simp)
  rw [ofFields?]
  refine Data.bind_field (Data.recovers_text c.program) (by simp [toFields, hprogram]) ?_
  refine Data.bind_defaulted [] (Data.recovers_texts c.args) (by simp [toFields, hargs]) ?_
  exact Data.bind_leftOut (fun p _ => p.recovers) (by simp [toFields, hworkdir]) rfl

theorem recovers (v : Data.Convention) (c : Command) : Data.Recovers toData (ofData? v) c where
  present := nofun
  exact := c.fieldsExact_toFields
  read := by
    have halone : ofFields? (c.toFields ++ []) = some c := c.ofFields?_append fun _ _ => rfl
    rwa [List.append_nil] at halone

end Command

/-- The flags stand next to the fields of the command. -/
theorem Simulator.recovers (s : Simulator) : Data.Recovers toData ofData? s where
  present := nofun
  exact := by
    have hflags := (Data.recovers_texts s.flags).exact
    rw [toData, Data.isExact, Data.fieldsExact_append, s.base.fieldsExact_toFields,
      Data.fieldsExact, hflags]
    rfl
  read := by
    rw [ofData?]
    refine Option.bind_eq_some_iff.2 ⟨_, rfl, ?_⟩
    refine Data.bind_defaulted [] (Data.recovers_texts s.flags) (by simp) ?_
    exact Option.bind_eq_some_iff.2 ⟨s.base, s.base.ofFields?_append (by simp), rfl⟩

/-- The command that configures a release stands next to the fields of the command that builds. -/
theorem BuildSpec.recovers (v : Data.Convention) (b : BuildSpec) :
    Data.Recovers toData (ofData? v) b := by
  have hconfigure : ∀ c, b.releaseConfigure = some c → Data.Recovers _ (Command.ofData? v) c :=
    fun c _ => c.recovers v
  refine ⟨nofun, ?_, ?_⟩
  · rw [toData, Data.isExact, Data.fieldsExact_append, b.command.fieldsExact_toFields,
      Data.fieldsExact_fieldIfAny hconfigure]
    rfl
  · rw [ofData?]
    refine Option.bind_eq_some_iff.2 ⟨_, rfl, ?_⟩
    refine Data.bind_leftOut hconfigure (by simp [Command.toFields]) ?_
    exact Option.bind_eq_some_iff.2 ⟨b.command, b.command.ofFields?_append (by simp), rfl⟩

theorem Riscof.recovers (v : Data.Convention) (r : Riscof) :
    Data.Recovers toData (ofData? v) r where
  present := nofun
  exact := rfl
  read := by
    rw [ofData?]
    refine Option.bind_eq_some_iff.2 ⟨_, rfl, ?_⟩
    refine Data.bind_field r.dir.recovers rfl ?_
    refine Data.bind_field r.artifact.recovers rfl ?_
    exact Data.bind_defaulted _ (Data.recovers_text r.script) rfl rfl

/-! ### Configurations -/

theorem PathStyle.recovers (v : Data.Convention) (s : PathStyle) :
    Data.Recovers toData (ofData? v) s where
  present := nofun
  exact := rfl
  read := by cases s <;> rfl

/-- A switch is told from a value by what is written for it. -/
theorem Toggle.recovers {α : Type} {write : α → Data} {read? : Data → Option α}
    (h : ∀ a, Data.Recovers write read? a) (hbool : ∀ a on, write a ≠ .bool on) (t : Toggle α) :
    Data.Recovers (toData write) (ofData? read?) t := by
  cases t with
  | enabled on => exact ⟨nofun, rfl, rfl⟩
  | set a =>
      -- what is written for the value is no truth value, so it is not taken for a switch
      refine ⟨(h a).present, (h a).exact, ?_⟩
      show ofData? read? (write a) = some (set a)
      rw [ofData?, (h a).read]
      · rfl
      · exact hbool a

namespace Config

/-- The numbers of a configuration fit in 64 bits. -/
structure Fits (c : Config) : Prop where
  jobs : Data.FitsNatural c.jobs
  timeoutSecs : ∀ n, c.timeoutSecs = some n → Data.FitsNatural n

theorem recovers (v : Data.Convention) {c : Config} (h : c.Fits) :
    Data.Recovers toData (ofData? v) c := by
  have hbuild : ∀ b, c.build = some b → Data.Recovers _ (BuildSpec.ofData? v) b :=
    fun b _ => BuildSpec.recovers v b
  have hsmoke : ∀ p, c.smoke = some p → Data.Recovers _ Path.ofData? p := fun p _ => p.recovers
  have htimeout : ∀ n, c.timeoutSecs = some n → Data.Recovers _ Data.natural? n :=
    fun n hn => Data.recovers_natural (h.timeoutSecs n hn)
  have hriscof : ∀ r, c.riscof = some r → Data.Recovers _ (Riscof.ofData? v) r :=
    fun r _ => Riscof.recovers v r
  refine ⟨nofun, ?_, ?_⟩
  · simp only [toData, Data.isExact, Data.fieldsExact, Bool.and_eq_true, and_true]
    exact ⟨rfl, (Data.recovers_texts _).exact, (Data.recovers_texts _).exact,
      (Data.recovers_texts _).exact, c.simulator.recovers.exact, Data.isExact_ofOption hbuild,
      Data.isExact_ofOption hsmoke, rfl, Data.isExact_ofOption htimeout, rfl,
      Data.isExact_ofOption hriscof⟩
  · rw [ofData?]
    refine Option.bind_eq_some_iff.2 ⟨_, rfl, ?_⟩
    -- in the order in which the fields are asked for
    refine Data.bind_field c.root.recovers rfl ?_
    refine Data.bind_field (Data.recovers_texts c.patterns) rfl ?_
    refine Data.bind_field (Data.recovers_texts c.skip) rfl ?_
    refine Data.bind_field (Data.recovers_texts c.excludedSuffixes) rfl ?_
    refine Data.bind_field c.simulator.recovers rfl ?_
    refine Data.bind_optional hbuild rfl ?_
    refine Data.bind_optional hsmoke rfl ?_
    refine Data.bind_field (Data.recovers_natural h.jobs) rfl ?_
    refine Data.bind_optional htimeout rfl ?_
    refine Data.bind_field (PathStyle.recovers v c.reportPaths) rfl ?_
    exact Data.bind_optional hriscof rfl rfl

end Config

namespace Layer

/-- The numbers that a layer sets fit in 64 bits. -/
structure Fits (l : Layer) : Prop where
  jobs : ∀ n, l.jobs = some n → Data.FitsNatural n
  timeoutSecs : ∀ n, l.timeoutSecs = some n → Data.FitsNatural n

/-- A layer is written with fields that layers know. -/
theorem knowsAll_of_toData {l : Layer} {fields : Data.Fields} (h : l.toData = .record fields) :
    knowsAll fields = true := by
  cases h
  rfl

theorem recovers (v : Data.Convention) {l : Layer} (h : l.Fits) :
    Data.Recovers toData (ofData? v) l := by
  have hpreset : ∀ s, l.preset = some s → Data.Recovers _ Data.text? s :=
    fun s _ => Data.recovers_text s
  have hroot : ∀ p, l.root = some p → Data.Recovers _ Path.ofData? p := fun p _ => p.recovers
  have htexts : ∀ o : Option (List String), ∀ ss, o = some ss → Data.Recovers _ Data.texts? ss :=
    fun _ ss _ => Data.recovers_texts ss
  have hsimulator : ∀ s, l.simulator = some s → Data.Recovers _ Simulator.ofData? s :=
    fun s _ => s.recovers
  have hbuild : ∀ t, l.build = some t → Data.Recovers _
      (Toggle.ofData? (BuildSpec.ofData? { v with refusesExtraItems := true })) t :=
    fun t _ => Toggle.recovers (BuildSpec.recovers _) nofun t
  have hsmoke : ∀ t, l.smoke = some t → Data.Recovers _ (Toggle.ofData? Path.ofData?) t :=
    fun t _ => Toggle.recovers Path.recovers nofun t
  have hjobs : ∀ n, l.jobs = some n → Data.Recovers _ Data.natural? n :=
    fun n hn => Data.recovers_natural (h.jobs n hn)
  have htimeout : ∀ n, l.timeoutSecs = some n → Data.Recovers _ Data.natural? n :=
    fun n hn => Data.recovers_natural (h.timeoutSecs n hn)
  have hpaths : ∀ s, l.reportPaths = some s → Data.Recovers _ (PathStyle.ofData? v) s :=
    fun s _ => PathStyle.recovers v s
  have hriscof : ∀ r, l.riscof = some r → Data.Recovers _ (Riscof.ofData? v) r :=
    fun r _ => Riscof.recovers v r
  refine ⟨nofun, ?_, ?_⟩
  · simp only [toData, Data.isExact, Data.fieldsExact, Bool.and_eq_true, and_true]
    exact ⟨Data.isExact_ofOption hpreset, Data.isExact_ofOption hroot,
      Data.isExact_ofOption (htexts _), Data.isExact_ofOption (htexts _),
      Data.isExact_ofOption (htexts _), Data.isExact_ofOption hsimulator,
      Data.isExact_ofOption hbuild, Data.isExact_ofOption hsmoke, Data.isExact_ofOption hjobs,
      Data.isExact_ofOption htimeout, Data.isExact_ofOption hpaths,
      Data.isExact_ofOption hriscof⟩
  · rw [ofData?]
    refine Option.bind_eq_some_iff.2 ⟨_, rfl, ?_⟩
    refine (if_neg ?_).trans ?_
    · rw [knowsAll_of_toData rfl]
      exact Bool.false_ne_true
    refine Data.bind_optional hpreset rfl ?_
    refine Data.bind_optional hroot rfl ?_
    refine Data.bind_optional (htexts l.patterns) rfl ?_
    refine Data.bind_optional (htexts l.skip) rfl ?_
    refine Data.bind_optional (htexts l.excludedSuffixes) rfl ?_
    refine Data.bind_optional hsimulator rfl ?_
    refine Data.bind_optional hbuild rfl ?_
    refine Data.bind_optional hsmoke rfl ?_
    refine Data.bind_optional hjobs rfl ?_
    refine Data.bind_optional htimeout rfl ?_
    refine Data.bind_optional hpaths rfl ?_
    exact Data.bind_optional hriscof rfl rfl

end Layer

/-! ### Reports -/

namespace Outcome

/-- The code of a failure fits in 32 bits. -/
def Fits (o : Outcome) : Prop := ∀ code, o = fail code → Data.FitsInteger code

/-- Every kind brings what belongs to it. -/
theorem recovers {o : Outcome} (h : o.Fits) : Data.Recovers toData ofData? o := by
  cases o with
  | pass => exact ⟨nofun, rfl, rfl⟩
  | fail code =>
      refine ⟨nofun, rfl, ?_⟩
      have hcode := (Data.recovers_integer (h code rfl)).read
      show (Data.integer? (.int code)).map fail = some (fail code)
      rw [hcode]
      rfl
  | crashOrTimeout reason => exact ⟨nofun, rfl, rfl⟩

end Outcome

namespace TestResult

/-- The numbers of a result fit. -/
structure Fits (r : TestResult) : Prop where
  exitCode : Data.FitsInteger r.exitCode
  outcome : r.outcome.Fits
  durationMs : Data.FitsNatural r.durationMs

theorem recovers (v : Data.Convention) {r : TestResult} (h : r.Fits) :
    Data.Recovers toData (ofData? v) r := by
  refine ⟨nofun, ?_, ?_⟩
  · simp only [toData, Data.isExact, Data.fieldsExact, Bool.and_eq_true, and_true]
    exact ⟨rfl, trivial, trivial, (Outcome.recovers h.outcome).exact, rfl⟩
  · rw [ofData?]
    refine Option.bind_eq_some_iff.2 ⟨_, rfl, ?_⟩
    refine Data.bind_field r.test.recovers rfl ?_
    refine Data.bind_field (Data.recovers_integer h.exitCode) rfl ?_
    refine Data.bind_field (Data.recovers_text r.output) rfl ?_
    refine Data.bind_field (Outcome.recovers h.outcome) rfl ?_
    exact Data.bind_field (Data.recovers_natural h.durationMs) rfl rfl

end TestResult

namespace ResultSet

/-- The numbers of every result fit. -/
def Fits (s : ResultSet) : Prop := ∀ r ∈ s.results, r.Fits

/-- **Results come back in their order.** -/
theorem recovers (v : Data.Convention) {s : ResultSet} (h : s.Fits) :
    Data.Recovers toData (ofData? v) s := by
  have hlist := Data.recovers_list fun r hr => TestResult.recovers v (h r hr)
  exact ⟨nofun, hlist.exact, congrArg (Option.map ResultSet.mk) hlist.read⟩

end ResultSet

namespace Summary

/-- The counters fit in 64 bits. -/
structure Fits (s : Summary) : Prop where
  dispatched : Data.FitsNatural s.dispatched
  passed : Data.FitsNatural s.passed
  failed : Data.FitsNatural s.failed
  notRun : Data.FitsNatural s.notRun
  durationMs : Data.FitsNatural s.durationMs

theorem recovers (v : Data.Convention) {s : Summary} (h : s.Fits) :
    Data.Recovers toData (ofData? v) s := by
  have hinterrupted : ∀ b, s.interrupted = some b → Data.Recovers _ Data.bool? b :=
    fun b _ => Data.recovers_bool b
  refine ⟨nofun, ?_, ?_⟩
  · rw [toData, Data.isExact, Data.fieldsExact_append, Data.fieldsExact_fieldIfAny hinterrupted]
    rfl
  · rw [ofData?]
    refine Option.bind_eq_some_iff.2 ⟨_, rfl, ?_⟩
    refine Data.bind_field (Data.recovers_natural h.dispatched) (by simp) ?_
    refine Data.bind_field (Data.recovers_natural h.passed) (by simp) ?_
    refine Data.bind_field (Data.recovers_natural h.failed) (by simp) ?_
    refine Data.bind_field (Data.recovers_natural h.notRun) (by simp) ?_
    refine Data.bind_field (Data.recovers_natural h.durationMs) (by simp) ?_
    exact Data.bind_leftOut hinterrupted (by simp) rfl

end Summary

theorem Moment.recovers {m : Moment} (h : m.Fits) : Data.Recovers toData ofData? m :=
  ⟨nofun, rfl, Moment.parse?_text h⟩

namespace Report

/-- The moment and all numbers of a report fit. -/
structure Fits (r : Report) : Prop where
  startedAt : r.startedAt.Fits
  smoke : ∀ s, r.smoke = some s → s.Fits
  results : r.results.Fits
  summary : r.summary.Fits

theorem recovers (v : Data.Convention) {r : Report} (h : r.Fits) :
    Data.Recovers toData (ofData? v) r := by
  have hsmoke : ∀ s, r.smoke = some s → Data.Recovers _ (TestResult.ofData? v) s :=
    fun s hs => TestResult.recovers v (h.smoke s hs)
  have hresults := ResultSet.recovers v h.results
  have hsummary := Summary.recovers v h.summary
  refine ⟨nofun, ?_, ?_⟩
  · rw [toData, Data.isExact, Data.fieldsExact, Data.fieldsExact_append,
      Data.fieldsExact_fieldIfAny hsmoke, Data.fieldsExact, hresults.exact, Data.fieldsExact,
      hsummary.exact]
    rfl
  · rw [ofData?]
    refine Option.bind_eq_some_iff.2 ⟨_, rfl, ?_⟩
    refine Data.bind_field (Moment.recovers h.startedAt) (by simp) ?_
    refine Data.bind_leftOut hsmoke (by simp) ?_
    refine Data.bind_field hresults (by simp) ?_
    exact Data.bind_field hsummary (by simp) rfl

end Report

/-! ### JSON -/

namespace Json

/-- The value comes back from data, from one line and from several lines of JSON. -/
structure RoundTrips {α : Type} (write : α → Data) (read? : Data → Option α) (a : α) : Prop where
  data : read? (write a) = some a
  compact : (parse? (String.ofList (compact (write a)))).bind read? = some a
  pretty : (parse? (String.ofList (pretty (write a)))).bind read? = some a

/-- The text over several lines may be followed by blanks. -/
theorem bind_parse?_pretty {α : Type} {write : α → Data} {read? : Data → Option α} {a : α}
    (h : Data.Recovers write read? a) (gap : String) (hgap : Gap gap.toList) :
    (parse? (String.ofList (pretty (write a)) ++ gap)).bind read? = some a := by
  rw [parse?_pretty h.exact hgap, Option.bind_some, h.read]

theorem roundTrips_of_recovers {α : Type} {write : α → Data} {read? : Data → Option α} {a : α}
    (h : Data.Recovers write read? a) : RoundTrips write read? a where
  data := h.read
  compact := by rw [parse?_compact h.exact, Option.bind_some, h.read]
  pretty := by
    have hpretty := bind_parse?_pretty h "" gap_nil
    rwa [String.append_empty] at hpretty

/-- **Every record comes back from JSON**, as it was: the order of results, which fields have a
value, the fields of commands next to others, and switches next to values.  And **a report comes
back from the text that is written for it**, whatever the programs have printed. -/
theorem roundTrips_records :
    (∀ c : Config, c.Fits → RoundTrips Config.toData (Config.ofData? convention) c) ∧
    (∀ l : Layer, l.Fits → RoundTrips Layer.toData (Layer.ofData? convention) l) ∧
    (∀ s : Simulator, RoundTrips Simulator.toData Simulator.ofData? s) ∧
    (∀ b : BuildSpec, RoundTrips BuildSpec.toData (BuildSpec.ofData? convention) b) ∧
    (∀ r : Riscof, RoundTrips Riscof.toData (Riscof.ofData? convention) r) ∧
    (∀ c : Command, RoundTrips Command.toData (Command.ofData? convention) c) ∧
    (∀ o : Outcome, o.Fits → RoundTrips Outcome.toData Outcome.ofData? o) ∧
    (∀ r : TestResult, r.Fits →
      RoundTrips TestResult.toData (TestResult.ofData? convention) r) ∧
    (∀ s : ResultSet, s.Fits → RoundTrips ResultSet.toData (ResultSet.ofData? convention) s) ∧
    (∀ s : Summary, s.Fits → RoundTrips Summary.toData (Summary.ofData? convention) s) ∧
    (∀ r : Report, r.Fits → RoundTrips Report.toData (Report.ofData? convention) r) ∧
    (∀ r : Report, r.Fits → (parse? r.json).bind (Report.ofData? convention) = some r) := by
  refine ⟨fun c h => ?config, fun l h => ?layer, fun s => ?simulator, fun b => ?build,
    fun r => ?riscof, fun c => ?command, fun o h => ?outcome, fun r h => ?result,
    fun s h => ?results, fun s h => ?summary, fun r h => ?report, fun r h => ?text⟩
  case config => exact roundTrips_of_recovers (Config.recovers _ h)
  case layer => exact roundTrips_of_recovers (Layer.recovers _ h)
  case simulator => exact roundTrips_of_recovers s.recovers
  case build => exact roundTrips_of_recovers (b.recovers _)
  case riscof => exact roundTrips_of_recovers (r.recovers _)
  case command => exact roundTrips_of_recovers (c.recovers _)
  case outcome => exact roundTrips_of_recovers (Outcome.recovers h)
  case result => exact roundTrips_of_recovers (TestResult.recovers _ h)
  case results => exact roundTrips_of_recovers (ResultSet.recovers _ h)
  case summary => exact roundTrips_of_recovers (Summary.recovers _ h)
  case report => exact roundTrips_of_recovers (Report.recovers _ h)
  case text => exact bind_parse?_pretty (Report.recovers _ h) "\n" rfl

/-- Output with a bell, a colour, quotes, a line separator and a character beyond 16 bits. -/
def noisyResult : TestResult where
  test := ⟨"tests/add \"0\".elf"⟩
  exitCode := -11
  output := "\x07\x1b[31m\"no\" C:\\x\r\n\x00\u2028é🦀"
  outcome := .crashOrTimeout "terminated by signal 11"
  durationMs := 18446744073709551615

/-- A run that began in a leap second. -/
def noisyReport : Report where
  startedAt := ⟨⟨2016, 12, 31⟩, 23, 59, 59, 1000000001⟩
  smoke := some noisyResult
  results := ⟨[noisyResult, { noisyResult with exitCode := 1, outcome := .fail 1 }]⟩
  summary := ⟨2, 0, 2, 3, 0, some true⟩

/-- The report of such a run, and a layer with a switch and a value. -/
theorem roundTrips_noisyReport :
    let layer : Layer := { build := some (.enabled false), smoke := some (.set ⟨"true"⟩) }
    noisyReport.Fits ∧ (parse? noisyReport.json).bind (Report.ofData? convention) =
        some noisyReport ∧
      layer.Fits ∧ RoundTrips Layer.toData (Layer.ofData? convention) layer := by
  intro layer
  have hcrash : noisyResult.Fits := ⟨by decide, nofun, by decide⟩
  have hfail : ({ noisyResult with exitCode := 1, outcome := .fail 1 } : TestResult).Fits := by
    refine ⟨by decide, ?_, by decide⟩
    rintro _ ⟨⟩
    decide
  have hstarted : noisyReport.startedAt.Fits :=
    ⟨by decide, by decide, by decide, by decide, by decide, by decide⟩
  have hreport : noisyReport.Fits := by
    refine ⟨hstarted, ?_, ?_, by decide, by decide, by decide, by decide, by decide⟩
    · rintro _ ⟨⟩
      exact hcrash
    · intro r hr
      rcases List.mem_cons.1 hr with rfl | hr
      · exact hcrash
      · rw [List.mem_singleton.1 hr]
        exact hfail
  have hlayer : layer.Fits := ⟨nofun, nofun⟩
  obtain ⟨-, hlayers, -, -, -, -, -, -, -, -, -, htexts⟩ := roundTrips_records
  exact ⟨hreport, htexts noisyReport hreport, hlayer, hlayers layer hlayer⟩

end Json

end Testbench
