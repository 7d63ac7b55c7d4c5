import TelemetryPlatform.Library.Numeral
import TelemetryPlatform.Library.PosixPath
import TelemetryPlatform.Library.Program
import TelemetryPlatform.Library.WholeRuntime

/-!
# The terratest suite

`run_suite` of `scripts/run_terratest.py` runs the modules one after the other, writes
a summary and exits. A run of a module may return or raise anything; what a shell sees of
it on its own is `shellStatus`.

Of a module's own exceptions only `SystemExit` is caught. The code of it is taken as it is when it
is an integer, where the interpreter keeps the lowest eight bits, and as 1 otherwise, where
the interpreter has 0 for `None`.
-/

namespace Terratest

open Python Interaction

section Calls

/-- The `code` of a `SystemExit`. A Boolean is the integer that it is equal to. -/
inductive ExitCode where
  | none
  | int (code : Int)
  | other (text : Str)
deriving DecidableEq

/-- What ends the run of a module that does not return. -/
inductive Raised where
  | systemExit (code : ExitCode)
  | other (text : Str)
deriving DecidableEq

abbrev Ending := Except Raised Unit

/-- A row of the summary. -/
structure Row where
  module : Str
  pass : Bool
  exitCode : Int
deriving DecidableEq

/-- What is written to the summary: `{}`, or the results. -/
inductive Summary where
  | empty
  | results (rows : List Row)
deriving DecidableEq

inductive Call where
  | parentExists (path : Str)
  | writeText (path : Str) (summary : Summary)
  | singleModuleMain (modulePath : Str)
  | print (lines : List Str)

/-- A write that fails answers with the text of its `OSError`. -/
@[reducible]
def Call.Reply : Call → Type
  | .parentExists _ => Bool
  | .writeText _ _ => Except Str Unit
  | .singleModuleMain _ => Ending
  | .print _ => Unit

/-- `sys.exit` after a text on the standard error, or what a module raised. -/
inductive SuiteError where
  | exit (code : Int) (stderr : Str)
  | raised (text : Str)

abbrev SuiteEvent := Event Call Call.Reply

abbrev Suite := Program Call Call.Reply SuiteError

end Calls

section Suite

/-- An entry of `results`. -/
structure Result where
  module : Str
  name : Str
  exitCode : Int

/-- `pathlib.Path(path).name`. -/
def nameOf (path : Str) : Str := ((PosixPath.ofText path).name.map Subtype.val).getD []

/-- `exc.code if isinstance(exc.code, int) else 1`. -/
def ExitCode.caught : ExitCode → Int
  | .int code => code
  | _ => 1

variable (rt : Runtime)

/-- The summary path is tried before any module runs. -/
def trySummary (summaryJsonPath : Option Str) : Suite Unit := do
  match summaryJsonPath with
  | none => return ()
  | some path =>
      if !(← Program.perform (Call.parentExists path)) then
        throw (.exit 1 (str "ERROR: cannot write --summary-json path " ++ rt.reprStr path ++
          str ": parent directory " ++ rt.reprStr (PosixPath.ofText path).parent.text ++
          str " does not exist"))
      match ← Program.perform (Call.writeText path .empty) with
      | .ok () => return ()
      | .error text =>
          throw (.exit 1 (str "ERROR: cannot write --summary-json path " ++ rt.reprStr path ++
            str ": " ++ text))

/-- The body of the loop over the modules. -/
def runModule (modulePath : Str) : Suite Result := do
  match ← Program.perform (Call.singleModuleMain modulePath) with
  | .ok () => return ⟨modulePath, nameOf modulePath, 0⟩
  | .error (.systemExit code) => return ⟨modulePath, nameOf modulePath, code.caught⟩
  | .error (.other text) => throw (.raised text)

/-- The status that the table and the summary show. -/
def statusText (exitCode : Int) : Str := if exitCode = 0 then str "PASS" else str "FAIL"

/-- `f"{text:<{width}}"`. -/
def padded (width : Nat) (text : Str) : Str :=
  text ++ List.replicate (width - text.length) (.char ' ')

/-- The lines of `_print_suite_summary`. -/
def summaryLines (results : List Result) : List Str :=
  let colWidth := ((results.map fun r => r.name.length).max?).getD 20
  let header := padded colWidth (str "MODULE") ++ str "  STATUS"
  let separator := List.replicate header.length (.char '-')
  [separator, header, separator] ++
    results.map (fun r => padded colWidth r.name ++ str "  " ++ statusText r.exitCode) ++
    [separator]

def rowOf (r : Result) : Row := ⟨r.module, decide (r.exitCode = 0), r.exitCode⟩

/-- The line that names the modules that failed. -/
def failedText (failing : List Str) : Str :=
  str "FAILED modules (" ++ numeral failing.length ++ str "): " ++
    (str ", ").intercalate (failing.map nameOf)

/-- What `run_suite` does when the loop is over. -/
def report (summaryJsonPath : Option Str) (results : List Result) : Suite Unit := do
  Program.perform (Call.print (summaryLines results))
  match summaryJsonPath with
  | none => pure ()
  | some path =>
      match ← Program.perform (Call.writeText path (.results (results.map rowOf))) with
      | .ok () => pure ()
      | .error text =>
          throw (.exit 1 (str "ERROR: failed to write summary JSON to " ++ rt.reprStr path ++
            str ": " ++ text))
  let failing := (results.filter fun r => r.exitCode ≠ 0).map Result.module
  if failing ≠ [] then
    throw (.exit 1 (failedText failing))
  throw (.exit 0 [])

/-- `run_suite`. -/
def runSuite (modulePaths : List Str) (summaryJsonPath : Option Str) : Suite Unit := do
  trySummary rt summaryJsonPath
  let results ← modulePaths.mapM runModule
  report rt summaryJsonPath results

end Suite

section Shell

/-- The status of a process that ends with this code: an integer that a C `long` holds keeps its
lowest eight bits, any other ends with 255, and another object with 1. -/
def ExitCode.status : ExitCode → Nat
  | .none => 0
  | .int code => if -2 ^ 63 ≤ code ∧ code < 2 ^ 63 then (code % 256).toNat else 255
  | .other _ => 1

/-- What a shell observes of a run. -/
def shellStatus : Ending → Nat
  | .ok () => 0
  | .error (.systemExit code) => code.status
  | .error (.other _) => 1

/-- What a shell observes of a suite. -/
def suiteStatus : Except SuiteError Unit → Nat
  | .ok () => 0
  | .error (.exit code _) => (ExitCode.int code).status
  | .error (.raised _) => 1

/-- The module that an event runs, and how its run ends. -/
def endingOf : SuiteEvent → Option (Str × Ending)
  | ⟨.singleModuleMain path, ending⟩ => some (path, ending)
  | _ => none

/-- The runs of modules in a log. -/
def endings (log : List SuiteEvent) : List (Str × Ending) := log.filterMap endingOf

/-- Every module runs once, in order, each has its row, and the suite succeeds when each module's
run does, and otherwise names those whose runs do not. -/
structure RunsEverything (modulePaths : List Str) (summaryJsonPath : Option Str)
    (log : List SuiteEvent) (outcome : Except SuiteError Unit) : Prop where
  runs : (endings log).map Prod.fst = modulePaths
  rows : ∀ path, summaryJsonPath = some path → ∃ rows,
    ⟨.writeText path (.results rows), .ok ()⟩ ∈ log ∧ rows.map Row.module = modulePaths
  succeeds : suiteStatus outcome = 0 ↔ ∀ run ∈ endings log, shellStatus run.2 = 0
  names : suiteStatus outcome ≠ 0 → ∃ code, outcome = .error (.exit code
    (failedText (((endings log).filter fun run => shellStatus run.2 ≠ 0).map Prod.fst)))

/-- The run returns, or ends with an integer that is zero or has a nonzero status, or with another
object for a code. -/
def Plain : Ending → Prop
  | .ok () => True
  | .error (.systemExit .none) => False
  | .error (.systemExit (.int code)) =>
      code = 0 ∨ ¬(256 : Int) ∣ code ∨ code < -2 ^ 63 ∨ 2 ^ 63 ≤ code
  | .error (.systemExit (.other _)) => True
  | .error (.other _) => False

/-- The reply of the event is plain: the summary can be written, and the run of a module ends
in a way that both rules read alike. -/
def Fine : SuiteEvent → Prop
  | ⟨.parentExists _, found⟩ => found = true
  | ⟨.writeText _ _, written⟩ => written = .ok ()
  | ⟨.singleModuleMain _, ending⟩ => Plain ending
  | ⟨.print _, _⟩ => True

end Shell

section Phases

variable {rt : Runtime} {summaryJsonPath : Option Str} {log : List SuiteEvent}

/-- The first phase runs no module and writes no row; it returns when its replies are fine. -/
theorem runs_trySummary {outcome : Except SuiteError Unit}
    (ran : (trySummary rt summaryJsonPath).Runs log outcome) :
    endings log = [] ∧ (∀ path rows, ⟨.writeText path (.results rows), .ok ()⟩ ∉ log) ∧
      (outcome = .ok () ∧ (∀ event ∈ log, Fine event) ∨
        (∃ code text, outcome = .error (.exit code text)) ∧ summaryJsonPath ≠ none ∧
          ∃ event ∈ log, ¬Fine event) := by
  cases summaryJsonPath with
  | none =>
      rcases ran with ⟨rfl, rfl⟩
      exact ⟨rfl, fun _ _ => List.not_mem_nil, Or.inl ⟨rfl, nofun⟩⟩
  | some path =>
      rcases ran with ⟨found, rest, rfl, ran⟩
      cases found with
      | false =>
          rcases ran with ⟨rfl, rfl⟩
          refine ⟨rfl, by simp, Or.inr ⟨⟨_, _, rfl⟩, nofun, _, List.mem_singleton_self _, ?_⟩⟩
          exact Bool.false_ne_true
      | true =>
          rcases ran with ⟨written, rest, rfl, ran⟩
          cases written with
          | ok _ =>
              rcases ran with ⟨rfl, rfl⟩
              exact ⟨rfl, by simp, Or.inl ⟨rfl, by simp [Fine]⟩⟩
          | error text =>
              rcases ran with ⟨rfl, rfl⟩
              exact ⟨rfl, by simp, Or.inr ⟨⟨_, _, rfl⟩, nofun, by simp [Fine]⟩⟩

/-- An integer has status zero when it is zero or a multiple of 256 that is not too long. -/
theorem status_int (code : Int) : (ExitCode.int code).status = 0 ↔
    (256 : Int) ∣ code ∧ -2 ^ 63 ≤ code ∧ code < 2 ^ 63 := by
  rw [ExitCode.status]
  split_ifs with fits
  · have within : 0 ≤ code % 256 := Int.emod_nonneg code (by decide)
    rw [Int.dvd_iff_emod_eq_zero, and_iff_left fits]
    omega
  · apply iff_of_false (by decide)
    rintro ⟨_, bounds⟩
    exact fits bounds

/-- The exit code of the entry of a run. -/
def exitCodeOf : Ending → Int
  | .error (.systemExit code) => code.caught
  | _ => 0

theorem exitCodeOf_ne_zero {ending : Ending} (caught : ∀ text, ending ≠ .error (.other text))
    (fails : shellStatus ending ≠ 0) : exitCodeOf ending ≠ 0 := by
  rcases ending with (code | text) | _
  · cases code with
    | none => exact absurd rfl fails
    | int code =>
        intro zero
        apply fails
        change code = 0 at zero
        exact (status_int code).mpr (by omega)
    | other text => exact one_ne_zero
  · exact absurd rfl (caught text)
  · exact absurd rfl fails

/-- The two rules agree on the plain endings. -/
theorem plain_iff {ending : Ending} (caught : ∀ text, ending ≠ .error (.other text)) :
    Plain ending ↔ (exitCodeOf ending = 0 ↔ shellStatus ending = 0) := by
  rcases ending with (code | text) | _
  · cases code with
    | none => simp [Plain, exitCodeOf, ExitCode.caught, shellStatus, ExitCode.status]
    | int code =>
        have status := status_int code
        simp only [Plain, exitCodeOf, ExitCode.caught, shellStatus, status]
        omega
    | other text => simp [Plain, exitCodeOf, ExitCode.caught, shellStatus, ExitCode.status]
  · exact absurd rfl (caught text)
  · simp [Plain, exitCodeOf, shellStatus]

/-- A turn of the loop is the run of the module, and makes its entry unless that raises what is
not caught. -/
theorem runs_runModule {modulePath : Str} {outcome : Except SuiteError Result}
    (ran : (runModule modulePath).Runs log outcome) :
    ∃ ending, log = [⟨.singleModuleMain modulePath, ending⟩] ∧
      ((∃ text, ending = .error (.other text) ∧ outcome = .error (.raised text)) ∨
        (∀ text, ending ≠ .error (.other text)) ∧
          outcome = .ok ⟨modulePath, nameOf modulePath, exitCodeOf ending⟩) := by
  rcases ran with ⟨ending, rest, rfl, ran⟩
  refine ⟨ending, ?_⟩
  rcases ending with (code | text) | _
  · rcases ran with ⟨rfl, rfl⟩
    exact ⟨rfl, Or.inr ⟨nofun, rfl⟩⟩
  · rcases ran with ⟨rfl, rfl⟩
    exact ⟨rfl, Or.inl ⟨text, rfl, rfl⟩⟩
  · rcases ran with ⟨rfl, rfl⟩
    exact ⟨rfl, Or.inr ⟨nofun, rfl⟩⟩

/-- The last phase runs no module. It writes the rows, unless a reply is not fine, and exits with
the modules whose entries have an exit code. -/
theorem runs_report {results : List Result} {outcome : Except SuiteError Unit}
    (ran : (report rt summaryJsonPath results).Runs log outcome) :
    endings log = [] ∧ ((∀ event ∈ log, Fine event) ∧
        (∀ path, summaryJsonPath = some path →
          ⟨.writeText path (.results (results.map rowOf)), .ok ()⟩ ∈ log) ∧
        (outcome = if (results.filter fun r => r.exitCode ≠ 0) = [] then .error (.exit 0 [])
          else .error (.exit 1 (failedText ((results.filter fun r => r.exitCode ≠ 0).map
            Result.module)))) ∨
      (∃ event ∈ log, ¬Fine event) ∧ summaryJsonPath ≠ none ∧
        ∀ path rows, ⟨.writeText path (.results rows), .ok ()⟩ ∉ log) := by
  have exits {log : List SuiteEvent}
      (ran : (if (results.filter fun r => r.exitCode ≠ 0).map Result.module ≠ [] then
        (Program.raise (.exit 1 (failedText ((results.filter fun r => r.exitCode ≠ 0).map
          Result.module))) : Suite Unit) else .raise (.exit 0 [])).Runs log outcome) :
      log = [] ∧ outcome = if (results.filter fun r => r.exitCode ≠ 0) = []
        then .error (.exit 0 []) else .error (.exit 1 (failedText
          ((results.filter fun r => r.exitCode ≠ 0).map Result.module))) := by
    by_cases failed : (results.filter fun r => r.exitCode ≠ 0) = []
    · rw [if_pos failed]
      rw [failed] at ran
      exact ran
    · rw [if_neg failed]
      rw [if_pos fun none => failed (List.map_eq_nil_iff.mp none)] at ran
      exact ran
  rcases ran with ⟨_, rest, rfl, ran⟩
  cases summaryJsonPath with
  | none =>
      rcases exits ran with ⟨rfl, same⟩
      exact ⟨rfl, Or.inl ⟨by simp [Fine], nofun, same⟩⟩
  | some path =>
      rcases ran with ⟨written, rest, rfl, ran⟩
      cases written with
      | ok _ =>
          rcases exits ran with ⟨rfl, same⟩
          refine ⟨rfl, Or.inl ⟨by simp [Fine], ?_, same⟩⟩
          rintro _ ⟨⟩
          simp
      | error text =>
          rcases ran with ⟨rfl, rfl⟩
          exact ⟨rfl, Or.inr ⟨by simp [Fine], nofun, by simp⟩⟩

/-- The event of a run. -/
def runEvent (run : Str × Ending) : SuiteEvent := ⟨.singleModuleMain run.1, run.2⟩

/-- The entry of a run. -/
def resultOf (run : Str × Ending) : Result := ⟨run.1, nameOf run.1, exitCodeOf run.2⟩

theorem endings_map_runEvent (runs : List (Str × Ending)) : endings (runs.map runEvent) = runs := by
  rw [endings, List.filterMap_map]
  exact List.filterMap_some

theorem endings_append (first second : List SuiteEvent) :
    endings (first ++ second) = endings first ++ endings second := List.filterMap_append

/-- The loop makes an entry for the run of each module in order, unless one raises what is not
caught. -/
theorem runs_loop {modulePaths : List Str} {outcome : Except SuiteError (List Result)}
    (ran : (modulePaths.mapM runModule).Runs log outcome) :
    ∃ runs : List (Str × Ending), log = runs.map runEvent ∧
      ((∃ text, outcome = .error (.raised text)) ∧ (∃ run ∈ runs, ¬Plain run.2) ∨
        runs.map Prod.fst = modulePaths ∧
          (∀ run ∈ runs, ∀ text, run.2 ≠ .error (.other text)) ∧
          outcome = .ok (runs.map resultOf)) := by
  induction modulePaths generalizing log outcome with
  | nil =>
      rcases ran with ⟨rfl, rfl⟩
      exact ⟨[], rfl, Or.inr ⟨rfl, nofun, rfl⟩⟩
  | cons modulePath modulePaths ih =>
      rw [List.mapM_cons] at ran
      rcases Program.runs_bind.mp ran with ⟨error, rfl, stopped⟩ | ⟨result, first, rest,
        rfl, one, ran⟩
      · rcases runs_runModule stopped with ⟨ending, rfl, ⟨text, rfl, same⟩ | ⟨_, impossible⟩⟩
        · cases same
          refine ⟨[(modulePath, .error (.other text))], rfl, Or.inl ⟨⟨text, rfl⟩, ?_⟩⟩
          exact ⟨_, List.mem_singleton_self _, not_false⟩
        · cases impossible
      · rcases runs_runModule one with ⟨ending, rfl, ⟨_, _, impossible⟩ | ⟨caught, same⟩⟩
        · cases impossible
        · cases same
          rcases Program.runs_bind.mp ran with
            ⟨error, rfl, stopped⟩ | ⟨results, second, last, rfl, others, ⟨rfl, rfl⟩⟩
          · rcases ih stopped with ⟨runs, rfl, ⟨⟨text, same⟩, run, runMem, notPlain⟩ | ⟨_, _, same⟩⟩
            · cases same
              exact ⟨(modulePath, ending) :: runs, rfl, Or.inl ⟨⟨text, rfl⟩, run,
                List.mem_cons_of_mem _ runMem, notPlain⟩⟩
            · cases same
          · rcases ih others with ⟨runs, rfl, ⟨⟨text, same⟩, _⟩ | ⟨rfl, others', same⟩⟩
            · cases same
            · cases same
              refine ⟨(modulePath, ending) :: runs, ?_, Or.inr ⟨rfl, ?_, rfl⟩⟩
              · rw [List.append_nil]
                rfl
              · exact List.forall_mem_cons.mpr ⟨caught, others'⟩

end Phases

section Verdict

variable {runs : List (Str × Ending)}

/-- The runs that a shell would see fail. -/
def failed (runs : List (Str × Ending)) : List (Str × Ending) :=
  runs.filter fun run => shellStatus run.2 ≠ 0

/-- The runs whose entries have an exit code. -/
def counted (runs : List (Str × Ending)) : List (Str × Ending) :=
  runs.filter fun run => exitCodeOf run.2 ≠ 0

theorem filter_resultOf (runs : List (Str × Ending)) :
    ((runs.map resultOf).filter fun r => r.exitCode ≠ 0) = (counted runs).map resultOf := by
  rw [List.filter_map]
  rfl

/-- The runs that fail are among those that are counted. -/
theorem failed_eq_filter (caught : ∀ run ∈ runs, ∀ text, run.2 ≠ .error (.other text)) :
    failed runs = (counted runs).filter fun run => shellStatus run.2 ≠ 0 := by
  rw [failed, counted, List.filter_filter]
  apply List.filter_congr
  intro run runMem
  have implies := exitCodeOf_ne_zero (caught run runMem)
  by_cases fails : shellStatus run.2 = 0
  · simp [fails]
  · simp [fails, implies fails]

/-- They are all of these when each run is plain. -/
theorem length_failed_iff (caught : ∀ run ∈ runs, ∀ text, run.2 ≠ .error (.other text)) :
    (failed runs).length = (counted runs).length ↔ ∀ run ∈ runs, Plain run.2 := by
  rw [failed_eq_filter caught, List.length_filter_eq_length_iff, counted, List.forall_mem_filter]
  apply forall₂_congr
  intro run runMem
  have implies := exitCodeOf_ne_zero (caught run runMem)
  rw [plain_iff (caught run runMem)]
  simp only [ne_eq, decide_not, Bool.not_eq_eq_eq_not, Bool.not_true, decide_eq_false_iff_not]
  tauto

/-- The line tells how many modules it names. -/
theorem length_of_failedText {first second : List Str}
    (same : failedText first = failedText second) :
    first.length = second.length := by
  unfold failedText at same
  simp only [List.append_assoc] at same
  have numbers := List.append_cancel_left same
  have closed {names : List Str} : Chr.char ')' ∉ numeral names.length := by
    intro parenMem
    rcases mem_numeral parenMem with minus | ⟨digit, isDigit, rest⟩
    · cases minus
    · cases rest
      revert isDigit
      decide
  have fronts := congrArg (beforeFirst (.char ')')) numbers
  have front (names : List Str) (rest : Str) :
      beforeFirst (.char ')') (numeral names.length ++ (str "): " ++ rest)) =
        numeral names.length := beforeFirst_append closed
  rw [front, front] at fronts
  exact_mod_cast numeral_injective fronts

variable {rt : Runtime} {modulePaths : List Str} {summaryJsonPath : Option Str}
  {log : List SuiteEvent} {outcome : Except SuiteError Unit}

/-- When the summary is written, the verdict is right exactly if the counts agree. -/
theorem verdict_iff (runs : List (Str × Ending))
    (caught : ∀ run ∈ runs, ∀ text, run.2 ≠ .error (.other text))
    (ended : outcome = if counted runs = [] then .error (.exit 0 [])
      else .error (.exit 1 (failedText ((counted runs).map Prod.fst)))) :
    ((suiteStatus outcome = 0 ↔ ∀ run ∈ runs, shellStatus run.2 = 0) ∧
      (suiteStatus outcome ≠ 0 → ∃ code,
        outcome = .error (.exit code (failedText ((failed runs).map Prod.fst))))) ↔
      ∀ run ∈ runs, Plain run.2 := by
  have noneFails : (∀ run ∈ runs, shellStatus run.2 = 0) ↔ failed runs = [] := by
    simp [failed, List.filter_eq_nil_iff]
  rw [← length_failed_iff caught, noneFails, ended]
  by_cases none : counted runs = []
  · rw [if_pos none, none, List.length_nil, List.length_eq_zero_iff]
    constructor
    · exact fun verdict => verdict.1.mp rfl
    · exact fun same => ⟨iff_of_true rfl same, fun nonzero => absurd rfl nonzero⟩
  · rw [if_neg none]
    constructor
    · rintro ⟨-, names⟩
      rcases names one_ne_zero with ⟨code, same⟩
      simp only [Except.error.injEq, SuiteError.exit.injEq] at same
      have lengths := length_of_failedText same.2
      rw [List.length_map, List.length_map] at lengths
      exact lengths.symm
    · intro same
      have equal : failed runs = counted runs := by
        rw [failed_eq_filter caught] at same ⊢
        exact List.filter_sublist.eq_of_length same
      rw [equal]
      exact ⟨iff_of_false one_ne_zero none, fun _ => ⟨1, rfl⟩⟩

/-- A suite that should write a summary and does not does not run everything. -/
theorem not_runsEverything (given : summaryJsonPath ≠ none)
    (noRows : ∀ path rows, ⟨.writeText path (.results rows), .ok ()⟩ ∉ log) :
    ¬RunsEverything modulePaths summaryJsonPath log outcome := by
  intro everything
  rcases Option.ne_none_iff_exists'.mp given with ⟨path, same⟩
  rcases everything.rows path same with ⟨rows, written, _⟩
  exact noRows path rows written

/-- When the summary is written, everything is run exactly if the verdict is right. -/
theorem runsEverything_of_written {runs : List (Str × Ending)} (all : endings log = runs)
    (ordered : runs.map Prod.fst = modulePaths)
    (written : ∀ path, summaryJsonPath = some path →
      ⟨.writeText path (.results ((runs.map resultOf).map rowOf)), .ok ()⟩ ∈ log) :
    RunsEverything modulePaths summaryJsonPath log outcome ↔
      (suiteStatus outcome = 0 ↔ ∀ run ∈ runs, shellStatus run.2 = 0) ∧
        (suiteStatus outcome ≠ 0 → ∃ code,
          outcome = .error (.exit code (failedText ((failed runs).map Prod.fst)))) := by
  subst all
  constructor
  · exact fun everything => ⟨everything.succeeds, everything.names⟩
  · rintro ⟨succeeds, names⟩
    refine ⟨ordered, ?_, succeeds, names⟩
    intro path same
    refine ⟨_, written path same, ?_⟩
    rw [List.map_map, List.map_map, ← ordered]
    rfl

end Verdict

/-- A suite runs everything exactly when every reply is fine. -/
theorem runsEverything_iff {rt : Runtime} {modulePaths : List Str} {summaryJsonPath : Option Str}
    {log : List SuiteEvent} {outcome : Except SuiteError Unit}
    (ran : (runSuite rt modulePaths summaryJsonPath).Runs log outcome) :
    RunsEverything modulePaths summaryJsonPath log outcome ↔ ∀ event ∈ log, Fine event := by
  rcases Program.runs_bind.mp ran with ⟨error, rfl, stopped⟩ | ⟨_, first, rest, rfl, opened, ran⟩
  · rcases runs_trySummary stopped with
      ⟨none, noRows, ⟨impossible, _⟩ | ⟨_, given, event, eventMem, notFine⟩⟩
    · cases impossible
    · exact iff_of_false (not_runsEverything given noRows) fun fine => notFine (fine event eventMem)
  rcases runs_trySummary opened with
    ⟨noneFirst, noRowsFirst, ⟨_, fineFirst⟩ | ⟨⟨_, _, impossible⟩, _⟩⟩
  swap
  · cases impossible
  rcases Program.runs_bind.mp ran with
    ⟨error, rfl, stopped⟩ | ⟨results, loop, last, rfl, looped, ran⟩
  · rcases runs_loop stopped with
      ⟨runs, rfl, ⟨⟨text, same⟩, run, runMem, notPlain⟩ | ⟨_, _, same⟩⟩
    · cases same
      apply iff_of_false
      · intro everything
        rcases everything.names one_ne_zero with ⟨code, impossible⟩
        cases impossible
      · intro fine
        exact notPlain (fine (runEvent run) (List.mem_append_right _ (List.mem_map_of_mem runMem)))
    · cases same
  rcases runs_loop looped with ⟨runs, rfl, ⟨⟨_, same⟩, _⟩ | ⟨ordered, caught, same⟩⟩
  · cases same
  cases same
  rcases runs_report ran with ⟨noneLast, ⟨fineLast, rowsLast, ended⟩ | ⟨notFine, given, noRows⟩⟩
  · have all : endings (first ++ (runs.map runEvent ++ last)) = runs := by
      rw [endings_append, endings_append, noneFirst, noneLast, endings_map_runEvent,
        List.append_nil, List.nil_append]
    have fineAll : (∀ event ∈ first ++ (runs.map runEvent ++ last), Fine event) ↔
        ∀ run ∈ runs, Plain run.2 := by
      rw [List.forall_mem_append, List.forall_mem_append, List.forall_mem_map,
        and_iff_right fineFirst, and_iff_left fineLast]
      rfl
    have exits : outcome = if counted runs = [] then .error (.exit 0 [])
        else .error (.exit 1 (failedText ((counted runs).map Prod.fst))) := by
      rw [ended, filter_resultOf]
      simp only [List.map_eq_nil_iff, List.map_map]
      rfl
    rw [fineAll, ← verdict_iff runs caught exits]
    apply runsEverything_of_written all ordered
    intro path same
    exact List.mem_append_right _ (List.mem_append_right _ (rowsLast path same))
  · have noRowsLoop (path : Str) (rows : List Row) :
        ⟨.writeText path (.results rows), .ok ()⟩ ∉ runs.map runEvent := by
      intro written
      rcases List.mem_map.mp written with ⟨run, _, same⟩
      cases congrArg Event.request same
    apply iff_of_false
    · apply not_runsEverything given
      intro path rows written
      rcases List.mem_append.mp written with inFirst | written
      · exact noRowsFirst path rows inFirst
      · rcases List.mem_append.mp written with inLoop | inLast
        · exact noRowsLoop path rows inLoop
        · exact noRows path rows inLast
    · intro fine
      rcases notFine with ⟨event, eventMem, bad⟩
      exact bad (fine event (List.mem_append_right _ (List.mem_append_right _ eventMem)))

/-- A suite in which the second module fails and the third one exits with zero. -/
def mixedReplies : (request : Call) → Call.Reply request
  | .parentExists _ => true
  | .writeText _ _ => .ok ()
  | .singleModuleMain path =>
      if path = str "kms-key" then .error (.systemExit (.int 2))
      else if path = str "s3-bucket" then .error (.systemExit (.int 0))
      else .ok ()
  | .print _ => ()

theorem plain_mixedReplies (path : Str) : Plain (mixedReplies (.singleModuleMain path)) := by
  simp only [mixedReplies]
  split_ifs
  · exact Or.inr (Or.inl (by decide))
  · exact Or.inl rfl
  · exact trivial

theorem runsEverything_mixed : ∃ log outcome,
    outcome = .error (.exit 1 (failedText [str "kms-key"])) ∧
      RunsEverything [str "dynamodb", str "kms-key", str "s3-bucket"]
        (some (str "out/summary.json"))
        log outcome := by
  have ran := Program.runs_answer mixedReplies (runSuite Runtime.whole
    [str "dynamodb", str "kms-key", str "s3-bucket"] (some (str "out/summary.json")))
  have replies := Program.answer_replies mixedReplies (runSuite Runtime.whole
    [str "dynamodb", str "kms-key", str "s3-bucket"] (some (str "out/summary.json")))
  refine ⟨_, _, rfl, (runsEverything_iff ran).mpr ?_⟩
  rintro ⟨request, reply⟩ eventMem
  have answered := replies _ eventMem
  cases request with
  | parentExists path => exact answered
  | writeText path rows => exact answered
  | singleModuleMain path =>
      have ending : reply = mixedReplies (.singleModuleMain path) := answered
      rw [Fine, ending]
      exact plain_mixedReplies path
  | print text => exact trivial

/-- A suite of one module that runs and ends in this way. -/
def suiteOf (ending : Ending) : List SuiteEvent :=
  [⟨.singleModuleMain (str "kms-key"), ending⟩,
    ⟨.print (summaryLines [resultOf (str "kms-key", ending)]), ()⟩]

/-- A module that ends with `SystemExit(None)` is counted as a failure. -/
theorem not_runsEverything_none :
    (runSuite Runtime.whole [str "kms-key"] none).Runs (suiteOf (.error (.systemExit .none)))
        (.error (.exit 1 (failedText [str "kms-key"]))) ∧
      ¬RunsEverything [str "kms-key"] none (suiteOf (.error (.systemExit .none)))
        (.error (.exit 1 (failedText [str "kms-key"]))) := by
  refine ⟨⟨_, _, rfl, _, _, rfl, rfl, rfl⟩, ?_⟩
  intro everything
  have succeeded : ∀ run ∈ endings (suiteOf (.error (.systemExit .none))),
      shellStatus run.2 = 0 := by
    intro run runMem
    cases List.mem_singleton.mp runMem
    rfl
  exact one_ne_zero (everything.succeeds.mpr succeeded)

end Terratest
