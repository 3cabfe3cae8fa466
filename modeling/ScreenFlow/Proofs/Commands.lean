import ScreenFlow.Command
import ScreenFlow.Proofs.StoredDocuments

/-!
# Commands on the same files

Compiling and reviewing load the same screens and limits, and all ways to compile make the same
document of them. So commands that differ in their options can be compared on all files: a review
adds findings and changes nothing else, a document that is reviewed without errors compiles, and a
file holds what standard output would have shown. Whatever fails before a document is written leaves
no trace in the files.
-/

namespace ScreenFlow

open ScreenFlow.Codec ScreenFlow.Json
open ScreenFlow.Compile (compileFlow compileFlow_of_nodup)
open ScreenFlow.Review (Limits Report documentReport references_of_isValid)

/-! ## What commands share -/

theorem loadInputs_eq_ok_iff {files : Files} {input : String} {limits : Option String}
    {screens : List Design.Screen} {table : Limits} :
    loadInputs files input limits = .ok (screens, table) ↔
      loadScreens files input = .ok screens ∧ loadLimitsOrDefault files limits = .ok table := by
  unfold loadInputs
  cases loadScreens files input with
  | error failure => simp [bind, Except.bind]
  | ok read =>
      cases loadLimitsOrDefault files limits with
      | error failure => simp [bind, Except.bind]
      | ok chosen => simp [bind, Except.bind, pure, Except.pure]

/-- The document that the screens in a file make, and the report on them. -/
def compileInputs (files : Files) (input : String) (limits : Option String) :
    Except Failure (Flow.Document × Report) := do
  let (screens, table) ← loadInputs files input limits
  let d ← (compileFlow screens).mapError .compilation
  return (d, documentReport table screens)

theorem compileInputs_eq_ok_iff {files : Files} {input : String} {limits : Option String}
    {d : Flow.Document} {report : Report} :
    compileInputs files input limits = .ok (d, report) ↔
      ∃ screens table, loadScreens files input = .ok screens ∧
        loadLimitsOrDefault files limits = .ok table ∧ compileFlow screens = .ok d ∧
        documentReport table screens = report := by
  constructor
  · intro made
    obtain ⟨⟨screens, table⟩, loaded, made⟩ := bind_eq_ok_iff.mp made
    obtain ⟨d', compiled, made⟩ := bind_eq_ok_iff.mp made
    cases made
    obtain ⟨read, chosen⟩ := loadInputs_eq_ok_iff.mp loaded
    exact ⟨screens, table, read, chosen, mapError_eq_ok_iff.mp compiled, rfl⟩
  · rintro ⟨screens, table, read, chosen, compiled, rfl⟩
    rw [compileInputs, loadInputs_eq_ok_iff.mpr ⟨read, chosen⟩]
    simp only [bind, Except.bind, compiled, Except.mapError]
    rfl

namespace CompileOptions

/-- The lines on a report, where a review is asked for. -/
def notes (o : CompileOptions) (report : Report) : List String :=
  if o.validate then findingLines report else []

/-- The report is there where a review is asked for; the document does not depend on it. -/
theorem artifacts_eq (o : CompileOptions) (files : Files) :
    o.artifacts files = (compileInputs files o.input o.limits).map fun made =>
      ⟨made.1, if o.validate then some made.2 else none⟩ := by
  unfold artifacts compileInputs
  cases loadInputs files o.input o.limits with
  | error failure => rfl
  | ok loaded =>
      simp only [bind, Except.bind, Compile.run]
      cases compileFlow loaded.1 with
      | error error => rfl
      | ok d => cases o.validate <;> rfl

/-- How a command ends that has nothing to hand over. -/
theorem run_of_error {o : CompileOptions} {files : Files} {failure : Failure}
    (failed : compileInputs files o.input o.limits = .error failure) :
    o.run files = .failed files [] failure := by
  unfold run
  rw [artifacts_eq, failed]
  rfl

/-- How a command ends that hands over a document. -/
theorem run_of_ok {o : CompileOptions} {files : Files} {d : Flow.Document} {report : Report}
    (made : compileInputs files o.input o.limits = .ok (d, report)) :
    o.run files = match o.output with
      | none => ⟨0, d.toText o.pretty ++ "\n", o.notes report, files⟩
      | some path =>
        match saveDocument files path d with
        | .error error => .failed files (o.notes report) (.unwritten error)
        | .ok files => ⟨0, "", o.notes report ++ [compiledLine d path], files⟩ := by
  unfold run notes
  rw [artifacts_eq, made]
  cases o.validate <;> rfl

/-- The files after a document is saved. -/
theorem saveDocument_eq_ok_iff {files written : Files} {path : String} {d : Flow.Document} :
    saveDocument files path d = .ok written ↔ ∃ name, files.target path = .ok name ∧
      written = { files with contents := files.contents.put name (d.toText true) } := by
  rw [saveDocument, mapError_eq_ok_iff, Files.write, bind_eq_ok_iff]
  apply exists_congr
  intro name
  apply and_congr_right'
  constructor
  · intro made
    cases made
    rfl
  · rintro rfl
    rfl

/-- A command fails with the files as they were, prints a document or writes it to a file. -/
theorem run_cases (o : CompileOptions) (files : Files) :
    (∃ notes failure, o.run files = .failed files notes failure) ∨
    ∃ d report, compileInputs files o.input o.limits = .ok (d, report) ∧
      ((o.output = none ∧
        o.run files = ⟨0, d.toText o.pretty ++ "\n", o.notes report, files⟩) ∨
      ∃ path name, o.output = some path ∧ files.target path = .ok name ∧
        o.run files = ⟨0, "", o.notes report ++ [compiledLine d path],
          { files with contents := files.contents.put name (d.toText true) }⟩) := by
  cases made : compileInputs files o.input o.limits with
  | error failure => exact .inl ⟨[], failure, run_of_error made⟩
  | ok artifacts =>
      obtain ⟨d, report⟩ := artifacts
      have run := run_of_ok made
      cases output : o.output with
      | none =>
          rw [output] at run
          exact .inr ⟨d, report, rfl, .inl ⟨rfl, run⟩⟩
      | some path =>
          rw [output] at run
          dsimp only at run
          cases saved : saveDocument files path d with
          | error error =>
              rw [saved] at run
              exact .inl ⟨_, _, run⟩
          | ok written =>
              rw [saved] at run
              obtain ⟨name, target, rfl⟩ := saveDocument_eq_ok_iff.mp saved
              exact .inr ⟨d, report, rfl, .inr ⟨path, name, rfl, target, run⟩⟩

/-! ## Options that do not matter -/

/-- A review changes what goes to standard error and nothing else. -/
theorem run_validate (o : CompileOptions) (files : Files) (validate : Bool) :
    ({ o with validate }.run files).exitCode = (o.run files).exitCode ∧
    ({ o with validate }.run files).stdout = (o.run files).stdout ∧
    ({ o with validate }.run files).files = (o.run files).files := by
  cases made : compileInputs files o.input o.limits with
  | error failure =>
      rw [run_of_error made, run_of_error (o := { o with validate }) made]
      exact ⟨rfl, rfl, rfl⟩
  | ok artifacts =>
      rw [run_of_ok made, run_of_ok (o := { o with validate }) made]
      dsimp only
      cases o.output with
      | none => exact ⟨rfl, rfl, rfl⟩
      | some path =>
          dsimp only
          cases saveDocument files path artifacts.1 with
          | error error => exact ⟨rfl, rfl, rfl⟩
          | ok written => exact ⟨rfl, rfl, rfl⟩

/-- A command that fails leaves the files as they were. -/
theorem files_of_exitCode {o : CompileOptions} {files : Files}
    (fails : (o.run files).exitCode ≠ 0) : (o.run files).files = files := by
  rcases run_cases o files with ⟨notes, failure, run⟩ | ⟨d, report, -, ⟨-, run⟩ | ⟨_, _, -, -, run⟩⟩
  · rw [run]
    rfl
  · exact absurd (congrArg Outcome.exitCode run) fails
  · exact absurd (congrArg Outcome.exitCode run) fails

/-- A command without a document fails. -/
theorem exitCode_of_unmade {o : CompileOptions} {files : Files}
    (unmade : ∀ d report, compileInputs files o.input o.limits ≠ .ok (d, report)) :
    (o.run files).exitCode = 1 := by
  rcases run_cases o files with ⟨notes, failure, run⟩ | ⟨d, report, made, -⟩
  · rw [run]
    rfl
  · exact absurd made (unmade d report)

/-- A command that prints a document succeeds where there is one. -/
theorem exitCode_of_made {o : CompileOptions} {files : Files} {d : Flow.Document} {report : Report}
    (made : compileInputs files o.input o.limits = .ok (d, report)) (printed : o.output = none) :
    (o.run files).exitCode = 0 := by
  rw [run_of_ok made, printed]

/-- A command that succeeds shows the findings of its review, and then where it wrote to. -/
theorem stderr_of_exitCode {o : CompileOptions} {files : Files}
    (succeeds : (o.run files).exitCode = 0) :
    ∃ d report, compileInputs files o.input o.limits = .ok (d, report) ∧
      (o.run files).stderr =
        o.notes report ++ (o.output.toList.map fun path => compiledLine d path) := by
  rcases run_cases o files with
    ⟨notes, failure, run⟩ | ⟨d, report, made, ⟨printed, run⟩ | ⟨path, name, named, -, run⟩⟩
  · rw [run] at succeeds
    cases succeeds
  · refine ⟨d, report, made, ?_⟩
    rw [run, printed, Option.toList_none, List.map_nil, List.append_nil]
  · refine ⟨d, report, made, ?_⟩
    rw [run, named]
    rfl

/-- A command that succeeds in writing a file has written the text that it would have printed
indented. -/
theorem written_of_exitCode {o : CompileOptions} {files : Files} {path : String}
    (named : o.output = some path) (succeeds : (o.run files).exitCode = 0) :
    ∃ name text, files.target path = .ok name ∧
      (o.run files).files = { files with contents := files.contents.put name text } ∧
      ({ o with output := none, pretty := true }.run files).exitCode = 0 ∧
      ({ o with output := none, pretty := true }.run files).stdout = text ++ "\n" := by
  rcases run_cases o files with
    ⟨notes, failure, run⟩ | ⟨d, report, made, ⟨printed, -⟩ | ⟨path', name, named', target, run⟩⟩
  · rw [run] at succeeds
    cases succeeds
  · rw [printed] at named
    cases named
  · rw [named] at named'
    cases named'
    have shown := run_of_ok (o := { o with output := none, pretty := true }) made
    refine ⟨name, d.toText true, target, ?_, ?_, ?_⟩
    · rw [run]
    · rw [shown]
    · rw [shown]

/-- The review of what a command compiles. -/
def review (o : CompileOptions) (json : Bool) : ValidateOptions := ⟨o.input, o.limits, json⟩

end CompileOptions

/-! ## Reviews -/

/-- Findings are shown one on a line, errors first. -/
theorem findingLines_eq (report : Report) :
    findingLines report = (report.errors ++ report.warnings).map fun f =>
      "  -> " ++ (if f.kind = .error then "error" else "warning") ++ ": " ++ f.message := by
  apply List.map_congr_left
  intro f _
  show "  -> " ++ (f.kind.name ++ ": " ++ f.message) = _
  cases f.kind <;> simp only [Review.Severity.name, String.append_assoc] <;> rfl

namespace ValidateOptions

/-- How a review ends that has its inputs. -/
theorem run_of_loaded {o : ValidateOptions} {files : Files} {screens : List Design.Screen}
    {table : Limits} (read : loadScreens files o.input = .ok screens)
    (chosen : loadLimitsOrDefault files o.limits = .ok table) :
    (o.run files).exitCode = (if (documentReport table screens).isValid then 0 else 1) ∧
    (o.json = false → (o.run files).stderr = findingLines (documentReport table screens)) := by
  unfold run
  rw [loadInputs_eq_ok_iff.mpr ⟨read, chosen⟩]
  dsimp only
  cases o.json with
  | false => exact ⟨rfl, fun _ => rfl⟩
  | true => exact ⟨rfl, fun other => nomatch other⟩

/-- A review succeeds exactly when it has its inputs and finds no errors. -/
theorem exitCode_eq_zero_iff {o : ValidateOptions} {files : Files} :
    (o.run files).exitCode = 0 ↔ ∃ screens table, loadScreens files o.input = .ok screens ∧
      loadLimitsOrDefault files o.limits = .ok table ∧
      (documentReport table screens).isValid = true := by
  constructor
  · intro succeeds
    cases loaded : loadInputs files o.input o.limits with
    | error failure =>
        unfold run at succeeds
        rw [loaded] at succeeds
        cases succeeds
    | ok inputs =>
        obtain ⟨read, chosen⟩ := loadInputs_eq_ok_iff.mp loaded
        refine ⟨inputs.1, inputs.2, read, chosen, ?_⟩
        rw [(run_of_loaded read chosen).1] at succeeds
        by_contra invalid
        rw [if_neg invalid] at succeeds
        cases succeeds
  · rintro ⟨screens, table, read, chosen, valid⟩
    rw [(run_of_loaded read chosen).1, if_pos valid]

end ValidateOptions

/-- A text that is written is read again where the path leads to the same entry. -/
theorem Files.read_put {files : Files} {path name : String} (source : files.source path = .ok name)
    (text : String) :
    Files.read { files with contents := files.contents.put name text } path = .ok text := by
  simp only [Files.read, source, Entries.get?_put_self, bind, Except.bind, pure, Except.pure]

/-! ## Main statement -/

/--
On all files: a review changes neither the exit code of a command to compile nor its document nor
the files. Where the command succeeds, it shows the findings that a review on its own shows, in
their order, and behind them only where the document went; what both show are all errors and then
all warnings of the report on the screens, one on a line. A review succeeds exactly when screens and
limits load and there are no errors; then the screens compile. A file that is written holds
what standard output shows indented, whatever was asked of standard output. A command that cannot
load its screens or its limits or cannot compile fails, and one that fails changes no file.
-/
theorem compile_and_review (o : CompileOptions) (files : Files) :
    (({ o with validate := true }.run files).exitCode =
        ({ o with validate := false }.run files).exitCode ∧
      ({ o with validate := true }.run files).stdout =
        ({ o with validate := false }.run files).stdout ∧
      ({ o with validate := true }.run files).files =
        ({ o with validate := false }.run files).files) ∧
    (({ o with validate := true }.run files).exitCode = 0 →
      ∃ screens table d, loadScreens files o.input = .ok screens ∧
        loadLimitsOrDefault files o.limits = .ok table ∧ compileFlow screens = .ok d ∧
        ({ o with validate := true }.run files).stderr =
          ((o.review false).run files).stderr ++
            (o.output.toList.map fun path => compiledLine d path) ∧
        ((o.review false).run files).stderr =
          ((documentReport table screens).errors ++ (documentReport table screens).warnings).map
            fun f => "  -> " ++ (if f.kind = .error then "error" else "warning") ++ ": " ++
              f.message) ∧
    (∀ json, ((o.review json).run files).exitCode = 0 ↔
      ∃ screens table, loadScreens files o.input = .ok screens ∧
        loadLimitsOrDefault files o.limits = .ok table ∧
        (documentReport table screens).isValid = true) ∧
    (∀ json, ((o.review json).run files).exitCode = 0 →
      ({ o with output := none }.run files).exitCode = 0) ∧
    (∀ path, o.output = some path → (o.run files).exitCode = 0 →
      ∃ name text, files.target path = .ok name ∧
        (o.run files).files = { files with contents := files.contents.put name text } ∧
        (files.source path = .ok name → (o.run files).files.read path = .ok text) ∧
        ({ o with output := none, pretty := true }.run files).exitCode = 0 ∧
        ({ o with output := none, pretty := true }.run files).stdout = text ++ "\n") ∧
    ((∃ failure, loadScreens files o.input = .error failure) ∨
        (∃ failure, loadLimitsOrDefault files o.limits = .error failure) ∨
        (∃ screens error, loadScreens files o.input = .ok screens ∧
          compileFlow screens = .error error) →
      (o.run files).exitCode = 1) ∧
    ((o.run files).exitCode ≠ 0 → (o.run files).files = files) := by
  refine ⟨?_, ?_, fun json => ValidateOptions.exitCode_eq_zero_iff, ?_, ?_, ?_,
    CompileOptions.files_of_exitCode⟩
  · exact CompileOptions.run_validate { o with validate := false } files true
  · intro succeeds
    obtain ⟨d, report, made, shown⟩ := CompileOptions.stderr_of_exitCode succeeds
    obtain ⟨screens, table, read, chosen, compiled, rfl⟩ := compileInputs_eq_ok_iff.mp made
    have reviewed := (ValidateOptions.run_of_loaded (o := o.review false) read chosen).2 rfl
    refine ⟨screens, table, d, read, chosen, compiled, ?_, ?_⟩
    · rw [shown, reviewed]
      rfl
    · rw [reviewed, findingLines_eq]
  · intro json valid
    obtain ⟨screens, table, read, chosen, clean⟩ := ValidateOptions.exitCode_eq_zero_iff.mp valid
    have compiled := compileFlow_of_nodup (references_of_isValid clean).1
    exact CompileOptions.exitCode_of_made
      (compileInputs_eq_ok_iff.mpr ⟨screens, table, read, chosen, compiled, rfl⟩) rfl
  · intro path named succeeds
    obtain ⟨name, text, target, written, printed⟩ :=
      CompileOptions.written_of_exitCode named succeeds
    refine ⟨name, text, target, written, ?_, printed⟩
    intro source
    rw [written]
    exact Files.read_put source text
  · intro failing
    apply CompileOptions.exitCode_of_unmade
    intro d report made
    obtain ⟨screens, table, read, chosen, compiled, -⟩ := compileInputs_eq_ok_iff.mp made
    rcases failing with
      ⟨failure, unread⟩ | ⟨failure, unchosen⟩ | ⟨screens', error, read', uncompiled⟩
    · rw [read] at unread
      cases unread
    · rw [chosen] at unchosen
      cases unchosen
    · rw [read] at read'
      cases read'
      rw [compiled] at uncompiled
      cases uncompiled

/-- A snapshot of one screen with nothing wrong. -/
def welcome : Value :=
  .array [.object [("id", .string "START"), ("elements", .array [.object [
    ("type", .string "TextHeading"), ("text", .string "Welcome")]])]]

/-- The snapshot in a file, where every path leads to the entry of its name. -/
def welcomeFiles : Files := ⟨[("in.json", welcome.render false)], .ok, .ok⟩

/-- The snapshot is loaded, and a review finds nothing wrong with it. -/
private theorem welcome_loads : ∃ screens, loadScreens welcomeFiles "in.json" = .ok screens ∧
    (documentReport .default screens).isValid = true := by
  have readsBack : welcome.All Value.ReadsBack := by decide +kernel
  -- Reading the characters one by one is left to the general theorem; the rest is evaluated.
  have tree : Tree.parse? (welcome.render false) = some (welcome.treeWithin maxDepth) :=
    Tree.parse?_render readsBack false
  have evaluated : (Design.Snapshot.decode (welcome.treeWithin maxDepth)).toOption.any
      fun snapshot => snapshot.read.toOption.any fun screens =>
        (documentReport .default screens).isValid := by
    decide +kernel
  obtain ⟨snapshot, decoded, evaluated⟩ := (Option.any_eq_true _ _).mp evaluated
  obtain ⟨screens, read, valid⟩ := (Option.any_eq_true _ _).mp evaluated
  refine ⟨screens, ?_, valid⟩
  have parsed : Design.parseScreens (welcome.render false) = .ok screens := by
    rw [Design.parseScreens, Design.Snapshot.ofText, tree]
    dsimp only
    rw [eq_ok_of_toOption decoded]
    exact eq_ok_of_toOption read
  have found : welcomeFiles.read "in.json" = .ok (welcome.render false) := rfl
  rw [loadScreens, found]
  simp only [Except.mapError, bind, Except.bind, parsed]

/-- The review of the snapshot succeeds, so it compiles to a file, which holds what standard output
shows. -/
theorem welcome_is_written :
    ((⟨"in.json", none, false⟩ : ValidateOptions).run welcomeFiles).exitCode = 0 ∧
    ∃ text, ((⟨"in.json", some "out.json", false, true, none⟩ : CompileOptions).run
        welcomeFiles).files.read "out.json" = .ok text ∧
      ((⟨"in.json", none, true, true, none⟩ : CompileOptions).run welcomeFiles).stdout =
        text ++ "\n" := by
  obtain ⟨screens, read, valid⟩ := welcome_loads
  have on := compile_and_review ⟨"in.json", some "out.json", false, true, none⟩ welcomeFiles
  have reviewed := (on.2.2.1 false).mpr ⟨screens, .default, read, rfl, valid⟩
  refine ⟨reviewed, ?_⟩
  have made : compileInputs welcomeFiles "in.json" none = .ok (_, _) :=
    compileInputs_eq_ok_iff.mpr ⟨screens, .default, read, rfl,
      compileFlow_of_nodup (references_of_isValid valid).1, rfl⟩
  have succeeds := CompileOptions.run_of_ok
    (o := ⟨"in.json", some "out.json", false, true, none⟩) made
  obtain ⟨name, text, target, -, stored, -, shown⟩ :=
    on.2.2.2.2.1 "out.json" rfl (congrArg Outcome.exitCode succeeds)
  exact ⟨text, stored target, shown⟩

end ScreenFlow
