import Ill.Harness.ProgramLookup
import Ill.Main

/-!
# The report of a test file

`run_test_file` takes a file through lowering, validation and execution, and
`write_failure` turns what went wrong into diagnostics of the file. However far
the file got, a report that fails shows errors at nodes of the file's tree, and
a report that passes shows none.
-/

namespace Ill.ReportFormat

open Ast Base Actor Harness Lower Render Main
open Base.Utf8 (Text)

/-! ## Texts of values -/

/-- How the standard library writes a text in quotes, and a double. -/
structure Texts where
  quoted : String → String
  double : BitVec 64 → String

def opText : ComparisonOp → String
  | .eq => "=="
  | .notEq => "!="
  | .gt => ">"
  | .gte => ">="
  | .lt => "<"
  | .lte => "<="
  | .contains => "contains"
  | .notContains => "!contains"
  | .matches => "matches"
  | .notMatches => "!matches"

mutual

def valueText (texts : Texts) : Value → String
  | .string text => texts.quoted text
  | .number n => toString n
  | .float bits => texts.double bits
  | .bool b => toString b
  | .atom name => ":" ++ name
  | .bytes bytes => "<" ++ toString bytes.length ++ " bytes>"
  | .array items => "[" ++ ", ".intercalate (itemTexts texts items) ++ "]"
  | .dict fields => "\x7b" ++ ", ".intercalate (fieldTexts texts fields) ++ "\x7d"
  | .null => "null"

def itemTexts (texts : Texts) : List Value → List String
  | [] => []
  | item :: rest => valueText texts item :: itemTexts texts rest

def fieldTexts (texts : Texts) : List (String × Value) → List String
  | [] => []
  | (name, value) :: rest => (name ++ ": " ++ valueText texts value) :: fieldTexts texts rest

end

/-! ## Diagnostics of a failure -/

def synthDiag (span : Span) (message : String) (notes : List String) : Diagnostic :=
  notes.foldl Diagnostic.withNote (.error span .runtimeFailure message)

def expectNotes (expect : Option String) : List String :=
  expect.toList.map fun text => s!"@expect {text}"

/-- What is shown of an entry of the report. -/
def diagnosticsOf (texts : Texts) : StatementReport → List Diagnostic
  | .parseFailure diagnostics => diagnostics
  | .validationFailure diagnostics => diagnostics
  | .constructFailure actor message span =>
    [synthDiag span s!"construction failed for `{actor}`: {message}" []]
  | .commandFailure actor command span errorFields expect =>
    [synthDiag span s!"{actor}: `{command}` failed"
      (errorFields.map (fun field => s!"error.{field.1} = {valueText texts field.2}") ++
        expectNotes expect)]
  | .commandNotImplemented actor command span =>
    [synthDiag span s!"{actor}: `{command}` has no runtime implementation" []]
  | .assertFailure actor span left right op expect =>
    [synthDiag span s!"{actor}: assertion failed"
      ((match op, right with
        | some op, some right =>
          [s!"left:  {valueText texts left}", s!"op:    {opText op}",
            s!"right: {valueText texts right}"]
        | _, _ => [s!"value: {valueText texts left} (not truthy)"]) ++ expectNotes expect)]
  | .evalError actor span message => [synthDiag span s!"{actor}: {message}" []]

def reportDiagnostics (texts : Texts) (report : TestReport) : List Diagnostic :=
  report.statements.flatMap (diagnosticsOf texts)

/-- A line for every teardown that failed. -/
def teardownLines (report : TestReport) : List String :=
  (report.teardown.filter fun torn => !torn.outcome.ok).map fun torn =>
    "  teardown " ++ torn.actor ++ ": " ++ torn.outcome.message.getD "failed" ++ "\n"

/-- The whole text of a failed report. `render` draws diagnostics with the source
they are about. -/
def writeFailure (texts : Texts) (render : String → Text → List Diagnostic → String)
    (report : TestReport) (src : Text) : String :=
  let diagnostics := reportDiagnostics texts report
  s!"FAIL {report.path}\n" ++
    (if diagnostics.isEmpty then "" else render report.path src diagnostics) ++
    String.join (teardownLines report)

/-! ## The whole pipeline -/

/-- Lower, validate and execute, unless lowering panics. -/
def runTestFile {Instance : Type} (parse : Text → Node)
    (runtime : ActorRuntime (List (Event Instance)) Instance) (regex : Regex) (path : String)
    (src : Text) : Option TestReport :=
  (lower parse src).map fun
    | .error errors =>
      { path, passed := false, statements := [.parseFailure errors], teardown := [] }
    | .ok ast =>
      let errors := (Validate.validate ast).filter fun d => d.severity = .error
      if errors.isEmpty then (execute runtime regex path ast (sourceDirOf path)).report
      else { path, passed := false, statements := [.validationFailure errors], teardown := [] }

/-! ## Where failures are recorded -/

/-- The span of an entry recorded while a file runs. -/
def spanOf : StatementReport → Option Span
  | .parseFailure _ | .validationFailure _ => none
  | .constructFailure _ _ span | .commandFailure _ _ span _ _ | .commandNotImplemented _ _ span
  | .assertFailure _ span _ _ _ _ | .evalError _ span _ => some span

/-- An entry recorded while a file runs, at one of some spans. -/
def RecordedAt (spans : List Span) (report : StatementReport) : Prop :=
  ∃ span ∈ spans, spanOf report = some span

theorem RecordedAt.mono {spans wider : List Span} {report : StatementReport}
    (recorded : RecordedAt spans report) (included : spans ⊆ wider) : RecordedAt wider report := by
  obtain ⟨span, member, same⟩ := recorded
  exact ⟨span, included member, same⟩

@[simp] theorem synthDiag_spec (span : Span) (message : String) (notes : List String) :
    synthDiag span message notes = ⟨span, .error, .runtimeFailure, message, notes⟩ := by
  have folded : ∀ diagnostic : Diagnostic, notes.foldl Diagnostic.withNote diagnostic =
      { diagnostic with notes := diagnostic.notes ++ notes } := by
    induction notes with
    | nil => simp
    | cons note rest ih =>
      intro diagnostic
      rw [List.foldl_cons, ih]
      simp [Diagnostic.withNote]
  rw [synthDiag, folded]
  rfl

/-- An entry recorded at a span is shown as one error there. -/
theorem RecordedAt.shown {spans : List Span} {report : StatementReport}
    (recorded : RecordedAt spans report) (texts : Texts) :
    ∃ d, diagnosticsOf texts report = [d] ∧ d.ErrorAt spans ∧ d.code = .runtimeFailure := by
  obtain ⟨span, member, same⟩ := recorded
  cases report with
  | parseFailure diagnostics => cases same
  | validationFailure diagnostics => cases same
  | _ =>
    obtain rfl := Option.some.inj same
    simp only [diagnosticsOf, synthDiag_spec]
    exact ⟨_, rfl, ⟨rfl, member⟩, rfl⟩

section Run

variable {Instance : Type} {runtime : ActorRuntime (List (Event Instance)) Instance} {regex : Regex}

/-- What a block is recorded with: its own span, or those of its statements. -/
def blockSpans (block : AsBlock) : List Span := block.span :: block.body.flatMap Statement.spans

theorem runCommand_recorded {block : AsBlock} {actorType : ActorType}
    {harness : HarnessState Instance} {scope : Scope} {cmd : Ast.Command} {idx : Nat}
    {report : StatementReport}
    (failed : (runCommand runtime block actorType harness scope cmd idx).2 = some report) :
    spanOf report = some cmd.span := by
  unfold runCommand at failed
  dsimp only at failed
  split at failed
  · cases failed
    rfl
  · split at failed
    · cases failed
      rfl
    · split at failed
      · cases failed
        rfl
      · next inst live =>
        rcases answered : (runtime.execute harness.events inst _ _).2 with fields | ⟨variant, fields⟩ | _
        all_goals rw [answered] at failed
        · cases failed
        · simp only [settleOutcome] at failed
          split at failed
          · cases failed
          · cases failed
            rfl
        · cases failed
          rfl

theorem runStatement_recorded {block : AsBlock} {actorType : ActorType} {run : BlockRun Instance}
    {indexed : Statement × Nat} (inside : indexed.1 ∈ block.body) {report : StatementReport}
    (failed : (runStatement runtime regex block actorType run indexed).2 = some report) :
    RecordedAt (blockSpans block) report := by
  obtain ⟨stmt, idx⟩ := indexed
  have among : stmt.spans ⊆ blockSpans block := fun span member =>
    List.mem_cons_of_mem _ (List.mem_flatMap.mpr ⟨stmt, inside, member⟩)
  unfold runStatement at failed
  cases stmt with
  | command cmd =>
    exact ⟨cmd.span, among (by simp [Statement.spans, Command.spans]), runCommand_recorded failed⟩
  | assert a =>
    refine ⟨a.span, among (by simp [Statement.spans, Assert.spans]), ?_⟩
    simp only [runAssert] at failed
    split at failed
    · cases failed
      rfl
    · split at failed
      · cases failed
      · cases failed
        rfl
  | «let» letStmt =>
    refine ⟨letStmt.span, among (by simp [Statement.spans, Let.spans]), ?_⟩
    dsimp only at failed
    split at failed
    · cases failed
    · cases failed
      rfl
  | assignment a =>
    cases failed
    exact ⟨block.span, List.mem_cons_self, rfl⟩

theorem runAsBlock_recorded {block : AsBlock} {harness : HarnessState Instance}
    {report : StatementReport} (failed : (runAsBlock runtime regex block harness).2 = some report) :
    RecordedAt (blockSpans block) report := by
  unfold runAsBlock at failed
  split at failed
  · next early typed =>
    obtain rfl := Option.some.inj failed
    refine ⟨block.span, List.mem_cons_self, ?_⟩
    unfold blockType at typed
    split at typed
    · cases typed
      rfl
    · split at typed
      · cases typed
      · cases typed
        rfl
  · next actorType typed =>
    obtain ⟨before, indexed, after, middle, split, -, stops⟩ := walk_failed_iff.mp
      (Prod.ext rfl failed : runStatements runtime regex block actorType ⟨harness, .new⟩
        block.body.zipIdx = (_, some report))
    have member : indexed ∈ block.body.zipIdx := by
      rw [split]
      exact List.mem_append_right _ List.mem_cons_self
    exact runStatement_recorded (List.fst_mem_of_mem_zipIdx member) (congrArg Prod.snd stops)

theorem executeItem_recorded {sourceDir : String} {harness : HarnessState Instance}
    {item : TopLevel} {report : StatementReport}
    (failed : (executeItem runtime regex sourceDir harness item).2 = some report) :
    RecordedAt item.spans report := by
  cases item with
  | asBlock block =>
    refine (runAsBlock_recorded failed).mono fun span member => ?_
    exact List.mem_cons_of_mem _ member
  | actorDeclaration decl =>
    refine ⟨decl.span, by simp [TopLevel.spans, ActorDeclaration.spans], ?_⟩
    rcases constructed : constructActor runtime sourceDir harness decl with ⟨next, message | inst⟩
    · rw [executeItem, constructed] at failed
      cases failed
      rfl
    · rw [executeItem, constructed] at failed
      cases failed

/-- What a run records, it records at a span of the file. -/
theorem execute_recorded (path sourceDir : String) (source : SourceFile) :
    ∀ entry ∈ (execute runtime regex path source sourceDir).report.statements,
      RecordedAt source.spans entry := by
  intro entry member
  have failed : (executeItems runtime regex sourceDir .start source.items).2 = some entry :=
    Option.mem_toList.mp member
  obtain ⟨before, item, after, middle, split, -, stops⟩ := walk_failed_iff.mp
    (Prod.ext rfl failed : executeItems runtime regex sourceDir .start source.items =
      (_, some entry))
  refine (executeItem_recorded (congrArg Prod.snd stops)).mono fun span here => ?_
  refine List.mem_flatMap.mpr ⟨item, ?_, here⟩
  rw [split]
  exact List.mem_append_right _ List.mem_cons_self

/-- A run shows one error if it fails, and nothing if it passes. -/
theorem execute_shown (texts : Texts) (path sourceDir : String) (source : SourceFile) :
    let report := (execute runtime regex path source sourceDir).report
    (report.passed = true ∧ reportDiagnostics texts report = []) ∨
      report.passed = false ∧ ∃ d, reportDiagnostics texts report = [d] ∧
        d.ErrorAt source.spans ∧ d.code = .runtimeFailure := by
  intro report
  have recorded := @execute_recorded _ runtime regex path sourceDir source
  have entries : report.statements =
      (executeItems runtime regex sourceDir .start source.items).2.toList := rfl
  have verdict : report.passed = report.statements.isEmpty := rfl
  rw [verdict, reportDiagnostics]
  change ∀ entry ∈ report.statements, _ at recorded
  rw [entries] at recorded ⊢
  generalize (executeItems runtime regex sourceDir .start source.items).2 = outcome at recorded ⊢
  cases outcome with
  | none => exact .inl ⟨rfl, rfl⟩
  | some entry =>
    obtain ⟨d, shown, located, code⟩ := (recorded entry (by simp)).shown texts
    exact .inr ⟨rfl, d, by simp [shown], located, code⟩

end Run

/-- Whatever a file holds, its report fails exactly if it shows a diagnostic, and
everything shown is an error at a node of its tree, drawn at the text it is about
where normalisation moved nothing. If the check of the file finds errors, they
are what is shown; otherwise the report is that of the run, with at most one
runtime failure. -/
theorem runTestFile_reports {Instance : Type} (texts : Texts) (parse : Text → Node)
    (runtime : ActorRuntime (List (Event Instance)) Instance) (regex : Regex) (path : String)
    (src : Text) (checked : CheckedFile) (check : checkFile parse src = some checked) :
    ∃ report, runTestFile parse runtime regex path src = some report ∧
      (report.passed = true ↔ reportDiagnostics texts report = []) ∧
      (∀ d ∈ reportDiagnostics texts report, d.ErrorAt (rootOf parse src).spans ∧
        (inPlace src d.span = true → PointsAt src d)) ∧
      (hasError checked = true →
        reportDiagnostics texts report = checked.diags.filter fun d => d.severity = .error) ∧
      (hasError checked = false → ∃ ast, checked.ast = some ast ∧
        report = (execute runtime regex path ast (sourceDirOf path)).report ∧
        (reportDiagnostics texts report).length ≤ 1 ∧
        ∀ d ∈ reportDiagnostics texts report, d.code = .runtimeFailure) := by
  -- An error at a node is drawn at its text where nothing was moved.
  have points : ∀ d : Diagnostic, d.ErrorAt (rootOf parse src).spans →
      d.ErrorAt (rootOf parse src).spans ∧ (inPlace src d.span = true → PointsAt src d) := by
    intro d located
    refine ⟨located, fun place => ?_⟩
    rcases Nat.eq_or_lt_of_le (Node.ordered_of_mem _ located.2) with empty | text
    · exact (pointsAt_iff_of_empty empty).mpr place
    · exact pointsAt_of_inPlace text place
  obtain ⟨result, lowered, rfl⟩ := Option.map_eq_some_iff.mp check
  have located := lower_located lowered
  simp only [runTestFile, lowered, Option.map_some, Option.some.injEq, exists_eq_left']
  cases result with
  | error errors =>
    obtain ⟨present, nodes⟩ := located
    have all : errors.filter (fun d => d.severity = .error) = errors :=
      List.filter_eq_self.mpr fun d member => by simp [(nodes d member).1]
    have shown : reportDiagnostics texts
        { path, passed := false, statements := [.parseFailure errors], teardown := [] } = errors := by
      simp [reportDiagnostics, diagnosticsOf]
    simp only [shown, all]
    refine ⟨by simp [present], fun d member => points d (nodes d member), fun _ => trivial, ?_⟩
    intro clean
    obtain ⟨d, member⟩ := List.exists_mem_of_ne_nil errors present
    simp only [hasError, List.any_eq_false] at clean
    exact absurd (by simp [(nodes d member).1]) (clean d member)
  | ok ast =>
    dsimp only at located ⊢
    have reported := Validate.validate_located ast
    split
    · next none =>
      rw [List.isEmpty_iff] at none
      have clean : hasError ⟨src, some ast, Validate.validate ast⟩ = false := by
        simp only [hasError, List.any_eq_false]
        intro d member faulty
        exact List.filter_eq_nil_iff.mp none d member faulty
      rw [clean]
      rcases @execute_shown _ runtime regex texts path (sourceDirOf path) ast with
        ⟨passed, shown⟩ | ⟨failed, d, shown, here, code⟩
      · simp only [shown, passed]
        exact ⟨by simp, by simp, by simp, fun _ => ⟨ast, rfl, rfl, by simp, by simp⟩⟩
      · simp only [shown, failed]
        refine ⟨by simp, ?_, by simp, fun _ => ⟨ast, rfl, rfl, by simp, by simpa using code⟩⟩
        intro other member
        rw [List.mem_singleton.mp member]
        exact points d (here.mono located)
    · next some =>
      rw [List.isEmpty_iff] at some
      have shown : reportDiagnostics texts (TestReport.mk path false [.validationFailure
          ((Validate.validate ast).filter fun d => d.severity = .error)] []) =
          (Validate.validate ast).filter fun d => d.severity = .error := by
        simp [reportDiagnostics, diagnosticsOf]
      rw [shown]
      refine ⟨by simp [some], ?_, fun _ => rfl, ?_⟩
      · intro d member
        exact points d ((reported d (List.mem_filter.mp member).1).mono located)
      · intro clean
        simp only [hasError, List.any_eq_false] at clean
        exact absurd (List.filter_eq_nil_iff.mpr clean) some

theorem runTestFile_reports_spaced :
    ∃ report, runTestFile (fun _ => declarationTree 12) (liveRuntime fun _ => refusingWorld)
        (fun _ => .error "") "t.ill" spacedDeclaration = some report ∧
      reportDiagnostics ⟨id, fun _ => ""⟩ report = [unknownType 12] := by
  have facts : (checkFile (fun _ => declarationTree 12) spacedDeclaration).map
      (fun file => file.diags) = some [unknownType 12] := rfl
  obtain ⟨file, checked, diags⟩ := Option.map_eq_some_iff.mp facts
  obtain ⟨report, ran, -, -, rejected, -⟩ := runTestFile_reports ⟨id, fun _ => ""⟩
    (fun _ => declarationTree 12) (liveRuntime fun _ => refusingWorld) (fun _ => .error "") "t.ill"
    spacedDeclaration file checked
  have faulty : hasError file = true := by
    rw [hasError, diags]
    rfl
  refine ⟨report, ran, (rejected faulty).trans ?_⟩
  rw [diags]
  rfl

end Ill.ReportFormat
