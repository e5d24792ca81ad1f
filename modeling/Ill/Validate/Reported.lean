import Ill.Syntax.Spans
import Ill.Validate.Validator

/-!
# What the validator reports

Every diagnostic the validator reports is an error and points at a span of the
syntax tree. Hence the files without an error are the files on which both
passes are silent.
-/

namespace Ill.Validate

open Ast Actor Base

/-- Every reported diagnostic is an error at one of the spans. -/
def Located (spans : List Span) (diagnostics : List Diagnostic) : Prop :=
  ∀ diagnostic ∈ diagnostics, diagnostic.ErrorAt spans

theorem Located.nil {spans : List Span} : Located spans [] := by
  intro diagnostic member
  simp at member

theorem Located.single {spans : List Span} {span : Span} (member : span ∈ spans)
    (code : DiagnosticCode) (message : String) : Located spans [.error span code message] := by
  intro diagnostic here
  rw [List.mem_singleton.mp here]
  exact Diagnostic.errorAt_error member code message

theorem Located.append {spans : List Span} {first second : List Diagnostic}
    (left : Located spans first) (right : Located spans second) :
    Located spans (first ++ second) := by
  intro diagnostic member
  exact (List.mem_append.mp member).elim (left diagnostic) (right diagnostic)

theorem Located.mono {spans wider : List Span} {diagnostics : List Diagnostic}
    (located : Located spans diagnostics) (included : spans ⊆ wider) :
    Located wider diagnostics :=
  fun diagnostic member => (located diagnostic member).mono included

theorem Located.flatMap {α : Type} {spans : List Span} {items : List α}
    {check : α → List Diagnostic} (each : ∀ item ∈ items, Located spans (check item)) :
    Located spans (items.flatMap check) := by
  intro diagnostic member
  obtain ⟨item, inside, reported⟩ := List.mem_flatMap.mp member
  exact each item inside diagnostic reported

/-- What is located at the spans of an item is located at those of the list. -/
theorem Located.flatMap_spans {α : Type} {items : List α} {spansOf : α → List Span}
    {check : α → List Diagnostic} (each : ∀ item ∈ items, Located (spansOf item) (check item)) :
    Located (items.flatMap spansOf) (items.flatMap check) :=
  .flatMap fun item inside =>
    (each item inside).mono fun _ member => List.mem_flatMap.mpr ⟨item, inside, member⟩

theorem Located.option {α : Type} {part : Option α} {spansOf : α → List Span}
    {check : α → List Diagnostic} (each : ∀ item, Located (spansOf item) (check item)) :
    Located (optionSpans spansOf part) ((part.map check).getD []) := by
  cases part with
  | none => exact .nil
  | some item => exact each item

/-! ## Expressions -/

theorem unknownSquiggle_located (expr : Expr) : Located expr.spans (unknownSquiggle expr) := by
  cases expr with
  | squiggle name fragments span =>
    rw [unknownSquiggle]
    split
    · exact .single (by simp [Expr.spans]) _ _
    · exact .nil
  | _ => exact .nil

mutual

theorem forEachExpr_located : ∀ expr, Located expr.spans (forEachExpr unknownSquiggle expr)
  | .ident ident => unknownSquiggle_located (.ident ident)
  | .number value => unknownSquiggle_located (.number value)
  | .bool value => unknownSquiggle_located (.bool value)
  | .null => unknownSquiggle_located .null
  | .atom ident => unknownSquiggle_located (.atom ident)
  | .stringLit fragments span =>
    .append (unknownSquiggle_located (.stringLit fragments span))
      ((forEachFragment_located fragments).mono (by simp [Expr.spans]))
  | .squiggle name fragments span =>
    .append (unknownSquiggle_located (.squiggle name fragments span))
      ((forEachFragment_located fragments).mono (by simp [Expr.spans]))
  | .array items =>
    .append (unknownSquiggle_located (.array items))
      ((forEachItem_located items).mono (by simp [Expr.spans]))
  | .memberAccess object property span =>
    .append (unknownSquiggle_located (.memberAccess object property span))
      ((forEachExpr_located object).mono (by simp [Expr.spans]))
  | .index object indices span =>
    .append
      (.append (unknownSquiggle_located (.index object indices span))
        ((forEachExpr_located object).mono (by simp [Expr.spans])))
      ((forEachItem_located indices).mono (by simp [Expr.spans]))

theorem forEachItem_located : ∀ items, Located (itemSpans items) (forEachItem unknownSquiggle items)
  | [] => .nil
  | item :: rest =>
    .append ((forEachExpr_located item).mono (by simp [itemSpans]))
      ((forEachItem_located rest).mono (by simp [itemSpans]))

theorem forEachFragment_located :
    ∀ fragments, Located (fragmentSpans fragments) (forEachFragment unknownSquiggle fragments)
  | [] => .nil
  | .text _ :: rest => forEachFragment_located rest
  | .interpolation expr :: rest =>
    .append ((forEachExpr_located expr).mono (by simp [fragmentSpans]))
      ((forEachFragment_located rest).mono (by simp [fragmentSpans]))

end

theorem checkSquigglesInExpr_located (expr : Expr) :
    Located expr.spans (checkSquigglesInExpr expr) :=
  forEachExpr_located expr

theorem checkSquigglesInKwvalue_located (value : KeywordValue) :
    Located value.spans (checkSquigglesInKwvalue value) := by
  cases value with
  | expr expr => exact checkSquigglesInExpr_located expr
  | map pairs =>
    refine .flatMap_spans fun pair _ => .append ?_ ?_
    · exact (checkSquigglesInExpr_located pair.1).mono (List.subset_append_left _ _)
    · exact (checkSquigglesInExpr_located pair.2).mono (List.subset_append_right _ _)

theorem kwargSquiggles_located (args : List KeywordArg) :
    Located (args.flatMap KeywordArg.spans)
      (args.flatMap fun kw => checkSquigglesInKwvalue kw.value) := by
  refine .flatMap_spans fun kw _ => ?_
  exact (checkSquigglesInKwvalue_located kw.value).mono (by simp [KeywordArg.spans])

/-! ## Declarations and commands -/

theorem checkKeywordArgsAgainst_located {spans : List Span} {provided : List KeywordArg}
    {fallback : Span} (args : provided.flatMap KeywordArg.spans ⊆ spans) (whole : fallback ∈ spans)
    (expected : List KeywordArgDef) (context : Option String) :
    Located spans (checkKeywordArgsAgainst provided expected fallback context) := by
  refine .append (.flatMap fun kw inside => ?_) (.flatMap fun argDef _ => ?_)
  · split
    · exact .nil
    · refine .single (args ?_) _ _
      exact List.mem_flatMap.mpr ⟨kw, inside, by simp [KeywordArg.spans]⟩
  · split
    · exact .single whole _ _
    · exact .nil

theorem checkDefault_located (var : VarDeclaration) : Located var.spans (checkDefault var) := by
  refine (Located.option checkSquigglesInExpr_located).mono ?_
  intro span member
  simp [VarDeclaration.spans, member]

theorem registerActor_located (actors : Actors) (decl : ActorDeclaration) :
    Located decl.spans (registerActor actors decl).2 := by
  unfold registerActor
  split
  · exact .single (by simp [ActorDeclaration.spans]) _ _
  · unfold registerFresh
    split
    · exact .single (by simp [ActorDeclaration.spans]) _ _
    · have args : decl.keywordArgs.flatMap KeywordArg.spans ⊆ decl.spans := by
        intro span member
        simp only [ActorDeclaration.spans, List.mem_cons, List.mem_append, member, true_or, or_true]
      have vars : decl.vars.flatMap VarDeclaration.spans ⊆ decl.spans := by
        intro span member
        simp only [ActorDeclaration.spans, List.mem_cons, List.mem_append, member, or_true]
      refine .append (.append ?_ ?_) ?_
      · exact checkKeywordArgsAgainst_located args (by simp [ActorDeclaration.spans]) _ _
      · exact (kwargSquiggles_located decl.keywordArgs).mono args
      · exact (Located.flatMap_spans fun var _ => checkDefault_located var).mono vars

theorem checkPositional_located {spans : List Span} {cmd : Ast.Command}
    (named : cmd.name.span ∈ spans) (expected : List ArgDef) (actual : List Expr) :
    Located spans (checkPositional cmd expected actual) := by
  unfold checkPositional
  split
  · exact .single named _ _
  · exact .nil

theorem checkCommandIn_located (state : HealthyActor) (cmd : Ast.Command) :
    Located cmd.spans (checkCommandIn state cmd).2 := by
  have named : cmd.name.span ∈ cmd.spans := by simp [Ast.Command.spans]
  have args : cmd.keywordArgs.flatMap KeywordArg.spans ⊆ cmd.spans := by
    intro span member
    simp only [Ast.Command.spans, List.mem_cons, List.mem_append, member, or_true]
  have positional : cmd.positionalArgs.flatMap Expr.spans ⊆ cmd.spans := by
    intro span member
    simp only [Ast.Command.spans, List.mem_cons, List.mem_append, member, true_or, or_true]
  unfold checkCommandIn
  split
  · exact .single named _ _
  · dsimp only
    split
    · refine .append (.append (.append ?_ ?_) ?_) ?_
      · exact checkPositional_located named _ _
      · refine .flatMap fun arg inside => (checkSquigglesInExpr_located arg).mono ?_
        intro span member
        exact positional (List.mem_flatMap.mpr ⟨arg, List.mem_of_mem_drop inside, member⟩)
      · exact checkKeywordArgsAgainst_located args (by simp [Ast.Command.spans]) _ _
      · exact (kwargSquiggles_located cmd.keywordArgs).mono args
    · exact .single named _ _

theorem checkCommand_located (actors : Actors) (actorName : String) (cmd : Ast.Command) :
    Located cmd.spans (checkCommand actors actorName cmd).2 := by
  unfold checkCommand
  split
  · exact .nil
  · exact checkCommandIn_located _ cmd

/-! ## Blocks and files -/

theorem advanceOutcome_located {spans : List Span} {span : Span} (member : span ∈ spans)
    (current : CommandOutcome) (isOk : Bool) :
    Located spans (advanceOutcome current isOk span).2 := by
  cases current <;> cases isOk <;> first | exact .nil | exact .single member _ _

theorem referOutcome_located {spans : List Span} {span : Span} (member : span ∈ spans)
    (current : CommandOutcome) (expr : Expr) :
    Located spans (referOutcome current expr span).2 := by
  unfold referOutcome
  split
  · exact advanceOutcome_located member current true
  · split
    · exact advanceOutcome_located member current false
    · exact .nil

theorem checkStatement_located (actorName : String) (check : BlockCheck) (stmt : Statement) :
    Located stmt.spans (checkStatement actorName check stmt).2 := by
  cases stmt with
  | command cmd => exact checkCommand_located _ actorName cmd
  | «let» letStmt =>
    obtain ⟨name, value, span⟩ := letStmt
    cases value with
    | expr expr =>
      refine .append (referOutcome_located (by simp [Statement.spans, Let.spans]) _ _) ?_
      exact (checkSquigglesInExpr_located expr).mono
        (by simp [Statement.spans, Let.spans, LetValue.spans])
    | parse source format =>
      refine (checkSquigglesInExpr_located source).mono fun span member => ?_
      simp [Statement.spans, Let.spans, LetValue.spans, member]
  | assignment a =>
    refine .append ?_ ?_
    · exact (checkSquigglesInExpr_located a.target).mono
        (by simp [Statement.spans, Assignment.spans])
    · exact (checkSquigglesInExpr_located a.value).mono
        (by simp [Statement.spans, Assignment.spans])
  | assert a =>
    have left : a.left.spans ⊆ (Statement.assert a).spans := by
      intro span member
      simp only [Statement.spans, Assert.spans, List.mem_cons, List.mem_append, member, or_true,
        true_or]
    have right : optionSpans Expr.spans a.right ⊆ (Statement.assert a).spans := by
      intro span member
      simp only [Statement.spans, Assert.spans, List.mem_cons, List.mem_append, member, or_true]
    refine .append (.append ?_ ?_) ?_
    · exact referOutcome_located (by simp [Statement.spans, Assert.spans]) _ _
    · exact (checkSquigglesInExpr_located a.left).mono left
    · exact (Located.option checkSquigglesInExpr_located).mono right

/-- What every step of a walk reports of its own item is located in the whole list. -/
theorem emit_located {State Item : Type} {step : State → Item → State × List Diagnostic}
    {spansOf : Item → List Span} (each : ∀ state item, Located (spansOf item) (step state item).2)
    (state : State) (items : List Item) :
    Located (items.flatMap spansOf) (emit step state items).2 := by
  refine emit_outputs fun before item inside diagnostic reported => ?_
  refine (each before item diagnostic reported).mono fun span member => ?_
  exact List.mem_flatMap.mpr ⟨item, inside, member⟩

theorem checkAsBlock_located (actors : Actors) (block : AsBlock) :
    Located block.spans (checkAsBlock actors block).2 := by
  unfold checkAsBlock
  split
  · exact .single (by simp [AsBlock.spans]) _ _
  · exact .nil
  · refine (emit_located (checkStatement_located _) _ block.body).mono fun span member => ?_
    simp only [AsBlock.spans, List.mem_cons, member, or_true]

theorem registerItem_located (actors : Actors) (item : TopLevel) :
    Located item.spans (registerItem actors item).2 := by
  cases item with
  | actorDeclaration decl => exact registerActor_located actors decl
  | asBlock block => exact .nil

theorem checkItem_located (actors : Actors) (item : TopLevel) :
    Located item.spans (checkItem actors item).2 := by
  cases item with
  | actorDeclaration decl => exact .nil
  | asBlock block => exact checkAsBlock_located actors block

/-- Every diagnostic of the validator is an error at a span of the file. -/
theorem validate_located (source : SourceFile) : Located source.spans (validate source) :=
  .append (emit_located registerItem_located _ source.items)
    (emit_located checkItem_located _ source.items)

/-- A file is accepted exactly when the validator reports nothing at all. -/
theorem accepts_iff {source : SourceFile} : accepts source = true ↔ validate source = [] := by
  constructor
  · intro accepted
    by_contra reported
    obtain ⟨diagnostic, member⟩ := List.exists_mem_of_ne_nil _ reported
    have spared := List.all_eq_true.mp accepted diagnostic member
    have erroneous := (validate_located source diagnostic member).1
    simp [erroneous] at spared
  · intro silent
    simp [accepts, silent]

end Ill.Validate
