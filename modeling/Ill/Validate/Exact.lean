import Ill.Validate.Accepted

/-!
# What the validator accepts

The files on which the validator is silent are described here without its
walk: by the windows of their blocks, the modes an actor goes through from its
initial one, and the names that occur in their expressions. The walk threads a
pending transition and a three-state outcome through the statements; the
induction over a block relates both to the window that the walk stands in.
-/

namespace Ill.Ast

/-! ## Windows and names -/

/-- The commands of a block in order, each with its window. -/
def commandWindows : List Statement → List (Command × List Statement)
  | [] => []
  | .command cmd :: rest => (cmd, window rest) :: commandWindows rest
  | _ :: rest => commandWindows rest

/-- The windows of a block: the statements before its first command, and those
after each command. -/
def windows (body : List Statement) : List (List Statement) :=
  window body :: (commandWindows body).map Prod.snd

theorem commandWindows_cons {stmt : Statement} (inside : stmt.isCommand = false)
    (rest : List Statement) : commandWindows (stmt :: rest) = commandWindows rest := by
  cases stmt with
  | command cmd => simp [Statement.isCommand] at inside
  | _ => rfl

mutual

/-- The squiggle names that occur in an expression. -/
def Expr.squiggleNames : Expr → List String
  | .squiggle name fragments _ => name.name :: fragmentSquiggleNames fragments
  | .stringLit fragments _ => fragmentSquiggleNames fragments
  | .array items => itemSquiggleNames items
  | .memberAccess object _ _ => object.squiggleNames
  | .index object indices _ => object.squiggleNames ++ itemSquiggleNames indices
  | .ident _ | .number _ | .bool _ | .null | .atom _ => []

def itemSquiggleNames : List Expr → List String
  | [] => []
  | item :: rest => item.squiggleNames ++ itemSquiggleNames rest

def fragmentSquiggleNames : List StringFragment → List String
  | [] => []
  | .text _ :: rest => fragmentSquiggleNames rest
  | .interpolation expr :: rest => expr.squiggleNames ++ fragmentSquiggleNames rest

end

/-- The expressions of a keyword argument. -/
def KeywordArg.exprs (kw : KeywordArg) : List Expr :=
  match kw.value with
  | .expr expr => [expr]
  | .map pairs => pairs.flatMap fun pair => [pair.1, pair.2]

def Command.exprs (cmd : Command) : List Expr :=
  cmd.positionalArgs ++ cmd.keywordArgs.flatMap KeywordArg.exprs

def Statement.exprs : Statement → List Expr
  | .command cmd => cmd.exprs
  | .assert a => a.left :: a.right.toList
  | .let letStmt =>
    match letStmt.value with
    | .expr expr => [expr]
    | .parse source _ => [source]
  | .assignment a => [a.target, a.value]

def ActorDeclaration.exprs (decl : ActorDeclaration) : List Expr :=
  decl.keywordArgs.flatMap KeywordArg.exprs ++ decl.vars.flatMap fun var => var.default.toList

def TopLevel.exprs : TopLevel → List Expr
  | .actorDeclaration decl => decl.exprs
  | .asBlock block => block.body.flatMap Statement.exprs

/-- The commands of one actor in source order, each with its window. -/
def commandsOf (name : String) (items : List TopLevel) : List (Command × List Statement) :=
  items.flatMap fun item =>
    match item with
    | .actorDeclaration _ => []
    | .asBlock block => if block.actor.name = name then commandWindows block.body else []

theorem commandsOf_actorDeclaration (name : String) (decl : ActorDeclaration)
    (items : List TopLevel) :
    commandsOf name (.actorDeclaration decl :: items) = commandsOf name items := rfl

theorem commandsOf_own (block : AsBlock) (items : List TopLevel) :
    commandsOf block.actor.name (.asBlock block :: items) =
      commandWindows block.body ++ commandsOf block.actor.name items := by
  simp [commandsOf]

theorem commandsOf_of_ne {name : String} {block : AsBlock} (different : name ≠ block.actor.name)
    (items : List TopLevel) :
    commandsOf name (.asBlock block :: items) = commandsOf name items := by
  simp [commandsOf, different.symm]

end Ill.Ast

namespace Ill.Validate

open Ast Actor Base

/-! ## The description -/

/-- A `let` value or the left side of an assert is rooted at a name. The source
of a `let … parse` does not count. -/
def refersTo (name : String) : Statement → Bool
  | .assert a => exprStartsWithIdent name a.left
  | .let letStmt =>
    match letStmt.value with
    | .expr expr => exprStartsWithIdent name expr
    | .parse _ _ => false
  | _ => false

/-- A window refers to the success of its command and to its failure. -/
def Mixed (inside : List Statement) : Prop :=
  inside.any (refersTo "ok") = true ∧ inside.any (refersTo "error") = true

/-- The keywords given are known, and the required ones are given. -/
structure KeywordsFit (provided : List KeywordArg) (expected : List KeywordArgDef) : Prop where
  known : ∀ kw ∈ provided, ∃ argDef ∈ expected, argDef.name = kw.key.name
  required : ∀ argDef ∈ expected, argDef.required = true →
    ∃ kw ∈ provided, kw.key.name = argDef.name

/-- A command resolves to a descriptor, is valid in a mode, and has the
arguments that the descriptor asks for. -/
structure CommandFits (typeDef : ActorType) (mode : Mode) (cmd : Ast.Command)
    (cmdDef : Actor.Command) (consumed : Nat) : Prop where
  resolved : typeDef.resolveCommand cmd.name.name cmd.positionalArgs = some (cmdDef, consumed)
  valid : mode ∈ cmdDef.validInModes
  positional : cmdDef.positional.length ≤ (cmd.positionalArgs.drop consumed).length
  keyword : KeywordsFit cmd.keywordArgs cmdDef.keyword

/-- A command with its window takes an actor from one mode to the next: to that
of its success, unless the window refers to `error`. -/
def RunsCommand (typeDef : ActorType) (mode : Mode) (entry : Ast.Command × List Statement)
    (next : Mode) : Prop :=
  ∃ cmdDef consumed, CommandFits typeDef mode entry.1 cmdDef consumed ∧
    next = if entry.2.any (refersTo "error") then mode else cmdDef.modeAfterOk mode

/-- A declaration has a registered type and the keywords its type asks for. -/
def DeclarationFits (decl : ActorDeclaration) : Prop :=
  ∃ typeDef, Registry.get decl.actorType.name = some typeDef ∧
    KeywordsFit decl.keywordArgs typeDef.constructorKeyword

/-- Every squiggle that occurs in an expression is registered. -/
def SquigglesKnown (exprs : List Expr) : Prop :=
  ∀ expr ∈ exprs, ∀ name ∈ expr.squiggleNames, (Squiggle.lookup name).isSome = true

/-- The well-formed files. -/
structure WellFormed (source : SourceFile) : Prop where
  declaredOnce : (declaredNames source.items).Nodup
  declarations : ∀ decl, .actorDeclaration decl ∈ source.items → DeclarationFits decl
  blocks : ∀ block, .asBlock block ∈ source.items → block.actor.name ∈ declaredNames source.items
  /-- Every actor's commands can be followed from its initial mode. -/
  commands : ∀ decl typeDef, .actorDeclaration decl ∈ source.items →
    Registry.get decl.actorType.name = some typeDef →
      ∃ final, Chain (RunsCommand typeDef) typeDef.initialMode
        (commandsOf decl.name.name source.items) final
  unmixed : ∀ block, .asBlock block ∈ source.items → ∀ inside ∈ windows block.body, ¬ Mixed inside
  squiggles : ∀ item ∈ source.items, SquigglesKnown item.exprs

/-! ## Squiggles -/

@[simp] theorem SquigglesKnown.nil : SquigglesKnown [] ↔ True :=
  iff_of_true (fun _ member => absurd member List.not_mem_nil) trivial

@[simp] theorem squigglesKnown_cons (expr : Expr) (rest : List Expr) :
    SquigglesKnown (expr :: rest) ↔
      (∀ name ∈ expr.squiggleNames, (Squiggle.lookup name).isSome = true) ∧ SquigglesKnown rest :=
  List.forall_mem_cons

@[simp] theorem squigglesKnown_append (first second : List Expr) :
    SquigglesKnown (first ++ second) ↔ SquigglesKnown first ∧ SquigglesKnown second :=
  List.forall_mem_append

theorem squigglesKnown_flatMap {α : Type} {items : List α} {exprs : α → List Expr} :
    SquigglesKnown (items.flatMap exprs) ↔ ∀ item ∈ items, SquigglesKnown (exprs item) := by
  constructor
  · intro known item member expr inside
    exact known expr (List.mem_flatMap.mpr ⟨item, member, inside⟩)
  · intro known expr inside
    obtain ⟨item, member, within⟩ := List.mem_flatMap.mp inside
    exact known item member expr within

theorem unknownSquiggle_silent {name : Ident} {fragments : List StringFragment} {span : Span} :
    unknownSquiggle (.squiggle name fragments span) = [] ↔
      (Squiggle.lookup name.name).isSome = true := by
  rw [unknownSquiggle]
  cases Squiggle.lookup name.name <;> simp

mutual

theorem forEachExpr_silent : ∀ expr, forEachExpr unknownSquiggle expr = [] ↔
    ∀ name ∈ expr.squiggleNames, (Squiggle.lookup name).isSome = true
  | .ident _ | .number _ | .bool _ | .null | .atom _ => by
    simp [forEachExpr, unknownSquiggle, Expr.squiggleNames]
  | .stringLit fragments span => by
    rw [forEachExpr, Expr.squiggleNames, ← forEachFragment_silent fragments]
    rfl
  | .squiggle name fragments span => by
    rw [forEachExpr, Expr.squiggleNames, List.append_eq_nil_iff, unknownSquiggle_silent,
      forEachFragment_silent fragments, List.forall_mem_cons]
  | .array items => by
    rw [forEachExpr, Expr.squiggleNames, ← forEachItem_silent items]
    rfl
  | .memberAccess object property span => by
    rw [forEachExpr, Expr.squiggleNames, ← forEachExpr_silent object]
    rfl
  | .index object indices span => by
    rw [forEachExpr, Expr.squiggleNames, List.forall_mem_append, ← forEachExpr_silent object,
      ← forEachItem_silent indices, List.append_eq_nil_iff]
    rfl

theorem forEachItem_silent : ∀ items, forEachItem unknownSquiggle items = [] ↔
    ∀ name ∈ itemSquiggleNames items, (Squiggle.lookup name).isSome = true
  | [] => by simp [forEachItem, itemSquiggleNames]
  | item :: rest => by
    rw [forEachItem, itemSquiggleNames, List.append_eq_nil_iff, List.forall_mem_append,
      forEachExpr_silent item, forEachItem_silent rest]

theorem forEachFragment_silent : ∀ fragments, forEachFragment unknownSquiggle fragments = [] ↔
    ∀ name ∈ fragmentSquiggleNames fragments, (Squiggle.lookup name).isSome = true
  | [] => by simp [forEachFragment, fragmentSquiggleNames]
  | .text _ :: rest => by
    rw [forEachFragment, fragmentSquiggleNames, forEachFragment_silent rest]
  | .interpolation expr :: rest => by
    rw [forEachFragment, fragmentSquiggleNames, List.append_eq_nil_iff, List.forall_mem_append,
      forEachExpr_silent expr, forEachFragment_silent rest]

end

theorem checkSquigglesInExpr_silent (expr : Expr) :
    checkSquigglesInExpr expr = [] ↔ SquigglesKnown [expr] := by
  rw [squigglesKnown_cons, SquigglesKnown.nil, and_true]
  exact forEachExpr_silent expr

theorem checkSquigglesInExpr_silent_all (exprs : List Expr) :
    exprs.flatMap checkSquigglesInExpr = [] ↔ SquigglesKnown exprs := by
  rw [List.flatMap_eq_nil_iff]
  exact forall₂_congr fun expr _ => forEachExpr_silent expr

theorem kwargSquiggles_silent (args : List KeywordArg) :
    (args.flatMap fun kw => checkSquigglesInKwvalue kw.value) = [] ↔
      SquigglesKnown (args.flatMap KeywordArg.exprs) := by
  rw [List.flatMap_eq_nil_iff, squigglesKnown_flatMap]
  refine forall₂_congr fun kw _ => ?_
  obtain ⟨key, value, span⟩ := kw
  cases value with
  | expr expr => exact checkSquigglesInExpr_silent expr
  | map pairs =>
    rw [checkSquigglesInKwvalue, List.flatMap_eq_nil_iff, KeywordArg.exprs, squigglesKnown_flatMap]
    refine forall₂_congr fun pair _ => ?_
    rw [List.append_eq_nil_iff, checkSquigglesInExpr_silent, checkSquigglesInExpr_silent]
    simp

/-! ## Declarations and commands -/

theorem checkKeywordArgsAgainst_silent {provided : List KeywordArg} {expected : List KeywordArgDef}
    {fallback : Span} {context : Option String} :
    checkKeywordArgsAgainst provided expected fallback context = [] ↔
      KeywordsFit provided expected := by
  rw [checkKeywordArgsAgainst, List.append_eq_nil_iff, List.flatMap_eq_nil_iff,
    List.flatMap_eq_nil_iff]
  constructor
  · rintro ⟨unknown, missing⟩
    constructor
    · intro kw given
      have silent := unknown kw given
      split at silent
      · next found =>
        simpa only [List.any_eq_true, beq_iff_eq] using found
      · simp at silent
    · intro argDef member needed
      have silent := missing argDef member
      split at silent
      · simp at silent
      · next found =>
        simpa [needed] using found
  · intro fits
    constructor
    · intro kw given
      obtain ⟨argDef, member, named⟩ := fits.known kw given
      have found : expected.any (fun argDef => argDef.name == kw.key.name) = true :=
        List.any_eq_true.mpr ⟨argDef, member, beq_iff_eq.mpr named⟩
      rw [if_pos found]
    · intro argDef member
      by_cases needed : argDef.required = true
      · obtain ⟨kw, given, named⟩ := fits.required argDef member needed
        have found : provided.any (fun kw => kw.key.name == argDef.name) = true :=
          List.any_eq_true.mpr ⟨kw, given, beq_iff_eq.mpr named⟩
        simp [found]
      · simp [needed]

theorem checkPositional_silent {cmd : Ast.Command} {expected : List ArgDef} {actual : List Expr} :
    checkPositional cmd expected actual = [] ↔ expected.length ≤ actual.length := by
  unfold checkPositional
  rcases found : expected[actual.length]? with _ | missing
  · exact iff_of_true rfl (List.getElem?_eq_none_iff.mp found)
  · obtain ⟨short, _⟩ := List.getElem?_eq_some_iff.mp found
    simp only [List.cons_ne_nil, false_iff]
    omega

theorem checkDefaults_silent (vars : List VarDeclaration) :
    vars.flatMap checkDefault = [] ↔
      SquigglesKnown (vars.flatMap fun var => var.default.toList) := by
  rw [List.flatMap_eq_nil_iff, squigglesKnown_flatMap]
  refine forall₂_congr fun var _ => ?_
  obtain ⟨marks, name, value, span⟩ := var
  cases value with
  | none => simp [checkDefault]
  | some expr => exact checkSquigglesInExpr_silent expr

theorem registerActor_silent_iff {actors : Actors} {decl : ActorDeclaration} :
    (registerActor actors decl).2 = [] ↔
      actors.healthy? decl.name.name = none ∧ DeclarationFits decl ∧ SquigglesKnown decl.exprs := by
  unfold registerActor
  rcases entry : actors.healthy? decl.name.name with _ | actor
  · simp only [true_and, registerFresh, DeclarationFits]
    rcases found : Registry.get decl.actorType.name with _ | typeDef
    · simp
    · simp only [List.append_eq_nil_iff, checkKeywordArgsAgainst_silent, kwargSquiggles_silent,
        checkDefaults_silent, ActorDeclaration.exprs, squigglesKnown_append, Option.some.injEq,
        exists_eq_left', and_assoc]
  · simp

/-- What the spelling of a command absorbs holds no squiggle. -/
theorem squigglesKnown_consumed {typeDef : ActorType} {name : String} {positional : List Expr}
    {cmdDef : Actor.Command} {consumed : Nat}
    (resolved : typeDef.resolveCommand name positional = some (cmdDef, consumed)) :
    SquigglesKnown (positional.take consumed) := by
  rcases ActorType.resolveCommand_cases resolved with ⟨_, rfl⟩ | ⟨event, rest, _, rfl, rfl, _⟩
  · simp
  · simp [Expr.squiggleNames]

/-- What the check of a command that fits comes to. -/
theorem checkCommandIn_of_fits {state : HealthyActor} {cmd : Ast.Command}
    {cmdDef : Actor.Command} {consumed : Nat}
    (fits : CommandFits state.typeDef state.mode cmd cmdDef consumed) :
    (checkCommandIn state cmd).1 = ⟨cmdDef.okFields, cmdDef.errorTypes, cmdDef.transitionsTo⟩ ∧
      ((checkCommandIn state cmd).2 = [] ↔ SquigglesKnown cmd.exprs) := by
  have valid : cmdDef.validInModes.any (fun mode => sameMode mode state.mode) = true :=
    List.any_eq_true.mpr ⟨state.mode, fits.valid, sameMode_iff.mpr rfl⟩
  have whole := squigglesKnown_append (cmd.positionalArgs.take consumed)
    (cmd.positionalArgs.drop consumed)
  rw [List.take_append_drop, and_iff_right (squigglesKnown_consumed fits.resolved)] at whole
  simp only [checkCommandIn, fits.resolved, valid, if_true, List.append_eq_nil_iff, true_and,
    checkPositional_silent, checkSquigglesInExpr_silent_all, checkKeywordArgsAgainst_silent,
    kwargSquiggles_silent, Ast.Command.exprs, squigglesKnown_append, whole, fits.positional,
    fits.keyword, and_true]

/-- A command that is checked silently fits a descriptor. -/
theorem fits_of_checkCommandIn_silent {state : HealthyActor} {cmd : Ast.Command}
    (silent : (checkCommandIn state cmd).2 = []) :
    ∃ cmdDef consumed, CommandFits state.typeDef state.mode cmd cmdDef consumed := by
  obtain ⟨cmdDef, consumed, resolved, valid, _⟩ := checkCommandIn_silent silent
  have modes : cmdDef.validInModes.any (fun mode => sameMode mode state.mode) = true :=
    List.any_eq_true.mpr ⟨state.mode, valid, sameMode_iff.mpr rfl⟩
  simp only [checkCommandIn, resolved, modes, if_true, List.append_eq_nil_iff] at silent
  obtain ⟨⟨⟨enough, _⟩, keyword⟩, _⟩ := silent
  exact ⟨cmdDef, consumed, resolved, valid, checkPositional_silent.mp enough,
    checkKeywordArgsAgainst_silent.mp keyword⟩

/-! ## Windows -/

/-- A window does not contradict what an outcome is already committed to. -/
def Consistent (outcome : CommandOutcome) (inside : List Statement) : Prop :=
  ¬ ((outcome = .explicitOk ∨ inside.any (refersTo "ok") = true) ∧
    (outcome = .explicitError ∨ inside.any (refersTo "error") = true))

@[simp] theorem consistent_nil (outcome : CommandOutcome) : Consistent outcome [] := by
  cases outcome <;> simp [Consistent]

@[simp] theorem consistent_impliedOk (inside : List Statement) :
    Consistent .impliedOk inside ↔ ¬ Mixed inside := by
  simp [Consistent, Mixed]

/-- A command begins its window uncommitted. -/
theorem consistent_command {actorName : String} {check : BlockCheck} {cmd : Ast.Command}
    {inside : List Statement} :
    Consistent (checkStatement actorName check (.command cmd)).1.outcome inside ↔ ¬ Mixed inside :=
  consistent_impliedOk inside

/-- What a reference adds to an outcome, it adds to the window's references. -/
theorem referOutcome_consistent (current : CommandOutcome) (expr : Expr) (span : Span)
    (okLater errorLater : Bool) :
    ((referOutcome current expr span).2 = [] ∧
      ¬ (((referOutcome current expr span).1 = .explicitOk ∨ okLater = true) ∧
        ((referOutcome current expr span).1 = .explicitError ∨ errorLater = true))) ↔
    ¬ ((current = .explicitOk ∨ (exprStartsWithIdent "ok" expr || okLater) = true) ∧
      (current = .explicitError ∨ (exprStartsWithIdent "error" expr || errorLater) = true)) := by
  unfold referOutcome
  by_cases okRooted : exprStartsWithIdent "ok" expr = true
  · have notError : exprStartsWithIdent "error" expr = false := by
      by_contra errorRooted
      rw [Bool.not_eq_false] at errorRooted
      exact absurd (exprStartsWithIdent_unique okRooted errorRooted) (by decide)
    rw [if_pos okRooted, okRooted, notError]
    cases current <;> simp [advanceOutcome]
  · rw [Bool.not_eq_true] at okRooted
    by_cases errorRooted : exprStartsWithIdent "error" expr = true
    · rw [okRooted, if_neg Bool.false_ne_true, if_pos errorRooted, errorRooted]
      cases current <;> simp [advanceOutcome]
    · rw [Bool.not_eq_true] at errorRooted
      rw [okRooted, errorRooted, if_neg Bool.false_ne_true]
      simp

/-- A statement of a window is silent where it is consistent with the window
and its squiggles are known. -/
theorem checkStatement_consistent {stmt : Statement} (notCommand : stmt.isCommand = false)
    (actorName : String) (check : BlockCheck) (inside : List Statement) :
    ((checkStatement actorName check stmt).2 = [] ∧
      Consistent (checkStatement actorName check stmt).1.outcome inside) ↔
    Consistent check.outcome (stmt :: inside) ∧ SquigglesKnown stmt.exprs := by
  cases stmt with
  | command cmd => simp [Statement.isCommand] at notCommand
  | «let» letStmt =>
    obtain ⟨bound, value, span⟩ := letStmt
    cases value with
    | expr expr =>
      have advanced := referOutcome_consistent check.outcome expr span
        (inside.any (refersTo "ok")) (inside.any (refersTo "error"))
      simp only [checkStatement, checkLet, List.append_eq_nil_iff, checkSquigglesInExpr_silent,
        Statement.exprs, Consistent, List.any_cons, refersTo]
      rw [and_right_comm, advanced]
    | parse source format =>
      simp only [checkStatement, checkLet, checkSquigglesInExpr_silent, Statement.exprs, Consistent,
        List.any_cons, refersTo, Bool.false_or]
      exact and_comm
  | assignment a =>
    simp only [checkStatement, List.append_eq_nil_iff, checkSquigglesInExpr_silent,
      Statement.exprs, Consistent, List.any_cons, refersTo, Bool.false_or, squigglesKnown_cons,
      SquigglesKnown.nil, and_true]
    exact and_comm
  | assert a =>
    obtain ⟨mark, left, op, right, span⟩ := a
    have advanced := referOutcome_consistent check.outcome left span
      (inside.any (refersTo "ok")) (inside.any (refersTo "error"))
    have known : (right.map checkSquigglesInExpr).getD [] = [] ↔ SquigglesKnown right.toList := by
      cases right with
      | none => simp
      | some expr => exact checkSquigglesInExpr_silent expr
    simp only [checkStatement, List.append_eq_nil_iff, checkSquigglesInExpr_silent, known,
      Statement.exprs, Consistent, List.any_cons, refersTo, squigglesKnown_cons,
      SquigglesKnown.nil, and_true]
    rw [← advanced]
    constructor
    · rintro ⟨⟨⟨quiet, leftKnown⟩, rightKnown⟩, consistent⟩
      exact ⟨⟨quiet, consistent⟩, leftKnown, rightKnown⟩
    · rintro ⟨⟨quiet, consistent⟩, leftKnown, rightKnown⟩
      exact ⟨⟨⟨quiet, leftKnown⟩, rightKnown⟩, consistent⟩

/-- No report says that `ok` and `error` are mixed. -/
def Unconflicted (diagnostics : List Diagnostic) : Prop :=
  ∀ diagnostic ∈ diagnostics, diagnostic.code ≠ .conflictingOutcomeAsserts

theorem Unconflicted.of_silent {diagnostics : List Diagnostic} (silent : diagnostics = []) :
    Unconflicted diagnostics := by
  simp [silent, Unconflicted]

theorem unconflicted_append {first second : List Diagnostic} :
    Unconflicted (first ++ second) ↔ Unconflicted first ∧ Unconflicted second :=
  List.forall_mem_append

/-- A conflict is all that a reference can report. -/
theorem referOutcome_unconflicted {current : CommandOutcome} {expr : Expr} {span : Span}
    (unconflicted : Unconflicted (referOutcome current expr span).2) :
    (referOutcome current expr span).2 = [] := by
  refine List.eq_nil_iff_forall_not_mem.mpr fun diagnostic inside => unconflicted _ inside ?_
  unfold referOutcome at inside
  split at inside
  · cases current <;> simp_all [advanceOutcome, Diagnostic.error]
  · split at inside
    · cases current <;> simp_all [advanceOutcome, Diagnostic.error]
    · simp at inside

/-- An unconflicted reference commits to `error` exactly when it is rooted there. -/
theorem referOutcome_silent {current : CommandOutcome} {expr : Expr} {span : Span}
    (silent : (referOutcome current expr span).2 = []) :
    (referOutcome current expr span).1 = .explicitError ↔
      current = .explicitError ∨ exprStartsWithIdent "error" expr = true := by
  unfold referOutcome at silent ⊢
  split at silent
  · next okRooted =>
    have notError : exprStartsWithIdent "error" expr ≠ true := fun errorRooted =>
      absurd (exprStartsWithIdent_unique okRooted errorRooted) (by decide)
    rw [if_pos okRooted]
    cases current with
    | explicitError => simp [advanceOutcome] at silent
    | impliedOk => simp [advanceOutcome, notError]
    | explicitOk => simp [advanceOutcome, notError]
  · next notOk =>
    rw [if_neg notOk]
    split at silent
    · next errorRooted =>
      rw [if_pos errorRooted]
      cases current with
      | explicitOk => simp [advanceOutcome] at silent
      | impliedOk => simp [advanceOutcome, errorRooted]
      | explicitError => simp [advanceOutcome]
    · next notError =>
      rw [if_neg notError]
      simp [notError]

/-- An unconflicted statement of a window commits to `error` exactly when it
refers to it. -/
theorem checkStatement_outcome {stmt : Statement} (inside : stmt.isCommand = false)
    {actorName : String} {check : BlockCheck}
    (unconflicted : Unconflicted (checkStatement actorName check stmt).2) :
    (checkStatement actorName check stmt).1.outcome = .explicitError ↔
      check.outcome = .explicitError ∨ refersTo "error" stmt = true := by
  cases stmt with
  | command cmd => simp [Statement.isCommand] at inside
  | «let» letStmt =>
    obtain ⟨bound, value, span⟩ := letStmt
    cases value with
    | parse source format => simp [checkStatement, checkLet, refersTo]
    | expr expr =>
      have reference := (unconflicted_append.mp unconflicted).1
      exact referOutcome_silent (referOutcome_unconflicted reference)
  | assignment a => simp [checkStatement, refersTo]
  | assert a =>
    have sides := (unconflicted_append.mp unconflicted).1
    have reference := (unconflicted_append.mp sides).1
    exact referOutcome_silent (referOutcome_unconflicted reference)

/-! ## Blocks -/

/-- The mode that the window a walk stands in takes its actor to. -/
def modeThrough (check : BlockCheck) (mode : Mode) (inside : List Statement) : Mode :=
  if check.outcome = .explicitError ∨ inside.any (refersTo "error") = true then mode
  else check.pendingTransition.getD mode

/-- At the end of a window the pending transition is applied. -/
theorem mode?_applyPending_eq {actorName : String} {check : BlockCheck} {mode : Mode}
    (held : check.actors.mode? actorName = some mode) :
    (applyPending actorName check).mode? actorName = some (modeThrough check mode []) := by
  rw [mode?_applyPending held, modeThrough]
  cases check.outcome <;> rfl

/-- A silent statement of a window leaves the mode after the window as it was. -/
theorem modeThrough_cons {stmt : Statement} (notCommand : stmt.isCommand = false)
    {actorName : String} {check : BlockCheck}
    (silent : (checkStatement actorName check stmt).2 = []) (mode : Mode)
    (inside : List Statement) :
    modeThrough (checkStatement actorName check stmt).1 mode inside =
      modeThrough check mode (stmt :: inside) := by
  have committed := checkStatement_outcome notCommand (.of_silent silent)
  have pending := (checkStatement_window notCommand actorName check "").2
  simp only [modeThrough, committed, pending, List.any_cons, Bool.or_eq_true, or_assoc]

/-- A command is checked in the mode that the window before it leads to. -/
theorem checkStatement_command {actorName : String} {check : BlockCheck} {typeDef : ActorType}
    {mode : Mode} (typed : check.actors.type? actorName = some typeDef)
    (held : check.actors.mode? actorName = some mode) (cmd : Ast.Command) :
    ∃ state, state.typeDef = typeDef ∧ state.mode = modeThrough check mode [] ∧
      (checkStatement actorName check (.command cmd)).2 = (checkCommandIn state cmd).2 ∧
      (checkStatement actorName check (.command cmd)).1.pendingTransition =
        (checkCommandIn state cmd).1.transition := by
  have applied := mode?_applyPending_eq held
  obtain ⟨state, healthy, mode⟩ := Actors.healthy?_of_mode? applied
  have kept := (keeps_applyPending actorName check).types actorName
  have typedState : some state.typeDef = some typeDef := by
    rw [← typed, ← kept, Actors.type?, healthy, Option.map_some]
  refine ⟨state, Option.some.inj typedState, mode, ?_, ?_⟩
  · simp only [checkStatement, checkCommand, healthy]
  · simp only [checkStatement, checkCommand, healthy]

/-- A command that fits leaves the mode after its window to the window. -/
theorem modeThrough_command {actorName : String} {check : BlockCheck} {cmd : Ast.Command}
    {cmdDef : Actor.Command}
    (pending : (checkStatement actorName check (.command cmd)).1.pendingTransition =
      cmdDef.transitionsTo) (mode : Mode) (inside : List Statement) :
    modeThrough (checkStatement actorName check (.command cmd)).1 mode inside =
      if inside.any (refersTo "error") then mode else cmdDef.modeAfterOk mode := by
  rw [modeThrough, pending]
  simp [checkStatement, Actor.Command.modeAfterOk]

/-- A block of a healthy actor is checked silently, and leaves the actor in a
mode, exactly when its windows are unmixed, its squiggles known, and its
commands lead to that mode. -/
theorem checkBody_silent_iff {actorName : String} {typeDef : ActorType} (final : Mode)
    (body : List Statement) {check : BlockCheck} {mode : Mode}
    (typed : check.actors.type? actorName = some typeDef)
    (held : check.actors.mode? actorName = some mode) :
    ((checkBody actorName check body).2 = [] ∧
      (applyPending actorName (checkBody actorName check body).1).mode? actorName = some final) ↔
    Consistent check.outcome (window body) ∧
      (∀ entry ∈ commandWindows body, ¬ Mixed entry.2) ∧
      SquigglesKnown (body.flatMap Statement.exprs) ∧
      Chain (RunsCommand typeDef) (modeThrough check mode (window body)) (commandWindows body)
        final := by
  induction body generalizing check mode with
  | nil =>
    rw [checkBody, emit_nil, mode?_applyPending_eq held]
    simp [commandWindows, chain_nil_iff]
  | cons stmt rest ih =>
    have typed' := ((keeps_checkStatement actorName check stmt).types actorName).trans typed
    rcases kind : stmt.isCommand with _ | _
    · have held' := (checkStatement_window kind actorName check actorName).1.trans held
      have later := ih typed' held'
      have consistent := checkStatement_consistent kind actorName check (window rest)
      rw [window_cons kind, commandWindows_cons kind, List.flatMap_cons, squigglesKnown_append,
        checkBody, emit_cons_output, emit_cons_state, List.append_eq_nil_iff, and_assoc]
      rw [checkBody] at later
      rw [later]
      constructor
      · rintro ⟨silent, agrees, unmixed, known, chain⟩
        obtain ⟨whole, own⟩ := consistent.mp ⟨silent, agrees⟩
        exact ⟨whole, unmixed, ⟨own, known⟩, modeThrough_cons kind silent _ _ ▸ chain⟩
      · rintro ⟨whole, unmixed, ⟨own, known⟩, chain⟩
        obtain ⟨silent, agrees⟩ := consistent.mpr ⟨whole, own⟩
        exact ⟨silent, agrees, unmixed, known, modeThrough_cons kind silent _ _ ▸ chain⟩
    · cases stmt with
      | command cmd =>
        obtain ⟨state, rfl, stands, output, pending⟩ := checkStatement_command typed held cmd
        have held' : (checkStatement actorName check (.command cmd)).1.actors.mode? actorName =
            some state.mode := (mode?_applyPending_eq held).trans (congrArg some stands.symm)
        have later := ih typed' held'
        rw [consistent_command, checkBody] at later
        rw [window_command, commandWindows, List.forall_mem_cons, List.flatMap_cons,
          squigglesKnown_append, checkBody, emit_cons_output, emit_cons_state,
          List.append_eq_nil_iff, and_assoc, later, output, ← stands]
        constructor
        · rintro ⟨silent, unmixed, others, known, chain⟩
          obtain ⟨cmdDef, consumed, fits⟩ := fits_of_checkCommandIn_silent silent
          obtain ⟨shape, own⟩ := checkCommandIn_of_fits fits
          rw [shape] at pending
          rw [modeThrough_command pending] at chain
          exact ⟨consistent_nil _, ⟨unmixed, others⟩, ⟨own.mp silent, known⟩,
            chain_cons_iff.mpr ⟨_, ⟨cmdDef, consumed, fits, rfl⟩, chain⟩⟩
        · rintro ⟨_, ⟨unmixed, others⟩, ⟨own, known⟩, chain⟩
          obtain ⟨next, ⟨cmdDef, consumed, fits, rfl⟩, tail⟩ := chain_cons_iff.mp chain
          obtain ⟨shape, silent⟩ := checkCommandIn_of_fits fits
          rw [shape] at pending
          rw [modeThrough_command pending]
          exact ⟨silent.mpr own, unmixed, others, known, tail⟩
      | _ => simp [Statement.isCommand] at kind

/-- The windows of a block are unmixed and its squiggles known. -/
def BlockFits (block : AsBlock) : Prop :=
  (∀ inside ∈ windows block.body, ¬ Mixed inside) ∧
    SquigglesKnown (block.body.flatMap Statement.exprs)

theorem checkAsBlock_silent_iff {actors : Actors} {block : AsBlock} {typeDef : ActorType}
    {mode final : Mode} (typed : actors.type? block.actor.name = some typeDef)
    (held : actors.mode? block.actor.name = some mode) :
    ((checkAsBlock actors block).2 = [] ∧
      (checkAsBlock actors block).1.mode? block.actor.name = some final) ↔
    BlockFits block ∧ Chain (RunsCommand typeDef) mode (commandWindows block.body) final := by
  obtain ⟨actor, healthy, _⟩ := Actors.healthy?_of_mode? held
  have start : modeThrough (.start actors) mode (window block.body) = mode := by
    simp [modeThrough, BlockCheck.start]
  have started : (BlockCheck.start actors).actors.type? block.actor.name = some typeDef := typed
  have body := checkBody_silent_iff final block.body started held
  rw [start] at body
  rw [checkAsBlock_of_healthy healthy, body, BlockFits, windows, List.forall_mem_cons,
    List.forall_mem_map, and_assoc, and_assoc]
  exact and_congr_left fun _ => consistent_impliedOk _

/-! ## Files -/

/-- Every entry of a table is healthy. -/
def Actors.Healthy (actors : Actors) : Prop :=
  ∀ name, actors name ≠ none → ∃ typeDef, actors.type? name = some typeDef

theorem Actors.Healthy.of_keeps {before after : Actors} (healthy : before.Healthy)
    (keeps : Actors.Keeps before after) : after.Healthy := by
  intro name present
  obtain ⟨typeDef, typed⟩ := healthy name fun vacant => present (keeps.vacant name vacant)
  exact ⟨typeDef, (keeps.types name).trans typed⟩

/-- A typed entry is in a mode. -/
theorem Actors.mode?_of_type? {actors : Actors} {name : String} {typeDef : ActorType}
    (typed : actors.type? name = some typeDef) : ∃ mode, actors.mode? name = some mode := by
  obtain ⟨actor, healthy, _⟩ := Option.map_eq_some_iff.mp typed
  exact ⟨actor.mode, by rw [Actors.mode?, healthy, Option.map_some]⟩

/-- An item leaves the modes of other actors alone. -/
theorem mode?_checkItem_of_ne {block : AsBlock} {name : String} (different : name ≠ block.actor.name)
    (actors : Actors) : (checkItem actors (.asBlock block)).1.mode? name = actors.mode? name :=
  congrArg (Option.map HealthyActor.mode)
    (Actors.healthy?_congr (checkAsBlock_of_ne different actors))

/-- The second pass over some items is silent exactly when each block is of a
present actor and fits, and each actor's commands can be followed from the
mode it is in. -/
theorem emit_checkItem_silent_iff (items : List TopLevel) {actors : Actors}
    (healthy : actors.Healthy) :
    (emit checkItem actors items).2 = [] ↔
      (∀ block, .asBlock block ∈ items →
        actors.type? block.actor.name ≠ none ∧ BlockFits block) ∧
      ∀ name typeDef mode, actors.type? name = some typeDef → actors.mode? name = some mode →
        ∃ final, Chain (RunsCommand typeDef) mode (commandsOf name items) final := by
  induction items generalizing actors with
  | nil => simp [commandsOf]
  | cons item rest ih =>
    cases item with
    | actorDeclaration decl =>
      rw [emit_cons_output, checkItem, List.nil_append, ih healthy]
      simp only [List.mem_cons, reduceCtorEq, false_or, commandsOf_actorDeclaration]
    | asBlock block =>
      have kept := keeps_checkItem actors (.asBlock block)
      rw [emit_cons_output, List.append_eq_nil_iff, ih (healthy.of_keeps kept)]
      simp only [kept.types]
      constructor
      · rintro ⟨silent, blocks, runs⟩
        have present : actors block.actor.name ≠ none := by
          intro vacant
          simp [checkItem, checkAsBlock, vacant] at silent
        obtain ⟨typeDef, typed⟩ := healthy _ present
        obtain ⟨mode, held⟩ := Actors.mode?_of_type? typed
        obtain ⟨after, moved⟩ := Actors.mode?_of_type? ((kept.types _).trans typed)
        obtain ⟨fits, chain⟩ := (checkAsBlock_silent_iff typed held).mp ⟨silent, moved⟩
        constructor
        · intro other member
          rcases List.mem_cons.mp member with same | later
          · obtain rfl : other = block := TopLevel.asBlock.inj same
            exact ⟨by simp [typed], fits⟩
          · exact blocks other later
        · intro name other stood typedName heldName
          by_cases own : name = block.actor.name
          · subst own
            obtain rfl := Option.some.inj (typed.symm.trans typedName)
            obtain rfl := Option.some.inj (held.symm.trans heldName)
            obtain ⟨final, tail⟩ := runs _ typeDef after typed moved
            rw [commandsOf_own]
            exact ⟨final, chain.append tail⟩
          · rw [commandsOf_of_ne own]
            exact runs name other stood typedName ((mode?_checkItem_of_ne own actors).trans heldName)
      · rintro ⟨blocks, runs⟩
        obtain ⟨present, fits⟩ := blocks block List.mem_cons_self
        obtain ⟨typeDef, typed⟩ := Option.ne_none_iff_exists'.mp present
        obtain ⟨mode, held⟩ := Actors.mode?_of_type? typed
        obtain ⟨final, whole⟩ := runs _ typeDef mode typed held
        rw [commandsOf_own, chain_append_iff] at whole
        obtain ⟨middle, first, second⟩ := whole
        obtain ⟨silent, moved⟩ := (checkAsBlock_silent_iff typed held).mpr ⟨fits, first⟩
        refine ⟨silent, fun other later => blocks other (List.mem_cons_of_mem _ later), ?_⟩
        intro name other stood typedName heldName
        by_cases own : name = block.actor.name
        · subst own
          obtain rfl := Option.some.inj (typed.symm.trans typedName)
          obtain rfl := Option.some.inj (moved.symm.trans heldName)
          exact ⟨final, second⟩
        · have through := runs name other stood typedName
            ((mode?_checkItem_of_ne own actors).symm.trans heldName)
          rwa [commandsOf_of_ne own] at through

/-! ## The first pass -/

/-- The first pass over some items is silent exactly when their names are
fresh and distinct and each declaration fits. -/
theorem emit_registerItem_silent_iff (items : List TopLevel) {actors : Actors} :
    (emit registerItem actors items).2 = [] ↔
      (∀ name ∈ declaredNames items, actors.healthy? name = none) ∧ (declaredNames items).Nodup ∧
      ∀ decl, .actorDeclaration decl ∈ items → DeclarationFits decl ∧ SquigglesKnown decl.exprs := by
  constructor
  · intro silent
    have registers := emit_registerItem_silent silent
    refine ⟨registers.fresh, registers.distinct, ?_⟩
    intro decl member
    obtain ⟨before, after, rfl⟩ := List.append_of_mem member
    have own : (registerItem _ (.actorDeclaration decl)).2 = [] := emit_silent_at silent
    exact (registerActor_silent_iff.mp own).2
  · rintro ⟨fresh, distinct, fits⟩
    induction items generalizing actors with
    | nil => rfl
    | cons item rest ih =>
      have later : ∀ decl, .actorDeclaration decl ∈ rest → _ :=
        fun decl member => fits decl (List.mem_cons_of_mem _ member)
      rw [emit_cons_output, List.append_eq_nil_iff]
      cases item with
      | asBlock block => exact ⟨rfl, ih fresh distinct later⟩
      | actorDeclaration decl =>
        have unused := fresh _ List.mem_cons_self
        have silent : (registerActor actors decl).2 = [] :=
          registerActor_silent_iff.mpr ⟨unused, fits decl List.mem_cons_self⟩
        obtain ⟨_, typeDef, _, stepped⟩ := registerActor_silent silent
        have absent : decl.name.name ∉ declaredNames rest := (List.nodup_cons.mp distinct).1
        have distinct := (List.nodup_cons.mp distinct).2
        refine ⟨silent, ih ?_ distinct later⟩
        intro name member
        have different : name ≠ decl.name.name := fun same => absent (same ▸ member)
        simp only [registerItem, stepped, Actors.healthy?_update_healthy, if_neg different]
        exact fresh name (List.mem_cons_of_mem _ member)

/-! ## Both passes -/

theorem mem_declarations {items : List TopLevel} {decl : ActorDeclaration} :
    decl ∈ declarations items ↔ .actorDeclaration decl ∈ items := by
  constructor
  · intro member
    obtain ⟨item, inside, same⟩ := List.mem_filterMap.mp member
    cases item with
    | actorDeclaration other => exact Option.some.inj same ▸ inside
    | asBlock block => simp at same
  · intro inside
    exact List.mem_filterMap.mpr ⟨_, inside, rfl⟩

/-- The entry of a name in a table that the first pass filled silently. -/
theorem Registers.entry {items : List TopLevel} {actors : Actors}
    (registers : Registers (fun _ => none) items actors) {name : String}
    (present : actors name ≠ none) :
    ∃ decl typeDef, .actorDeclaration decl ∈ items ∧ decl.name.name = name ∧
      Registry.get decl.actorType.name = some typeDef ∧
      actors.type? name = some typeDef ∧ actors.mode? name = some typeDef.initialMode := by
  have declared : name ∈ declaredNames items := by
    by_contra absent
    exact present (registers.untouched name absent)
  obtain ⟨decl, member, rfl⟩ := exists_declaration declared
  obtain ⟨typeDef, found, entry⟩ := registers.declared decl member
  refine ⟨decl, typeDef, mem_declarations.mp member, rfl, found, ?_, ?_⟩
  · rw [Actors.type?, entry]
    rfl
  · rw [Actors.mode?, entry]
    rfl

theorem Registers.present {items : List TopLevel} {actors : Actors}
    (registers : Registers (fun _ => none) items actors) {name : String}
    (declared : name ∈ declaredNames items) : actors name ≠ none := by
  obtain ⟨decl, member, rfl⟩ := exists_declaration declared
  obtain ⟨typeDef, _, entry⟩ := registers.declared decl member
  intro vacant
  simp [Actors.healthy?, vacant] at entry

theorem Registers.healthy {items : List TopLevel} {actors : Actors}
    (registers : Registers (fun _ => none) items actors) : actors.Healthy := by
  intro name present
  obtain ⟨_, typeDef, _, _, _, typed, _⟩ := registers.entry present
  exact ⟨typeDef, typed⟩

theorem wellFormed_of_silent {source : SourceFile} (silent : validate source = []) :
    WellFormed source := by
  obtain ⟨first, second⟩ := List.append_eq_nil_iff.mp silent
  obtain ⟨_, distinct, fits⟩ := (emit_registerItem_silent_iff source.items).mp first
  have registers : Registers (fun _ => none) source.items (registered source) :=
    emit_registerItem_silent first
  obtain ⟨blocks, runs⟩ := (emit_checkItem_silent_iff source.items registers.healthy).mp second
  constructor
  · exact distinct
  · exact fun decl member => (fits decl member).1
  · intro block member
    by_contra absent
    have vacant := registers.untouched _ absent
    exact (blocks block member).1 (by simp [Actors.type?, Actors.healthy?, vacant])
  · intro decl typeDef member found
    obtain ⟨other, foundOther, entry⟩ := registers.declared decl (mem_declarations.mpr member)
    obtain rfl := Option.some.inj (found.symm.trans foundOther)
    refine runs _ typeDef _ ?_ ?_
    · rw [Actors.type?, entry]
      rfl
    · rw [Actors.mode?, entry]
      rfl
  · exact fun block member => (blocks block member).2.1
  · intro item member
    cases item with
    | actorDeclaration decl => exact (fits decl member).2
    | asBlock block => exact (blocks block member).2.2

theorem silent_of_wellFormed {source : SourceFile} (wellFormed : WellFormed source) :
    validate source = [] := by
  have first : (emit registerItem (fun _ => none) source.items).2 = [] := by
    rw [emit_registerItem_silent_iff]
    refine ⟨fun _ _ => rfl, wellFormed.declaredOnce, fun decl member => ?_⟩
    exact ⟨wellFormed.declarations decl member, wellFormed.squiggles _ member⟩
  have registers : Registers (fun _ => none) source.items (registered source) :=
    emit_registerItem_silent first
  refine List.append_eq_nil_iff.mpr ⟨first, ?_⟩
  rw [emit_checkItem_silent_iff source.items registers.healthy]
  constructor
  · intro block member
    have present := registers.present (wellFormed.blocks block member)
    obtain ⟨typeDef, typed⟩ := registers.healthy _ present
    exact ⟨by simp [typed], wellFormed.unmixed block member, wellFormed.squiggles _ member⟩
  · intro name typeDef mode typed held
    have present : registered source name ≠ none := by
      intro vacant
      simp [Actors.type?, Actors.healthy?, vacant] at typed
    obtain ⟨decl, other, member, rfl, found, typedOther, heldOther⟩ := registers.entry present
    obtain rfl := Option.some.inj (typed.symm.trans typedOther)
    obtain rfl := Option.some.inj (held.symm.trans heldOther)
    exact wellFormed.commands decl typeDef member found

/-- The validator reports nothing of exactly the well-formed files. -/
theorem validate_silent_iff (source : SourceFile) : validate source = [] ↔ WellFormed source :=
  ⟨wellFormed_of_silent, silent_of_wellFormed⟩

end Ill.Validate
