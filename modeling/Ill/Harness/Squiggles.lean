import Ill.Harness.Instances
import Ill.Harness.Verdict
import Ill.Validate.Exact

/-!
# No unknown squiggle survives validation

Evaluation looks up the squiggles of an expression by name, at every depth it
descends to. The validator visits every expression the harness can evaluate,
so in a run of an accepted file the lookup never fails.
-/

namespace Ill

open Ast Base

/-! ## The error of an unknown squiggle -/

def unknownSquiggleError (name : String) : RuntimeError :=
  .eval s!"unknown squiggle `~{name}`"

/-- The computation does not end in an unknown squiggle. -/
def Known {α : Type} (computation : Except RuntimeError α) : Prop :=
  ∀ name, computation ≠ .error (unknownSquiggleError name)

/-- The third character of a text, which tells the messages of evaluation apart. -/
def Third (char : Char) (text : String) : Prop := text.toList[2]? = some char

instance (char : Char) (text : String) : Decidable (Third char text) :=
  inferInstanceAs (Decidable (_ = _))

theorem Third.append {char : Char} {opening : String} (third : Third char opening) (rest : String) :
    Third char (opening ++ rest) := by
  obtain ⟨inside, -⟩ := List.getElem?_eq_some_iff.mp third
  rw [Third, String.toList_append, List.getElem?_append_left inside]
  exact third

theorem third_unknownSquiggle (name : String) : Third 'k' s!"unknown squiggle `~{name}`" := by
  have opening : Third 'k' "unknown squiggle `~" := by decide
  exact (opening.append name).append "`"

namespace Known

variable {α β : Type}

theorem ok (value : α) : Known (.ok value) := nofun

/-- A message with another third character is another message. -/
theorem text (char : Char) (other : char ≠ 'k') {message : String} (third : Third char message) :
    Known (.error (.eval message) : Except RuntimeError α) := by
  intro name same
  obtain rfl : message = s!"unknown squiggle `~{name}`" :=
    RuntimeError.eval.inj (Except.error.inj same)
  exact other (Option.some.inj (third.symm.trans (third_unknownSquiggle name)))

theorem bind {first : Except RuntimeError α} {rest : α → Except RuntimeError β}
    (begins : Known first) (continues : ∀ value, Known (rest value)) : Known (first >>= rest) := by
  cases first with
  | error e =>
    intro name same
    exact begins name (congrArg Except.error (Except.error.inj same))
  | ok value => exact continues value

theorem map {first : Except RuntimeError α} (known : Known first) (f : α → β) :
    Known (first.map f) := by
  cases first with
  | error e =>
    intro name same
    exact known name (congrArg Except.error (Except.error.inj same))
  | ok value => exact ok (f value)

end Known

/-! ## Evaluation -/

theorem decodeHexFrom_known (high : Option UInt8) (chars : List Char) :
    Known (decodeHexFrom high chars) := by
  fun_induction decodeHexFrom high chars with
  | case1 first => exact .text 'e' (by decide) (by decide)
  | case2 => exact .ok []
  | case3 high char rest white ih => exact ih
  | case4 high char rest content invalid =>
    exact .text 'v' (by decide) (.append (.append (by decide) _) _)
  | case5 char rest content digit isDigit ih => exact ih
  | case6 char rest content digit isDigit first ih => exact .bind ih fun bytes => .ok _

theorem finish_known (squiggle : Squiggle) (rendered : String) :
    Known (squiggle.finish rendered) := by
  cases squiggle with
  | hex => exact .map (decodeHexFrom_known none _) _
  | _ => exact .ok _

theorem renderInterpolation_known (value : Value) : Known (renderInterpolation value) := by
  unfold renderInterpolation
  split
  case h_5 bytes =>
    split
    · exact .ok _
    · exact .text 'n' (by decide) (by decide)
  case h_6 => exact .text 'n' (by decide) (.append (.append (by decide) _) _)
  all_goals exact .ok _

theorem indexInto_known (container index : Value) : Known (indexInto container index) := by
  unfold indexInto
  split
  · split
    · exact .text 'r' (by decide) (.append (by decide) _)
    · split
      · exact .ok _
      · exact .text 'r' (by decide) (.append (.append (.append (.append (by decide) _) _) _) _)
  · split
    · exact .ok _
    · exact .text ' ' (by decide) (.append (.append (by decide) _) _)
  · split
    · exact .text 'c' (by decide) (.append (by decide) _)
    · split
      · exact .ok _
      · exact .text 'c' (by decide) (.append (.append (.append (.append (by decide) _) _) _) _)
  · exact .text 'n' (by decide) (.append (.append (.append (by decide) _) _) _)

theorem memberOf_known (object : Value) (property : String) : Known (memberOf object property) := by
  unfold memberOf
  split
  · split
    · exact .ok _
    · exact .text ' ' (by decide) (.append (.append (by decide) _) _)
  · exact .text 'n' (by decide) (.append (.append (.append (by decide) _) _) _)

/-- The names of the squiggles are registered. -/
abbrev Registered (names : List String) : Prop :=
  ∀ name ∈ names, (Squiggle.lookup name).isSome = true

mutual

/-- An expression whose squiggles are registered is not evaluated to the error. -/
theorem eval_known (scope : Scope) : ∀ expr, Registered expr.squiggleNames → Known (eval scope expr)
  | .number _, _ | .bool _, _ | .null, _ | .atom _, _ => .ok _
  | .ident ident, _ => by
    rw [eval]
    split
    · exact .ok _
    · exact .text 'd' (by decide) (.append (.append (by decide) _) _)
  | .stringLit fragments _, names =>
    .bind (concatFragments_known scope fragments names) fun _ => .ok _
  | .memberAccess object property _, names =>
    .bind (eval_known scope object names) fun value => memberOf_known value property.name
  | .array items, names => .bind (evalItems_known scope items names) fun _ => .ok _
  | .squiggle name fragments span, names => by
    obtain ⟨own, nested⟩ := List.forall_mem_cons.mp names
    obtain ⟨squiggle, found⟩ := Option.isSome_iff_exists.mp own
    have rendered := concatFragments_known scope fragments nested
    rw [eval, found]
    refine .bind rendered fun text => .bind (finish_known squiggle text) fun value => ?_
    split
    · exact .ok _
    · exact .text 'u' (by decide) (.append (.append (.append (.append (.append (by decide) _) _) _) _) _)
  | .index object indices _, names => by
    obtain ⟨root, keys⟩ := List.forall_mem_append.mp names
    exact .bind (eval_known scope object root) fun value => evalIndices_known scope value indices keys

theorem evalItems_known (scope : Scope) : ∀ items, Registered (itemSquiggleNames items) →
    Known (evalItems scope items)
  | [], _ => .ok []
  | item :: rest, names => by
    obtain ⟨first, others⟩ := List.forall_mem_append.mp names
    exact .bind (eval_known scope item first) fun _ =>
      .bind (evalItems_known scope rest others) fun _ => .ok _

theorem evalIndices_known (scope : Scope) (current : Value) : ∀ indices,
    Registered (itemSquiggleNames indices) → Known (evalIndices scope current indices)
  | [], _ => .ok current
  | index :: rest, names => by
    obtain ⟨first, others⟩ := List.forall_mem_append.mp names
    exact .bind (eval_known scope index first) fun key =>
      .bind (indexInto_known current key) fun next => evalIndices_known scope next rest others

theorem concatFragments_known (scope : Scope) : ∀ fragments,
    Registered (fragmentSquiggleNames fragments) → Known (concatFragments scope fragments)
  | [], _ => .ok ""
  | .text _ :: rest, names => .bind (concatFragments_known scope rest names) fun _ => .ok _
  | .interpolation expr :: rest, names => by
    obtain ⟨first, others⟩ := List.forall_mem_append.mp names
    exact .bind (eval_known scope expr first) fun value =>
      .bind (renderInterpolation_known value) fun _ =>
        .bind (concatFragments_known scope rest others) fun _ => .ok _

end

namespace Harness

open Actor Validate

/-! ## What the harness evaluates -/

theorem registered_items {items : List Expr} (known : SquigglesKnown items) :
    Registered (itemSquiggleNames items) := by
  induction items with
  | nil => exact fun _ inside => nomatch inside
  | cons item rest ih =>
    obtain ⟨first, others⟩ := List.forall_mem_cons.mp known
    exact List.forall_mem_append.mpr ⟨first, ih others⟩

theorem mapKey_known {scope : Scope} {key : Expr} (names : Registered key.squiggleNames) :
    Known (mapKey scope key) := by
  unfold mapKey
  split
  · exact .ok _
  · refine .bind (eval_known scope _ names) fun value => ?_
    unfold keyOf
    split
    · exact .ok _
    · exact .ok _
    · exact .text 'p' (by decide) (.append (by decide) _)

theorem evalPairs_known {scope : Scope} {pairs : List (Expr × Expr)}
    (known : SquigglesKnown (pairs.flatMap fun pair => [pair.1, pair.2])) (fields : Dict) :
    Known (evalPairs scope fields pairs) := by
  induction pairs generalizing fields with
  | nil => exact .ok fields
  | cons pair rest ih =>
    obtain ⟨own, others⟩ := List.forall_mem_append.mp known
    obtain ⟨key, value⟩ := List.forall_mem_cons.mp own
    exact .bind (mapKey_known key) fun _ =>
      .bind (eval_known scope pair.2 (value pair.2 List.mem_cons_self)) fun _ => ih others _

theorem evalKeywordArgsInto_known {scope : Scope} {args : List KeywordArg}
    (known : SquigglesKnown (args.flatMap KeywordArg.exprs)) (fields : Dict) :
    Known (evalKeywordArgsInto scope fields args) := by
  induction args generalizing fields with
  | nil => exact .ok fields
  | cons kw rest ih =>
    obtain ⟨own, others⟩ := List.forall_mem_append.mp known
    refine .bind ?_ fun value => ih others _
    obtain ⟨key, value, span⟩ := kw
    cases value with
    | expr expr => exact eval_known scope expr (own expr List.mem_cons_self)
    | map pairs => exact .map (evalPairs_known own []) _

theorem evalCommandArgs_known {scope : Scope} {cmd : Ast.Command} (consumed : Nat)
    (known : SquigglesKnown cmd.exprs) : Known (evalCommandArgs cmd consumed scope) := by
  obtain ⟨positional, keyword⟩ := List.forall_mem_append.mp known
  have remaining : SquigglesKnown (cmd.positionalArgs.drop consumed) :=
    fun expr inside => positional expr (List.mem_of_mem_drop inside)
  exact .bind (evalItems_known scope _ (registered_items remaining)) fun _ =>
    .bind (evalKeywordArgsInto_known keyword []) fun _ => .ok _

theorem evalVars_known {scope : Scope} {vars : List VarDeclaration}
    (known : SquigglesKnown (vars.flatMap fun var => var.default.toList)) :
    Known (evalVars scope vars) := by
  induction vars with
  | nil => exact .ok []
  | cons var rest ih =>
    obtain ⟨own, others⟩ := List.forall_mem_append.mp known
    obtain ⟨marks, name, value, span⟩ := var
    cases value with
    | none => exact .bind (.ok none) fun _ => .bind (ih others) fun _ => .ok _
    | some expr =>
      have default := eval_known scope expr (own expr List.mem_cons_self)
      exact .bind (.map default _) fun _ => .bind (ih others) fun _ => .ok _

theorem evalConstructArgs_known {decl : ActorDeclaration} (known : SquigglesKnown decl.exprs)
    (sourceDir : String) : Known (evalConstructArgs decl sourceDir) := by
  obtain ⟨keyword, defaults⟩ := List.forall_mem_append.mp known
  exact .bind (evalKeywordArgsInto_known keyword []) fun _ =>
    .bind (evalVars_known defaults) fun _ => .ok _

theorem runLet_known {scope : Scope} {letStmt : Let}
    (known : SquigglesKnown (Statement.let letStmt).exprs) : Known (runLet letStmt scope) := by
  obtain ⟨name, value, span⟩ := letStmt
  cases value with
  | expr expr => exact .map (eval_known scope expr (known expr List.mem_cons_self)) _
  | parse source format => exact .text 'e' (by decide) (by decide)

theorem compareOrd_known (left right : Value) : Known (compareOrd left right) := by
  unfold compareOrd
  split
  · exact .ok _
  · exact .ok _
  · exact .text 'n' (by decide) (.append (.append (.append (by decide) _) _) _)

theorem containsValue_known (haystack needle : Value) : Known (containsValue haystack needle) := by
  unfold containsValue
  split
  · exact .ok _
  · exact .ok _
  · exact .text 'n' (by decide) (.append (.append (.append (by decide) _) _) _)

theorem matchesRegex_known (regex : Regex) (subject pattern : Value) :
    Known (matchesRegex regex subject pattern) := by
  unfold matchesRegex
  split
  · split
    · exact .ok _
    · exact .text 'v' (by decide) (.append (.append (.append (by decide) _) _) _)
  · exact .text 'a' (by decide) (.append (by decide) _)

theorem compareValues_known (regex : Regex) (left right : Value) (op : ComparisonOp) :
    Known (compareValues regex left right op) := by
  cases op with
  | eq | notEq => exact .ok _
  | gt | gte | lt | lte => exact .map (compareOrd_known left right) _
  | contains => exact containsValue_known left right
  | notContains => exact .map (containsValue_known left right) _
  | «matches» => exact matchesRegex_known regex left right
  | notMatches => exact .map (matchesRegex_known regex left right) _

theorem evalAssert_known {regex : Regex} {scope : Scope} {a : Assert}
    (known : SquigglesKnown (Statement.assert a).exprs) : Known (evalAssert regex a scope) := by
  obtain ⟨left, right⟩ := List.forall_mem_cons.mp known
  refine .bind (eval_known scope a.left left) fun value => ?_
  cases a.op with
  | none => exact .ok _
  | some op =>
    cases other : a.right with
    | none => exact .text 's' (by decide) (by decide)
    | some expr =>
      have names : Registered expr.squiggleNames := right expr (by simp [other])
      exact .bind (eval_known scope expr names) fun _ =>
        .bind (compareValues_known regex _ _ op) fun _ => .ok _

/-! ## Where a run evaluates -/

section Sites

variable {Instance : Type} (runtime : ActorRuntime (List (Event Instance)) Instance)
  (regex : Regex) (sourceDir : String) (source : SourceFile)

/-- The walk reaches a declaration: every item before it completed. -/
structure ReachesDeclaration (before : List TopLevel) (decl : ActorDeclaration)
    (after : List TopLevel) (harness : HarnessState Instance) : Prop where
  split : source.items = before ++ .actorDeclaration decl :: after
  completed : executeItems runtime regex sourceDir .start before = (harness, none)

/-- The walk reaches a statement of a block. -/
structure ReachesStatement (before : List TopLevel) (block : AsBlock) (after : List TopLevel)
    (harness : HarnessState Instance) (actorType : ActorType) (prior : List Statement)
    (stmt : Statement) (rest : List Statement) (run : BlockRun Instance) : Prop
    extends ReachesBlock runtime regex sourceDir source before block after harness where
  typed : blockType runtime block harness = .ok actorType
  body : block.body = prior ++ stmt :: rest
  ran : runStatements runtime regex block actorType ⟨harness, .new⟩ prior.zipIdx = (run, none)

/-- The expressions that the harness evaluates in a run, with their scopes. Bare
identifiers as map keys are among them, though they stand for themselves. -/
inductive EvaluatedIn : Scope → Expr → Prop where
  | constructorKeyword {before decl after harness kw expr}
    (reached : ReachesDeclaration runtime regex sourceDir source before decl after harness)
    (given : kw ∈ decl.keywordArgs) (part : expr ∈ kw.exprs) : EvaluatedIn .new expr
  | default {before decl after harness var expr}
    (reached : ReachesDeclaration runtime regex sourceDir source before decl after harness)
    (declared : var ∈ decl.vars) (value : var.default = some expr) : EvaluatedIn .new expr
  | positional {before block after harness actorType prior cmd rest run cmdDef consumed expr}
    (reached : ReachesStatement runtime regex sourceDir source before block after harness actorType
      prior (.command cmd) rest run)
    (resolved : actorType.resolveCommand cmd.name.name cmd.positionalArgs =
      some (cmdDef, consumed))
    (given : expr ∈ cmd.positionalArgs.drop consumed) :
    EvaluatedIn (commandScope runtime block run) expr
  | keyword {before block after harness actorType prior cmd rest run kw expr}
    (reached : ReachesStatement runtime regex sourceDir source before block after harness actorType
      prior (.command cmd) rest run)
    (given : kw ∈ cmd.keywordArgs) (part : expr ∈ kw.exprs) :
    EvaluatedIn (commandScope runtime block run) expr
  | letValue {before block after harness actorType prior letStmt rest run expr}
    (reached : ReachesStatement runtime regex sourceDir source before block after harness actorType
      prior (.let letStmt) rest run)
    (value : letStmt.value = .expr expr) : EvaluatedIn (entryScope runtime block run) expr
  | assertLeft {before block after harness actorType prior a rest run}
    (reached : ReachesStatement runtime regex sourceDir source before block after harness actorType
      prior (.assert a) rest run) : EvaluatedIn (entryScope runtime block run) a.left
  | assertRight {before block after harness actorType prior a rest run expr}
    (reached : ReachesStatement runtime regex sourceDir source before block after harness actorType
      prior (.assert a) rest run)
    (value : a.right = some expr) : EvaluatedIn (entryScope runtime block run) expr

variable {runtime regex sourceDir source}

theorem ReachesDeclaration.known {before after : List TopLevel} {decl : ActorDeclaration}
    {harness : HarnessState Instance}
    (reached : ReachesDeclaration runtime regex sourceDir source before decl after harness)
    (accepted : accepts source = true) : SquigglesKnown decl.exprs := by
  have wellFormed := wellFormed_of_silent (accepts_iff.mp accepted)
  exact wellFormed.squiggles (.actorDeclaration decl) (by simp [reached.split])

theorem ReachesStatement.known {before after : List TopLevel} {block : AsBlock}
    {harness : HarnessState Instance} {actorType : ActorType} {prior rest : List Statement}
    {stmt : Statement} {run : BlockRun Instance}
    (reached : ReachesStatement runtime regex sourceDir source before block after harness actorType
      prior stmt rest run)
    (accepted : accepts source = true) : SquigglesKnown stmt.exprs := by
  have wellFormed := wellFormed_of_silent (accepts_iff.mp accepted)
  have inBlock := wellFormed.squiggles (.asBlock block) (by simp [reached.split])
  exact squigglesKnown_flatMap.mp inBlock stmt (by simp [reached.body])

/-- What is evaluated has registered squiggles only. -/
theorem EvaluatedIn.registered {scope : Scope} {expr : Expr}
    (evaluated : EvaluatedIn runtime regex sourceDir source scope expr)
    (accepted : accepts source = true) : Registered expr.squiggleNames := by
  cases evaluated with
  | constructorKeyword reached given part =>
    refine reached.known accepted expr (List.mem_append_left _ ?_)
    exact List.mem_flatMap.mpr ⟨_, given, part⟩
  | default reached declared value =>
    refine reached.known accepted expr (List.mem_append_right _ ?_)
    exact List.mem_flatMap.mpr ⟨_, declared, by simp [value]⟩
  | positional reached resolved given =>
    refine reached.known accepted expr (List.mem_append_left _ ?_)
    exact List.mem_of_mem_drop given
  | keyword reached given part =>
    refine reached.known accepted expr (List.mem_append_right _ ?_)
    exact List.mem_flatMap.mpr ⟨_, given, part⟩
  | letValue reached value => exact reached.known accepted expr (by simp [Statement.exprs, value])
  | assertLeft reached => exact reached.known accepted _ (by simp [Statement.exprs])
  | assertRight reached value => exact reached.known accepted expr (by simp [Statement.exprs, value])

/-- In a run of an accepted file, over any actors, every expression that is
evaluated has registered squiggles only, at every depth, and is not evaluated
to the error for an unknown one; nor is any group of expressions that the
harness evaluates for a declaration or a statement. -/
theorem no_unknown_squiggle (runtime : ActorRuntime (List (Event Instance)) Instance)
    (regex : Regex) (sourceDir : String) (source : SourceFile) (accepted : accepts source = true) :
    (∀ scope expr, EvaluatedIn runtime regex sourceDir source scope expr →
      Registered expr.squiggleNames ∧
        ∀ name, eval scope expr ≠ .error (unknownSquiggleError name)) ∧
    (∀ before decl after harness,
      ReachesDeclaration runtime regex sourceDir source before decl after harness →
        Known (evalConstructArgs decl sourceDir)) ∧
    (∀ before block after harness actorType prior stmt rest run,
      ReachesStatement runtime regex sourceDir source before block after harness actorType prior stmt
        rest run →
      (∀ cmd consumed, stmt = .command cmd →
        Known (evalCommandArgs cmd consumed (commandScope runtime block run))) ∧
      (∀ letStmt, stmt = .let letStmt → Known (runLet letStmt (entryScope runtime block run))) ∧
      ∀ a, stmt = .assert a → Known (evalAssert regex a (entryScope runtime block run))) := by
  refine ⟨fun scope expr evaluated => ?_, fun before decl after harness reached => ?_, ?_⟩
  · have names := evaluated.registered accepted
    exact ⟨names, eval_known scope expr names⟩
  · exact evalConstructArgs_known (reached.known accepted) sourceDir
  · intro before block after harness actorType prior stmt rest run reached
    have known := reached.known accepted
    refine ⟨?_, ?_, ?_⟩
    · rintro cmd consumed rfl
      exact evalCommandArgs_known consumed known
    · rintro letStmt rfl
      exact runLet_known known
    · rintro a rfl
      exact evalAssert_known known

end Sites

/-- ``var greeting = "${~b`hi`}"`` -/
def nestedDefault : VarDeclaration where
  annotations := []
  name := ⟨"greeting", ⟨0, 0⟩⟩
  default := some (.stringLit
    [.interpolation (.squiggle ⟨"b", ⟨0, 0⟩⟩ [.text "hi"] ⟨0, 0⟩)] ⟨0, 0⟩)
  span := ⟨0, 0⟩

/-- An `args_actor` with that default. -/
def nestedActor : ActorDeclaration where
  name := ⟨"a", ⟨0, 0⟩⟩
  actorType := ⟨"args_actor", ⟨0, 0⟩⟩
  keywordArgs := []
  vars := [nestedDefault]
  span := ⟨0, 0⟩

theorem no_unknown_squiggle_nested : Known (evalConstructArgs nestedActor ".") :=
  (no_unknown_squiggle (liveRuntime fun _ => refusingWorld) (fun _ => .error "unsupported") "."
    ⟨[.actorDeclaration nestedActor]⟩ (by decide)).2.1 [] nestedActor [] .start ⟨rfl, rfl⟩

end Harness

end Ill
