import Ill.Harness.Declared

/-!
# Command-line arguments

Every `args_actor` of a file is constructed from the same command line and
rejects the keys that it does not declare itself. What another `args_actor`
declares it takes for a typo, so a command line that serves a file with several
of them may hold only keys that all of them declare.
-/

namespace Ill.Harness

open Ast Actor Base Validate

/-! ## What a command line may hold -/

/-- The declarations of a file that construct an `args_actor`. -/
def argsActors (source : SourceFile) : List ActorDeclaration :=
  (declarations source.items).filter fun decl => decl.actorType.name == "args_actor"

/-- A declaration has a variable of this name. -/
def Declares (decl : ActorDeclaration) (key : String) : Prop :=
  ∃ var ∈ decl.vars, var.name.name = key

/-- The command line has no typos, leaves out nothing that is required, and each
text can be read as a value of the type of its default. -/
structure Suppliable (source : SourceFile) (cliArgs : ArgsActor.CliArgs) : Prop where
  declared : ∀ pair ∈ cliArgs, ∃ decl ∈ argsActors source, Declares decl pair.1
  required : ∀ decl ∈ argsActors source, ∀ var ∈ decl.vars, var.default = none →
    ∃ raw, cliArgs.lookup var.name.name = some raw
  coerces : ∀ decl ∈ argsActors source, ∀ var ∈ decl.vars, ∀ expr default raw,
    var.default = some expr → eval .new expr = .ok default →
      cliArgs.lookup var.name.name = some raw →
        ∃ value, ArgsActor.coerceTo raw default var.name.name = .ok value

/-- The value of a variable: what is supplied, as a value of the type of its
default, or else the default. -/
inductive Given (cliArgs : ArgsActor.CliArgs) (var : VarDeclaration) : Value → Prop where
  | raw {text : String} (supplied : cliArgs.lookup var.name.name = some text)
    (bare : var.default = none) : Given cliArgs var (.string text)
  | coerced {text : String} {expr : Expr} {default value : Value}
    (supplied : cliArgs.lookup var.name.name = some text) (declared : var.default = some expr)
    (evaluated : eval .new expr = .ok default)
    (read : ArgsActor.coerceTo text default var.name.name = .ok value) : Given cliArgs var value
  | default {expr : Expr} {value : Value} (absent : cliArgs.lookup var.name.name = none)
    (declared : var.default = some expr) (evaluated : eval .new expr = .ok value) :
    Given cliArgs var value

/-- The members of an instance: every variable has one, and each is the value of
the last variable of its name. -/
structure GivenMembers (cliArgs : ArgsActor.CliArgs) (vars : List VarDeclaration) (members : Dict) :
    Prop where
  present : ∀ var ∈ vars, ∃ value, members.get var.name.name = some value
  given : ∀ name value, members.get name = some value →
    ∃ before var after, vars = before ++ var :: after ∧ var.name.name = name ∧
      (∀ later ∈ after, later.name.name ≠ name) ∧ Given cliArgs var value

/-- The keyword values and the defaults of a declaration can be evaluated. -/
structure Evaluates (decl : ActorDeclaration) : Prop where
  keyword : ∃ keyword, evalKeywordArgs decl.keywordArgs .new = .ok keyword
  defaults : ∀ var ∈ decl.vars, ∀ expr, var.default = some expr → ∃ value, eval .new expr = .ok value

/-! ## Variables with their defaults evaluated -/

/-- A variable with the value of its default. -/
inductive DefaultOf (var : VarDeclaration) : DeclaredVar → Prop where
  | none (bare : var.default = none) : DefaultOf var ⟨var.name.name, none⟩
  | some {expr : Expr} {value : Value} (declared : var.default = some expr)
    (evaluated : eval .new expr = .ok value) : DefaultOf var ⟨var.name.name, some value⟩

theorem DefaultOf.name_eq {var : VarDeclaration} {declared : DeclaredVar}
    (evaluated : DefaultOf var declared) : declared.name = var.name.name := by
  cases evaluated <;> rfl

/-- Evaluating the first variable and the others. -/
theorem evalVars_cons {var : VarDeclaration} {rest : List VarDeclaration}
    {declared : List DeclaredVar} :
    evalVars .new (var :: rest) = .ok declared ↔
      ∃ first others, DefaultOf var first ∧ evalVars .new rest = .ok others ∧
        declared = first :: others := by
  obtain ⟨marks, name, value, span⟩ := var
  constructor
  · intro evaluated
    cases value with
    | none =>
      obtain ⟨others, later, returned⟩ := bind_eq_ok.mp evaluated
      cases returned
      exact ⟨_, others, .none rfl, later, rfl⟩
    | some expr =>
      obtain ⟨default, known, tail⟩ := bind_eq_ok.mp evaluated
      obtain ⟨value, held, rfl⟩ := map_eq_ok.mp known
      obtain ⟨others, later, returned⟩ := bind_eq_ok.mp tail
      cases returned
      exact ⟨_, others, .some rfl held, later, rfl⟩
  · rintro ⟨first, others, known, later, rfl⟩
    rw [evalVars, later]
    cases known with
    | none bare =>
      obtain rfl : value = none := bare
      rfl
    | some declared evaluated =>
      obtain rfl : value = some _ := declared
      dsimp only
      rw [evaluated]
      rfl

/-- The variables evaluate exactly to these. -/
theorem evalVars_eq_ok {vars : List VarDeclaration} {declared : List DeclaredVar} :
    evalVars .new vars = .ok declared ↔ List.Forall₂ DefaultOf vars declared := by
  induction vars generalizing declared with
  | nil =>
    constructor
    · rintro ⟨⟩
      exact .nil
    · rintro ⟨⟩
      rfl
  | cons var rest ih =>
    rw [evalVars_cons]
    constructor
    · rintro ⟨first, others, known, later, rfl⟩
      exact .cons known (ih.mp later)
    · rintro (_ | ⟨known, later⟩)
      exact ⟨_, _, known, ih.mpr later, rfl⟩

/-- If every default can be evaluated, so can the variables. -/
theorem evalVars_total {vars : List VarDeclaration}
    (defaults : ∀ var ∈ vars, ∀ expr, var.default = some expr → ∃ value, eval .new expr = .ok value) :
    ∃ declared, List.Forall₂ DefaultOf vars declared := by
  induction vars with
  | nil => exact ⟨[], .nil⟩
  | cons var rest ih =>
    obtain ⟨here, later⟩ := List.forall_mem_cons.mp defaults
    obtain ⟨others, evaluated⟩ := ih later
    cases known : var.default with
    | none => exact ⟨_, .cons (.none known) evaluated⟩
    | some expr =>
      obtain ⟨value, held⟩ := here expr known
      exact ⟨_, .cons (.some known held) evaluated⟩

/-- Variables that evaluate have defaults that do. -/
theorem defaults_of_evalVars {vars : List VarDeclaration} {declared : List DeclaredVar}
    (evaluated : List.Forall₂ DefaultOf vars declared) :
    ∀ var ∈ vars, ∀ expr, var.default = some expr → ∃ value, eval .new expr = .ok value := by
  induction evaluated with
  | nil => simp
  | cons known _ ih =>
    refine List.forall_mem_cons.mpr ⟨fun expr held => ?_, ih⟩
    cases known with
    | none bare => simp [bare] at held
    | some declared evaluated => exact ⟨_, Option.some.inj (declared.symm.trans held) ▸ evaluated⟩

/-! ## Members -/

/-- The value that construction gives a variable. -/
theorem memberValue_eq_ok {cliArgs : ArgsActor.CliArgs} {var : VarDeclaration}
    {declared : DeclaredVar} (known : DefaultOf var declared) {value : Value} :
    ArgsActor.memberValue cliArgs declared = .ok value ↔ Given cliArgs var value := by
  unfold ArgsActor.memberValue
  constructor
  · intro made
    cases known with
    | none bare =>
      cases supplied : cliArgs.lookup var.name.name with
      | none => simp [supplied] at made
      | some text =>
        obtain rfl : Value.string text = value := by simpa [supplied] using made
        exact .raw supplied bare
    | some declared evaluated =>
      cases supplied : cliArgs.lookup var.name.name with
      | none =>
        obtain rfl : _ = value := by simpa [supplied] using made
        exact .default supplied declared evaluated
      | some text =>
        simp only [supplied] at made
        exact .coerced supplied declared evaluated made
  · intro given
    cases known with
    | none bare =>
      cases given with
      | raw supplied _ => simp only [supplied]
      | coerced _ declared _ _ => simp [bare] at declared
      | default _ declared _ => simp [bare] at declared
    | some declared evaluated =>
      cases given with
      | raw _ bare => simp [bare] at declared
      | coerced supplied same held read =>
        obtain rfl := Option.some.inj (declared.symm.trans same)
        obtain rfl := Except.ok.inj (evaluated.symm.trans held)
        simp only [supplied, read]
      | default absent same held =>
        obtain rfl := Option.some.inj (declared.symm.trans same)
        obtain rfl := Except.ok.inj (evaluated.symm.trans held)
        simp only [absent]

/-- The values of variables that are declared, from those of their declarations. -/
theorem given_of_declared {cliArgs : ArgsActor.CliArgs} {vars : List VarDeclaration}
    {declared : List DeclaredVar} (evaluated : List.Forall₂ DefaultOf vars declared) {members : Dict}
    (valued : List.Forall₂ (fun var field =>
      field.1 = var.name ∧ ArgsActor.memberValue cliArgs var = .ok field.2) declared members) :
    List.Forall₂ (fun var field => field.1 = var.name.name ∧ Given cliArgs var field.2) vars members := by
  induction evaluated generalizing members with
  | nil =>
    cases valued
    exact .nil
  | cons known _ ih =>
    obtain ⟨field, others, ⟨names, made⟩, later, rfl⟩ := List.forall₂_cons_left_iff.mp valued
    exact .cons ⟨names.trans known.name_eq, (memberValue_eq_ok known).mp made⟩ (ih later)

/-- Collecting the variables gives the members. -/
theorem collectMembers_given {cliArgs : ArgsActor.CliArgs} {vars : List VarDeclaration}
    {declared : List DeclaredVar} (evaluated : List.Forall₂ DefaultOf vars declared) {final : Dict}
    (collected : ArgsActor.collectMembers cliArgs [] declared = .ok final) :
    GivenMembers cliArgs vars final := by
  obtain ⟨pairs, each, rfl⟩ := ArgsActor.collectMembers_eq_ok.mp collected
  have given := given_of_declared evaluated each
  constructor
  · intro var inside
    exact Assoc.lookup_ofPairs_of_mem (fun _ _ held => held.1) given inside
  · intro name value found
    obtain ⟨before, var, after, split, names, last, -, held⟩ :=
      Assoc.item_of_lookup_ofPairs (fun _ _ held => held.1) given found
    exact ⟨before, var, after, split, names, last, held⟩

/-- If every variable has a value, the members can be collected. -/
theorem collectMembers_total {cliArgs : ArgsActor.CliArgs} {vars : List VarDeclaration}
    {declared : List DeclaredVar} (evaluated : List.Forall₂ DefaultOf vars declared)
    (given : ∀ var ∈ vars, ∃ value, Given cliArgs var value) :
    ∃ final, ArgsActor.collectMembers cliArgs [] declared = .ok final := by
  apply ArgsActor.collectMembers_total
  intro var inside
  obtain ⟨before, after, rfl⟩ := List.append_of_mem inside
  obtain ⟨front, source, rest, rfl, -, known, -⟩ := forall₂_append_cons evaluated
  obtain ⟨value, holds⟩ := given source (by simp)
  exact ⟨value, (memberValue_eq_ok known).mpr holds⟩

/-! ## Construction -/

/-- An instance is made exactly if every key is declared, from the members. -/
theorem construct_eq_ok {cliArgs : ArgsActor.CliArgs} {args : ConstructArgs}
    {inst : ArgsActor.ArgsActorInstance} :
    ArgsActor.construct cliArgs args = .ok inst ↔
      (∀ pair ∈ cliArgs, ∃ var ∈ args.vars, var.name = pair.1) ∧
        ArgsActor.collectMembers cliArgs [] args.vars = .ok inst.members := by
  unfold ArgsActor.construct
  split
  · next key raw unknown =>
    have found := List.find?_some unknown
    have undeclared : ¬ ∃ var ∈ args.vars, var.name = key := by simpa using found
    have member := List.mem_of_find?_eq_some unknown
    simp only [reduceCtorEq, false_iff, not_and]
    exact fun declared => absurd (declared _ member) undeclared
  · next known =>
    have declared : ∀ pair ∈ cliArgs, ∃ var ∈ args.vars, var.name = pair.1 := by
      simpa using List.find?_eq_none.mp known
    rw [map_eq_ok]
    constructor
    · rintro ⟨members, collected, rfl⟩
      exact ⟨declared, collected⟩
    · rintro ⟨-, collected⟩
      exact ⟨inst.members, collected, rfl⟩

/-- Declared variables have the names of their declarations. -/
theorem exists_name_iff {vars : List VarDeclaration} {declared : List DeclaredVar}
    (evaluated : List.Forall₂ DefaultOf vars declared) (key : String) :
    (∃ var ∈ declared, var.name = key) ↔ ∃ var ∈ vars, var.name.name = key := by
  induction evaluated with
  | nil => simp
  | cons known _ ih => simp [known.name_eq, ih]

section Live

variable {world : List (Event LiveActor) → External} {sourceDir : String}
  {harness : HarnessState LiveActor} {decl : ActorDeclaration}

/-- The harness constructs an `args_actor` from its evaluated arguments. -/
theorem constructActor_argsActor (ofType : decl.actorType.name = "args_actor") {inst : LiveActor} :
    (constructActor (liveRuntime world) sourceDir harness decl).2 = .ok inst ↔
      ∃ args made, evalConstructArgs decl sourceDir = .ok args ∧
        ArgsActor.construct (world harness.events).cliArgs args = .ok made ∧
          inst = .argsActor made := by
  have isRegistered : Registry.get "args_actor" = some .argsActor := rfl
  unfold constructActor
  rw [ofType, isRegistered]
  dsimp only
  cases evaluated : evalConstructArgs decl sourceDir with
  | error e => simp
  | ok args =>
    have made : (liveRuntime world).construct harness.events .argsActor args =
        (ArgsActor.construct (world harness.events).cliArgs args).map .argsActor := rfl
    dsimp only
    rw [made]
    cases built : ArgsActor.construct (world harness.events).cliArgs args with
    | error e => simp [built, Except.map, Except.mapError]
    | ok made => simp [built, Except.map, Except.mapError, eq_comm]

theorem evalConstructArgs_eq_ok {args : ConstructArgs} :
    evalConstructArgs decl sourceDir = .ok args ↔
      ∃ keyword vars, evalKeywordArgs decl.keywordArgs .new = .ok keyword ∧
        List.Forall₂ DefaultOf decl.vars vars ∧ args = ⟨keyword, sourceDir, vars⟩ := by
  constructor
  · intro evaluated
    obtain ⟨keyword, first, rest⟩ := bind_eq_ok.mp evaluated
    obtain ⟨vars, second, returned⟩ := bind_eq_ok.mp rest
    cases returned
    exact ⟨keyword, vars, first, evalVars_eq_ok.mp second, rfl⟩
  · rintro ⟨keyword, vars, first, second, rfl⟩
    refine bind_eq_ok.mpr ⟨keyword, first, ?_⟩
    exact bind_eq_ok.mpr ⟨vars, evalVars_eq_ok.mpr second, rfl⟩

/-- A constructed `args_actor` evaluated, declares every key, and has the
members that are given. -/
theorem of_constructed (ofType : decl.actorType.name = "args_actor")
    {inst : ArgsActor.ArgsActorInstance}
    (constructed : (constructActor (liveRuntime world) sourceDir harness decl).2 =
      .ok (.argsActor inst)) :
    Evaluates decl ∧ (∀ pair ∈ (world harness.events).cliArgs, Declares decl pair.1) ∧
      GivenMembers (world harness.events).cliArgs decl.vars inst.members := by
  obtain ⟨args, made, evaluated, built, same⟩ := (constructActor_argsActor ofType).mp constructed
  obtain rfl := LiveActor.argsActor.inj same
  obtain ⟨keyword, vars, first, second, rfl⟩ := evalConstructArgs_eq_ok.mp evaluated
  obtain ⟨declared, collected⟩ := construct_eq_ok.mp built
  refine ⟨⟨⟨keyword, first⟩, defaults_of_evalVars second⟩, ?_, ?_⟩
  · exact fun pair inside => (exists_name_iff second pair.1).mp (declared pair inside)
  · exact collectMembers_given second collected

/-- An `args_actor` that evaluates, declares every key and has a value for every
variable is constructed. -/
theorem constructed_of (ofType : decl.actorType.name = "args_actor") (evaluates : Evaluates decl)
    (declares : ∀ pair ∈ (world harness.events).cliArgs, Declares decl pair.1)
    (given : ∀ var ∈ decl.vars, ∃ value, Given (world harness.events).cliArgs var value) :
    ∃ inst, (constructActor (liveRuntime world) sourceDir harness decl).2 = .ok (.argsActor inst) := by
  obtain ⟨keyword, first⟩ := evaluates.keyword
  obtain ⟨vars, second⟩ := evalVars_total evaluates.defaults
  obtain ⟨members, collected⟩ := collectMembers_total second given
  refine ⟨⟨members⟩, (constructActor_argsActor ofType).mpr ⟨⟨keyword, sourceDir, vars⟩, ⟨members⟩,
    ?_, ?_, rfl⟩⟩
  · exact evalConstructArgs_eq_ok.mpr ⟨keyword, vars, first, second, rfl⟩
  · refine construct_eq_ok.mpr ⟨fun pair inside => ?_, collected⟩
    exact (exists_name_iff second pair.1).mpr (declares pair inside)

end Live

/-- Where everything required is supplied and can be read, every variable with a
default that evaluates has a value. -/
theorem Suppliable.given {source : SourceFile} {cliArgs : ArgsActor.CliArgs}
    (suppliable : Suppliable source cliArgs) {decl : ActorDeclaration}
    (member : decl ∈ argsActors source) (evaluates : Evaluates decl) :
    ∀ var ∈ decl.vars, ∃ value, Given cliArgs var value := by
  intro var inside
  cases supplied : cliArgs.lookup var.name.name with
  | none =>
    cases known : var.default with
    | none =>
      obtain ⟨raw, present⟩ := suppliable.required decl member var inside known
      simp [supplied] at present
    | some expr =>
      obtain ⟨value, held⟩ := evaluates.defaults var inside expr known
      exact ⟨value, .default supplied known held⟩
  | some raw =>
    cases known : var.default with
    | none => exact ⟨_, .raw supplied known⟩
    | some expr =>
      obtain ⟨default, held⟩ := evaluates.defaults var inside expr known
      obtain ⟨value, read⟩ := suppliable.coerces decl member var inside expr default raw known held
        supplied
      exact ⟨value, .coerced supplied known held read⟩

/-- Every `args_actor` of the file is constructed, whenever it is reached, with
the members that the command line and the defaults give it. -/
def ConstructsAll (world : List (Event LiveActor) → External) (sourceDir : String)
    (source : SourceFile) (cliArgs : ArgsActor.CliArgs) : Prop :=
  ∀ decl ∈ argsActors source, ∀ harness, ∃ inst,
    (constructActor (liveRuntime world) sourceDir harness decl).2 = .ok (.argsActor inst) ∧
      GivenMembers cliArgs decl.vars inst.members

/-- A command line without typos that supplies what is required serves a file
exactly if the declarations evaluate and every `args_actor` declares every key:
a key of one is a typo to another. -/
theorem args_actors_construct_iff (world : List (Event LiveActor) → External) (sourceDir : String)
    (source : SourceFile) (cliArgs : ArgsActor.CliArgs)
    (processWide : ∀ past, (world past).cliArgs = cliArgs) (suppliable : Suppliable source cliArgs) :
    ConstructsAll world sourceDir source cliArgs ↔
      ∀ decl ∈ argsActors source, Evaluates decl ∧ ∀ pair ∈ cliArgs, Declares decl pair.1 := by
  have ofType : ∀ decl ∈ argsActors source, decl.actorType.name = "args_actor" := by
    intro decl member
    simpa using (List.mem_filter.mp member).2
  constructor
  · intro constructs decl member
    obtain ⟨inst, constructed, -⟩ := constructs decl member .start
    obtain ⟨evaluates, declares, -⟩ := of_constructed (ofType decl member) constructed
    rw [processWide] at declares
    exact ⟨evaluates, declares⟩
  · intro serves decl member harness
    obtain ⟨evaluates, declares⟩ := serves decl member
    have given := suppliable.given member evaluates
    rw [← processWide harness.events] at declares given
    have constructed : ∃ inst, (constructActor (liveRuntime world) sourceDir harness decl).2 =
        .ok (.argsActor inst) := constructed_of (ofType decl member) evaluates declares given
    obtain ⟨inst, constructed⟩ := constructed
    obtain ⟨-, -, members⟩ := of_constructed (ofType decl member) constructed
    rw [processWide] at members
    exact ⟨inst, constructed, members⟩

/-! ## Two actors that declare different variables -/

/-- `actor name = args_actor` with one required variable. -/
def requiringActor (name var : String) : ActorDeclaration where
  name := ⟨name, ⟨0, 0⟩⟩
  actorType := ⟨"args_actor", ⟨0, 0⟩⟩
  keywordArgs := []
  vars := [⟨[], ⟨var, ⟨0, 0⟩⟩, none, ⟨0, 0⟩⟩]
  span := ⟨0, 0⟩

/-- Actors `a` and `b` that each require one variable. -/
def requiringFile (first second : String) : SourceFile where
  items := [.actorDeclaration (requiringActor "a" first),
    .actorDeclaration (requiringActor "b" second)]

/-- The world of a process with this command line. -/
def commandLineWorld (cliArgs : ArgsActor.CliArgs) : External :=
  { refusingWorld with cliArgs := cliArgs }

theorem requiringFile_argsActors (first second : String) :
    argsActors (requiringFile first second) = [requiringActor "a" first, requiringActor "b" second] :=
  rfl

/-- What both actors require can be supplied. -/
theorem requiringFile_suppliable (first second : String) {cliArgs : ArgsActor.CliArgs}
    (declared : ∀ pair ∈ cliArgs, pair.1 = first ∨ pair.1 = second)
    (required : (∃ raw, cliArgs.lookup first = some raw) ∧ ∃ raw, cliArgs.lookup second = some raw) :
    Suppliable (requiringFile first second) cliArgs where
  declared := by
    intro pair inside
    rw [requiringFile_argsActors]
    rcases declared pair inside with same | same
    · exact ⟨_, List.mem_cons_self, _, List.mem_cons_self, same.symm⟩
    · exact ⟨_, List.mem_cons_of_mem _ List.mem_cons_self, _, List.mem_cons_self, same.symm⟩
  required := by
    intro decl member var inside _
    rw [requiringFile_argsActors] at member
    simp only [List.mem_cons, List.not_mem_nil, or_false] at member
    rcases member with rfl | rfl
    · obtain rfl := List.mem_singleton.mp inside
      exact required.1
    · obtain rfl := List.mem_singleton.mp inside
      exact required.2
  coerces := by
    intro decl member var inside expr default raw known
    rw [requiringFile_argsActors] at member
    simp only [List.mem_cons, List.not_mem_nil, or_false] at member
    rcases member with rfl | rfl <;> obtain rfl := List.mem_singleton.mp inside <;> cases known

theorem args_actors_construct_shared :
    ConstructsAll (fun _ => commandLineWorld [("x", "1")]) "." (requiringFile "x" "x")
      [("x", "1")] := by
  refine (args_actors_construct_iff (fun _ => commandLineWorld [("x", "1")]) "."
    (requiringFile "x" "x") [("x", "1")] (fun _ => rfl)
    (requiringFile_suppliable "x" "x" (by simp) ⟨⟨"1", rfl⟩, "1", rfl⟩)).mpr ?_
  intro decl member
  rw [requiringFile_argsActors] at member
  simp only [List.mem_cons, List.not_mem_nil, or_false] at member
  rcases member with rfl | rfl
  · exact ⟨⟨⟨[], rfl⟩, by simp [requiringActor]⟩, by simp [Declares, requiringActor]⟩
  · exact ⟨⟨⟨[], rfl⟩, by simp [requiringActor]⟩, by simp [Declares, requiringActor]⟩

/-- The one variable of a constructed actor was supplied, and every key is its
name. -/
theorem supplied_of_constructed {world : List (Event LiveActor) → External} {sourceDir name var : String}
    {harness : HarnessState LiveActor} {inst : ArgsActor.ArgsActorInstance}
    (constructed : (constructActor (liveRuntime world) sourceDir harness (requiringActor name var)).2 =
      .ok (.argsActor inst)) :
    (∃ raw, (world harness.events).cliArgs.lookup var = some raw) ∧
      ∀ pair ∈ (world harness.events).cliArgs, pair.1 = var := by
  obtain ⟨-, declares, members⟩ := of_constructed rfl constructed
  constructor
  · obtain ⟨value, found⟩ := members.present _ List.mem_cons_self
    obtain ⟨before, declared, after, split, -, -, given⟩ := members.given _ value found
    have member : declared ∈ (requiringActor name var).vars := by
      rw [split]
      simp
    obtain rfl := List.mem_singleton.mp member
    cases given with
    | raw supplied _ => exact ⟨_, supplied⟩
    | coerced _ declared _ _ => cases declared
    | default _ declared _ => cases declared
  · intro pair inside
    obtain ⟨declared, member, same⟩ := declares pair inside
    obtain rfl := List.mem_singleton.mp member
    exact same.symm

/-- No command line serves two actors that require different variables. -/
theorem requiringFile_unserved {first second : String} (different : first ≠ second)
    (world : List (Event LiveActor) → External) (sourceDir : String) (cliArgs : ArgsActor.CliArgs)
    (processWide : ∀ past, (world past).cliArgs = cliArgs) :
    ¬ ConstructsAll world sourceDir (requiringFile first second) cliArgs := by
  intro constructs
  obtain ⟨inst, firstMade, -⟩ :=
    constructs (requiringActor "a" first) (by simp [requiringFile_argsActors]) .start
  obtain ⟨other, secondMade, -⟩ :=
    constructs (requiringActor "b" second) (by simp [requiringFile_argsActors]) .start
  obtain ⟨⟨raw, supplied⟩, -⟩ := supplied_of_constructed firstMade
  obtain ⟨-, only⟩ := supplied_of_constructed secondMade
  rw [processWide] at supplied only
  obtain ⟨before, after, split, -⟩ := List.lookup_eq_some_iff.mp supplied
  exact different (only (first, raw) (by simp [split]))

/-- A command line that supplies what each of two actors requires is rejected by
both of them. -/
theorem separate_args_rejected :
    ¬ ∀ (world : List (Event LiveActor) → External) (sourceDir : String) (source : SourceFile)
      (cliArgs : ArgsActor.CliArgs), (∀ past, (world past).cliArgs = cliArgs) →
        Suppliable source cliArgs → ConstructsAll world sourceDir source cliArgs := by
  intro constructs
  have all := constructs (fun _ => commandLineWorld [("x", "1"), ("y", "2")]) "."
    (requiringFile "x" "y") [("x", "1"), ("y", "2")] (fun _ => rfl)
    (requiringFile_suppliable "x" "y" (by simp) ⟨⟨"1", rfl⟩, "2", rfl⟩)
  obtain ⟨inst, constructed, -⟩ := all (requiringActor "a" "x") (by simp [requiringFile_argsActors])
    .start
  exact nomatch constructed

end Ill.Harness
