import Ill.Harness.CommandLine
import Ill.Validate.Registration
import Mathlib.Data.Set.Card

/-!
# Arguments of one name

Keyword arguments, the pairs of a map and the variables of an `args_actor` are
written into maps one after the other. The validator does not look for names that
repeat, so a later argument silently takes the place of an earlier one of its name.
-/

namespace Ill.Harness

open Ast Actor Base Validate

/-! ## Evaluation as writing pairs -/

/-- The key and the value of one pair of a map. -/
def evalPair (scope : Scope) (pair : Expr × Expr) : Except RuntimeError (String × Value) := do
  let key ← mapKey scope pair.1
  let value ← eval scope pair.2
  return (key, value)

theorem evalPair_eq_ok {scope : Scope} {pair : Expr × Expr} {field : String × Value} :
    evalPair scope pair = .ok field ↔
      mapKey scope pair.1 = .ok field.1 ∧ eval scope pair.2 = .ok field.2 := by
  constructor
  · intro evaluated
    obtain ⟨key, first, rest⟩ := bind_eq_ok.mp evaluated
    obtain ⟨value, second, returned⟩ := bind_eq_ok.mp rest
    cases returned
    exact ⟨first, second⟩
  · rintro ⟨first, second⟩
    exact bind_eq_ok.mpr ⟨field.1, first, bind_eq_ok.mpr ⟨field.2, second, rfl⟩⟩

theorem evalPairs_eq_collect (scope : Scope) (fields : Dict) (pairs : List (Expr × Expr)) :
    evalPairs scope fields pairs = Assoc.collect (evalPair scope) fields pairs := by
  induction pairs generalizing fields with
  | nil => rfl
  | cons pair rest ih =>
    rw [evalPairs, Assoc.collect, evalPair]
    cases mapKey scope pair.1 with
    | error failure => rfl
    | ok key =>
      cases eval scope pair.2 with
      | error failure => rfl
      | ok value => exact ih _

theorem evalKeywordArgs_eq_collect (args : List KeywordArg) (scope : Scope) :
    evalKeywordArgs args scope =
      Assoc.collect (fun kw => (evalKeywordValue scope kw.value).map fun value => (kw.key.name, value))
        [] args := by
  have written : ∀ fields, evalKeywordArgsInto scope fields args =
      Assoc.collect (fun kw => (evalKeywordValue scope kw.value).map fun value => (kw.key.name, value))
        fields args := by
    induction args with
    | nil => exact fun fields => rfl
    | cons kw rest ih =>
      intro fields
      rw [evalKeywordArgsInto, Assoc.collect]
      cases evalKeywordValue scope kw.value with
      | error failure => rfl
      | ok value => exact ih _
  exact written []

/-! ## What is kept -/

/-- A keyword argument holds its own value: a map one field for each pair that is
written, in that order, with the key and the value of the pair. -/
def OwnValue (scope : Scope) : KeywordValue → Value → Prop
  | .expr expr, value => eval scope expr = .ok value
  | .map pairs, value => ∃ fields, value = .dict fields ∧
      List.Forall₂ (fun pair field =>
        mapKey scope pair.1 = .ok field.1 ∧ eval scope pair.2 = .ok field.2) pairs fields

/-- One field for each keyword argument that is written, in that order, with its own
value. -/
def Kept (scope : Scope) (args : List KeywordArg) (dict : Dict) : Prop :=
  List.Forall₂ (fun kw field => field.1 = kw.key.name ∧ OwnValue scope kw.value field.2) args dict

/-- No two keys of a map stand for the same text. -/
def DistinctKeys (scope : Scope) : KeywordValue → Prop
  | .expr _ => True
  | .map pairs => (pairs.map fun pair => mapKey scope pair.1).Nodup

/-- No two keyword arguments have the same name, and no two keys of a map among them
stand for the same text. -/
structure DistinctNames (scope : Scope) (args : List KeywordArg) : Prop where
  names : (args.map fun kw => kw.key.name).Nodup
  keys : ∀ kw ∈ args, DistinctKeys scope kw.value

/-- The value of an argument is its own exactly if its keys are distinct. -/
theorem ownValue_iff {scope : Scope} {written : KeywordValue} {value : Value}
    (evaluated : evalKeywordValue scope written = .ok value) :
    OwnValue scope written value ↔ DistinctKeys scope written := by
  cases written with
  | expr expr => exact iff_of_true evaluated trivial
  | map pairs =>
    obtain ⟨fields, collected, rfl⟩ := map_eq_ok.mp evaluated
    rw [evalPairs_eq_collect] at collected
    have injective : Function.Injective (Except.ok : String → Except RuntimeError String) :=
      fun _ _ => Except.ok.inj
    have kept : List.Forall₂ (fun pair field => evalPair scope pair = .ok field) pairs fields ↔
        (pairs.map fun pair => mapKey scope pair.1).Nodup :=
      Assoc.collect_kept_iff injective (fun _ _ held => (evalPair_eq_ok.mp held).1) collected
    simp only [evalPair_eq_ok] at kept
    rw [DistinctKeys, ← kept, OwnValue]
    constructor
    · rintro ⟨others, same, each⟩
      obtain rfl := Value.dict.inj same
      exact each
    · intro each
      exact ⟨fields, rfl, each⟩

/-- Where every argument has its field, the values are their own exactly if the keys of
each are distinct. -/
theorem ownValues_iff {scope : Scope} {args : List KeywordArg} {dict : Dict}
    (values : List.Forall₂ (fun kw field =>
      field.1 = kw.key.name ∧ evalKeywordValue scope kw.value = .ok field.2) args dict) :
    Kept scope args dict ↔ ∀ kw ∈ args, DistinctKeys scope kw.value := by
  unfold Kept
  induction values with
  | nil => simp
  | cons here _ ih =>
    rw [List.forall₂_cons, List.forall_mem_cons, ih, ownValue_iff here.2]
    exact and_congr_left' (and_iff_right here.1)

theorem Kept.names {scope : Scope} {args : List KeywordArg} {dict : Dict}
    (kept : Kept scope args dict) : dict.map Prod.fst = args.map fun kw => kw.key.name := by
  unfold Kept at kept
  induction kept with
  | nil => rfl
  | cons here _ ih => rw [List.map_cons, List.map_cons, ih, here.1]

/-- Nothing is lost exactly if no name and no key repeats. -/
theorem kept_iff {scope : Scope} {args : List KeywordArg} {dict : Dict}
    (evaluated : evalKeywordArgs args scope = .ok dict) :
    Kept scope args dict ↔ DistinctNames scope args := by
  rw [evalKeywordArgs_eq_collect] at evaluated
  have written := Assoc.collect_kept_iff Function.injective_id
    (fun (kw : KeywordArg) field held => (keyed_eq_ok.mp held).1.symm) evaluated
  simp only [keyed_eq_ok] at written
  constructor
  · intro kept
    have distinct : (args.map fun kw => kw.key.name).Nodup := by
      obtain ⟨pairs, -, rfl⟩ := Assoc.collect_eq_ok.mp evaluated
      rw [← kept.names]
      exact Assoc.nodup_keys_ofPairs pairs
    exact ⟨distinct, (ownValues_iff (written.mpr distinct)).mp kept⟩
  · rintro ⟨names, keys⟩
    exact (ownValues_iff (written.mpr names)).mpr keys

/-! ## Variables -/

/-- Every variable of a declaration has an entry of its own: in the table of the
validator, and among the members of an actor that is constructed from it. -/
structure OwnSlots (decl : ActorDeclaration) : Prop where
  table : {name | declaredVars decl.vars name ≠ none}.ncard = decl.vars.length
  members : ∀ sourceDir args cliArgs inst, evalConstructArgs decl sourceDir = .ok args →
    ArgsActor.construct cliArgs args = .ok inst →
      List.Forall₂ (fun var field => field.1 = var.name.name ∧ Given cliArgs var field.2)
        decl.vars inst.members

/-- The table of the validator has an entry for each name. -/
theorem declaredVars_support (vars : List VarDeclaration) :
    {name | declaredVars vars name ≠ none} =
      ((vars.map fun var => var.name.name).toFinset : Set String) := by
  ext name
  simp [declaredVars_eq]

theorem table_iff (vars : List VarDeclaration) :
    {name | declaredVars vars name ≠ none}.ncard = vars.length ↔
      (vars.map fun var => var.name.name).Nodup := by
  rw [declaredVars_support, Set.ncard_coe_finset]
  have counted := @Multiset.toFinset_card_eq_card_iff_nodup String _ (vars.map fun var => var.name.name)
  rwa [Multiset.coe_card, List.length_map, Multiset.coe_nodup] at counted

theorem names_of_declared {vars : List VarDeclaration} {declared : List DeclaredVar}
    (evaluated : List.Forall₂ DefaultOf vars declared) :
    vars.map (fun var => var.name.name) = declared.map fun var => var.name := by
  induction evaluated with
  | nil => rfl
  | cons known _ ih => rw [List.map_cons, List.map_cons, ih, known.name_eq]

theorem ownSlots_iff (decl : ActorDeclaration) :
    OwnSlots decl ↔ (decl.vars.map fun var => var.name.name).Nodup := by
  constructor
  · intro own
    exact (table_iff decl.vars).mp own.table
  · intro distinct
    refine ⟨(table_iff decl.vars).mpr distinct, ?_⟩
    intro sourceDir args cliArgs inst evaluated built
    obtain ⟨keyword, vars, -, defaults, rfl⟩ := evalConstructArgs_eq_ok.mp evaluated
    obtain ⟨-, collected⟩ := construct_eq_ok.mp built
    rw [ArgsActor.collectMembers_eq_collect] at collected
    have written := Assoc.collect_kept_iff Function.injective_id
      (fun (var : DeclaredVar) field held => (keyed_eq_ok.mp held).1.symm) collected
    simp only [keyed_eq_ok] at written
    exact given_of_declared defaults (written.mpr (names_of_declared defaults ▸ distinct))

/-! ## Files -/

/-- The keyword arguments of the declarations and of the commands of a file. -/
def keywordLists (source : SourceFile) : List (List KeywordArg) :=
  source.items.flatMap fun item =>
    match item with
    | .actorDeclaration decl => [decl.keywordArgs]
    | .asBlock block => block.body.filterMap fun stmt =>
      match stmt with
      | .command cmd => some cmd.keywordArgs
      | _ => none

/-- In any file, whether or not the validator accepts it, the evaluated arguments of
a declaration or a command keep an entry each with its own value, in order, exactly
if no name and no key repeats, and the variables of a declaration keep an entry each
exactly if no two have the same name. -/
theorem arguments_kept_iff (source : SourceFile) :
    (∀ args ∈ keywordLists source, ∀ scope dict, evalKeywordArgs args scope = .ok dict →
      (Kept scope args dict ↔ DistinctNames scope args)) ∧
    ∀ decl ∈ declarations source.items,
      (OwnSlots decl ↔ (decl.vars.map fun var => var.name.name).Nodup) :=
  ⟨fun _ _ _ _ evaluated => kept_iff evaluated, fun decl _ => ownSlots_iff decl⟩

def keyword (name : String) (value : KeywordValue) : KeywordArg := ⟨⟨name, ⟨0, 0⟩⟩, value, ⟨0, 0⟩⟩

/-- `actor a = exec` with these arguments. -/
def execFile (args : List KeywordArg) : SourceFile where
  items := [.actorDeclaration {
    name := ⟨"a", ⟨0, 0⟩⟩, actorType := ⟨"exec", ⟨0, 0⟩⟩, keywordArgs := args, vars := []
    span := ⟨0, 0⟩ }]

/-- `command: "true"` and `cwd: "sub"` are both kept. -/
theorem arguments_kept_iff_exec :
    Kept .new
      [keyword "command" (.expr (.stringLit [.text "true"] ⟨0, 0⟩)),
        keyword "cwd" (.expr (.stringLit [.text "sub"] ⟨0, 0⟩))]
      [("command", .string "true"), ("cwd", .string "sub")] := by
  refine ((arguments_kept_iff (execFile
    [keyword "command" (.expr (.stringLit [.text "true"] ⟨0, 0⟩)),
      keyword "cwd" (.expr (.stringLit [.text "sub"] ⟨0, 0⟩))])).1 _ List.mem_cons_self _ _ rfl).mpr ?_
  refine ⟨by decide, ?_⟩
  simp [keyword, DistinctKeys]

/-- The validator accepts `command: "false", command: "true"`, of which only the
second is left. -/
theorem repeated_keyword_lost :
    ¬ ∀ source, accepts source = true → ∀ args ∈ keywordLists source, ∀ scope dict,
      evalKeywordArgs args scope = .ok dict → Kept scope args dict := by
  intro keeps
  have kept := keeps (execFile
    [keyword "command" (.expr (.stringLit [.text "false"] ⟨0, 0⟩)),
      keyword "command" (.expr (.stringLit [.text "true"] ⟨0, 0⟩))]) (by decide) _ List.mem_cons_self
    .new [("command", .string "true")] rfl
  have counted := kept.length_eq
  cases counted

end Ill.Harness
