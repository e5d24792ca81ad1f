import Ill.Base.Decimal
import Ill.Runtime.Outcome
import Ill.Actor.Descriptor
import Mathlib.Algebra.Group.Int.Defs

/-!
# The `args_actor`

A single-mode actor whose member variables are the declared defaults
overridden by command-line `--arg KEY=VALUE` pairs; `check` does nothing.
-/

namespace Ill.Actor.ArgsActor

open Base

def check : Command where
  name := "check"
  validInModes := [.argsReady]

def modes : List Mode := [.argsReady]

def commands : List Command := [check]

/-- The command-line pairs, sorted by key. -/
abbrev CliArgs := List (String × String)

structure ArgsActorInstance where
  members : Dict

/-- A leading colon of an atom is optional on the command line. -/
def stripColon (raw : String) : String :=
  match raw.toList with
  | ':' :: rest => String.ofList rest
  | _ => raw

/-- Read a command-line text as a value of the default's variant. -/
def coerceTo (raw : String) (target : Value) (varName : String) : Except RuntimeError Value :=
  match target with
  | .string _ => .ok (.string raw)
  | .number _ =>
    match Decimal.parseI64 raw.toList with
    | some n => .ok (.number n)
    | none => .error (.construct s!"--arg `{varName}`: cannot parse `{raw}` as a number")
  | .bool _ =>
    if raw = "true" then .ok (.bool true)
    else if raw = "false" then .ok (.bool false)
    else .error (.construct s!"--arg `{varName}`: expected `true` or `false`, got `{raw}`")
  | .atom _ => .ok (.atom (stripColon raw))
  | other =>
    .error (.construct (s!"--arg `{varName}`: default has type {other.typeName}, " ++
      "which cannot be set from the command line"))

/-- The value of one declared variable. -/
def memberValue (cliArgs : CliArgs) (var : DeclaredVar) : Except RuntimeError Value :=
  match cliArgs.lookup var.name, var.default with
  | some raw, some default => coerceTo raw default var.name
  | some raw, none => .ok (.string raw)
  | none, some default => .ok default
  | none, none => .error (.construct s!"missing required --arg `{var.name}`")

/-- Insert the declared variables in order, stopping at the first that has no value. -/
def collectMembers (cliArgs : CliArgs) (members : Dict) : List DeclaredVar → Except RuntimeError Dict
  | [] => .ok members
  | var :: rest => do
    let value ← memberValue cliArgs var
    collectMembers cliArgs (members.insert var.name value) rest

theorem collectMembers_eq_collect (cliArgs : CliArgs) (members : Dict) (vars : List DeclaredVar) :
    collectMembers cliArgs members vars =
      Assoc.collect (fun var => (memberValue cliArgs var).map fun value => (var.name, value)) members
        vars := by
  induction vars generalizing members with
  | nil => rfl
  | cons var rest ih =>
    rw [collectMembers, Assoc.collect]
    cases memberValue cliArgs var with
    | error failure => rfl
    | ok value => exact ih _

/-- The members are collected exactly if every variable has a value, and are
written in the order of the variables. -/
theorem collectMembers_eq_ok {cliArgs : CliArgs} {members : Dict} {vars : List DeclaredVar} :
    collectMembers cliArgs [] vars = .ok members ↔
      ∃ pairs, List.Forall₂ (fun var pair =>
          pair.1 = var.name ∧ memberValue cliArgs var = .ok pair.2) vars pairs ∧
        members = Assoc.ofPairs pairs := by
  rw [collectMembers_eq_collect, Assoc.collect_eq_ok]
  simp only [keyed_eq_ok]
  rfl

/-- If every variable has a value, the members are collected. -/
theorem collectMembers_total {cliArgs : CliArgs} {vars : List DeclaredVar}
    (valued : ∀ var ∈ vars, ∃ value, memberValue cliArgs var = .ok value) :
    ∃ members, collectMembers cliArgs [] vars = .ok members := by
  rw [collectMembers_eq_collect]
  apply Assoc.collect_total
  intro var inside
  obtain ⟨value, made⟩ := valued var inside
  exact ⟨(var.name, value), keyed_eq_ok.mpr ⟨rfl, made⟩⟩

def construct (cliArgs : CliArgs) (args : ConstructArgs) : Except RuntimeError ArgsActorInstance :=
  match cliArgs.find? fun pair => !args.vars.any fun var => var.name == pair.1 with
  | some (key, _) =>
    .error (.construct s!"--arg `{key}` is not a declared var on this args_actor")
  | none => (collectMembers cliArgs [] args.vars).map ArgsActorInstance.mk

def execute (cmd : String) (_args : CommandArgs) : RunOutcome :=
  match cmd with
  | "check" => .ok []
  | other => .notImplemented "args_actor" other

def selfView (inst : ArgsActorInstance) : Option Dict := some inst.members

end Ill.Actor.ArgsActor
