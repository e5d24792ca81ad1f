import Ill.Runtime.Value

/-!
# What passes between the harness and an actor

Construction and command arguments with every expression already evaluated,
the outcome of a command, the result of a teardown, and the runtime's errors
with their texts.
-/

namespace Ill

/-- A member variable declared on an actor, with its default evaluated. -/
structure DeclaredVar where
  name : String
  default : Option Value

structure ConstructArgs where
  keyword : Dict
  sourceDir : String
  vars : List DeclaredVar

def ConstructArgs.kw (args : ConstructArgs) (name : String) : Option Value :=
  args.keyword.get name

structure CommandArgs where
  positional : List Value
  keyword : Dict

def CommandArgs.kw (args : CommandArgs) (name : String) : Option Value :=
  args.keyword.get name

/-- The result of a command. -/
inductive RunOutcome where
  | ok (fields : Dict)
  | error (variant : String) (fields : Dict)
  | notImplemented (actor : String) (cmd : String)

namespace RunOutcome

def isOk : RunOutcome → Bool
  | .ok _ => true
  | _ => false

def isError : RunOutcome → Bool
  | .error _ _ => true
  | _ => false

theorem isError_of_isOk {outcome : RunOutcome} (ok : outcome.isOk = true) :
    outcome.isError = false := by
  cases outcome with
  | ok fields => rfl
  | error variant fields => simp [isOk] at ok
  | notImplemented actor cmd => rfl

theorem isOk_of_isError {outcome : RunOutcome} (error : outcome.isError = true) :
    outcome.isOk = false := by
  cases outcome with
  | ok fields => simp [isError] at error
  | error variant fields => rfl
  | notImplemented actor cmd => rfl

end RunOutcome

structure TeardownOutcome where
  ok : Bool
  message : Option String
deriving DecidableEq, Repr

/-- A successful teardown. -/
def TeardownOutcome.success : TeardownOutcome := ⟨true, none⟩

def TeardownOutcome.failed (message : String) : TeardownOutcome := ⟨false, some message⟩

inductive RuntimeError where
  | actorNotImplemented (name : String)
  | missingKwarg (name : String)
  | typeMismatch (expected got context : String)
  | construct (message : String)
  | eval (message : String)
deriving DecidableEq, Repr

/-- The text shown to the user. -/
def RuntimeError.toString : RuntimeError → String
  | .actorNotImplemented name => s!"actor type `{name}` has no runtime implementation yet"
  | .missingKwarg name => s!"missing required keyword arg `{name}`"
  | .typeMismatch expected got context =>
    s!"type mismatch in {context}: expected {expected}, got {got}"
  | .construct message => s!"construct failed: {message}"
  | .eval message => message

/-- The declared member variables of an actor; a slot without a value is
declared but unassigned. The map is sorted by name. -/
structure Members where
  slots : List (String × Option Value)

namespace Members

/-- Insert at the name's place in the order, replacing an equal name. -/
def insertSorted (name : String) (slot : Option Value) :
    List (String × Option Value) → List (String × Option Value)
  | [] => [(name, slot)]
  | (first, held) :: rest =>
    if name = first then (name, slot) :: rest
    else if name < first then (name, slot) :: (first, held) :: rest
    else (first, held) :: insertSorted name slot rest

def fromDeclarations (vars : List DeclaredVar) : Members where
  slots := vars.foldl (fun slots var => insertSorted var.name var.default slots) []

/-- The assigned slots as a dict; unassigned ones are left out. -/
def assignedView (members : Members) : Dict :=
  members.slots.foldl
    (fun fields slot =>
      match slot.2 with
      | some value => fields.insert slot.1 value
      | none => fields) []

end Members

end Ill
