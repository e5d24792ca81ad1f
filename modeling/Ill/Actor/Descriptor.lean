import Ill.Runtime.Outcome

/-!
# Actor and command descriptors

The static metadata the validator reads: modes, argument and outcome shapes,
and commands. Modes are unit types compared by identity in the source, so they
are one enumeration here, with the display name and owner each one reports.
-/

namespace Ill.Actor

/-- Every mode of every actor type. -/
inductive Mode where
  | pgDisconnected | pgConnected
  | mqttDisconnected | mqttConnected
  | execStopped | execRunning
  | containerStopped | containerRunning
  | httpReady
  | argsReady
deriving DecidableEq, Repr

namespace Mode

def name : Mode → String
  | .pgDisconnected => "disconnected"
  | .pgConnected => "connected"
  | .mqttDisconnected => "disconnected"
  | .mqttConnected => "connected"
  | .execStopped => "stopped"
  | .execRunning => "running"
  | .containerStopped => "stopped"
  | .containerRunning => "running"
  | .httpReady => "ready"
  | .argsReady => "ready"

/-- The actor type a mode belongs to. -/
def actorType : Mode → String
  | .pgDisconnected | .pgConnected => "pg_client"
  | .mqttDisconnected | .mqttConnected => "mqtt_client"
  | .execStopped | .execRunning => "exec"
  | .containerStopped | .containerRunning => "container"
  | .httpReady => "http_client"
  | .argsReady => "args_actor"

end Mode

/-- Modes are the same when they are the same unit type. -/
def sameMode (left right : Mode) : Bool := left == right

@[simp] theorem sameMode_iff {left right : Mode} : sameMode left right = true ↔ left = right := by
  simp [sameMode]

structure ArgDef where
  name : String
  ty : ValueType
deriving DecidableEq, Repr

structure KeywordArgDef where
  name : String
  ty : ValueType
  required : Bool
deriving DecidableEq, Repr

/-- A named field of an outcome. -/
structure OutcomeField where
  name : String
  ty : ValueType
deriving DecidableEq, Repr

/-- One variant of a command's possible errors. -/
structure ErrorTypeDef where
  name : String
  fields : List OutcomeField
deriving DecidableEq, Repr

/-- The static description of a command. The defaults are those of the
source's trait. -/
structure Command where
  name : String
  validInModes : List Mode
  transitionsTo : Option Mode := none
  positional : List ArgDef := []
  keyword : List KeywordArgDef := []
  okFields : List OutcomeField := []
  errorTypes : List ErrorTypeDef := []
deriving DecidableEq, Repr

/-- The mode an instance is in after the command succeeded in `mode`. -/
def Command.modeAfterOk (command : Command) (mode : Mode) : Mode :=
  command.transitionsTo.getD mode

/-- The rule by which the validator advances modes: success moves to the mode
the command names, or to none; an error leaves the mode alone. -/
def Command.Obeys (command : Command) (before : Mode) (outcome : RunOutcome) (after : Mode) : Prop :=
  (outcome.isOk → after = command.modeAfterOk before) ∧ (outcome.isError → after = before)

/-- A success that ends in the named mode obeys. -/
theorem Command.Obeys.of_ok {command : Command} {before after : Mode} (fields : Dict)
    (moved : after = command.modeAfterOk before) : command.Obeys before (.ok fields) after :=
  ⟨fun _ => moved, fun erroneous => nomatch erroneous⟩

/-- An error that leaves the mode alone obeys. -/
theorem Command.Obeys.of_error {command : Command} {mode : Mode} {outcome : RunOutcome}
    (erroneous : outcome.isError) : command.Obeys mode outcome mode := by
  refine ⟨fun succeeded => ?_, fun _ => rfl⟩
  cases outcome with
  | ok fields => simp [RunOutcome.isError] at erroneous
  | error variant fields => simp [RunOutcome.isOk] at succeeded
  | notImplemented actor cmd => simp [RunOutcome.isOk] at succeeded

/-- A command that names no mode obeys by leaving the mode alone. -/
theorem Command.Obeys.of_stays {command : Command} {mode : Mode} {outcome : RunOutcome}
    (stays : command.transitionsTo = none) : command.Obeys mode outcome mode :=
  ⟨fun _ => by rw [Command.modeAfterOk, stays, Option.getD_none], fun _ => rfl⟩

/-- An optional keyword argument. -/
def optionalKeyword (name : String) (ty : ValueType) : KeywordArgDef := ⟨name, ty, false⟩

/-- A required keyword argument. -/
def requiredKeyword (name : String) (ty : ValueType) : KeywordArgDef := ⟨name, ty, true⟩

end Ill.Actor
