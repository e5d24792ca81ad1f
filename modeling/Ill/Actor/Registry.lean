import Ill.Syntax.Ast
import Ill.Actor.PgClient
import Ill.Actor.MqttClient
import Ill.Actor.Exec
import Ill.Actor.Container
import Ill.Actor.ArgsActor

/-!
# The registry of actor types

The six registered actor types with the metadata the validator reads, the
resolution of a command's source spelling, and the consistency the registry
asserts when it is built: every mode a descriptor mentions belongs to its own
actor type.
-/

namespace Ill.Actor

open Ast

/-! ## `http_client`, which has descriptors but no runtime -/

/-- The shape shared by the HTTP verbs. -/
def httpVerb (name : String) : Command where
  name := name
  validInModes := [.httpReady]
  positional := [⟨"url", .string⟩]
  keyword := [optionalKeyword "headers" .unknown, optionalKeyword "body" .unknown,
    optionalKeyword "timeout" .number]
  okFields := [⟨"status_code", .number⟩, ⟨"body", .unknown⟩, ⟨"headers", .unknown⟩]

def HttpClient.commands : List Command :=
  [httpVerb "get", httpVerb "post", httpVerb "put", httpVerb "delete"]

/-- The registered actor types. -/
inductive ActorType where
  | pgClient | container | exec | httpClient | mqttClient | argsActor
deriving DecidableEq, Repr

namespace ActorType

def name : ActorType → String
  | .pgClient => "pg_client"
  | .container => "container"
  | .exec => "exec"
  | .httpClient => "http_client"
  | .mqttClient => "mqtt_client"
  | .argsActor => "args_actor"

def initialMode : ActorType → Mode
  | .pgClient => .pgDisconnected
  | .container => .containerStopped
  | .exec => .execStopped
  | .httpClient => .httpReady
  | .mqttClient => .mqttDisconnected
  | .argsActor => .argsReady

def modes : ActorType → List Mode
  | .pgClient => PgClient.modes
  | .container => Container.modes
  | .exec => Exec.modes
  | .httpClient => [.httpReady]
  | .mqttClient => MqttClient.modes
  | .argsActor => ArgsActor.modes

def commands : ActorType → List Command
  | .pgClient => PgClient.commands
  | .container => Container.commands
  | .exec => Exec.commands
  | .httpClient => HttpClient.commands
  | .mqttClient => MqttClient.commands
  | .argsActor => ArgsActor.commands

def constructorKeyword : ActorType → List KeywordArgDef
  | .container => Container.constructorKeyword
  | .exec => Exec.constructorKeyword
  | _ => []

def command (actorType : ActorType) (name : String) : Option Command :=
  actorType.commands.find? fun command => command.name == name

/-- The command a source spelling denotes and how many leading positional
arguments belong to the spelling. Only `mqtt_client` fuses its `receive` with
the event that follows. -/
def resolveCommand (actorType : ActorType) (name : String) (positional : List Expr) :
    Option (Command × Nat) :=
  let plain := (actorType.command name).map fun command => (command, 0)
  match actorType with
  | .mqttClient =>
    if name = "receive" then
      match positional.head? with
      | some (.ident event) =>
        match command .mqttClient ("receive_" ++ event.name) with
        | some command => some (command, 1)
        | none => plain
      | _ => plain
    else plain
  | _ => plain

end ActorType

/-- Every registered type, in order of registration. -/
def Registry.global : List ActorType :=
  [.pgClient, .container, .exec, .httpClient, .mqttClient, .argsActor]

def Registry.get (name : String) : Option ActorType :=
  Registry.global.find? fun actorType => actorType.name == name

/-- The message both layers report; an event that follows the command is named
with it. -/
def unknownCommandMessage (actorType name : String) (positional : List Expr) : String :=
  match positional.head? with
  | some (.ident event) =>
    s!"unknown command `{name} {event.name}` for actor type `{actorType}`"
  | _ => s!"unknown command `{name}` for actor type `{actorType}`"

/-! ## Consistency -/

/-- What the registry asserts of one actor type. -/
def ActorType.consistent (actorType : ActorType) : Bool :=
  actorType.initialMode.actorType == actorType.name &&
    actorType.modes.all (fun mode => mode.actorType == actorType.name) &&
    actorType.commands.all fun command =>
      command.validInModes.all (fun mode => mode.actorType == actorType.name) &&
        command.transitionsTo.all fun mode => mode.actorType == actorType.name

/-- The registry builds: no assertion of its validation fails. -/
theorem ActorType.consistent_all (actorType : ActorType) : actorType.consistent = true := by
  cases actorType <;> decide

/-- A type is found under its own name only. -/
theorem Registry.get_eq_some {name : String} {actorType : ActorType}
    (found : Registry.get name = some actorType) : actorType.name = name := by
  have named := List.find?_some found
  simpa using named

/-- Every type is registered under its name. -/
theorem Registry.get_name (actorType : ActorType) :
    Registry.get actorType.name = some actorType := by
  cases actorType <;> rfl

/-- A command is resolved by its own name, or an `mqtt_client` fuses `receive`
with the event after it. -/
theorem ActorType.resolveCommand_cases {actorType : ActorType} {name : String}
    {positional : List Expr} {command : Command} {consumed : Nat}
    (resolved : actorType.resolveCommand name positional = some (command, consumed)) :
    (actorType.command name = some command ∧ consumed = 0) ∨
      ∃ event rest, actorType = .mqttClient ∧ positional = .ident event :: rest ∧ consumed = 1 ∧
        ActorType.command .mqttClient ("receive_" ++ event.name) = some command := by
  have plainCase : (actorType.command name).map (fun found => (found, 0)) =
      some (command, consumed) → actorType.command name = some command ∧ consumed = 0 := by
    intro plain
    obtain ⟨found, lookup, same⟩ := Option.map_eq_some_iff.mp plain
    obtain ⟨rfl, rfl⟩ := Prod.mk.inj same
    exact ⟨lookup, rfl⟩
  unfold resolveCommand at resolved
  dsimp only at resolved
  split at resolved
  · split at resolved
    · split at resolved
      · next event front =>
        split at resolved
        · next fused lookup =>
          simp only [Option.some.injEq, Prod.mk.injEq] at resolved
          obtain ⟨rfl, rfl⟩ := resolved
          cases positional with
          | nil => simp at front
          | cons first rest =>
            obtain rfl : first = .ident event := Option.some.inj front
            exact .inr ⟨event, rest, rfl, rfl, rfl, lookup⟩
        · exact .inl (plainCase resolved)
      · exact .inl (plainCase resolved)
    · exact .inl (plainCase resolved)
  · exact .inl (plainCase resolved)

/-- A resolved command is one of its actor type's, and consumes no more
positionals than there are. -/
theorem ActorType.resolveCommand_spec {actorType : ActorType} {name : String}
    {positional : List Expr} {command : Command} {consumed : Nat}
    (resolved : actorType.resolveCommand name positional = some (command, consumed)) :
    command ∈ actorType.commands ∧ consumed ≤ positional.length := by
  rcases resolveCommand_cases resolved with ⟨lookup, rfl⟩ | ⟨event, rest, rfl, rfl, rfl, lookup⟩
  · exact ⟨List.mem_of_find?_eq_some lookup, Nat.zero_le _⟩
  · exact ⟨List.mem_of_find?_eq_some lookup, by simp⟩

end Ill.Actor
