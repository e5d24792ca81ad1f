import Ill.Base.Retry
import Ill.Runtime.Outcome
import Ill.Actor.Descriptor

/-!
# The `pg_client` actor

Descriptors of `connect`, `query` and `disconnect`, and the runtime state
machine over `disconnected` and `connected`. The server, the network and the
clock are an `External` record of replies.
-/

namespace Ill.Actor.PgClient

open Base

/-! ## Descriptors -/

def networkErrorFields : List OutcomeField := [⟨"reason", .atom⟩]

def connectErrorFields : List OutcomeField := [⟨"reason", .atom⟩]

def queryErrorFields : List OutcomeField :=
  [⟨"reason", .atom⟩, ⟨"sqlstate", .string⟩, ⟨"message", .string⟩]

def connect : Command where
  name := "connect"
  validInModes := [.pgDisconnected]
  transitionsTo := some .pgConnected
  keyword := [
    optionalKeyword "host" .string,
    optionalKeyword "port" .number,
    requiredKeyword "user" .string,
    optionalKeyword "password" .string,
    requiredKeyword "database" .string,
    optionalKeyword "application_name" .string,
    optionalKeyword "timeout" .number]
  errorTypes := [⟨"network", networkErrorFields⟩, ⟨"connect", connectErrorFields⟩]

def query : Command where
  name := "query"
  validInModes := [.pgConnected]
  positional := [⟨"sql", .string⟩]
  keyword := [optionalKeyword "timeout" .number]
  okFields := [⟨"row", .dynamic⟩, ⟨"col", .dynamic⟩, ⟨"row_count", .number⟩, ⟨"col_count", .number⟩]
  errorTypes := [⟨"network", networkErrorFields⟩, ⟨"query", queryErrorFields⟩]

def disconnect : Command where
  name := "disconnect"
  validInModes := [.pgConnected]
  transitionsTo := some .pgDisconnected

def modes : List Mode := [.pgDisconnected, .pgConnected]

def commands : List Command := [connect, query, disconnect]

/-! ## Replies of the server -/

inductive IoErrorKind where
  | connectionRefused | timedOut | other
deriving DecidableEq, Repr

structure DbError where
  code : String
  message : String
deriving DecidableEq, Repr

/-- What the driver's error exposes: the server's error if it sent one, the
I/O error in its source chain, whether the connection is closed, and its text. -/
structure PgError where
  db : Option DbError
  io : Option IoErrorKind
  isClosed : Bool
  rendered : String
deriving DecidableEq, Repr

/-- A row with its column names and its cells already converted to values. -/
structure Row where
  columns : List String
  cells : List Value

/-- The connection parameters handed to the driver. -/
structure Config where
  host : String
  port : Nat
  user : String
  password : Option String
  database : String
  applicationName : Option String
deriving DecidableEq, Repr

/-- The replies of one call. `timedOut` tells whether a query outlasts the
given number of milliseconds. -/
structure External where
  connect : Config → Nat → Attempts Unit PgError
  query : String → Except PgError (List Row)
  timedOut : String → Nat → Bool

/-! ## Outcomes -/

def networkError (reason : String) : RunOutcome :=
  .error "network" [("reason", .atom reason)]

def connectError (reason : String) : RunOutcome :=
  .error "connect" [("reason", .atom reason)]

def queryError (reason sqlstate message : String) : RunOutcome :=
  .error "query"
    [("reason", .atom reason), ("sqlstate", .string sqlstate), ("message", .string message)]

/-- Collect column `i` of every row. -/
def columnCells (rows : List Row) (i : Nat) : List Value :=
  rows.map fun row => row.cells.getD i .null

def buildResultDict (rows : List Row) : Dict :=
  let columns := (rows.head?.map Row.columns).getD []
  let rowValues := rows.map fun row =>
    Value.array ((List.range columns.length).map fun i => row.cells.getD i .null)
  let colDict := columns.zipIdx.foldl
    (fun fields column => Dict.insert fields column.1 (.array (columnCells rows column.2))) []
  [("row", .array rowValues), ("col", .dict colDict), ("row_count", .number rows.length),
    ("col_count", .number columns.length)]

def asciiLower (text : String) : String := text.map Char.toLower

def classifyConnectError (e : PgError) : RunOutcome :=
  match e.db with
  | some db =>
    if db.code = "28P01" ∨ db.code = "28000" then connectError "authentication_failed"
    else if db.code = "3D000" then connectError "bad_database"
    else connectError "other"
  | none =>
    match e.io with
    | some .connectionRefused => networkError "connection_refused"
    | some .timedOut => networkError "timeout"
    | some .other => networkError "host_unreachable"
    | none =>
      if containsText (asciiLower e.rendered) "tls" then networkError "tls" else networkError "other"

/-- The SQLSTATE codes reported as syntax errors: syntax error, and undefined
column, table, function and object. -/
def syntaxErrorCodes : List String := ["42601", "42703", "42P01", "42883", "42704"]

def classifyQueryError (e : PgError) : RunOutcome :=
  match e.db with
  | some db =>
    let reason :=
      if db.code ∈ syntaxErrorCodes then "syntax_error"
      else if "23".toList.isPrefixOf db.code.toList then "constraint_violation"
      else "other"
    queryError reason db.code db.message
  | none =>
    if e.io.isSome || e.isClosed then networkError "connection_lost"
    else queryError "other" "" e.rendered

/-! ## State machine -/

def defaultHost : String := "127.0.0.1"

def defaultPort : Nat := 5432

def defaultConnectTimeout : Nat := 10000

/-- A missing or non-string value of an optional setting is skipped. -/
def optionalText : Option Value → Option String
  | some (.string text) => some text
  | _ => none

/-- The driver configuration and the timeout in milliseconds, or nothing when a
keyword is missing or has the wrong type. -/
def buildConfig (kw : Dict) : Option (Config × Nat) := do
  let host ← match kw.get "host" with
    | some (.string s) => some s
    | none => some defaultHost
    | some _ => none
  let port ← match kw.get "port" with
    | some (.number n) => if 0 < n ∧ n ≤ 65535 then some n.toNat else none
    | none => some defaultPort
    | some _ => none
  let user ← optionalText (kw.get "user")
  let database ← optionalText (kw.get "database")
  let timeout := match kw.get "timeout" with
    | some (.number n) => if 0 < n then n.toNat else defaultConnectTimeout
    | _ => defaultConnectTimeout
  return ({
    host, port, user, database
    password := optionalText (kw.get "password")
    applicationName := optionalText (kw.get "application_name") }, timeout)

inductive PgMode where
  | disconnected
  | connected
deriving DecidableEq, Repr

structure PgClientInstance where
  mode : PgMode
deriving DecidableEq, Repr

def PgMode.descriptor : PgMode → Mode
  | .disconnected => .pgDisconnected
  | .connected => .pgConnected

def construct (_args : ConstructArgs) : Except RuntimeError PgClientInstance :=
  .ok ⟨.disconnected⟩

/-- Every `network` failure of a connection attempt is worth another attempt. -/
def isTransientConnectError : RunOutcome → Bool
  | .error variant _ => variant == "network"
  | _ => false

def Disconnected.connect (ext : External) (kw : Dict) : PgMode × RunOutcome :=
  match buildConfig kw with
  | none => (.disconnected, connectError "other")
  | some (cfg, timeout) =>
    match retry classifyConnectError isTransientConnectError (networkError "timeout") none
      (ext.connect cfg timeout) with
    | .ok _ => (.connected, .ok [])
    | .error outcome => (.disconnected, outcome)

/-- Only a positive number bounds a query; without one it runs to its end. -/
def queryExpires (ext : External) (sql : String) : Option Value → Bool
  | some (.number n) => decide (0 < n) && ext.timedOut sql n.toNat
  | _ => false

def Connected.query (ext : External) (sql : String) (timeoutKw : Option Value) :
    PgMode × RunOutcome :=
  if queryExpires ext sql timeoutKw then (.connected, queryError "timeout" "" "query timeout")
  else
    match ext.query sql with
    | .ok rows => (.connected, .ok (buildResultDict rows))
    | .error e => (.connected, classifyQueryError e)

def Connected.disconnect : PgMode × RunOutcome :=
  (.disconnected, .ok [])

def notImplemented (cmd : String) : RunOutcome := .notImplemented "pg_client" cmd

/-- Take the mode, run the command in it, and put the resulting mode back. -/
def execute (ext : External) (cmd : String) (args : CommandArgs) (inst : PgClientInstance) :
    PgClientInstance × RunOutcome :=
  let (next, outcome) := match inst.mode with
    | .disconnected =>
      match cmd with
      | "connect" => Disconnected.connect ext args.keyword
      | other => (.disconnected, notImplemented other)
    | .connected =>
      match cmd with
      | "query" =>
        match args.positional.head? with
        | some (.string sql) => Connected.query ext sql (args.kw "timeout")
        | _ => (.connected, queryError "other" "" "missing sql argument")
      | "disconnect" => Connected.disconnect
      | other => (.connected, notImplemented other)
  (⟨next⟩, outcome)

def teardown (_inst : PgClientInstance) : PgClientInstance × TeardownOutcome :=
  (⟨.disconnected⟩, .success)

/-! ## What a command does to the mode -/

theorem classifyConnectError_isError (e : PgError) : (classifyConnectError e).isError := by
  unfold classifyConnectError
  repeat' split
  all_goals rfl

/-- A connection attempt either connects with an empty result or stays
disconnected with an error. -/
theorem connect_cases (ext : External) (kw : Dict) :
    Disconnected.connect ext kw = (.connected, .ok []) ∨
      ∃ outcome, outcome.isError ∧ Disconnected.connect ext kw = (.disconnected, outcome) := by
  unfold Disconnected.connect
  split
  · exact Or.inr ⟨_, rfl, rfl⟩
  · split
    · exact Or.inl rfl
    · next failed =>
      refine Or.inr ⟨_, ?_, rfl⟩
      exact retry_error (fun outcome => outcome.isError) rfl
        classifyConnectError_isError (by simp) failed

/-- A query never leaves `connected`. -/
theorem query_mode (ext : External) (sql : String) (timeoutKw : Option Value) :
    (Connected.query ext sql timeoutKw).1 = .connected := by
  unfold Connected.query
  split
  · rfl
  · split <;> rfl

/-- Every command valid in the mode obeys its descriptor. -/
theorem execute_obeys (ext : External) (args : CommandArgs) (inst : PgClientInstance)
    {command : Command} (member : command ∈ commands)
    (valid : inst.mode.descriptor ∈ command.validInModes) :
    command.Obeys inst.mode.descriptor (execute ext command.name args inst).2
      (execute ext command.name args inst).1.mode.descriptor := by
  obtain ⟨mode⟩ := inst
  simp only [commands, List.mem_cons, List.not_mem_nil, or_false] at member
  rcases member with rfl | rfl | rfl
  · cases mode with
    | connected => simp [connect, PgMode.descriptor] at valid
    | disconnected =>
      show connect.Obeys _ (Disconnected.connect ext args.keyword).2
        (Disconnected.connect ext args.keyword).1.descriptor
      rcases connect_cases ext args.keyword with done | ⟨outcome, erroneous, failed⟩
      · rw [done]
        exact .of_ok [] rfl
      · rw [failed]
        exact .of_error erroneous
  · cases mode with
    | disconnected => simp [query, PgMode.descriptor] at valid
    | connected =>
      have stays : (execute ext query.name args ⟨.connected⟩).1.mode = .connected := by
        simp only [execute, query]
        split
        · exact query_mode ext _ _
        · rfl
      rw [stays]
      exact .of_stays rfl
  · cases mode with
    | disconnected => simp [disconnect, PgMode.descriptor] at valid
    | connected => exact .of_ok [] rfl

end Ill.Actor.PgClient
