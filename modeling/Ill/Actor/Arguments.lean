import Ill.Actor.Registry

/-!
# Arguments and their declared types

The descriptors declare a type for every argument. The runtimes match on the
types of some of them, take others as they come, and fall back to a fixed
answer where a match fails. Given the arguments that a descriptor requires,
this module says for `pg_client` and `mqtt_client` exactly when no fallback is
taken.
-/

namespace Ill.Actor

/-- The arguments that a command requires are given. -/
structure Command.Supplied (command : Command) (args : CommandArgs) : Prop where
  positional : command.positional.length ≤ args.positional.length
  required : ∀ argDef ∈ command.keyword, argDef.required = true → args.kw argDef.name ≠ none

/-- The type a command declares for a keyword argument. -/
def Command.keywordType (command : Command) (name : String) : ValueType :=
  ((command.keyword.find? fun argDef => argDef.name == name).map KeywordArgDef.ty).getD .unknown

/-- An argument, if given, is of a type. -/
def GivenAs (ty : ValueType) (value : Option Value) : Prop :=
  ∀ given, value = some given → given.isOfType ty = true

/-- A keyword argument, if given, is of the type its command declares for it. -/
def Command.KeywordTyped (command : Command) (args : CommandArgs) (name : String) : Prop :=
  GivenAs (command.keywordType name) (args.kw name)

/-- Every positional argument is of the type its command declares for it. -/
def Command.PositionalTyped (command : Command) (args : CommandArgs) : Prop :=
  ∀ (i : Nat) (argDef : ArgDef), command.positional[i]? = some argDef → GivenAs argDef.ty args.positional[i]?

/-- A number, if given, is a port. -/
def PortInRange (value : Option Value) : Prop :=
  ∀ n, value = some (.number n) → 0 < n ∧ n ≤ 65535

/-- An argument, if given, is a dict of strings. -/
def StringDict (value : Option Value) : Prop :=
  ∀ given, value = some given →
    ∃ fields, given = .dict fields ∧ ∀ field ∈ fields, field.2.isOfType .string = true

/-! ## Settings -/

theorem givenAs_none (ty : ValueType) : GivenAs ty none := by
  intro given absent
  simp at absent

theorem givenAs_some {ty : ValueType} {value : Value} :
    GivenAs ty (some value) ↔ value.isOfType ty = true := by
  simp [GivenAs]

/-- A given argument of type string. -/
theorem givenAs_string_iff {value : Option Value} (given : value ≠ none) :
    GivenAs .string value ↔ ∃ text, value = some (.string text) := by
  obtain ⟨held, rfl⟩ := Option.ne_none_iff_exists'.mp given
  rw [givenAs_some, Value.isOfType_string]
  simp

/-- Where only the first positional argument is declared with a type, a text, it
is what the types come to. -/
theorem positionalTyped_iff {command : Command} {name : String} {rest : List ArgDef}
    (declared : command.positional = ⟨name, .string⟩ :: rest)
    (others : ∀ argDef ∈ rest, argDef.ty = .unknown) {args : CommandArgs}
    (supplied : command.Supplied args) :
    command.PositionalTyped args ↔ ∃ text, args.positional.head? = some (.string text) := by
  have given : args.positional[0]? ≠ none := by
    have enough := supplied.positional
    rw [declared, List.length_cons] at enough
    rw [Ne, List.getElem?_eq_none_iff]
    omega
  rw [List.head?_eq_getElem?, ← givenAs_string_iff given]
  constructor
  · intro typed
    exact typed 0 ⟨name, .string⟩ (by rw [declared]; rfl)
  · intro first i argDef found
    rw [declared] at found
    cases i with
    | zero =>
      obtain rfl := Option.some.inj found
      exact first
    | succ i =>
      intro value _
      rw [others argDef (List.mem_of_getElem? found)]
      exact Value.isOfType_unknown value

/-- The text of a setting, or its default where it is not given. -/
def textOr (default : String) : Option Value → Option String
  | some (.string s) => some s
  | none => some default
  | some _ => none

/-- The port of a setting, or its default where it is not given. -/
def portOr (default : Nat) : Option Value → Option Nat
  | some (.number n) => if 0 < n ∧ n ≤ 65535 then some n.toNat else none
  | none => some default
  | some _ => none

theorem textOr_ne_none {default : String} {value : Option Value} :
    textOr default value ≠ none ↔ GivenAs .string value := by
  cases value with
  | none => simp [textOr, givenAs_none]
  | some given =>
    rw [givenAs_some, Value.isOfType_string]
    cases given <;> simp [textOr]

theorem portOr_ne_none {default : Nat} {value : Option Value} :
    portOr default value ≠ none ↔ GivenAs .number value ∧ PortInRange value := by
  cases value with
  | none => simp [portOr, givenAs_none, PortInRange]
  | some given =>
    rw [givenAs_some, Value.isOfType_number]
    cases given <;> simp [portOr, PortInRange]

/-- Reading a text before the other settings. -/
theorem textOr_bind {β : Type} (default : String) (value : Option Value)
    (rest : String → Option β) :
    (textOr default value).bind rest =
      match value with
      | some (.string s) => rest s
      | none => rest default
      | some _ => none := by
  cases value with
  | none => rfl
  | some given => cases given <;> rfl

/-- Reading the port before the other settings. -/
theorem portOr_bind {β : Type} (default : Nat) (value : Option Value) (rest : Nat → Option β) :
    (portOr default value).bind rest =
      match value with
      | some (.number n) =>
        if 0 < n ∧ n ≤ 65535 then rest n.toNat else none
      | none => rest default
      | some _ => none := by
  cases value with
  | none => rfl
  | some given =>
    cases given with
    | number n =>
      simp only [portOr]
      split <;> rfl
    | _ => rfl

/-- A sequence of settings is read if each of them is. -/
theorem bind_ne_none {α β : Type} {first : Option α} {rest : α → Option β} {later : Prop}
    (reads : ∀ value, rest value ≠ none ↔ later) :
    first.bind rest ≠ none ↔ first ≠ none ∧ later := by
  cases first with
  | none => simp
  | some value => simpa using reads value

/-- A list is mapped if each of its items is. -/
theorem mapM_ne_none {α β : Type} {f : α → Option β} {items : List α} :
    items.mapM f ≠ none ↔ ∀ item ∈ items, f item ≠ none := by
  induction items with
  | nil => simp
  | cons item rest ih =>
    rw [List.mapM_cons, List.forall_mem_cons, ← ih]
    cases f item with
    | none => simp
    | some value => cases rest.mapM f <;> simp

/-! ## `pg_client` -/

namespace PgClient

/-- The answer to arguments that the runtime does not match. -/
def fallback (cmd : String) (args : CommandArgs) : Option RunOutcome :=
  match cmd with
  | "connect" => if (buildConfig args.keyword).isNone then some (connectError "other") else none
  | "query" =>
    match args.positional.head? with
    | some (.string _) => none
    | _ => some (queryError "other" "" "missing sql argument")
  | _ => none

theorem fallback_connect_eq (args : CommandArgs) : fallback connect.name args =
    if (buildConfig args.keyword).isNone then some (connectError "other") else none := rfl

theorem fallback_query_eq (args : CommandArgs) : fallback query.name args =
    match args.positional.head? with
    | some (.string _) => none
    | _ => some (queryError "other" "" "missing sql argument") := rfl

theorem optionalText_ne_none {value : Option Value} (given : value ≠ none) :
    optionalText value ≠ none ↔ GivenAs .string value := by
  obtain ⟨held, rfl⟩ := Option.ne_none_iff_exists'.mp given
  rw [givenAs_some, Value.isOfType_string]
  cases held <;> simp [optionalText]

/-- The fallback is what a command answers, whatever the server does. -/
theorem execute_of_fallback (ext : External) {args : CommandArgs} {inst : PgClientInstance}
    {command : Command} (member : command ∈ commands)
    (valid : inst.mode.descriptor ∈ command.validInModes) {outcome : RunOutcome}
    (fallsBack : fallback command.name args = some outcome) :
    execute ext command.name args inst = (inst, outcome) := by
  obtain ⟨mode⟩ := inst
  simp only [commands, List.mem_cons, List.not_mem_nil, or_false] at member
  rcases member with rfl | rfl | rfl
  · cases mode with
    | connected => exact absurd valid (by decide)
    | disconnected =>
      rw [fallback_connect_eq] at fallsBack
      split at fallsBack
      · next failed =>
        rw [Option.isNone_iff_eq_none] at failed
        obtain rfl := Option.some.inj fallsBack
        simp only [execute, connect, Disconnected.connect, failed]
      · simp at fallsBack
  · cases mode with
    | disconnected => exact absurd valid (by decide)
    | connected =>
      rw [fallback_query_eq] at fallsBack
      simp only [execute, query]
      cases given : args.positional.head? with
      | none =>
        rw [given] at fallsBack
        obtain rfl := Option.some.inj fallsBack
        rfl
      | some value =>
        rw [given] at fallsBack
        cases value with
        | string sql => simp at fallsBack
        | _ =>
          obtain rfl := Option.some.inj fallsBack
          rfl
  · cases fallsBack

/-- The configuration builds and the positional argument matches, so that the
runtime does not fall back. -/
structure Served (command : Command) (args : CommandArgs) : Prop where
  connect : command = connect → buildConfig args.keyword ≠ none
  query : command = query → ∃ sql, args.positional.head? = some (.string sql)
  fallback : fallback command.name args = none

/-- What the runtime insists on is of its declared type, and the port is one. -/
structure WellTyped (command : Command) (args : CommandArgs) : Prop where
  connect : command = connect →
    (∀ name ∈ ["host", "port", "user", "database"], command.KeywordTyped args name) ∧
      PortInRange (args.kw "port")
  query : command = query → command.PositionalTyped args

/-- The settings are read in order. -/
theorem buildConfig_eq (kw : Dict) : buildConfig kw =
    (textOr defaultHost (kw.get "host")).bind fun host =>
      (portOr defaultPort (kw.get "port")).bind fun port =>
        (optionalText (kw.get "user")).bind fun user =>
          (optionalText (kw.get "database")).bind fun database =>
            some ({
              host, port, user, database
              password := optionalText (kw.get "password")
              applicationName := optionalText (kw.get "application_name") },
              match kw.get "timeout" with
              | some (.number n) => if 0 < n then n.toNat else defaultConnectTimeout
              | _ => defaultConnectTimeout) := by
  simp only [textOr_bind, portOr_bind]
  rfl

theorem buildConfig_ne_none {kw : Dict} (user : kw.get "user" ≠ none)
    (database : kw.get "database" ≠ none) :
    buildConfig kw ≠ none ↔
      GivenAs .string (kw.get "host") ∧
        (GivenAs .number (kw.get "port") ∧ PortInRange (kw.get "port")) ∧
          GivenAs .string (kw.get "user") ∧ GivenAs .string (kw.get "database") := by
  rw [buildConfig_eq, bind_ne_none fun host => bind_ne_none fun port => bind_ne_none fun user =>
    bind_ne_none fun database => iff_of_true (Option.some_ne_none _) trivial,
    textOr_ne_none, portOr_ne_none, optionalText_ne_none user, optionalText_ne_none database, and_true]

theorem fallback_connect {args : CommandArgs} :
    fallback connect.name args = none ↔ buildConfig args.keyword ≠ none := by
  rw [fallback_connect_eq]
  simp

theorem fallback_query {args : CommandArgs} :
    fallback query.name args = none ↔ ∃ sql, args.positional.head? = some (.string sql) := by
  rw [fallback_query_eq]
  cases args.positional.head? with
  | none => simp
  | some value => cases value <;> simp

theorem connect_ne_query : PgClient.connect ≠ query := by decide

/-- Nothing is insisted on for a disconnect. -/
theorem disconnect_other : disconnect ≠ PgClient.connect ∧ disconnect ≠ query := by decide

/-- Given what they require, no command falls back exactly when the arguments
it insists on have their declared types. -/
theorem served_iff {command : Command} (member : command ∈ commands) {args : CommandArgs}
    (supplied : command.Supplied args) : Served command args ↔ WellTyped command args := by
  simp only [commands, List.mem_cons, List.not_mem_nil, or_false] at member
  rcases member with rfl | rfl | rfl
  · have settings := buildConfig_ne_none
      (supplied.required (requiredKeyword "user" .string) (by decide) rfl)
      (supplied.required (requiredKeyword "database" .string) (by decide) rfl)
    have typed : (∀ name ∈ ["host", "port", "user", "database"],
        PgClient.connect.KeywordTyped args name) ↔
          GivenAs .string (args.kw "host") ∧ GivenAs .number (args.kw "port") ∧
            GivenAs .string (args.kw "user") ∧ GivenAs .string (args.kw "database") := by
      simp only [List.forall_mem_cons, List.not_mem_nil, false_implies, implies_true, and_true]
      exact Iff.rfl
    constructor
    · intro served
      refine ⟨fun _ => ?_, fun other => absurd other connect_ne_query⟩
      obtain ⟨host, ⟨port, range⟩, user, database⟩ := settings.mp (served.connect rfl)
      exact ⟨typed.mpr ⟨host, port, user, database⟩, range⟩
    · intro fits
      obtain ⟨types, range⟩ := fits.connect rfl
      obtain ⟨host, port, user, database⟩ := typed.mp types
      have builds := settings.mpr ⟨host, ⟨port, range⟩, user, database⟩
      exact ⟨fun _ => builds, fun other => absurd other connect_ne_query, fallback_connect.mpr builds⟩
  · have typed := positionalTyped_iff rfl (by simp) supplied
    constructor
    · intro served
      exact ⟨fun other => absurd other.symm connect_ne_query, fun _ => typed.mpr (served.query rfl)⟩
    · intro fits
      have matched := typed.mp (fits.query rfl)
      exact ⟨fun other => absurd other.symm connect_ne_query, fun _ => matched,
        fallback_query.mpr matched⟩
  · obtain ⟨notConnect, notQuery⟩ := disconnect_other
    constructor
    · intro _
      exact ⟨fun other => absurd other notConnect, fun other => absurd other notQuery⟩
    · intro _
      exact ⟨fun other => absurd other notConnect, fun other => absurd other notQuery, rfl⟩

end PgClient

/-! ## `mqtt_client` -/

namespace MqttClient

/-- The answer to arguments that the runtime does not match. -/
def fallback (takesKeepAlive : Nat → Bool) (cmd : String) (args : CommandArgs) : Option RunOutcome :=
  let userProperties :=
    if (dictToUserProperties (args.kw "user_properties")).isNone then
      some (mqttError "other" clientSideReasonCode)
    else none
  match cmd with
  | "connect" =>
    match buildConnectConfig takesKeepAlive args.keyword with
    | .error .rejected => some (mqttError "other" clientSideReasonCode)
    | _ => none
  | "subscribe_0" | "subscribe_1" | "subscribe_2" =>
    match args.positional.head? with
    | some (.string _) => userProperties
    | _ => some (mqttError "topic_filter_invalid" clientSideReasonCode)
  | "publish_0" | "publish_1" | "publish_2" =>
    match args.positional.head? with
    | some (.string topic) =>
      -- An empty topic is refused before the other arguments are looked at.
      if topic = "" then none
      else
        match publishPayload args.positional[1]? with
        | none => some (mqttError "payload_format_invalid" clientSideReasonCode)
        | some _ => userProperties
    | _ => some (mqttError "topic_name_invalid" clientSideReasonCode)
  | _ => none

def subscriptions : List Command := [subscribe0, subscribe1, subscribe2]

def publications : List Command := [publish0, publish1, publish2]

/-- The configuration builds and the positional arguments match, so that the
runtime does not fall back. -/
structure Served (takesKeepAlive : Nat → Bool) (command : Command) (args : CommandArgs) : Prop where
  connect : command = connect → ∃ config, buildConnectConfig takesKeepAlive args.keyword = .ok config
  subscribe : command ∈ subscriptions → ∃ topic, args.positional.head? = some (.string topic)
  publish : command ∈ publications →
    (∃ topic, args.positional.head? = some (.string topic)) ∧
      publishPayload args.positional[1]? ≠ none
  fallback : fallback takesKeepAlive command.name args = none

/-- The keep-alive that is set is one the driver takes: a positive number, or the
default where no number is given. -/
def KeepAliveTaken (takesKeepAlive : Nat → Bool) : Option Value → Prop
  | some (.number secs) => 0 < secs → takesKeepAlive secs.toNat
  | _ => takesKeepAlive defaultKeepAliveSecs

/-- What the runtime insists on is of its declared type. The payload and the
user properties, which are declared without a type, are a text or bytes and a
dict of strings; nothing is asked of the user properties of an empty topic. -/
structure WellTyped (takesKeepAlive : Nat → Bool) (command : Command) (args : CommandArgs) : Prop where
  connect : command = connect →
    (∀ name ∈ ["host", "port", "client_id"], command.KeywordTyped args name) ∧
      PortInRange (args.kw "port") ∧ KeepAliveTaken takesKeepAlive (args.kw "keep_alive") ∧
        (args.kw "username" ≠ none →
          ∀ name ∈ ["username", "password"], command.KeywordTyped args name) ∧
          StringDict (args.kw "user_properties")
  subscribe : command ∈ subscriptions →
    command.PositionalTyped args ∧ StringDict (args.kw "user_properties")
  publish : command ∈ publications →
    command.PositionalTyped args ∧
      (GivenAs .string args.positional[1]? ∨ GivenAs .bytes args.positional[1]?) ∧
        (args.positional.head? = some (.string "") ∨ StringDict (args.kw "user_properties"))

theorem orRejected_textOr_bind {β : Type} (default : String) (value : Option Value)
    (rest : String → Except ConfigFailure β) :
    (orRejected (textOr default value)).bind rest =
      match value with
      | some (.string s) => rest s
      | none => rest default
      | some _ => .error .rejected := by
  cases value with
  | none => rfl
  | some given => cases given <;> rfl

theorem orRejected_portOr_bind {β : Type} (default : Nat) (value : Option Value)
    (rest : Nat → Except ConfigFailure β) :
    (orRejected (portOr default value)).bind rest =
      match value with
      | some (.number n) =>
        if 0 < n ∧ n ≤ 65535 then rest n.toNat else .error .rejected
      | none => rest default
      | some _ => .error .rejected := by
  cases value with
  | none => rfl
  | some given =>
    cases given with
    | number n =>
      simp only [portOr]
      split <;> rfl
    | _ => rfl

/-- The keep-alive of a setting, or the default where no number is given. -/
def keepAliveOr (takesKeepAlive : Nat → Bool) : Option Value → Except ConfigFailure (Option Nat)
  | some (.number secs) => if 0 < secs then setKeepAlive takesKeepAlive secs.toNat else .ok none
  | _ => setKeepAlive takesKeepAlive defaultKeepAliveSecs

/-- Reading the keep-alive before the other settings. -/
theorem keepAliveOr_bind {β : Type} (takesKeepAlive : Nat → Bool) (value : Option Value)
    (rest : Option Nat → Except ConfigFailure β) :
    (keepAliveOr takesKeepAlive value).bind rest =
      match value with
      | some (.number secs) =>
        if 0 < secs then (setKeepAlive takesKeepAlive secs.toNat).bind rest else rest none
      | _ => (setKeepAlive takesKeepAlive defaultKeepAliveSecs).bind rest := by
  cases value with
  | none => rfl
  | some given =>
    cases given with
    | number secs =>
      simp only [keepAliveOr]
      split <;> rfl
    | _ => rfl

/-- A setting is read, and goes wrong otherwise. -/
def Reads {α : Type} (setting : Except ConfigFailure α) : Prop := ∃ value, setting = .ok value

theorem reads_ok {α : Type} (value : α) : Reads (.ok value) := ⟨value, rfl⟩

theorem reads_orRejected {α : Type} {value : Option α} : Reads (orRejected value) ↔ value ≠ none := by
  cases value <;> simp [Reads, orRejected]

/-- Settings are read in sequence if each of them is. -/
theorem reads_bind {α β : Type} {first : Except ConfigFailure α} {rest : α → Except ConfigFailure β}
    {later : Prop} (reads : ∀ value, Reads (rest value) ↔ later) :
    Reads (first.bind rest) ↔ Reads first ∧ later := by
  cases first with
  | error failure => simp [Reads, Except.bind]
  | ok value => simpa [Reads, Except.bind] using reads value

theorem reads_keepAliveOr {takesKeepAlive : Nat → Bool} {value : Option Value} :
    Reads (keepAliveOr takesKeepAlive value) ↔ KeepAliveTaken takesKeepAlive value := by
  have sets (secs : Nat) : Reads (setKeepAlive takesKeepAlive secs) ↔ takesKeepAlive secs := by
    unfold setKeepAlive
    split <;> simp_all [Reads]
  cases value with
  | none => exact sets _
  | some given =>
    cases given with
    | number secs =>
      simp only [keepAliveOr, KeepAliveTaken]
      split
      · next positive => simp [sets, positive]
      · next other => simp [reads_ok, other]
    | _ => exact sets _

/-- The settings are read in order. -/
theorem buildConnectConfig_eq (takesKeepAlive : Nat → Bool) (kw : Dict) :
    buildConnectConfig takesKeepAlive kw =
      (orRejected (textOr defaultHost (kw.get "host"))).bind fun host =>
        (orRejected (portOr defaultPort (kw.get "port"))).bind fun port =>
          (orRejected (textOr "" (kw.get "client_id"))).bind fun clientId =>
            (keepAliveOr takesKeepAlive (kw.get "keep_alive")).bind fun keepAliveSecs =>
              (orRejected (buildCredentials (kw.get "username") (kw.get "password"))).bind
                fun credentials =>
                  (orRejected (dictToUserProperties (kw.get "user_properties"))).bind
                    fun userProperties =>
                      .ok ({
                        clientId, host, port, keepAliveSecs, credentials, userProperties
                        cleanStart :=
                          match kw.get "clean_start" with
                          | some (.bool clean) => some clean
                          | _ => none },
                        match kw.get "timeout" with
                        | some (.number n) => if 0 < n then n.toNat else defaultConnectTimeout
                        | _ => defaultConnectTimeout) := by
  simp only [orRejected_textOr_bind, orRejected_portOr_bind, keepAliveOr_bind]
  rfl

/-- A password is looked at only beside a user name. -/
theorem buildCredentials_ne_none {username password : Option Value} :
    buildCredentials username password ≠ none ↔
      (username ≠ none → GivenAs .string username ∧ GivenAs .string password) := by
  cases username with
  | none => simp [buildCredentials]
  | some user =>
    rw [givenAs_some, Value.isOfType_string]
    cases user with
    | string text =>
      cases password with
      | none => simp [buildCredentials, givenAs_none]
      | some secret =>
        rw [givenAs_some, Value.isOfType_string]
        cases secret <;> simp [buildCredentials]
    | _ => simp [buildCredentials]

theorem dictToUserProperties_ne_none {value : Option Value} :
    dictToUserProperties value ≠ none ↔ StringDict value := by
  cases value with
  | none => simp [dictToUserProperties, StringDict]
  | some given =>
    cases given with
    | dict fields =>
      rw [dictToUserProperties, Ne, Option.map_eq_none_iff, ← Ne, mapM_ne_none]
      have texts : StringDict (some (.dict fields)) ↔
          ∀ field ∈ fields, field.2.isOfType .string = true := by
        simp [StringDict]
      rw [texts]
      refine forall₂_congr fun field _ => ?_
      obtain ⟨name, held⟩ := field
      rw [Value.isOfType_string]
      cases held <;> simp
    | _ => simp [dictToUserProperties, StringDict]

theorem publishPayload_ne_none {value : Option Value} (given : value ≠ none) :
    publishPayload value ≠ none ↔ GivenAs .string value ∨ GivenAs .bytes value := by
  obtain ⟨held, rfl⟩ := Option.ne_none_iff_exists'.mp given
  rw [givenAs_some, givenAs_some, Value.isOfType_string, Value.isOfType_bytes]
  cases held <;> simp [publishPayload]

theorem reads_buildConnectConfig {takesKeepAlive : Nat → Bool} {kw : Dict} :
    Reads (buildConnectConfig takesKeepAlive kw) ↔
      GivenAs .string (kw.get "host") ∧
        (GivenAs .number (kw.get "port") ∧ PortInRange (kw.get "port")) ∧
          GivenAs .string (kw.get "client_id") ∧ KeepAliveTaken takesKeepAlive (kw.get "keep_alive") ∧
            (kw.get "username" ≠ none →
              GivenAs .string (kw.get "username") ∧ GivenAs .string (kw.get "password")) ∧
              StringDict (kw.get "user_properties") := by
  rw [buildConnectConfig_eq, reads_bind fun host => reads_bind fun port => reads_bind fun clientId =>
    reads_bind fun keepAliveSecs => reads_bind fun credentials => reads_bind fun userProperties =>
    iff_of_true (reads_ok _) trivial, reads_orRejected, reads_orRejected, reads_orRejected,
    reads_orRejected, reads_orRejected, textOr_ne_none, portOr_ne_none, textOr_ne_none,
    reads_keepAliveOr, buildCredentials_ne_none, dictToUserProperties_ne_none, and_true]

/-! ### Fallbacks -/

/-- The user properties of a command with a topic, which have to convert. -/
def userPropertiesFallback (args : CommandArgs) : Option RunOutcome :=
  if (dictToUserProperties (args.kw "user_properties")).isNone then
    some (mqttError "other" clientSideReasonCode)
  else none

theorem userPropertiesFallback_eq_none {args : CommandArgs} :
    userPropertiesFallback args = none ↔ StringDict (args.kw "user_properties") := by
  rw [← dictToUserProperties_ne_none]
  simp [userPropertiesFallback]

section Fallback

variable {takesKeepAlive : Nat → Bool}

theorem fallback_connect_eq (args : CommandArgs) : fallback takesKeepAlive connect.name args =
    match buildConnectConfig takesKeepAlive args.keyword with
    | .error .rejected => some (mqttError "other" clientSideReasonCode)
    | _ => none := rfl

theorem fallback_subscribe_eq {command : Command} (member : command ∈ subscriptions)
    (args : CommandArgs) : fallback takesKeepAlive command.name args =
      match args.positional.head? with
      | some (.string _) => userPropertiesFallback args
      | _ => some (mqttError "topic_filter_invalid" clientSideReasonCode) := by
  simp only [subscriptions, List.mem_cons, List.not_mem_nil, or_false] at member
  rcases member with rfl | rfl | rfl <;> rfl

theorem fallback_publish_eq {command : Command} (member : command ∈ publications)
    (args : CommandArgs) : fallback takesKeepAlive command.name args =
      match args.positional.head? with
      | some (.string topic) =>
        if topic = "" then none
        else
          match publishPayload args.positional[1]? with
          | none => some (mqttError "payload_format_invalid" clientSideReasonCode)
          | some _ => userPropertiesFallback args
      | _ => some (mqttError "topic_name_invalid" clientSideReasonCode) := by
  simp only [publications, List.mem_cons, List.not_mem_nil, or_false] at member
  rcases member with rfl | rfl | rfl <;> rfl

theorem fallback_connect_of_reads {args : CommandArgs}
    (reads : Reads (buildConnectConfig takesKeepAlive args.keyword)) :
    fallback takesKeepAlive connect.name args = none := by
  obtain ⟨config, builds⟩ := reads
  rw [fallback_connect_eq, builds]

theorem fallback_subscribe {command : Command} (member : command ∈ subscriptions)
    {args : CommandArgs} :
    fallback takesKeepAlive command.name args = none ↔
      (∃ topic, args.positional.head? = some (.string topic)) ∧
        StringDict (args.kw "user_properties") := by
  rw [fallback_subscribe_eq member, ← userPropertiesFallback_eq_none]
  cases args.positional.head? with
  | none => simp
  | some value => cases value <;> simp

theorem fallback_publish {command : Command} (member : command ∈ publications)
    {args : CommandArgs} :
    fallback takesKeepAlive command.name args = none ↔
      ∃ topic, args.positional.head? = some (.string topic) ∧
        (topic = "" ∨ publishPayload args.positional[1]? ≠ none ∧
          StringDict (args.kw "user_properties")) := by
  rw [fallback_publish_eq member, ← userPropertiesFallback_eq_none]
  cases args.positional.head? with
  | none => simp
  | some value =>
    cases value with
    | string topic =>
      by_cases empty : topic = ""
      · simp [empty]
      · cases publishPayload args.positional[1]? <;> simp [empty]
    | _ => simp

theorem subscribe_of_fallback (ext : External) (qos : QoS) {command : Command}
    (member : command ∈ subscriptions) {args : CommandArgs} {outcome : RunOutcome}
    (fallsBack : fallback takesKeepAlive command.name args = some outcome) :
    Connected.subscribe ext qos args = outcome := by
  rw [fallback_subscribe_eq member] at fallsBack
  unfold Connected.subscribe
  cases given : args.positional.head? with
  | none => simpa [given] using fallsBack
  | some value =>
    cases value with
    | string topic =>
      cases props : dictToUserProperties (args.kw "user_properties") with
      | none => simpa [given, userPropertiesFallback, props] using fallsBack
      | some userProps => simp [given, userPropertiesFallback, props] at fallsBack
    | _ => simpa [given] using fallsBack

theorem publish_of_fallback (ext : External) (qos : QoS) {command : Command}
    (member : command ∈ publications) {args : CommandArgs} {outcome : RunOutcome}
    (fallsBack : fallback takesKeepAlive command.name args = some outcome) :
    Connected.publish ext qos args = outcome := by
  rw [fallback_publish_eq member] at fallsBack
  unfold Connected.publish
  cases given : args.positional.head? with
  | none => simpa [given] using fallsBack
  | some value =>
    cases value with
    | string topic =>
      by_cases empty : topic = ""
      · simp [given, empty] at fallsBack
      · cases payload : publishPayload args.positional[1]? with
        | none => simpa [given, empty, payload] using fallsBack
        | some bytes =>
          cases props : dictToUserProperties (args.kw "user_properties") with
          | none => simpa [given, empty, payload, userPropertiesFallback, props] using fallsBack
          | some userProps => simp [given, empty, payload, userPropertiesFallback, props] at fallsBack
    | _ => simpa [given] using fallsBack

/-- The fallback is what a command answers, whatever the broker does. -/
theorem execute_of_fallback (ext : External) {args : CommandArgs} {inst : MqttClientInstance}
    {command : Command} (member : command ∈ commands)
    (valid : inst.mode.descriptor ∈ command.validInModes) {outcome : RunOutcome}
    (fallsBack : fallback ext.takesKeepAlive command.name args = some outcome) :
    execute ext command.name args inst = (inst, outcome) := by
  obtain ⟨mode⟩ := inst
  simp only [commands, List.mem_cons, List.not_mem_nil, or_false] at member
  cases mode with
  | disconnected =>
    rcases member with rfl | rfl | rfl | rfl | rfl | rfl | rfl | rfl | rfl | rfl
    case inl =>
      rw [fallback_connect_eq] at fallsBack
      split at fallsBack
      · next failed =>
        obtain rfl := Option.some.inj fallsBack
        simp only [execute, connect, Disconnected.connect, failed]
      · simp at fallsBack
    all_goals exact absurd valid (by decide)
  | connected =>
    rcases member with rfl | rfl | rfl | rfl | rfl | rfl | rfl | rfl | rfl | rfl
    · exact absurd valid (by decide)
    · cases fallsBack
    · exact Prod.ext rfl (subscribe_of_fallback ext .atMostOnce (by simp [subscriptions]) fallsBack)
    · exact Prod.ext rfl (subscribe_of_fallback ext .atLeastOnce (by simp [subscriptions]) fallsBack)
    · exact Prod.ext rfl (subscribe_of_fallback ext .exactlyOnce (by simp [subscriptions]) fallsBack)
    · exact Prod.ext rfl (publish_of_fallback ext .atMostOnce (by simp [publications]) fallsBack)
    · exact Prod.ext rfl (publish_of_fallback ext .atLeastOnce (by simp [publications]) fallsBack)
    · exact Prod.ext rfl (publish_of_fallback ext .exactlyOnce (by simp [publications]) fallsBack)
    · cases fallsBack
    · cases fallsBack

/-! ### Served arguments -/

/-- A connect is of another kind than the commands with a topic. -/
theorem connect_notMem : MqttClient.connect ∉ subscriptions ∧ MqttClient.connect ∉ publications := by
  decide

theorem notMem_publications {command : Command} (member : command ∈ subscriptions) :
    command ∉ publications := by
  have apart : ∀ other ∈ subscriptions, other ∉ publications := by decide
  exact apart command member

theorem served_connect_iff {args : CommandArgs} :
    Served takesKeepAlive MqttClient.connect args ↔ WellTyped takesKeepAlive MqttClient.connect args := by
  have types : (∀ name ∈ ["host", "port", "client_id"], MqttClient.connect.KeywordTyped args name) ↔
      GivenAs .string (args.kw "host") ∧ GivenAs .number (args.kw "port") ∧
        GivenAs .string (args.kw "client_id") := by
    simp only [List.forall_mem_cons, List.not_mem_nil, false_implies, implies_true, and_true]
    exact Iff.rfl
  have account : (∀ name ∈ ["username", "password"], MqttClient.connect.KeywordTyped args name) ↔
      GivenAs .string (args.kw "username") ∧ GivenAs .string (args.kw "password") := by
    simp only [List.forall_mem_cons, List.not_mem_nil, false_implies, implies_true, and_true]
    exact Iff.rfl
  constructor
  · intro served
    obtain ⟨host, ⟨port, range⟩, clientId, keepAlive, credentials, props⟩ :=
      reads_buildConnectConfig.mp (served.connect rfl)
    refine ⟨fun _ => ?_, fun other => absurd other connect_notMem.1,
      fun other => absurd other connect_notMem.2⟩
    exact ⟨types.mpr ⟨host, port, clientId⟩, range, keepAlive,
      fun given => account.mpr (credentials given), props⟩
  · intro fits
    obtain ⟨typed, range, keepAlive, credentials, props⟩ := fits.connect rfl
    obtain ⟨host, port, clientId⟩ := types.mp typed
    have builds := reads_buildConnectConfig.mpr
      ⟨host, ⟨port, range⟩, clientId, keepAlive, fun given => account.mp (credentials given), props⟩
    exact ⟨fun _ => builds, fun other => absurd other connect_notMem.1,
      fun other => absurd other connect_notMem.2, fallback_connect_of_reads builds⟩

theorem served_subscribe_iff {command : Command} (member : command ∈ subscriptions)
    {args : CommandArgs} (supplied : command.Supplied args) :
    Served takesKeepAlive command args ↔ WellTyped takesKeepAlive command args := by
  have notConnect : command ≠ MqttClient.connect := by
    rintro rfl
    exact connect_notMem.1 member
  have notPublish := notMem_publications member
  have typed : command.PositionalTyped args ↔
      ∃ topic, args.positional.head? = some (.string topic) := by
    simp only [subscriptions, List.mem_cons, List.not_mem_nil, or_false] at member
    rcases member with rfl | rfl | rfl <;> exact positionalTyped_iff rfl (by simp) supplied
  constructor
  · intro served
    obtain ⟨topic, props⟩ := (fallback_subscribe member).mp served.fallback
    exact ⟨fun other => absurd other notConnect, fun _ => ⟨typed.mpr topic, props⟩,
      fun other => absurd other notPublish⟩
  · intro fits
    obtain ⟨topic, props⟩ := fits.subscribe member
    exact ⟨fun other => absurd other notConnect, fun _ => typed.mp topic,
      fun other => absurd other notPublish, (fallback_subscribe member).mpr ⟨typed.mp topic, props⟩⟩

theorem served_publish_iff {command : Command} (member : command ∈ publications)
    {args : CommandArgs} (supplied : command.Supplied args) :
    Served takesKeepAlive command args ↔ WellTyped takesKeepAlive command args := by
  have notConnect : command ≠ MqttClient.connect := by
    rintro rfl
    exact connect_notMem.2 member
  have notSubscribe : command ∉ subscriptions := fun subscribes =>
    notMem_publications subscribes member
  have enough : 1 < args.positional.length ∧ (command.PositionalTyped args ↔
      ∃ topic, args.positional.head? = some (.string topic)) := by
    simp only [publications, List.mem_cons, List.not_mem_nil, or_false] at member
    rcases member with rfl | rfl | rfl <;>
      exact ⟨supplied.positional, positionalTyped_iff rfl (by simp) supplied⟩
  obtain ⟨two, typed⟩ := enough
  have payload : publishPayload args.positional[1]? ≠ none ↔
      GivenAs .string args.positional[1]? ∨ GivenAs .bytes args.positional[1]? := by
    apply publishPayload_ne_none
    rw [Ne, List.getElem?_eq_none_iff]
    omega
  constructor
  · intro served
    obtain ⟨topic, bytes⟩ := served.publish member
    refine ⟨fun other => absurd other notConnect, fun other => absurd other notSubscribe,
      fun _ => ⟨typed.mpr topic, payload.mp bytes, ?_⟩⟩
    obtain ⟨text, first, rfl | ⟨_, props⟩⟩ := (fallback_publish member).mp served.fallback
    · exact .inl first
    · exact .inr props
  · intro fits
    obtain ⟨types, bytes, props⟩ := fits.publish member
    obtain ⟨text, first⟩ := typed.mp types
    refine ⟨fun other => absurd other notConnect, fun other => absurd other notSubscribe,
      fun _ => ⟨⟨text, first⟩, payload.mpr bytes⟩, (fallback_publish member).mpr ⟨text, first, ?_⟩⟩
    rcases props with empty | props
    · rw [first] at empty
      exact .inl (Value.string.inj (Option.some.inj empty))
    · exact .inr ⟨payload.mpr bytes, props⟩

/-- Given what they require, no command falls back exactly when the arguments
it insists on have their declared types. -/
theorem served_iff {command : Command} (member : command ∈ commands) {args : CommandArgs}
    (supplied : command.Supplied args) :
    Served takesKeepAlive command args ↔ WellTyped takesKeepAlive command args := by
  by_cases connects : command = MqttClient.connect
  · subst connects
    exact served_connect_iff
  by_cases subscribes : command ∈ subscriptions
  · exact served_subscribe_iff subscribes supplied
  by_cases publishes : command ∈ publications
  · exact served_publish_iff publishes supplied
  have answers : fallback takesKeepAlive command.name args = none := by
    simp only [commands, List.mem_cons, List.not_mem_nil, or_false] at member
    rcases member with rfl | rfl | rfl | rfl | rfl | rfl | rfl | rfl | rfl | rfl
    · exact absurd rfl connects
    · rfl
    iterate 3 exact absurd (by decide) subscribes
    iterate 3 exact absurd (by decide) publishes
    · rfl
    · rfl
  constructor
  · intro _
    exact ⟨fun other => absurd other connects, fun other => absurd other subscribes,
      fun other => absurd other publishes⟩
  · intro _
    exact ⟨fun other => absurd other connects, fun other => absurd other subscribes,
      fun other => absurd other publishes, answers⟩

end Fallback

end MqttClient

/-! ## Every type -/

namespace ActorType

/-- Only the clients fall back, or panic. -/
def Served (takesKeepAlive : Nat → Bool) : ActorType → Command → CommandArgs → Prop
  | .pgClient, command, args => PgClient.Served command args
  | .mqttClient, command, args => MqttClient.Served takesKeepAlive command args
  | _, _, _ => True

def WellTyped (takesKeepAlive : Nat → Bool) : ActorType → Command → CommandArgs → Prop
  | .pgClient, command, args => PgClient.WellTyped command args
  | .mqttClient, command, args => MqttClient.WellTyped takesKeepAlive command args
  | _, _, _ => True

theorem served_iff {takesKeepAlive : Nat → Bool} {actorType : ActorType} {command : Command}
    (member : command ∈ actorType.commands) {args : CommandArgs}
    (supplied : command.Supplied args) :
    actorType.Served takesKeepAlive command args ↔
      actorType.WellTyped takesKeepAlive command args := by
  cases actorType with
  | pgClient => exact PgClient.served_iff member supplied
  | mqttClient => exact MqttClient.served_iff member supplied
  | _ => exact Iff.rfl

end ActorType

end Ill.Actor
