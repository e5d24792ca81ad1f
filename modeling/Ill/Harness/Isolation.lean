import Ill.Base.SideBySide
import Ill.Harness.Persistence
import Ill.Runtime.Interpolation
import Ill.Validate.Independent

/-!
# Actors run on their own

What an actor's items do to a run shows in three places: in the instances held
under its name, in the calls made on it, and in the bindings of its name. The
items of the other actors look at none of them unless they mention the name, so
a file runs the same without actors that no other block mentions, as long as the
external systems do not let the others feel it.
-/

namespace Ill.Ast

/-- A bare identifier in the place of a key is not looked up. -/
def mapKeyScopeNames : Expr → List String
  | .ident _ => []
  | key => key.scopeNames

def KeywordValue.scopeNames : KeywordValue → List String
  | .expr held => held.scopeNames
  | .map pairs => pairs.flatMap fun pair => mapKeyScopeNames pair.1 ++ pair.2.scopeNames

/-- The identifiers that running a statement may look up. -/
def Statement.scopeNames : Statement → List String
  | .command cmd =>
    itemScopeNames cmd.positionalArgs ++ cmd.keywordArgs.flatMap (·.value.scopeNames)
  | .assert a => a.left.scopeNames ++ (a.right.map Expr.scopeNames).getD []
  | .let ⟨_, .expr expr, _⟩ => expr.scopeNames
  | .let ⟨_, .parse _ _, _⟩ => []
  | .assignment _ => []

/-- The arguments of a declaration are evaluated in a scope of their own. -/
def TopLevel.scopeNames : TopLevel → List String
  | .actorDeclaration _ => []
  | .asBlock block => block.body.flatMap Statement.scopeNames

/-- The file without the items of some actors. -/
def SourceFile.withoutThose (source : SourceFile) (gone : String → Bool) : SourceFile where
  items := source.items.filter fun item => !gone item.actorName

/-- Whether an item of another actor may look up one of some names. -/
def SourceFile.mentionsOutside (source : SourceFile) (gone : String → Bool) : Bool :=
  source.items.any fun item => !gone item.actorName && item.scopeNames.any gone

theorem itemScopeNames_drop (items : List Expr) (count : Nat) :
    itemScopeNames (items.drop count) ⊆ itemScopeNames items := by
  induction items generalizing count with
  | nil => simp
  | cons item rest ih =>
    cases count with
    | zero => exact List.Subset.refl _
    | succ count =>
      rw [List.drop_succ_cons, itemScopeNames]
      exact List.Subset.trans (ih count) (List.subset_append_right _ _)

end Ill.Ast

namespace Ill.Harness

open Ast Actor Base Validate

/-! ## Arguments in scopes that agree -/

section Arguments

variable {left right : Scope}

theorem mapKey_congr (key : Expr) (agree : left.AgreeOn right (mapKeyScopeNames key)) :
    mapKey left key = mapKey right key := by
  cases key with
  | ident ident => rfl
  | _ => rw [mapKey_of_compound left (by simp), mapKey_of_compound right (by simp), eval_congr _ agree]

theorem evalPairs_congr (pairs : List (Expr × Expr)) (fields : Dict)
    (agree : left.AgreeOn right (KeywordValue.map pairs).scopeNames) :
    evalPairs left fields pairs = evalPairs right fields pairs := by
  induction pairs generalizing fields with
  | nil => rfl
  | cons pair rest ih =>
    obtain ⟨key, value⟩ := pair
    obtain ⟨here, later⟩ := Scope.agreeOn_append.mp agree
    obtain ⟨keys, values⟩ := Scope.agreeOn_append.mp here
    rw [evalPairs, evalPairs, mapKey_congr key keys, eval_congr value values]
    exact bind_congr fun name => bind_congr fun held => ih _ later

theorem evalKeywordValue_congr (value : KeywordValue)
    (agree : left.AgreeOn right value.scopeNames) :
    evalKeywordValue left value = evalKeywordValue right value := by
  cases value with
  | expr expr => exact eval_congr expr agree
  | map pairs => exact congrArg (Except.map Value.dict) (evalPairs_congr pairs [] agree)

theorem evalKeywordArgsInto_congr (args : List KeywordArg) (fields : Dict)
    (agree : left.AgreeOn right (args.flatMap (·.value.scopeNames))) :
    evalKeywordArgsInto left fields args = evalKeywordArgsInto right fields args := by
  induction args generalizing fields with
  | nil => rfl
  | cons kw rest ih =>
    obtain ⟨here, later⟩ := Scope.agreeOn_append.mp agree
    rw [evalKeywordArgsInto, evalKeywordArgsInto, evalKeywordValue_congr kw.value here]
    exact bind_congr fun value => ih _ later

theorem evalCommandArgs_congr (cmd : Ast.Command) (consumed : Nat)
    (agree : left.AgreeOn right (Statement.command cmd).scopeNames) :
    evalCommandArgs cmd consumed left = evalCommandArgs cmd consumed right := by
  obtain ⟨positional, keyword⟩ := Scope.agreeOn_append.mp agree
  rw [evalCommandArgs, evalCommandArgs,
    evalItems_congr _ fun name inside => positional name (itemScopeNames_drop _ consumed inside),
    evalKeywordArgs, evalKeywordArgs, evalKeywordArgsInto_congr cmd.keywordArgs [] keyword]

theorem evalAssert_agree (regex : Regex) (a : Assert)
    (agree : left.AgreeOn right (Statement.assert a).scopeNames) :
    evalAssert regex a left = evalAssert regex a right := by
  obtain ⟨ annotation, subject, op, reference, span⟩ := a
  obtain ⟨lefts, rights⟩ := Scope.agreeOn_append.mp agree
  rw [evalAssert, evalAssert, eval_congr subject lefts]
  refine bind_congr fun value => ?_
  cases op with
  | none => rfl
  | some op =>
    cases reference with
    | none => rfl
    | some expr =>
      dsimp only
      rw [eval_congr expr rights]

end Arguments

/-! ## The other actors' share of a state -/

section Share

variable {Instance : Type}

/-- The actor a call is made for. -/
def Event.actor : Event Instance → String
  | .constructed actor _ _ => actor
  | .executed actor _ _ _ _ _ => actor
  | .tornDown actor => actor

/-- The calls made for the actors that are not gone. -/
def callsOfOthers (gone : String → Bool) (events : List (Event Instance)) : List (Event Instance) :=
  events.filter fun event => !gone event.actor

theorem callsOfOthers_append (gone : String → Bool) (events later : List (Event Instance)) :
    callsOfOthers gone (events ++ later) = callsOfOthers gone events ++ callsOfOthers gone later :=
  List.filter_append ..

theorem callsOfOthers_own {gone : String → Bool} {event : Event Instance}
    (own : gone event.actor = true) : callsOfOthers gone [event] = [] := by
  simp [callsOfOthers, own]

theorem callsOfOthers_other {gone : String → Bool} {event : Event Instance}
    (other : gone event.actor = false) : callsOfOthers gone [event] = [event] := by
  simp [callsOfOthers, other]

/-- The instances of the actors that are not gone. -/
def instancesOfOthers (gone : String → Bool) (actors : List (String × Instance)) :
    List (String × Instance) :=
  actors.filter fun entry => !gone entry.1

theorem instancesOfOthers_cons (gone : String → Bool) (entry : String × Instance)
    (rest : List (String × Instance)) :
    instancesOfOthers gone (entry :: rest) =
      if gone entry.1 then instancesOfOthers gone rest else entry :: instancesOfOthers gone rest := by
  by_cases own : gone entry.1 = true
  · simp [instancesOfOthers, own]
  · simp [instancesOfOthers, own]

theorem lookup_instancesOfOthers {gone : String → Bool} {other : String} (stays : gone other = false)
    (actors : List (String × Instance)) :
    (instancesOfOthers gone actors).lookup other = actors.lookup other := by
  induction actors with
  | nil => rfl
  | cons entry rest ih =>
    obtain ⟨first, held⟩ := entry
    rw [instancesOfOthers_cons, List.lookup_cons, ← ih]
    by_cases own : gone first = true
    · have unlike : (other == first) = false := by
        refine beq_false_of_ne ?_
        rintro rfl
        rw [own] at stays
        exact absurd stays (by simp)
      rw [if_pos own, unlike]
    · rw [if_neg own, List.lookup_cons]

theorem instancesOfOthers_replace_own {gone : String → Bool} {name : String} (own : gone name = true)
    (inst : Instance) (actors : List (String × Instance)) :
    instancesOfOthers gone (HarnessState.replace name inst actors) = instancesOfOthers gone actors := by
  induction actors with
  | nil => rfl
  | cons entry rest ih =>
    obtain ⟨first, held⟩ := entry
    rw [HarnessState.replace]
    by_cases here : first = name
    · rw [if_pos here, instancesOfOthers_cons, instancesOfOthers_cons, if_pos (here ▸ own),
        if_pos (here ▸ own)]
    · rw [if_neg here, instancesOfOthers_cons, instancesOfOthers_cons, ih]

theorem instancesOfOthers_replace_other {gone : String → Bool} {other : String}
    (stays : gone other = false) (inst : Instance) (actors : List (String × Instance)) :
    instancesOfOthers gone (HarnessState.replace other inst actors) =
      HarnessState.replace other inst (instancesOfOthers gone actors) := by
  induction actors with
  | nil => rfl
  | cons entry rest ih =>
    obtain ⟨first, held⟩ := entry
    rw [HarnessState.replace, instancesOfOthers_cons]
    by_cases here : first = other
    · have kept : ¬ gone first = true := by
        rw [here, stays]
        exact Bool.false_ne_true
      rw [if_pos here, instancesOfOthers_cons, if_neg kept, if_neg kept, HarnessState.replace,
        if_pos here]
    · rw [if_neg here, instancesOfOthers_cons, ih]
      by_cases own : gone first = true
      · rw [if_pos own, if_pos own]
      · rw [if_neg own, if_neg own, HarnessState.replace, if_neg here]

/-- A state beside the one that the run without the actors is in. -/
structure Apart (gone : String → Bool) (harness partner : HarnessState Instance) : Prop where
  actors : partner.actors = instancesOfOthers gone harness.actors
  events : partner.events = callsOfOthers gone harness.events

/-- The two scopes may differ in the bindings of some names. -/
def AgreeOff (gone : String → Bool) (left right : Scope) : Prop :=
  ∀ other, gone other = false → left.get other = right.get other

theorem AgreeOff.agreeOn {gone : String → Bool} {left right : Scope} (agree : AgreeOff gone left right)
    {names : List String} (silent : names.any gone = false) : left.AgreeOn right names := by
  intro other inside
  rw [List.any_eq_false] at silent
  exact agree other (by simpa using silent other inside)

theorem AgreeOff.bind {gone : String → Bool} {left right : Scope} (agree : AgreeOff gone left right)
    (bound : String) (value : Value) : AgreeOff gone (left.bind bound value) (right.bind bound value) := by
  intro other stays
  rw [Scope.get_bind, Scope.get_bind, agree other stays]

theorem AgreeOff.unbind {gone : String → Bool} {left right : Scope} (agree : AgreeOff gone left right)
    (unbound : String) : AgreeOff gone (left.unbind unbound) (right.unbind unbound) := by
  intro other stays
  rw [Scope.get_unbind, Scope.get_unbind, agree other stays]

theorem AgreeOff.bindView {gone : String → Bool} {left right : Scope} (agree : AgreeOff gone left right)
    (bound : String) (view : Option Dict) :
    AgreeOff gone (bindView left bound view) (bindView right bound view) := by
  intro other stays
  rw [get_bindView, get_bindView, agree other stays]

/-- Refreshing the views with and without the instances of some of the names. -/
theorem AgreeOff.bindSelf {gone hidden : String → Bool} {left right : Scope}
    (agree : AgreeOff hidden left right) (within : ∀ name, gone name = true → hidden name = true)
    (runtime : ActorRuntime (List (Event Instance)) Instance) (actors : List (String × Instance))
    {actorName : String} (other : gone actorName = false) :
    AgreeOff hidden (bindSelf runtime left actors actorName)
      (bindSelf runtime right (instancesOfOthers gone actors) actorName) := by
  unfold Harness.bindSelf
  rw [lookup_instancesOfOthers other]
  apply AgreeOff.bindView
  induction actors generalizing left right with
  | nil => exact agree
  | cons entry rest ih =>
    rw [instancesOfOthers_cons, List.foldl_cons]
    by_cases own : gone entry.1 = true
    · rw [if_pos own]
      apply ih
      intro later stays
      have unlike : later ≠ entry.1 := by
        rintro rfl
        rw [within _ own] at stays
        exact absurd stays (by simp)
      rw [get_bindView, if_neg unlike, agree later stays]
    · rw [if_neg own, List.foldl_cons]
      exact ih (agree.bindView entry.1 (runtime.selfView entry.2))

/-- Two runs of a block, one of them without some actors, and with scopes that
may differ in some names, those of the actors among them. -/
structure RunsApart (gone hidden : String → Bool) (run partner : BlockRun Instance) : Prop where
  harness : Apart gone run.harness partner.harness
  scope : AgreeOff hidden run.scope partner.scope

end Share

/-! ## Calls that others do not feel -/

section Unfelt

variable {Instance : Type} (runtime : ActorRuntime (List (Event Instance)) Instance)

/-- A call is answered as if the calls for some actors had not been made. -/
def Event.AnsweredWithout (gone : String → Bool) (past : List (Event Instance)) :
    Event Instance → Prop
  | .constructed _ actorType args =>
    runtime.construct past actorType args = runtime.construct (callsOfOthers gone past) actorType args
  | .executed _ inst cmd args _ _ =>
    runtime.execute past inst cmd args = runtime.execute (callsOfOthers gone past) inst cmd args
  | .tornDown _ => True

/-- No call for another actor is answered differently for the calls for these. -/
def Unfelt (gone : String → Bool) (events : List (Event Instance)) : Prop :=
  ∀ before event after, events = before ++ event :: after → gone event.actor = false →
    event.AnsweredWithout runtime gone before

variable {runtime}

theorem Unfelt.of_shorter {gone : String → Bool} {events later : List (Event Instance)}
    (unfelt : Unfelt runtime gone later) (earlier : events <+: later) : Unfelt runtime gone events := by
  obtain ⟨rest, rfl⟩ := earlier
  rintro before event after rfl other
  exact unfelt before event (after ++ rest) (by simp) other

theorem Unfelt.last {gone : String → Bool} {events : List (Event Instance)} {event : Event Instance}
    (unfelt : Unfelt runtime gone (events ++ [event])) (other : gone event.actor = false) :
    event.AnsweredWithout runtime gone events :=
  unfelt events event [] rfl other

end Unfelt

section Run

variable {Instance : Type} {runtime : ActorRuntime (List (Event Instance)) Instance} {regex : Regex}
  {gone hidden : String → Bool} {harness partner : HarnessState Instance}

/-! ## Only calls are added -/

theorem harness_settleOutcome (actor : String) (cmd : Ast.Command) (expectsError : Bool)
    (scope : Scope) (outcome : RunOutcome) :
    (settleOutcome actor cmd expectsError harness scope outcome).1.harness = harness := by
  cases outcome <;> rfl

/-- A dispatched command, by its answer. -/
theorem runCommand_answered {block : AsBlock} {actorType : ActorType} {scope : Scope}
    {cmd : Ast.Command} {idx consumed : Nat} {cmdDef : Actor.Command} {args : CommandArgs}
    {inst next : Instance} {outcome : RunOutcome}
    (resolved : actorType.resolveCommand cmd.name.name cmd.positionalArgs = some (cmdDef, consumed))
    (evaluated : evalCommandArgs cmd consumed ((scope.unbind "ok").unbind "error") = .ok args)
    (held : harness.get block.actor.name = some inst)
    (answered : runtime.execute harness.events inst cmdDef.name args = (next, outcome)) :
    runCommand runtime block actorType harness scope cmd idx =
      settleOutcome block.actor.name cmd (blockHasErrorRefAfter block idx)
        ((harness.set block.actor.name next).log
          (.executed block.actor.name inst cmdDef.name args next outcome))
        ((scope.unbind "ok").unbind "error") outcome := by
  simp only [runCommand, resolved, evaluated, held, answered]

theorem events_runCommand (block : AsBlock) (actorType : ActorType) (scope : Scope)
    (cmd : Ast.Command) (idx : Nat) :
    harness.events <+: (runCommand runtime block actorType harness scope cmd idx).1.harness.events := by
  unfold runCommand
  dsimp only
  split
  · exact List.prefix_rfl
  · split
    · exact List.prefix_rfl
    · split
      · exact List.prefix_rfl
      · rw [harness_settleOutcome]
        exact List.prefix_append _ _

theorem events_runStatement (block : AsBlock) (actorType : ActorType) (run : BlockRun Instance)
    (indexed : Statement × Nat) :
    run.harness.events <+:
      (runStatement runtime regex block actorType run indexed).1.harness.events := by
  unfold runStatement
  dsimp only
  split
  · exact events_runCommand block actorType _ _ _
  · split <;> exact List.prefix_rfl
  · exact List.prefix_rfl
  · exact List.prefix_rfl

theorem events_runAsBlock (block : AsBlock) :
    harness.events <+: (runAsBlock runtime regex block harness).1.events := by
  unfold runAsBlock
  split
  · exact List.prefix_rfl
  · next actorType typed =>
    exact walk_invariant (fun run : BlockRun Instance => harness.events <+: run.harness.events)
      (fun run indexed grown => grown.trans (events_runStatement block actorType run indexed))
      List.prefix_rfl _

theorem events_executeItem (sourceDir : String) (item : TopLevel) :
    harness.events <+: (executeItem runtime regex sourceDir harness item).1.events := by
  cases item with
  | asBlock block => exact events_runAsBlock block
  | actorDeclaration decl =>
    simp only [executeItem, constructActor]
    cases Registry.get decl.actorType.name with
    | none => exact List.prefix_rfl
    | some actorType =>
      cases evalConstructArgs decl sourceDir with
      | error e => exact List.prefix_rfl
      | ok args =>
        dsimp only
        cases runtime.construct harness.events actorType args with
        | error e => exact List.prefix_append _ _
        | ok inst => exact List.prefix_append _ _

/-- Running fewer items makes fewer calls. -/
theorem events_executeItems (sourceDir : String) {before items : List TopLevel}
    (front : before <+: items) :
    (executeItems runtime regex sourceDir harness before).1.events <+:
      (executeItems runtime regex sourceDir harness items).1.events :=
  walk_log_prefix _ HarnessState.events (fun _ item => events_executeItem sourceDir item) harness front

/-- The calls of the walk come before those of the teardown. -/
theorem events_execute (path sourceDir : String) (source : SourceFile) :
    (executeItems runtime regex sourceDir .start source.items).1.events <+:
      (execute runtime regex path source sourceDir).events := by
  change _ <+: (teardownAll runtime _).1
  rw [teardownAll, teardownInOrder_events]
  exact List.prefix_append _ _

/-! ## Only declarations bring actors to life -/

theorem names_runStatement (block : AsBlock) (actorType : ActorType) (run : BlockRun Instance)
    (indexed : Statement × Nat) :
    (runStatement runtime regex block actorType run indexed).1.harness.names = run.harness.names := by
  unfold runStatement
  dsimp only
  split
  · unfold runCommand
    dsimp only
    split
    · rfl
    · split
      · rfl
      · split
        · rfl
        · rw [harness_settleOutcome, HarnessState.names_log, HarnessState.names_set]
  · split <;> rfl
  · rfl
  · rfl

theorem names_runAsBlock (block : AsBlock) :
    (runAsBlock runtime regex block harness).1.names = harness.names := by
  unfold runAsBlock
  split
  · rfl
  · next actorType typed =>
    exact walk_invariant (fun run : BlockRun Instance => run.harness.names = harness.names)
      (fun run indexed same => (names_runStatement block actorType run indexed).trans same) rfl _

theorem names_constructActor (sourceDir : String) (decl : ActorDeclaration) :
    (constructActor runtime sourceDir harness decl).1.names = harness.names := by
  unfold constructActor
  split
  · rfl
  · split <;> rfl

theorem names_executeItem (sourceDir : String) (item : TopLevel) :
    let next := executeItem runtime regex sourceDir harness item
    next.1.names = harness.names ++ declaredNames [item] ∨
      next.1.names = harness.names ∧ (declaredNames [item] = [] ∨ next.2 ≠ none) := by
  cases item with
  | asBlock block => exact .inr ⟨names_runAsBlock block, .inl rfl⟩
  | actorDeclaration decl =>
    have logged := @names_constructActor _ runtime harness sourceDir decl
    dsimp only
    rw [executeItem]
    rcases constructed : constructActor runtime sourceDir harness decl with ⟨next, message | inst⟩
    · rw [constructed] at logged
      exact .inr ⟨logged, .inr (Option.some_ne_none _)⟩
    · rw [constructed] at logged
      rw [HarnessState.names_push, logged]
      exact .inl rfl

/-- The live instances are those of the first declarations. -/
theorem names_executeItems (sourceDir : String) (items : List TopLevel) :
    ∃ more, (executeItems runtime regex sourceDir harness items).1.names = harness.names ++ more ∧
      more <+: declaredNames items := by
  induction items generalizing harness with
  | nil => exact ⟨[], (List.append_nil _).symm, List.prefix_rfl⟩
  | cons item rest ih =>
    have whole : declaredNames (item :: rest) = declaredNames [item] ++ declaredNames rest :=
      declaredNames_append [item] rest
    have here := @names_executeItem _ runtime regex harness sourceDir item
    unfold executeItems
    rcases stepped : executeItem runtime regex sourceDir harness item with ⟨next, _ | failure⟩
    · rw [walk_cons_of_completed stepped]
      obtain ⟨more, names, front⟩ := @ih next
      rw [stepped] at here
      rw [executeItems] at names
      have grown : next.names = harness.names ++ declaredNames [item] := by
        rcases here with grown | ⟨same, none | failed⟩
        · exact grown
        · rw [none, List.append_nil]
          exact same
        · exact absurd rfl failed
      refine ⟨declaredNames [item] ++ more, ?_, ?_⟩
      · rw [names, grown, List.append_assoc]
      · rw [whole]
        exact (List.prefix_append_right_inj _).mpr front
    · rw [walk_cons_of_failed stepped, whole]
      rw [stepped] at here
      rcases here with grown | ⟨same, -⟩
      · exact ⟨declaredNames [item], grown, List.prefix_append _ _⟩
      · exact ⟨[], by rw [List.append_nil]; exact same, List.nil_prefix⟩

/-! ## The items of other actors -/

theorem Apart.get (apart : Apart gone harness partner) {other : String} (stays : gone other = false) :
    partner.get other = harness.get other := by
  rw [HarnessState.get, apart.actors, lookup_instancesOfOthers stays]
  rfl

/-- A call for another actor is made on both sides. -/
theorem Apart.log (apart : Apart gone harness partner) {event : Event Instance}
    (other : gone event.actor = false) : Apart gone (harness.log event) (partner.log event) where
  actors := apart.actors
  events := by
    simp only [HarnessState.log]
    rw [callsOfOthers_append, callsOfOthers_other other, apart.events]

theorem Apart.set (apart : Apart gone harness partner) {actor : String} (other : gone actor = false)
    (inst : Instance) : Apart gone (harness.set actor inst) (partner.set actor inst) where
  actors := by
    simp only [HarnessState.set]
    rw [instancesOfOthers_replace_other other, apart.actors]
  events := apart.events

theorem Apart.push (apart : Apart gone harness partner) {actor : String} (other : gone actor = false)
    (inst : Instance) : Apart gone (harness.push actor inst) (partner.push actor inst) where
  actors := by
    simp [HarnessState.push, instancesOfOthers, other, apart.actors]
  events := apart.events

theorem Apart.settleOutcome (apart : Apart gone harness partner) {left right : Scope}
    (agree : AgreeOff hidden left right) (actor : String) (cmd : Ast.Command) (expectsError : Bool)
    (outcome : RunOutcome) :
    RunsApart gone hidden (settleOutcome actor cmd expectsError harness left outcome).1
        (settleOutcome actor cmd expectsError partner right outcome).1 ∧
      (settleOutcome actor cmd expectsError harness left outcome).2 =
        (settleOutcome actor cmd expectsError partner right outcome).2 := by
  cases outcome with
  | ok fields => exact ⟨⟨apart, agree.bind "ok" (.dict fields)⟩, rfl⟩
  | error variant fields => exact ⟨⟨apart, agree.bind "error" _⟩, rfl⟩
  | notImplemented actorType command => exact ⟨⟨apart, agree⟩, rfl⟩

theorem Apart.runCommand (apart : Apart gone harness partner) {left right : Scope}
    (cleared : AgreeOff hidden ((left.unbind "ok").unbind "error") ((right.unbind "ok").unbind "error"))
    {block : AsBlock} (other : gone block.actor.name = false) (actorType : ActorType)
    {cmd : Ast.Command} (silent : (Statement.command cmd).scopeNames.any hidden = false) (idx : Nat)
    (unfelt : Unfelt runtime gone (runCommand runtime block actorType harness left cmd idx).1.harness.events) :
    RunsApart gone hidden (runCommand runtime block actorType harness left cmd idx).1
        (runCommand runtime block actorType partner right cmd idx).1 ∧
      (runCommand runtime block actorType harness left cmd idx).2 =
        (runCommand runtime block actorType partner right cmd idx).2 := by
  have arguments := fun consumed => evalCommandArgs_congr cmd consumed (cleared.agreeOn silent)
  rcases resolved : actorType.resolveCommand cmd.name.name cmd.positionalArgs with
    _ | ⟨cmdDef, consumed⟩
  · simp only [Harness.runCommand, resolved]
    exact ⟨⟨apart, cleared⟩, trivial⟩
  rcases evaluated : evalCommandArgs cmd consumed ((left.unbind "ok").unbind "error") with e | args
  · simp only [Harness.runCommand, resolved, ← arguments, evaluated]
    exact ⟨⟨apart, cleared⟩, trivial⟩
  rcases held : harness.get block.actor.name with _ | inst
  · simp only [Harness.runCommand, resolved, ← arguments, evaluated, apart.get other, held]
    exact ⟨⟨apart, cleared⟩, trivial⟩
  -- The one call of the step is answered alike on both sides.
  rcases answered : runtime.execute harness.events inst cmdDef.name args with ⟨next, outcome⟩
  rw [runCommand_answered resolved evaluated held answered, harness_settleOutcome] at unfelt
  have alike : runtime.execute harness.events inst cmdDef.name args =
      runtime.execute (callsOfOthers gone harness.events) inst cmdDef.name args :=
    Unfelt.last unfelt other
  rw [runCommand_answered resolved evaluated held answered,
    runCommand_answered resolved (by rw [← arguments, evaluated]) (by rw [apart.get other, held])
      (by rw [apart.events, ← alike, answered])]
  exact ((apart.set other next).log (by exact other)).settleOutcome cleared _ _ _ _

theorem RunsApart.runStatement (within : ∀ name, gone name = true → hidden name = true)
    {run partner : BlockRun Instance} (apart : RunsApart gone hidden run partner)
    {block : AsBlock} (other : gone block.actor.name = false) (actorType : ActorType)
    (indexed : Statement × Nat) (silent : indexed.1.scopeNames.any hidden = false)
    (unfelt : Unfelt runtime gone
      (runStatement runtime regex block actorType run indexed).1.harness.events) :
    RunsApart gone hidden (runStatement runtime regex block actorType run indexed).1
        (runStatement runtime regex block actorType partner indexed).1 ∧
      (runStatement runtime regex block actorType run indexed).2 =
        (runStatement runtime regex block actorType partner indexed).2 := by
  obtain ⟨stmt, idx⟩ := indexed
  have refreshed := apart.scope.bindSelf within runtime run.harness.actors other
  rw [← apart.harness.actors] at refreshed
  have agree := refreshed.agreeOn silent
  cases stmt with
  | command cmd =>
    have cleared := (refreshed.unbind "ok").unbind "error"
    exact apart.harness.runCommand cleared other actorType silent idx unfelt
  | assignment a => exact ⟨⟨apart.harness, refreshed⟩, rfl⟩
  | assert a =>
    refine ⟨⟨apart.harness, refreshed⟩, ?_⟩
    simp only [Harness.runStatement, runAssert, evalAssert_agree regex a agree]
  | «let» letStmt =>
    obtain ⟨bound, value, span⟩ := letStmt
    cases value with
    | parse source format => exact ⟨⟨apart.harness, refreshed⟩, rfl⟩
    | expr expr =>
      simp only [Harness.runStatement, runLet, ← eval_congr expr agree]
      cases eval (Harness.bindSelf runtime run.scope run.harness.actors block.actor.name) expr with
      | error e => exact ⟨⟨apart.harness, refreshed⟩, rfl⟩
      | ok value => exact ⟨⟨apart.harness, refreshed.bind bound.name value⟩, rfl⟩

theorem RunsApart.runStatements (within : ∀ name, gone name = true → hidden name = true)
    {run partner : BlockRun Instance} (apart : RunsApart gone hidden run partner)
    {block : AsBlock} (other : gone block.actor.name = false) (actorType : ActorType)
    (indexed : List (Statement × Nat))
    (silent : ∀ entry ∈ indexed, entry.1.scopeNames.any hidden = false)
    (unfelt : Unfelt runtime gone
      (runStatements runtime regex block actorType run indexed).1.harness.events) :
    RunsApart gone hidden (runStatements runtime regex block actorType run indexed).1
        (runStatements runtime regex block actorType partner indexed).1 ∧
      (runStatements runtime regex block actorType run indexed).2 =
        (runStatements runtime regex block actorType partner indexed).2 := by
  have same : List.Forall₂ Eq indexed indexed := List.forall₂_refl _
  exact walk_related (Harness.runStatement runtime regex block actorType)
    (Harness.runStatement runtime regex block actorType) (RunsApart gone hidden)
    (fun run => Unfelt runtime gone run.harness.events) same
    (fun run entry unfelt => unfelt.of_shorter (events_runStatement block actorType run entry))
    (fun run partner entry form member same unfelt apart => by
      subst same
      exact apart.runStatement within other actorType entry (silent entry member) unfelt)
    unfelt apart

theorem Apart.runAsBlock (apart : Apart gone harness partner) {block : AsBlock}
    (other : gone block.actor.name = false) (silent : (TopLevel.asBlock block).scopeNames.any gone = false)
    (unfelt : Unfelt runtime gone (runAsBlock runtime regex block harness).1.events) :
    Apart gone (runAsBlock runtime regex block harness).1
        (runAsBlock runtime regex block partner).1 ∧
      (runAsBlock runtime regex block harness).2 = (runAsBlock runtime regex block partner).2 := by
  have typed : blockType runtime block partner = blockType runtime block harness := by
    rw [blockType, apart.get other]
    rfl
  unfold Harness.runAsBlock at unfelt ⊢
  rw [typed]
  cases found : blockType runtime block harness with
  | error report => exact ⟨apart, rfl⟩
  | ok actorType =>
    rw [found] at unfelt
    have start : RunsApart gone gone ⟨harness, .new⟩ ⟨partner, .new⟩ := ⟨apart, fun _ _ => rfl⟩
    have silent : ∀ entry ∈ block.body.zipIdx, entry.1.scopeNames.any gone = false := by
      intro entry member
      rw [TopLevel.scopeNames, List.any_flatMap, List.any_eq_false] at silent
      simpa using silent entry.1 (List.fst_mem_of_mem_zipIdx member)
    obtain ⟨after, alike⟩ := start.runStatements (fun _ own => own) other actorType _ silent unfelt
    exact ⟨after.harness, alike⟩

theorem Apart.constructActor (apart : Apart gone harness partner) {sourceDir : String}
    {decl : ActorDeclaration} (other : gone decl.name.name = false)
    (unfelt : Unfelt runtime gone (constructActor runtime sourceDir harness decl).1.events) :
    Apart gone (constructActor runtime sourceDir harness decl).1
        (constructActor runtime sourceDir partner decl).1 ∧
      (constructActor runtime sourceDir harness decl).2 =
        (constructActor runtime sourceDir partner decl).2 := by
  unfold Harness.constructActor at unfelt ⊢
  cases registered : Registry.get decl.actorType.name with
  | none => exact ⟨apart, rfl⟩
  | some actorType =>
    rw [registered] at unfelt
    cases evaluated : evalConstructArgs decl sourceDir with
    | error e => exact ⟨apart, rfl⟩
    | ok args =>
      rw [evaluated] at unfelt
      have alike : runtime.construct harness.events actorType args =
          runtime.construct (callsOfOthers gone harness.events) actorType args :=
        Unfelt.last unfelt (by exact other)
      refine ⟨apart.log (by exact other), ?_⟩
      dsimp only
      rw [apart.events, alike]

theorem Apart.executeItem (apart : Apart gone harness partner) {sourceDir : String}
    {item : TopLevel} (other : gone item.actorName = false) (silent : item.scopeNames.any gone = false)
    (unfelt : Unfelt runtime gone (executeItem runtime regex sourceDir harness item).1.events) :
    Apart gone (executeItem runtime regex sourceDir harness item).1
        (executeItem runtime regex sourceDir partner item).1 ∧
      (executeItem runtime regex sourceDir harness item).2 =
        (executeItem runtime regex sourceDir partner item).2 := by
  cases item with
  | asBlock block => exact apart.runAsBlock other silent unfelt
  | actorDeclaration decl =>
    have grown : (Harness.executeItem runtime regex sourceDir harness (.actorDeclaration decl)).1.events =
        (Harness.constructActor runtime sourceDir harness decl).1.events := by
      rw [Harness.executeItem]
      rcases Harness.constructActor runtime sourceDir harness decl with ⟨next, e | inst⟩ <;> rfl
    rw [grown] at unfelt
    obtain ⟨after, alike⟩ := apart.constructActor other unfelt
    rw [Harness.executeItem, Harness.executeItem]
    rcases built : Harness.constructActor runtime sourceDir harness decl with ⟨next, result⟩
    rcases beside : Harness.constructActor runtime sourceDir partner decl with ⟨nextPartner, partners⟩
    rw [built, beside] at after alike
    obtain rfl : result = partners := alike
    cases result with
    | error message => exact ⟨after, rfl⟩
    | ok inst => exact ⟨after.push other inst, rfl⟩

/-! ## The items of the actor itself -/

/-- A call for the actor itself is not seen beside. -/
theorem Apart.own (apart : Apart gone harness partner) {event : Event Instance}
    {name : String} (own : gone name = true)
    (called : event.actor = name) (inst : Instance) :
    Apart gone ((harness.set name inst).log event) partner where
  actors := by
    simp only [HarnessState.log, HarnessState.set]
    rw [instancesOfOthers_replace_own own, apart.actors]
  events := by
    simp only [HarnessState.log, HarnessState.set]
    rw [callsOfOthers_append, callsOfOthers_own (called ▸ own), List.append_nil, apart.events]

theorem Apart.ownStatement {block : AsBlock} (own : gone block.actor.name = true) (actorType : ActorType)
    {run : BlockRun Instance} (apart : Apart gone run.harness partner) (indexed : Statement × Nat) :
    Apart gone (runStatement runtime regex block actorType run indexed).1.harness partner := by
  unfold Harness.runStatement
  dsimp only
  split
  · unfold Harness.runCommand
    dsimp only
    split
    · exact apart
    · split
      · exact apart
      · split
        · exact apart
        · rw [harness_settleOutcome]
          exact apart.own own rfl _
  · split <;> exact apart
  · exact apart
  · exact apart

theorem Apart.ownItem (apart : Apart gone harness partner) {sourceDir : String} {item : TopLevel}
    (own : gone item.actorName = true) :
    Apart gone (Harness.executeItem runtime regex sourceDir harness item).1 partner := by
  cases item with
  | asBlock block =>
    simp only [Harness.executeItem, Harness.runAsBlock]
    cases blockType runtime block harness with
    | error report => exact apart
    | ok actorType =>
      exact walk_invariant (fun run : BlockRun Instance => Apart gone run.harness partner)
        (fun run indexed apart => apart.ownStatement own actorType indexed) apart _
  | actorDeclaration decl =>
    have own : gone decl.name.name = true := own
    simp only [Harness.executeItem, Harness.constructActor]
    cases Registry.get decl.actorType.name with
    | none => exact apart
    | some actorType =>
      cases evalConstructArgs decl sourceDir with
      | error e => exact apart
      | ok args =>
        dsimp only
        have logged : partner.events =
            callsOfOthers gone (harness.events ++ [.constructed decl.name.name actorType args]) := by
          rw [callsOfOthers_append, callsOfOthers_own (by exact own), List.append_nil, apart.events]
        cases runtime.construct harness.events actorType args with
        | error e => exact ⟨apart.actors, logged⟩
        | ok inst =>
          refine ⟨?_, logged⟩
          simp [Except.mapError, HarnessState.push, HarnessState.log, instancesOfOthers, own,
            apart.actors]

/-! ## Files -/

/-- The files are torn down alike, apart from the actor's own instances. -/
theorem Apart.teardown (apart : Apart gone harness partner) :
    (teardownAll runtime partner).1 = callsOfOthers gone (teardownAll runtime harness).1 := by
  let down : String × Instance → Event Instance := fun entry => .tornDown entry.1
  have torn : ∀ entries : List (String × Instance),
      callsOfOthers gone (entries.map down) = (instancesOfOthers gone entries).map down := by
    intro entries
    rw [callsOfOthers, instancesOfOthers, List.filter_map]
    rfl
  rw [teardownAll, teardownAll, teardownInOrder_events, teardownInOrder_events,
    callsOfOthers_append, torn, apart.events, apart.actors]
  rw [instancesOfOthers, instancesOfOthers, List.filter_reverse]

/-- An item of another actor mentions no name that no such item mentions. -/
theorem silent_of_mentionsOutside {source : SourceFile}
    (unmentioned : source.mentionsOutside gone = false) {item : TopLevel} (inside : item ∈ source.items)
    (other : gone item.actorName = false) : item.scopeNames.any gone = false := by
  rw [SourceFile.mentionsOutside, List.any_eq_false] at unmentioned
  simpa [other] using unmentioned item inside

/-- The two walks over a file, with and without some actors. -/
theorem walk_without {sourceDir : String} {source : SourceFile}
    (unmentioned : source.mentionsOutside gone = false)
    (unfelt : Unfelt runtime gone (executeItems runtime regex sourceDir .start source.items).1.events) :
    let step := executeItem runtime regex sourceDir
    (Apart gone (walk step .start source.items).1 (walk step .start (source.withoutThose gone).items).1 ∧
        (walk step .start source.items).2 = (walk step .start (source.withoutThose gone).items).2) ∨
      ∃ item, failedAt step .start source.items = some item ∧ gone item.actorName = true ∧
        ∃ before, before <+: (source.withoutThose gone).items ∧ (walk step .start before).2 = none ∧
          Apart gone (walk step .start source.items).1 (walk step .start before).1 := by
  intro step
  have sides := walk_thinned step step (Apart gone) (fun state => Unfelt runtime gone state.events)
    (.filter (fun item => !gone item.actorName) source.items)
    (fun harness item unfelt => unfelt.of_shorter (events_executeItem sourceDir item))
    (fun state partner item form inside ⟨same, keeps⟩ unfelt apart => by
      subst same
      have other : gone item.actorName = false := by simpa using keeps
      exact apart.executeItem other (silent_of_mentionsOutside unmentioned inside other) unfelt)
    (fun state partner item inside out apart => apart.ownItem (by simpa using out))
    unfelt (⟨rfl, rfl⟩ : Apart gone HarnessState.start HarnessState.start)
  rcases sides with together | ⟨item, failed, out, later⟩
  · exact .inl together
  · exact .inr ⟨item, failed, by simpa using out, later⟩

/-- A file runs the same without actors that no item of another actor mentions,
if no call for another actor is answered differently for the calls for these: the
same verdict and reports, and of the calls those for the others. If the run stops
at an item of one of these actors, the others are run further without them. -/
theorem execute_without (runtime : ActorRuntime (List (Event Instance)) Instance) (regex : Regex)
    (path sourceDir : String) (source : SourceFile) (gone : String → Bool)
    (unmentioned : source.mentionsOutside gone = false)
    (unfelt : Unfelt runtime gone (execute runtime regex path source sourceDir).events) :
    let run := execute runtime regex path source sourceDir
    let alone := execute runtime regex path (source.withoutThose gone) sourceDir
    callsOfOthers gone (executeItems runtime regex sourceDir .start source.items).1.events <+:
        alone.events ∧
      (run.report.passed = true → alone.report.passed = true) ∧
      ((∀ item, failedAt (executeItem runtime regex sourceDir) .start source.items = some item →
          gone item.actorName = false) →
        alone.report.passed = run.report.passed ∧ alone.report.statements = run.report.statements ∧
          alone.events = callsOfOthers gone run.events) := by
  intro run alone
  let step := executeItem runtime regex sourceDir
  have sides := walk_without unmentioned
    (unfelt.of_shorter (events_execute path sourceDir source))
  rcases sides with ⟨apart, alike⟩ | ⟨bad, failed, own, before, within, -, apart⟩
  · -- Both walks fail alike, if at all.
    have statements : alone.report.statements = run.report.statements :=
      congrArg Option.toList alike.symm
    have passed : alone.report.passed = run.report.passed :=
      congrArg (fun failure : Option StatementReport => failure.toList.isEmpty) alike.symm
    refine ⟨?_, fun holds => passed.trans holds, fun _ => ⟨passed, statements, apart.teardown⟩⟩
    change callsOfOthers gone (walk step .start source.items).1.events <+: _
    rw [← apart.events]
    exact events_execute path sourceDir (source.withoutThose gone)
  · -- The run stops at an item of the actor, and the other one goes on.
    refine ⟨?_, fun holds => ?_, fun outside => absurd own (by simp [outside bad failed])⟩
    · have further : (walk step .start before).1.events <+: _ := events_executeItems sourceDir within
      change callsOfOthers gone (walk step .start source.items).1.events <+: _
      rw [← apart.events]
      exact further.trans (events_execute path sourceDir (source.withoutThose gone))
    · -- A passing run fails at no item.
      have complete : (walk step .start source.items).2 = none := by
        cases failure : (walk step .start source.items).2 with
        | none => rfl
        | some report =>
          have verdict : run.report.passed =
              (walk step .start source.items).2.toList.isEmpty := rfl
          rw [failure, holds] at verdict
          exact nomatch verdict
      rw [failedAt_eq_none.mpr complete] at failed
      exact nomatch failed

end Run

/-- `check` at some span. -/
def checkAt (start : Nat) : Statement :=
  .command {
    annotation := none, name := ⟨"check", ⟨start, start + 5⟩⟩, positionalArgs := [], keywordArgs := []
    span := ⟨start, start + 5⟩ }

/-- Two actors with a block each. -/
def twoActors : SourceFile where
  items := [
    .actorDeclaration ⟨⟨"a", ⟨6, 7⟩⟩, ⟨"args_actor", ⟨10, 20⟩⟩, [], [], ⟨0, 20⟩⟩,
    .actorDeclaration ⟨⟨"b", ⟨27, 28⟩⟩, ⟨"args_actor", ⟨31, 41⟩⟩, [], [], ⟨21, 41⟩⟩,
    .asBlock ⟨⟨"b", ⟨45, 46⟩⟩,
      [checkAt 50, .let ⟨⟨"x", ⟨62, 63⟩⟩, .expr (.number 1), ⟨58, 67⟩⟩], ⟨42, 68⟩⟩,
    .asBlock ⟨⟨"a", ⟨71, 72⟩⟩,
      [checkAt 76, .let ⟨⟨"y", ⟨88, 89⟩⟩, .expr (.number 2), ⟨84, 93⟩⟩], ⟨68, 94⟩⟩]

theorem execute_without_b :
    let alone := execute (liveRuntime fun _ => refusingWorld) (fun _ => .error "") "t.ill"
      (twoActors.withoutThose (· == "b")) "."
    alone.report.passed = true := by
  have answered : Unfelt (liveRuntime fun _ => refusingWorld) (· == "b")
      (execute (liveRuntime fun _ => refusingWorld) (fun _ => .error "") "t.ill" twoActors
        ".").events := by
    rintro before (_ | _ | _) after whole other
    · exact rfl
    · exact rfl
    · exact trivial
  exact (execute_without (liveRuntime fun _ => refusingWorld) (fun _ => .error "") "t.ill" "." twoActors
    (· == "b") (by decide) answered).2.1 (by decide)

end Ill.Harness
