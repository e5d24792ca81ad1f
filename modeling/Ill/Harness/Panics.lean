import Ill.Harness.Harness

/-!
# Runs that a panic ends

A command that panics unwinds through the harness: no call is made after it,
not even a teardown. `execute` goes on with a result that such a command never
returns; `executeLive` ends the run where the command was sent.
-/

namespace Ill.Harness

open Ast Actor

/-- A command that panicked, and the calls that had returned by then. -/
structure Panicked where
  events : List (Event LiveActor)
  actor : String
  inst : LiveActor
  command : String
  args : CommandArgs

section Run

variable (world : List (Event LiveActor) → External)

/-- Whether a call panics, given the calls before it. -/
def Event.panicked? (past : List (Event LiveActor)) : Event LiveActor → Option Panicked
  | .executed actor inst command args _ _ =>
    if inst.panics (world past) command args then some ⟨past, actor, inst, command, args⟩ else none
  | _ => none

/-- The first of some calls that panics, given the calls before them. -/
def firstPanic (past : List (Event LiveActor)) : List (Event LiveActor) → Option Panicked
  | [] => none
  | event :: later =>
    match event.panicked? world past with
    | some panicked => some panicked
    | none => firstPanic (past ++ [event]) later

/-- Run a validated file, as far as the first command that panics. -/
def executeLive (regex : Regex) (path : String) (source : SourceFile) (sourceDir : String) :
    Except Panicked (TestRun LiveActor) :=
  let run := execute (liveRuntime world) regex path source sourceDir
  match firstPanic world [] run.events with
  | some panicked => .error panicked
  | none => .ok run

variable {world}

theorem firstPanic_eq_some {past events : List (Event LiveActor)} {panicked : Panicked}
    (found : firstPanic world past events = some panicked) :
    ∃ before event later, events = before ++ event :: later ∧
      event.panicked? world (past ++ before) = some panicked := by
  induction events generalizing past with
  | nil => exact nomatch found
  | cons event later ih =>
    rw [firstPanic] at found
    cases here : event.panicked? world past with
    | some first =>
      rw [here] at found
      obtain rfl := Option.some.inj found
      exact ⟨[], event, later, rfl, by rw [List.append_nil, here]⟩
    | none =>
      rw [here] at found
      obtain ⟨before, panics, after, rfl, there⟩ := ih found
      refine ⟨event :: before, panics, after, rfl, ?_⟩
      rwa [List.append_assoc] at there

/-- A call that panics is a command. -/
theorem Event.panicked?_eq_some {past : List (Event LiveActor)} {event : Event LiveActor}
    {panicked : Panicked} (panics : event.panicked? world past = some panicked) :
    panicked.events = past ∧
      ∃ after outcome, event = .executed panicked.actor panicked.inst panicked.command panicked.args
        after outcome := by
  cases event with
  | executed actor inst command args after outcome =>
    rw [panicked?] at panics
    split at panics
    · obtain rfl := Option.some.inj panics
      exact ⟨rfl, after, outcome, rfl⟩
    · exact nomatch panics
  | _ => exact nomatch panics

variable {regex : Regex} {path sourceDir : String} {source : SourceFile}

/-- A run without a panic is the whole run. -/
theorem executeLive_eq_ok {run : TestRun LiveActor}
    (ran : executeLive world regex path source sourceDir = .ok run) :
    execute (liveRuntime world) regex path source sourceDir = run := by
  simp only [executeLive] at ran
  split at ran
  · exact nomatch ran
  · exact Except.ok.inj ran

/-- A panic comes after calls that the whole run starts with. -/
theorem executeLive_eq_error {panicked : Panicked}
    (ended : executeLive world regex path source sourceDir = .error panicked) :
    ∃ after outcome later,
      (execute (liveRuntime world) regex path source sourceDir).events = panicked.events ++
        .executed panicked.actor panicked.inst panicked.command panicked.args after outcome :: later := by
  simp only [executeLive] at ended
  split at ended
  · next found =>
    obtain rfl := Except.error.inj ended
    obtain ⟨before, event, later, split, panics⟩ := firstPanic_eq_some found
    obtain ⟨past, after, outcome, rfl⟩ := Event.panicked?_eq_some panics
    exact ⟨after, outcome, later, by rw [past, List.nil_append, split]⟩
  · exact nomatch ended

end Run

end Ill.Harness
