import Ill.Base.Interleaving
import Ill.Harness.Declared
import Ill.Harness.Isolation

/-!
# The order of a file's items at run time

A file whose items mention no actor but their own is the files of its actors put
together. If no call is answered differently for the calls for other actors, it
passes exactly if the file of every actor passes, so how the items of different
actors are interleaved decides neither the verdict nor what is called on an actor.
-/

namespace Ill.Ast

def SourceFile.actorNames (source : SourceFile) : List String :=
  source.items.map TopLevel.actorName

/-- The actors of a file other than one. -/
def SourceFile.others (source : SourceFile) (name : String) : String → Bool :=
  fun other => other != name && source.actorNames.contains other

/-- Whether the items of a file mention no actor but their own. -/
def SourceFile.selfContained (source : SourceFile) : Bool :=
  source.items.all fun item => !item.scopeNames.any (source.others item.actorName)

variable {source : SourceFile} {name : String}

theorem others_eq_false_iff {item : TopLevel} (inside : item ∈ source.items) :
    source.others name item.actorName = false ↔ item.actorName = name := by
  have listed : source.actorNames.contains item.actorName = true :=
    List.contains_iff_mem.mpr (List.mem_map_of_mem inside)
  rw [SourceFile.others, listed, Bool.and_true, bne_eq_false_iff_eq]

/-- Without the other actors a file has the items of the one. -/
theorem withoutThose_others :
    (source.withoutThose (source.others name)).items =
      source.items.filter fun item => item.actorName == name := by
  refine List.filter_congr fun item inside => ?_
  rw [Bool.eq_iff_iff, Bool.not_eq_true', others_eq_false_iff inside, beq_iff_eq]

theorem mentionsOutside_others (contained : source.selfContained = true) :
    source.mentionsOutside (source.others name) = false := by
  rw [SourceFile.mentionsOutside, List.any_eq_false]
  intro item inside
  rw [SourceFile.selfContained, List.all_eq_true] at contained
  by_cases own : item.actorName = name
  · have silent := contained item inside
    rw [own] at silent
    simpa using fun _ => silent
  · have other := mt (others_eq_false_iff inside).mp own
    simp [Bool.not_eq_false _ ▸ other]

/-- Interleavings of the same items have the same actors. -/
theorem others_interleaved {other : SourceFile}
    (same : Base.Interleaved TopLevel.actorName source.items other.items) (name : String) :
    other.others name = source.others name := by
  funext candidate
  have names : source.actorNames.Perm other.actorNames := same.perm.map _
  have listed : source.actorNames.contains candidate = other.actorNames.contains candidate := by
    rw [Bool.eq_iff_iff, List.contains_iff_mem, List.contains_iff_mem, names.mem_iff]
  rw [SourceFile.others, SourceFile.others, listed]

theorem selfContained_interleaved {other : SourceFile}
    (same : Base.Interleaved TopLevel.actorName source.items other.items)
    (contained : source.selfContained = true) : other.selfContained = true := by
  rw [SourceFile.selfContained, List.all_eq_true] at contained ⊢
  intro item inside
  rw [others_interleaved same]
  exact contained item (same.perm.mem_iff.mpr inside)

end Ill.Ast

namespace Ill.Harness

open Ast Actor Base

section Run

variable {Instance : Type} {runtime : ActorRuntime (List (Event Instance)) Instance} {regex : Regex}
  {sourceDir : String} {source : SourceFile}

variable (runtime) in
/-- No call is answered differently for the calls for the other actors of the file. -/
def Separate (source : SourceFile) (events : List (Event Instance)) : Prop :=
  ∀ name, Unfelt runtime (source.others name) events

/-- The calls for an actor among those for it and for no other actor of the file. -/
theorem callsOfOthers_others (name : String) (events : List (Event Instance)) :
    (callsOfOthers (source.others name) events).filter (fun event => event.actor == name) =
      events.filter fun event => event.actor == name := by
  rw [callsOfOthers, List.filter_filter]
  refine List.filter_congr fun event _ => ?_
  by_cases own : event.actor = name
  · simp [SourceFile.others, own]
  · simp [own]

/-- A walk over a file whose actors are apart completes exactly if the walks over
the items of each actor complete. -/
theorem completes_iff_each (contained : source.selfContained = true)
    (separate : Separate runtime source
      (executeItems runtime regex sourceDir .start source.items).1.events) :
    (executeItems runtime regex sourceDir .start source.items).2 = none ↔
      ∀ name, (executeItems runtime regex sourceDir .start
        (source.items.filter fun item => item.actorName == name)).2 = none := by
  constructor
  · intro completes name
    rcases walk_without (mentionsOutside_others contained) (separate name) with
      ⟨_, alike⟩ | ⟨item, failed, _⟩
    · rw [withoutThose_others] at alike
      exact alike.symm.trans completes
    · rw [failedAt_eq_none.mpr completes] at failed
      exact absurd failed (by simp)
  · intro each
    by_contra fails
    obtain ⟨bad, failed⟩ := Option.ne_none_iff_exists'.mp (mt failedAt_eq_none.mp fails)
    rcases walk_without (mentionsOutside_others contained) (separate bad.actorName) with
      ⟨_, alike⟩ | ⟨item, same, out, _⟩
    · rw [withoutThose_others] at alike
      exact fails (alike.trans (each bad.actorName))
    · -- The walk fails at an item of the one actor that is left.
      obtain rfl : bad = item := Option.some.inj (failed.symm.trans same)
      obtain ⟨_, _, _, _, _, split, _⟩ := failedAt_eq_some failed
      have inside : bad ∈ source.items := by
        rw [split]
        exact List.mem_append_right _ List.mem_cons_self
      rw [(others_eq_false_iff inside).mpr rfl] at out
      exact absurd out Bool.false_ne_true

theorem passed_iff_completes (path : String) :
    (execute runtime regex path source sourceDir).report.passed = true ↔
      (executeItems runtime regex sourceDir .start source.items).2 = none := by
  change (executeItems runtime regex sourceDir .start source.items).2.toList.isEmpty = true ↔ _
  rw [List.isEmpty_iff, Option.toList_eq_nil_iff]

/-- In a run that completes, what is called on an actor is what is called on it in
the run of its own items. -/
theorem calls_alone (contained : source.selfContained = true) (path : String)
    (separate : Separate runtime source (execute runtime regex path source sourceDir).events)
    (completes : (executeItems runtime regex sourceDir .start source.items).2 = none) (name : String) :
    (execute runtime regex path source sourceDir).events.filter (fun event => event.actor == name) =
      (execute runtime regex path ⟨source.items.filter fun item => item.actorName == name⟩
        sourceDir).events.filter fun event => event.actor == name := by
  rcases walk_without (mentionsOutside_others contained)
    ((separate name).of_shorter (events_execute path sourceDir source)) with
    ⟨apart, _⟩ | ⟨item, failed, _⟩
  · rw [withoutThose_others] at apart
    have torn := @Apart.teardown _ runtime _ _ _ apart
    rw [← callsOfOthers_others]
    exact congrArg _ torn.symm
  · rw [failedAt_eq_none.mpr completes] at failed
    exact absurd failed (by simp)

/-- How the items of different actors are interleaved changes nothing: if two
files have the same items of every actor in the same order, no item mentions
another actor, and no call is answered differently for the calls for other
actors, then one file passes exactly if the other does, and if they pass, the
same calls are made on every actor in the same order. -/
theorem run_interleaved (runtime : ActorRuntime (List (Event Instance)) Instance) (regex : Regex)
    (path sourceDir : String) (source other : SourceFile)
    (same : Interleaved TopLevel.actorName source.items other.items)
    (contained : source.selfContained = true)
    (separate : Separate runtime source (execute runtime regex path source sourceDir).events)
    (separateOther : Separate runtime other (execute runtime regex path other sourceDir).events) :
    let run := execute runtime regex path source sourceDir
    let reordered := execute runtime regex path other sourceDir
    run.report.passed = reordered.report.passed ∧
      (run.report.passed = true → Interleaved Event.actor run.events reordered.events) := by
  intro run reordered
  have containedOther := selfContained_interleaved same contained
  have each := completes_iff_each contained
    fun name => (separate name).of_shorter (events_execute path sourceDir source)
  have eachOther := completes_iff_each containedOther
    fun name => (separateOther name).of_shorter (events_execute path sourceDir other)
  simp only [← same _] at eachOther
  have verdict : run.report.passed = true ↔ _ := passed_iff_completes path
  have verdictOther : reordered.report.passed = true ↔ _ := passed_iff_completes path
  refine ⟨?_, fun passed name => ?_⟩
  · rw [Bool.eq_iff_iff, verdict, verdictOther, each, eachOther]
  · have completes := verdict.mp passed
    rw [calls_alone contained path separate completes, same name]
    exact (calls_alone containedOther path separateOther
      (eachOther.mpr (each.mp completes)) name).symm

/-- External systems that answer every call alike keep all actors apart. -/
theorem separate_of_constant (world : External) (source : SourceFile)
    (events : List (Event LiveActor)) : Separate (liveRuntime fun _ => world) source events := by
  rintro name before (_ | _ | _) after whole other
  · exact rfl
  · exact rfl
  · exact trivial

end Run

/-- The items of the two actors, interleaved in another way. -/
def twoActorsTurned : SourceFile where
  items := [twoActors.items[1], twoActors.items[0], twoActors.items[3], twoActors.items[2]]

theorem run_interleaved_turned :
    (execute (liveRuntime fun _ => refusingWorld) noRegex "t.ill" twoActorsTurned ".").report.passed =
      true := by
  have same : Interleaved TopLevel.actorName twoActors.items twoActorsTurned.items := by
    intro name
    by_cases a : name = "a"
    · subst a
      rfl
    · by_cases b : name = "b"
      · subst b
        rfl
      · simp [twoActors, twoActorsTurned, TopLevel.actorName, Ne.symm a, Ne.symm b]
  have turned := run_interleaved (liveRuntime fun _ => refusingWorld) noRegex "t.ill" "." twoActors
    twoActorsTurned same (by decide) (separate_of_constant _ _ _) (separate_of_constant _ _ _)
  rw [← turned.1]
  decide

end Ill.Harness
