import Ill.Base.Interleaving
import Ill.Validate.Independent
import Ill.Validate.Reported

/-!
# The order of a file's items

The validator sees a file as one list of declarations and one list of blocks for
each actor. How these lists are interleaved, and whether declarations come
first, changes nothing but the order of the diagnostics of different actors.
-/

namespace Ill.Ast

def TopLevel.isDeclaration : TopLevel → Bool
  | .actorDeclaration _ => true
  | .asBlock _ => false

/-- The same declarations and the same blocks of every actor, each in the same
order. -/
structure SourceFile.Reordered (source other : SourceFile) : Prop where
  declarations : Base.Interleaved TopLevel.actorName (source.items.filter TopLevel.isDeclaration)
    (other.items.filter TopLevel.isDeclaration)
  blocks : Base.Interleaved TopLevel.actorName
    (source.items.filter fun item => !item.isDeclaration)
    (other.items.filter fun item => !item.isDeclaration)

end Ill.Ast

namespace Ill.Validate

open Ast Base

/-- The first pass does nothing at a block. -/
theorem registerItem_block (actors : Actors) (item : TopLevel) (block : item.isDeclaration = false) :
    registerItem actors item = (actors, []) := by
  cases item with
  | actorDeclaration decl => exact nomatch block
  | asBlock block => rfl

/-- The second pass does nothing at a declaration. -/
theorem checkItem_declaration (actors : Actors) (item : TopLevel)
    (declaration : (!item.isDeclaration) = false) : checkItem actors item = (actors, []) := by
  cases item with
  | actorDeclaration decl => rfl
  | asBlock block => exact nomatch declaration

/-- What is raised at the items of one actor, in order. -/
def raisedAt (source : SourceFile) (name : String) : List (TopLevel × Diagnostic) :=
  (raised source).filter fun report => report.1.actorName == name

/-- Both passes make the same tables of reordered files, and report the same of
every actor in the same order. -/
theorem raisedAt_reordered {source other : SourceFile} (reordered : source.Reordered other)
    (name : String) : raisedAt source name = raisedAt other name := by
  have first := @emitLabelled_filter _ _ _ registerItem TopLevel.isDeclaration registerItem_block
    (fun _ => none)
  obtain ⟨tables, registered⟩ := registerItem_local.emit_interleaved reordered.declarations
    (Eq.refl fun _ => none)
  rw [(first source.items).1, (first other.items).1] at tables
  rw [(first source.items).2, (first other.items).2] at registered
  have second := @emitLabelled_filter _ _ _ checkItem (fun item => !item.isDeclaration)
    checkItem_declaration
  obtain ⟨-, checked⟩ := checkItem_local.emit_interleaved reordered.blocks tables
  rw [(second _ source.items).2, (second _ other.items).2] at checked
  rw [raisedAt, raisedAt, raised, raised, List.filter_append, List.filter_append, registered name]
  exact congrArg _ (checked name)

/-- Reordering the items of different actors, or moving declarations past blocks,
reports the same of every actor in the same order. So the same diagnostics are
reported, as often, and the file is accepted or rejected as before. -/
theorem validate_reordered (source other : SourceFile) (reordered : source.Reordered other) :
    (∀ name, raisedAt source name = raisedAt other name) ∧
      (validate source).Perm (validate other) ∧ accepts source = accepts other := by
  have each := raisedAt_reordered reordered
  have interleaved : Interleaved (fun report : TopLevel × Diagnostic => report.1.actorName)
      (raised source) (raised other) := each
  have reports := interleaved.perm.map Prod.snd
  rw [map_raised, map_raised] at reports
  refine ⟨each, reports, ?_⟩
  rw [Bool.eq_iff_iff, accepts, accepts, List.all_eq_true, List.all_eq_true]
  exact ⟨fun silent d member => silent d (reports.mem_iff.mpr member),
    fun silent d member => silent d (reports.mem_iff.mp member)⟩

/-- A block that calls a command its actor does not have, by two actors. -/
def declaredTogether : SourceFile where
  items := [
    .actorDeclaration ⟨⟨"a", ⟨6, 7⟩⟩, ⟨"exec", ⟨10, 14⟩⟩, [], [], ⟨0, 14⟩⟩,
    .actorDeclaration ⟨⟨"b", ⟨21, 22⟩⟩, ⟨"args_actor", ⟨25, 35⟩⟩, [], [], ⟨15, 35⟩⟩,
    .asBlock ⟨⟨"a", ⟨39, 40⟩⟩, [.command ⟨none, ⟨"halt", ⟨43, 47⟩⟩, [], [], ⟨43, 47⟩⟩], ⟨36, 47⟩⟩,
    .asBlock ⟨⟨"b", ⟨51, 52⟩⟩, [.command ⟨none, ⟨"halt", ⟨55, 59⟩⟩, [], [], ⟨55, 59⟩⟩], ⟨48, 59⟩⟩]

/-- The same items with the last actor first. -/
def declaredApart : SourceFile where
  items := [declaredTogether.items[1], declaredTogether.items[3], declaredTogether.items[2],
    declaredTogether.items[0]]

theorem validate_reordered_apart :
    (validate declaredTogether).Perm (validate declaredApart) ∧ accepts declaredApart = false := by
  have same := validate_reordered declaredTogether declaredApart {
    declarations := fun name => by
      by_cases a : name = "a"
      · subst a
        rfl
      · by_cases b : name = "b"
        · subst b
          rfl
        · simp [declaredTogether, declaredApart, TopLevel.isDeclaration, TopLevel.actorName,
            Ne.symm a, Ne.symm b]
    blocks := fun name => by
      by_cases a : name = "a"
      · subst a
        rfl
      · by_cases b : name = "b"
        · subst b
          rfl
        · simp [declaredTogether, declaredApart, TopLevel.isDeclaration, TopLevel.actorName,
            Ne.symm a, Ne.symm b] }
  exact ⟨same.2.1, by rw [← same.2.2]; decide⟩

end Ill.Validate
