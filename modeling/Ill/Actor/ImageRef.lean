import Ill.Actor.Container
import Ill.Base.LastSplit

/-!
# References of images

`split_image_ref` takes what follows the last colon of a reference for its tag,
unless that is empty or a part of the path in a registry. A name and a tag that
it gives are put together to a reference that is split into them again.
-/

namespace Ill.Actor.Container

open Base

/-- This part of a reference follows its last colon. -/
def AfterLastColon (imageRef part : String) : Prop :=
  ':' ∉ part.toList ∧ ∃ name, imageRef = name ++ ":" ++ part

/-- A tag that a reference can end with. -/
structure IsTag (tag : String) : Prop where
  some_ : tag ≠ ""
  noSlash : '/' ∉ tag.toList
  noColon : ':' ∉ tag.toList

theorem isTag_latest : IsTag "latest" := ⟨by decide, by decide, by decide⟩

theorem toList_tagged (name tag : String) :
    (name ++ ":" ++ tag).toList = name.toList ++ ':' :: tag.toList := by
  simp

/-- A reference without a colon is the name of the image. -/
theorem splitImageRef_plain {imageRef : String} (plain : ':' ∉ imageRef.toList) :
    splitImageRef imageRef = (imageRef, "latest") := by
  simp [splitImageRef, plain]

/-- A reference is split at its last colon if a tag follows. -/
theorem splitImageRef_tagged {name part : String} (last : ':' ∉ part.toList) :
    splitImageRef (name ++ ":" ++ part) =
      if part ≠ "" ∧ '/' ∉ part.toList then (name, part) else (name ++ ":" ++ part, "latest") := by
  have behind : (name ++ ":" ++ part).toList.reverse.takeWhile (· != ':') = part.toList.reverse := by
    have taken := LastSplit.rtakeWhile_append last name.toList
    rw [← toList_tagged, List.rtakeWhile] at taken
    rw [← taken, List.reverse_reverse]
  have before : (name ++ ":" ++ part).toList.take
      ((name ++ ":" ++ part).toList.length - part.toList.reverse.length - 1) = name.toList := by
    rw [toList_tagged, List.length_append, List.length_cons, List.length_reverse]
    have whole : name.toList.length + (part.toList.length + 1) - part.toList.length - 1 =
        name.toList.length := by omega
    rw [whole, List.take_left]
  rw [splitImageRef, behind, before]
  simp [and_comm]

/-- What follows the last colon is one text. -/
theorem AfterLastColon.unique {imageRef part other : String} (first : AfterLastColon imageRef part)
    (second : AfterLastColon imageRef other) : part = other := by
  obtain ⟨plain, name, rfl⟩ := first
  obtain ⟨plainOther, otherName, same⟩ := second
  have lists := congrArg String.toList same
  rw [toList_tagged, toList_tagged] at lists
  exact String.toList_injective (LastSplit.unique plain plainOther lists).2

/-- Every reference has no colon or something behind its last one. -/
theorem plain_or_afterLastColon (imageRef : String) :
    ':' ∉ imageRef.toList ∨ ∃ part, AfterLastColon imageRef part := by
  by_cases colon : ':' ∈ imageRef.toList
  · right
    obtain ⟨name, part, split, last⟩ := LastSplit.exists_of_mem colon
    refine ⟨String.ofList part, by simpa using last, String.ofList name, ?_⟩
    apply String.toList_injective
    rw [toList_tagged, split]
    simp
  · exact .inl colon

/-- How a reference is split: it ends with the tag, or is a name to which the
default is added. -/
inductive Splits (imageRef : String) : String × String → Prop where
  | tagged {name tag : String} (isTag : IsTag tag) (whole : name ++ ":" ++ tag = imageRef) :
      Splits imageRef (name, tag)
  | bare (untagged : ∀ part, AfterLastColon imageRef part → ¬ IsTag part) :
      Splits imageRef (imageRef, "latest")

theorem Splits.isTag {imageRef : String} {parts : String × String} (splits : Splits imageRef parts) :
    IsTag parts.2 := by
  cases splits with
  | tagged isTag _ => exact isTag
  | bare _ => exact isTag_latest

theorem splits_splitImageRef (imageRef : String) : Splits imageRef (splitImageRef imageRef) := by
  rcases plain_or_afterLastColon imageRef with plain | ⟨part, after⟩
  · rw [splitImageRef_plain plain]
    refine .bare ?_
    rintro part ⟨-, name, rfl⟩
    simp at plain
  · obtain ⟨last, name, rfl⟩ := id after
    rw [splitImageRef_tagged last]
    split
    · next tag => exact .tagged ⟨tag.1, tag.2, last⟩ rfl
    · next noTag =>
      refine .bare fun other behind isTag => noTag ?_
      obtain rfl := after.unique behind
      exact ⟨isTag.some_, isTag.noSlash⟩

/-- A name and a tag are split again where they are put together. -/
theorem splitImageRef_append {tag : String} (isTag : IsTag tag) (name : String) :
    splitImageRef (name ++ ":" ++ tag) = (name, tag) := by
  rw [splitImageRef_tagged isTag.noColon, if_pos ⟨isTag.some_, isTag.noSlash⟩]

/-- The tag is one, and `name:tag` is the reference if that ends with a tag. If
not, the whole reference is the name and the tag the default. Splitting `name:tag`
gives the name and the tag again. -/
theorem splitImageRef_stable (imageRef name tag : String)
    (split : splitImageRef imageRef = (name, tag)) :
    (tag ≠ "" ∧ '/' ∉ tag.toList ∧ ':' ∉ tag.toList) ∧
    (∀ part, AfterLastColon imageRef part → part ≠ "" → '/' ∉ part.toList →
      name ++ ":" ++ tag = imageRef) ∧
    ((∀ part, AfterLastColon imageRef part → part = "" ∨ '/' ∈ part.toList) →
      name = imageRef ∧ tag = "latest") ∧
    splitImageRef (name ++ ":" ++ tag) = (name, tag) := by
  have splits := splits_splitImageRef imageRef
  rw [split] at splits
  have isTag := splits.isTag
  refine ⟨⟨isTag.some_, isTag.noSlash, isTag.noColon⟩, ?_, ?_, splitImageRef_append isTag name⟩
  · intro part after some_ noSlash
    cases splits with
    | tagged _ whole => exact whole
    | bare untagged => exact absurd ⟨some_, noSlash, after.1⟩ (untagged part after)
  · intro untagged
    cases splits with
    | tagged _ whole =>
      rcases untagged tag ⟨isTag.noColon, name, whole.symm⟩ with empty | slash
      · exact absurd empty isTag.some_
      · exact absurd slash isTag.noSlash
    | bare _ => exact ⟨rfl, rfl⟩

/-- The port of a registry is a part of the name. -/
theorem splitImageRef_stable_port :
    splitImageRef ("ghcr.io:443/org/img" ++ ":" ++ "v2") = ("ghcr.io:443/org/img", "v2") :=
  (splitImageRef_stable "ghcr.io:443/org/img:v2" "ghcr.io:443/org/img" "v2" (by decide)).2.2.2

/-! ## Instances -/

theorem isTag_of_prepareFromImage {ext : External} {imageRef : String} {internalPort : Option Nat}
    {members : Members} {inst : ContainerInstance}
    (prepared : prepareFromImage ext imageRef internalPort members = .ok inst) : IsTag inst.imageTag := by
  have isTag := (splits_splitImageRef imageRef).isTag
  unfold prepareFromImage at prepared
  generalize splitImageRef imageRef = parts at isTag prepared
  cases pulled : ext.pullImage parts.1 parts.2 with
  | error message => simp [pulled] at prepared
  | ok _ =>
    simp only [pulled] at prepared
    cases prepared
    exact isTag

theorem isTag_of_prepareFromDockerfile {ext : External} {dockerfile sourceDir : String}
    {internalPort : Option Nat} {members : Members} {inst : ContainerInstance}
    (prepared : prepareFromDockerfile ext dockerfile sourceDir internalPort members = .ok inst) :
    IsTag inst.imageTag := by
  unfold prepareFromDockerfile at prepared
  dsimp only at prepared
  split at prepared
  · cases prepared
  split at prepared
  · cases prepared
  · cases prepared
    exact isTag_latest

/-- An instance holds a tag, of a reference or the default. -/
theorem isTag_of_construct {ext : External} {args : ConstructArgs} {inst : ContainerInstance}
    (constructed : construct ext args = .ok inst) : IsTag inst.imageTag := by
  obtain ⟨internalPort, -, constructed⟩ := bind_eq_ok.mp constructed
  dsimp only at constructed
  split at constructed
  · cases constructed
  · cases constructed
  · exact isTag_of_prepareFromImage constructed
  · cases constructed
  · exact isTag_of_prepareFromDockerfile constructed
  · cases constructed

/-- The image of an instance has a reference that is split into what the instance
holds, so it is the one that was pulled or built under that reference. -/
theorem reference_of_construct {ext : External} {args : ConstructArgs} {inst : ContainerInstance}
    (constructed : construct ext args = .ok inst) :
    splitImageRef (inst.imageName ++ ":" ++ inst.imageTag) = (inst.imageName, inst.imageTag) :=
  splitImageRef_append (isTag_of_construct constructed) inst.imageName

end Ill.Actor.Container
