import Ill.Lower.Located
import Ill.Lower.Relocated

/-!
# Lowering of edited files

The items of a file are lowered one by one. So of a file that was edited in some
places, the nodes that the edit left alone become what they were, at their new
places, and what was reported in them is reported there.
-/

namespace Ill.Lower

open Base Base.Utf8 Base.Reporting Ast

/-! ## Shifted text -/

/-- Everything so many bytes further on. -/
def Placement.shift (count : Nat) : Placement where
  place span := ⟨span.start + count, span.stop + count⟩
  ordered := by
    intro span ordered
    dsimp only
    omega

/-- A text reads the same behind another text. -/
theorem slice?_behind (front text : Text) (start stop : Nat) :
    slice? (front ++ text) (start + byteSize front) (stop + byteSize front) =
      slice? text start stop := by
  refine Option.ext fun part => ?_
  rw [slice?_eq_some_iff, slice?_eq_some_iff]
  constructor
  · rintro ⟨ordered, before, after, split, size, width⟩
    have ordered : start ≤ stop := by omega
    -- The slice starts behind the front, so the front is part of what is before it.
    obtain ⟨middle, rfl⟩ : ∃ middle, before = front ++ middle := by
      rcases List.append_eq_append_iff.mp split with ⟨middle, inside, -⟩ | ⟨middle, inside, rest⟩
      · exact ⟨middle, inside⟩
      · have widths := congrArg byteSize inside
        rw [byteSize_append] at widths
        have nothing : middle = [] := byteSize_eq_zero.mp (by omega)
        rw [nothing, List.append_nil] at inside
        exact ⟨[], by rw [inside, List.append_nil]⟩
    rw [List.append_assoc] at split
    rw [byteSize_append] at size
    exact ⟨ordered, middle, after, List.append_cancel_left split, by omega, by omega⟩
  · rintro ⟨ordered, before, after, rfl, rfl, width⟩
    refine ⟨by omega, front ++ before, after, by rw [List.append_assoc], ?_, by omega⟩
    rw [byteSize_append, Nat.add_comm]

/-- Whatever stands in front of it, a text shows all of its nodes. -/
theorem shows_behind (front source : Text) (node : Node) :
    Shows (.shift (byteSize front)) source (front ++ source) node :=
  fun span _ => slice?_behind front source span.start span.stop

/-! ## Errors of the parser -/

section

variable {placement : Placement} {source edited : Text}

theorem errorDiagnostic_relocate {span : Span}
    (same : slice? edited (placement.place span).start (placement.place span).stop =
      slice? source span.start span.stop) (parent : Option String) :
    errorDiagnostic edited parent (placement.place span) =
      (errorDiagnostic source parent span).relocate placement.place := by
  unfold errorDiagnostic
  rw [same]
  extract_lets
  split <;> rfl

mutual

theorem collectErrors_relocate (parent : Option String) :
    ∀ node : Node, Shows placement source edited node →
      collectErrors edited parent (node.relocate placement) =
        (collectErrors source parent node).map (·.relocate placement.place)
  | ⟨field, kind, named, isError, isMissing, span, ordered, children⟩ => by
    intro shows
    have below : ∀ child ∈ children, Shows placement source edited child := fun child member =>
      shows.child member
    rw [Node.relocate, collectErrors, collectErrors]
    split
    · rfl
    · split
      · have here := shows span (by rw [Node.spans]; exact List.mem_cons_self)
        rw [errorDiagnostic_relocate here, List.map_singleton]
      · exact collectChildErrors_relocate kind children below

theorem collectChildErrors_relocate (parent : String) :
    ∀ children : List Node, (∀ child ∈ children, Shows placement source edited child) →
      collectChildErrors edited parent (Node.relocateChildren placement children) =
        (collectChildErrors source parent children).map (·.relocate placement.place)
  | [] => fun _ => rfl
  | child :: rest => by
    intro shows
    rw [Node.relocateChildren, collectChildErrors, collectChildErrors, List.map_append,
      collectErrors_relocate (some parent) child (shows child List.mem_cons_self),
      collectChildErrors_relocate parent rest fun other member =>
        shows other (List.mem_cons_of_mem _ member)]

end

theorem collectChildErrors_append (source : Text) (parent : String) (before behind : List Node) :
    collectChildErrors source parent (before ++ behind) =
      collectChildErrors source parent before ++ collectChildErrors source parent behind := by
  induction before with
  | nil => rfl
  | cons child rest ih =>
    rw [List.cons_append, collectChildErrors, collectChildErrors, ih, List.append_assoc]

/-- The items that nodes at the top level become. -/
def lowerItems (source : Text) (nodes : List Node) : Lowering (List TopLevel) :=
  each (lowerItem source) (nodes.filter Node.named)

theorem lowerItems_append (source : Text) (before behind : List Node) :
    lowerItems source (before ++ behind) = (do
      let items ← lowerItems source before
      let others ← lowerItems source behind
      return items ++ others) := by
  rw [lowerItems, List.filter_append, each_append]
  rfl

theorem lowerSourceFile_eq (source : Text) (root : Node) :
    lowerSourceFile source root = (do
      let items ← lowerItems source root.children
      return ⟨items⟩) := rfl

theorem lowerItems_relocate {nodes : List Node}
    (shows : ∀ node ∈ nodes, Shows placement source edited node) :
    Follows placement (List.map (·.relocate placement.place)) (lowerItems source nodes)
      (lowerItems edited (nodes.map (·.relocate placement))) := by
  rw [lowerItems, lowerItems, Node.filter_relocate Node.relocate_named]
  exact .each _ fun node inside => (shows node (List.mem_filter.mp inside).1).lowerItem

/-- A file is lowered in parts. -/
theorem lowerSourceFile_parts {source : Text} {root : Node} {before inside behind : List Node}
    (children : root.children = before ++ (inside ++ behind)) :
    lowerSourceFile source root = (do
      let first ← lowerItems source before
      let items ← lowerItems source inside
      let last ← lowerItems source behind
      return ⟨first ++ (items ++ last)⟩) := by
  rw [lowerSourceFile_eq, children, lowerItems_append, lowerItems_append]
  simp only [Reporting.bind_assoc, Reporting.pure_bind]

theorem collectChildErrors_parts {source : Text} {parent : String} {root : Node}
    {before inside behind : List Node} (children : root.children = before ++ (inside ++ behind)) :
    collectChildErrors source parent root.children =
      collectChildErrors source parent before ++
        (collectChildErrors source parent inside ++ collectChildErrors source parent behind) := by
  rw [children, collectChildErrors_append, collectChildErrors_append]

/-- Whatever an edit changes in a file, lowering makes of the nodes it leaves
alone what it made of them, at their new places: the file is assembled from the
items of the nodes before them, of theirs and of those behind them, in the source
and in the edited text, and the items and diagnostics in the middle are the same. -/
theorem lower_edited {placement : Placement} {source edited : Text} {root editedRoot : Node}
    {before kept behind added trailing : List Node} (was : root.children = before ++ (kept ++ behind))
    (is_ : editedRoot.children = added ++ (kept.map (·.relocate placement) ++ trailing))
    (shows : ∀ node ∈ kept, Shows placement source edited node) (parent : String) :
    ∃ middle : Lowering (List TopLevel),
      lowerSourceFile source root = (do
        let first ← lowerItems source before
        let items ← middle
        let last ← lowerItems source behind
        return ⟨first ++ (items ++ last)⟩) ∧
      lowerSourceFile edited editedRoot = (do
        let first ← lowerItems edited added
        let items ← middle.translate (·.relocate placement.place)
          (List.map (·.relocate placement.place))
        let last ← lowerItems edited trailing
        return ⟨first ++ (items ++ last)⟩) ∧
      collectChildErrors source parent root.children =
        collectChildErrors source parent before ++
          (collectChildErrors source parent kept ++ collectChildErrors source parent behind) ∧
      collectChildErrors edited parent editedRoot.children =
        collectChildErrors edited parent added ++
          ((collectChildErrors source parent kept).map (·.relocate placement.place) ++
            collectChildErrors edited parent trailing) := by
  have carried : lowerItems edited (kept.map (·.relocate placement)) =
      (lowerItems source kept).translate _ _ := lowerItems_relocate shows
  refine ⟨lowerItems source kept, lowerSourceFile_parts was, ?_, collectChildErrors_parts was, ?_⟩
  · rw [lowerSourceFile_parts is_, carried]
  · rw [collectChildErrors_parts is_, ← Node.relocateChildren_eq_map,
      collectChildErrors_relocate parent kept shows]

/-- A node with nothing wrong in it. -/
def intactNode (field : Option String) (kind : String) (named : Bool) (span : Span)
    (ordered : span.start ≤ span.stop) (children : List Node) : Node :=
  ⟨field, kind, named, false, false, span, ordered, children⟩

/-- The node of `actor a = b`, alone in its file. -/
def soleDeclaration : Node :=
  intactNode none "actor_declaration" true ⟨0, 11⟩ (by decide) [
    intactNode none "actor" false ⟨0, 5⟩ (by decide) [],
    intactNode (some "name") "identifier" true ⟨6, 7⟩ (by decide) [],
    intactNode none "=" false ⟨8, 9⟩ (by decide) [],
    intactNode (some "type") "actor_type" true ⟨10, 11⟩ (by decide) [
      intactNode none "identifier" true ⟨10, 11⟩ (by decide) []]]

def sourceFileOf (width : Nat) (children : List Node) : Node :=
  intactNode none "source_file" true ⟨0, width⟩ (Nat.zero_le _) children

def commentNode : Node := intactNode none "comment" true ⟨0, 3⟩ (by decide) []

theorem lower_edited_comment :
    ∃ middle : Lowering (List TopLevel),
      lowerSourceFile "actor a = b\n".toList (sourceFileOf 12 [soleDeclaration]) =
        (do
          let items ← middle
          return ⟨items⟩) ∧
      lowerSourceFile ("# x\n".toList ++ "actor a = b\n".toList)
          (sourceFileOf 16 [commentNode, soleDeclaration.relocate (.shift 4)]) =
        (do
          let items ← middle.translate (·.relocate (Placement.shift 4).place)
            (List.map (·.relocate (Placement.shift 4).place))
          return ⟨items⟩) := by
  obtain ⟨middle, was, is_, -, -⟩ := @lower_edited (.shift 4) "actor a = b\n".toList
    ("# x\n".toList ++ "actor a = b\n".toList) (sourceFileOf 12 [soleDeclaration])
    (sourceFileOf 16 [commentNode, soleDeclaration.relocate (.shift 4)]) [] [soleDeclaration] []
    [commentNode] [] rfl rfl (fun node _ => shows_behind "# x\n".toList _ node) "source_file"
  have nothing : ∀ source : Text, lowerItems source [] = pure [] := fun _ => rfl
  have comment : ∀ source : Text, lowerItems source [commentNode] = pure [] := fun _ => rfl
  simp only [nothing, comment, Reporting.pure_bind, List.nil_append, List.append_nil] at was is_
  exact ⟨middle, was, is_⟩

/-! ## Moved files -/

end

end Ill.Lower
