import Ill.Lower.Faithful
import Ill.Validate.Exact

/-!
# One part for every construct

What lowering makes of the tree of a whole file, and the one kind of construct
that it leaves out: an expression that is interpolated into the value of an
annotation.
-/

namespace Ill.Lower

open Base Base.Utf8 Base.Regular Ast Grammar Validate

/-- A file whose tree is sound is lowered to the file that the tree denotes, part
by part and in order, where an annotation keeps the plain text of its value only;
and a tree with an ERROR or MISSING node anywhere is refused. -/
theorem lowering_keeps_constructs (parse : Text → Node) (src : Text) :
    ((parse (normalize src)).Sound (normalize src) → (parse (normalize src)).kind = "source_file" →
      ∃ file, lower parse src = some (.ok file) ∧
        DenotesFile (normalize src) (parse (normalize src)) file) ∧
    ((parse (normalize src)).Quoted (normalize src) →
      (∃ inner : Node, inner.Under (parse (normalize src)) ∧ ¬ inner.Genuine) →
      ∃ errors, lower parse src = some (.error errors)) :=
  ⟨fun sound kind => lower_sound sound kind,
    fun quoted ⟨_, under, recovers⟩ => lower_refuses quoted under recovers⟩

/-! ## Trees without comments and literals -/

/-- A tree is sound when its root is by itself and the trees under it are. -/
theorem Node.Sound.of_children {source : Text} {node : Node} (conforms : node.Conforms source)
    (genuine : node.Genuine) (fits : node.Fits source) (unescapable : node.Unescapable source)
    (children : ∀ child ∈ node.children, child.Sound source) : node.Sound source where
  conforms := by
    rintro inner (_ | ⟨member, under⟩)
    · exact conforms
    · exact (children _ member).conforms inner under
  genuine := by
    rintro inner (_ | ⟨member, under⟩)
    · exact genuine
    · exact (children _ member).genuine inner under
  fits := by
    rintro inner (_ | ⟨member, under⟩)
    · exact fits
    · exact (children _ member).fits inner under
  unescapable := by
    rintro inner (_ | ⟨member, under⟩)
    · exact unescapable
    · exact (children _ member).unescapable inner under

/-- The tokens whose text has to be of a form. -/
def formed (kind : String) : Bool :=
  ["number", "string_content", "single_quoted_string"].contains kind

/-- What can be computed of a node without comments: its kind has no text of a
form, its children are as its rule lists them, and its span is theirs. -/
def Node.wellFormed (source : Text) (node : Node) : Bool :=
  !node.isError && !node.isMissing && !formed node.kind &&
    (node.children.all fun child => child.kind != "comment") &&
    (node.named || node.text source == node.kind.toList) &&
    (match production node.kind with
      | some rule => rule.rmatch (node.children.map Node.label)
      | none => node.children.isEmpty) &&
    (match node.children.head?, node.children.getLast? with
      | some first, some last => node.span == ⟨first.span.start, last.span.stop⟩
      | _, _ => true)

/-- A node that is well formed is sound by itself. -/
theorem Node.Sound.of_wellFormed {source : Text} {node : Node}
    (well : node.wellFormed source = true) (children : ∀ child ∈ node.children, child.Sound source) :
    node.Sound source := by
  simp only [Node.wellFormed, Bool.and_eq_true, Bool.not_eq_true'] at well
  obtain ⟨⟨⟨⟨⟨⟨noError, present⟩, plain⟩, uncommented⟩, literal⟩, derived⟩, covered⟩ := well
  have unlike {kind : String} (special : formed kind = true) : node.kind ≠ kind := by
    rintro rfl
    simp [special] at plain
  have all : node.parts = node.children := List.filter_eq_self.mpr (List.all_eq_true.mp uncommented)
  refine .of_children ⟨?_, ?_, ?_, ?_, ?_, ?_, ?_, ?_⟩ ⟨noError, present⟩ ?_ ?_ children
  · intro rule known
    rw [known] at derived
    rw [all]
    exact (RegularExpression.rmatch_iff_matches' _ _).mp derived
  · intro token
    rw [token] at derived
    exact List.isEmpty_iff.mp derived
  · intro before comment after whole same
    have member : comment ∈ node.children := by simp [whole]
    have other := List.all_eq_true.mp uncommented comment member
    simp [same] at other
  · intro _ first last head end_
    rw [head, end_] at covered
    exact beq_iff_eq.mp covered
  · intro unnamed
    rw [unnamed, Bool.false_or] at literal
    exact beq_iff_eq.mp literal
  · exact fun kind => absurd kind (unlike (by decide))
  · exact fun kind => absurd kind (unlike (by decide))
  · exact fun kind => absurd kind (unlike (by decide))
  · exact fun kind => absurd kind (unlike (by decide))
  · exact fun kind => absurd kind (unlike (by decide))

mutual

/-- Every node of a tree is well formed. -/
def Node.wellFormedTree (source : Text) : Node → Bool
  | ⟨field, kind, named, isError, isMissing, span, ordered, children⟩ =>
    Node.wellFormed source ⟨field, kind, named, isError, isMissing, span, ordered, children⟩ &&
      wellFormedTrees source children

def wellFormedTrees (source : Text) : List Node → Bool
  | [] => true
  | child :: rest => child.wellFormedTree source && wellFormedTrees source rest

end

mutual

theorem Node.sound_of_wellFormedTree {source : Text} :
    ∀ node : Node, node.wellFormedTree source = true → node.Sound source
  | ⟨_, _, _, _, _, _, _, children⟩ => by
    intro well
    rw [Node.wellFormedTree, Bool.and_eq_true] at well
    exact .of_wellFormed well.1 (sound_of_wellFormedTrees children well.2)

theorem sound_of_wellFormedTrees {source : Text} :
    ∀ children : List Node, wellFormedTrees source children = true →
      ∀ child ∈ children, child.Sound source
  | [] => by simp
  | child :: rest => by
    intro well
    rw [wellFormedTrees, Bool.and_eq_true] at well
    exact List.forall_mem_cons.mpr
      ⟨child.sound_of_wellFormedTree well.1, sound_of_wellFormedTrees rest well.2⟩

end

/-! ## An annotation with an interpolated value -/

/-- A command with an annotation whose value interpolates `b`. -/
def interpolatedAnnotation : Text := "as a:\n  @expect \"$\x7bb\x7d\"\n  check\n".toList

def interpolatedTree : Node :=
  let value : Node := { token "double_quoted_string" true 16 6 with
    children := [token "\"" false 16 1,
      { token "interpolation" true 17 4 with
        children := [token "$\x7b" false 17 2,
          { token "primary_expression" true 19 1 with
            children := [token "identifier" true 19 1] },
          token "\x7d" false 20 1] },
      token "\"" false 21 1] }
  let marker : Node := { token "annotation" true 8 14 with
    children := [token "@" false 8 1,
      { token "annotation_name" true 9 6 with children := [token "expect" false 9 6] },
      { token "annotation_value" true 16 6 with
        children := [{ token "string" true 16 6 with children := [value] }] }] }
  let block : Node := { token "block" true 8 23 with
    children := [token "INDENT" true 8 0,
      { token "command" true 8 22 with
        children := [marker, token "NEWLINE" true 25 0,
          { token "identifier" true 25 5 with field := some "name" }] },
      token "DEDENT" true 31 0] }
  { token "source_file" true 0 31 with
    children := [{ token "as_block" true 0 31 with
      children := [token "as" false 0 2, { token "identifier" true 3 1 with field := some "actor" },
        token ":" false 4 1, block] }] }

theorem sound_interpolatedTree : interpolatedTree.Sound (normalize interpolatedAnnotation) :=
  interpolatedTree.sound_of_wellFormedTree (by decide)

/-- The interpolated expression of the tree. -/
theorem under_interpolatedTree :
    Node.Under { token "primary_expression" true 19 1 with children := [token "identifier" true 19 1] }
      interpolatedTree := by
  have first {node : Node} {rest : List Node} : node ∈ node :: rest := List.mem_cons_self
  have second {before node : Node} {rest : List Node} : node ∈ before :: node :: rest :=
    List.mem_cons_of_mem _ first
  have third {before between node : Node} {rest : List Node} :
      node ∈ before :: between :: node :: rest := List.mem_cons_of_mem _ second
  have fourth {before between behind node : Node} {rest : List Node} :
      node ∈ before :: between :: behind :: node :: rest := List.mem_cons_of_mem _ third
  -- From the as-block to the annotation, and from its value down.
  exact .deeper first (.deeper fourth (.deeper second (.deeper first (.deeper third (.deeper first
    (.deeper first (.deeper second (.deeper second .here))))))))

/-- The same text as the parser could not read it at all. -/
def recoveredTree : Node :=
  { token "source_file" true 0 31 with
    children := [{ token "ERROR" true 0 31 with isError := true }] }

theorem quoted_recoveredTree (source : Text) : recoveredTree.Quoted source := by
  rintro inner (_ | ⟨member, under⟩) single
  · exact absurd single (by decide)
  · obtain rfl := List.mem_singleton.mp member
    rcases under with _ | ⟨nowhere, -⟩
    · exact absurd single (by decide)
    · exact absurd nowhere List.not_mem_nil

theorem lowering_keeps_constructs_annotated :
    (∃ file, lower (fun _ => interpolatedTree) interpolatedAnnotation = some (.ok file) ∧
      DenotesFile (normalize interpolatedAnnotation) interpolatedTree file) ∧
    ∃ errors, lower (fun _ => recoveredTree) interpolatedAnnotation = some (.error errors) := by
  refine ⟨(lowering_keeps_constructs (fun _ => interpolatedTree) _).1 sound_interpolatedTree rfl, ?_⟩
  refine (lowering_keeps_constructs (fun _ => recoveredTree) _).2 (quoted_recoveredTree _) ?_
  exact ⟨_, .deeper (List.mem_singleton_self _) .here, by simp [Node.Genuine]⟩

/-- The expression in the value of an annotation has no part in the file. -/
theorem interpolated_annotation_dropped : ¬ ∀ (parse : Text → Node) (src : Text),
    (parse (normalize src)).Sound (normalize src) → (parse (normalize src)).kind = "source_file" →
    ∃ file, lower parse src = some (.ok file) ∧
      ((∃ inner : Node, inner.Under (parse (normalize src)) ∧ inner.kind ∈ expressionKinds) →
        file.items.flatMap TopLevel.exprs ≠ []) := by
  intro keeps
  obtain ⟨file, lowered, kept⟩ :=
    keeps (fun _ => interpolatedTree) interpolatedAnnotation sound_interpolatedTree rfl
  have facts : (lower (fun _ => interpolatedTree) interpolatedAnnotation).map
      (fun result => result.map fun file => (file.items.flatMap TopLevel.exprs).length) =
        some (.ok 0) := rfl
  have nothing : (file.items.flatMap TopLevel.exprs).length = 0 := by
    rw [lowered] at facts
    simpa [Except.map] using facts
  refine kept ⟨_, under_interpolatedTree, by decide⟩ (List.eq_nil_of_length_eq_zero nothing)

end Ill.Lower
