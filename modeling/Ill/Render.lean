import Ill.Lower.Located
import Ill.Lower.Rewrite
import Ill.Validate.Reported

/-!
# Rendering diagnostics

A file is lowered and validated on its normalised text, and its diagnostics
are rendered with the text as it was read. Spans are not mapped back, so a
range shows the text it was reported for where normalisation moved nothing.
-/

namespace Ill.Render

open Base.Utf8 Ast Lower

/-! ## The renderer's input -/

structure Range where
  start : Nat
  stop : Nat
deriving DecidableEq, Repr

inductive CsrSeverity where
  | error | warning | note | help
deriving DecidableEq, Repr

structure CsrDiagnostic where
  severity : CsrSeverity
  message : String
  /-- The ranges of the primary labels. -/
  labels : List Range
  notes : List String
deriving DecidableEq, Repr

/-- An empty span is widened by one byte. -/
def labelRange (span : Span) : Range :=
  if span.start = span.stop then ⟨span.start, span.stop + 1⟩ else ⟨span.start, span.stop⟩

def toCsr (d : Diagnostic) : CsrDiagnostic where
  severity :=
    match d.severity with
    | .error => .error
    | .warning => .warning
    | .info => .note
    | .hint => .help
  message := d.message
  labels := [labelRange d.span]
  notes := d.notes

/-- One file's check outcome, which is rendered with the text `src`. -/
structure CheckedFile where
  src : Text
  ast : Option SourceFile
  diags : List Diagnostic

/-- Lower and validate one file, unless lowering panics. -/
def checkFile (parse : Text → Node) (src : Text) : Option CheckedFile :=
  (lower parse src).map fun
    | .ok ast => ⟨src, some ast, Validate.validate ast⟩
    | .error errors => ⟨src, none, errors⟩

/-- The diagnostics of a file are errors at nodes of its tree. -/
theorem checkFile_located {parse : Text → Node} {src : Text} {file : CheckedFile}
    (checked : checkFile parse src = some file) :
    file.src = src ∧ ∀ d ∈ file.diags, d.ErrorAt (rootOf parse src).spans := by
  obtain ⟨result, lowered, rfl⟩ := Option.map_eq_some_iff.mp checked
  have located := lower_located lowered
  cases result with
  | ok ast =>
    refine ⟨rfl, fun d reported => ?_⟩
    exact (Validate.validate_located ast d reported).mono located
  | error errors => exact ⟨rfl, located.2⟩

/-! ## Pointing at the reported text -/

/-- The range of a diagnostic is a non-empty part of the source, and the part
it was reported for unless the span is empty. -/
def PointsAt (src : Text) (d : Diagnostic) : Prop :=
  ∀ range ∈ (toCsr d).labels, range.start < range.stop ∧
    ∃ shown, slice? src range.start range.stop = some shown ∧
      (d.span.start < d.span.stop →
        slice? (normalize src) d.span.start d.span.stop = some shown)

/-- Whether normalisation changed the number of bytes in front of a position. -/
def moved (src : Text) (start : Nat) : Bool :=
  match cut? src start with
  | some (before, after) => byteSize (contribution before after) != start
  | none => false

/-- For an empty span, a one-byte character starts at it. Otherwise the bytes
in front of it are as many as before normalisation, and those of the span are
written as they are. -/
def inPlace (src : Text) (span : Span) : Bool :=
  match cut? src span.start with
  | none => false
  | some (before, after) =>
    if span.start = span.stop then after.head?.map Char.utf8Size == some 1
    else byteSize (contribution before after) == span.start &&
      match cut? after (span.stop - span.start) with
      | some (part, rest) => untouched part rest
      | none => false

theorem pointsAt_of_empty {src : Text} {d : Diagnostic} (empty : d.span.start = d.span.stop) :
    PointsAt src d ↔ ∃ shown, slice? src d.span.start (d.span.start + 1) = some shown := by
  simp [PointsAt, toCsr, labelRange, empty]

theorem pointsAt_of_text {src : Text} {d : Diagnostic} (text : d.span.start < d.span.stop) :
    PointsAt src d ↔ ∃ shown, slice? src d.span.start d.span.stop = some shown ∧
      slice? (normalize src) d.span.start d.span.stop = some shown := by
  have different : d.span.start ≠ d.span.stop := Nat.ne_of_lt text
  simp [PointsAt, toCsr, labelRange, different, text]

theorem byteSize_eq_one {text : Text} :
    byteSize text = 1 ↔ ∃ char : Char, text = [char] ∧ char.utf8Size = 1 := by
  constructor
  · intro one
    cases text with
    | nil => simp at one
    | cons char rest =>
      have positive := char.utf8Size_pos
      rw [byteSize_cons] at one
      have nothing : byteSize rest = 0 := by omega
      have size : char.utf8Size = 1 := by omega
      exact ⟨char, by rw [byteSize_eq_zero.mp nothing], size⟩
  · rintro ⟨char, rfl, size⟩
    rw [byteSize_cons, size, byteSize_nil]

/-- An empty span is shown exactly if one byte behind it is a character. -/
theorem pointsAt_iff_of_empty {src : Text} {d : Diagnostic} (empty : d.span.start = d.span.stop) :
    PointsAt src d ↔ inPlace src d.span = true := by
  rw [pointsAt_of_empty empty]
  constructor
  · rintro ⟨shown, sliced⟩
    obtain ⟨-, before, after, same, start, size⟩ := slice?_eq_some_iff.mp sliced
    have one : byteSize shown = 1 := by omega
    obtain ⟨char, rfl, width⟩ := byteSize_eq_one.mp one
    have cut := cut?_eq_some_iff.mpr ⟨same, start⟩
    rw [inPlace, cut]
    simp [empty, width]
  · intro place
    unfold inPlace at place
    split at place
    · simp at place
    · next before after cut =>
      rw [if_pos empty] at place
      obtain ⟨same, start⟩ := cut?_eq_some_iff.mp cut
      cases after with
      | nil => simp at place
      | cons char rest =>
        have width : char.utf8Size = 1 := by simpa using place
        have size : byteSize [char] = d.span.start + 1 - d.span.start := by
          rw [byteSize_eq_one.mpr ⟨char, rfl, width⟩]
          omega
        exact ⟨[char], slice?_eq_some_iff.mpr ⟨by omega, before, rest, same, start, size⟩⟩

/-- A part of the source that normalisation leaves in place is shown. -/
theorem pointsAt_of_inPlace {src : Text} {d : Diagnostic} (text : d.span.start < d.span.stop)
    (place : inPlace src d.span = true) : PointsAt src d := by
  rw [pointsAt_of_text text]
  unfold inPlace at place
  split at place
  · simp at place
  · next before after cut =>
    rw [if_neg (Nat.ne_of_lt text), Bool.and_eq_true, beq_iff_eq] at place
    obtain ⟨unmoved, kept⟩ := place
    split at kept
    · next part rest inner =>
      obtain ⟨rfl, start⟩ := cut?_eq_some_iff.mp cut
      obtain ⟨rfl, size⟩ := cut?_eq_some_iff.mp inner
      obtain ⟨tail, front⟩ := (prefix_rewrite_iff part rest).mpr kept
      have here : slice? (before ++ (part ++ rest)) d.span.start d.span.stop = some part :=
        slice?_eq_some_iff.mpr ⟨text.le, before, rest, rfl, start, size⟩
      refine ⟨part, here, slice?_eq_some_iff.mpr ⟨text.le, _, tail, ?_, unmoved, size⟩⟩
      rw [normalize_eq_rewrite, rewrite_append, front]
    · simp at kept

/-- If nothing was moved in front of it, only a part left in place is shown. -/
theorem inPlace_of_pointsAt {src : Text} {d : Diagnostic} (text : d.span.start < d.span.stop)
    (still : moved src d.span.start = false) (points : PointsAt src d) :
    inPlace src d.span = true := by
  obtain ⟨shown, source, normalized⟩ := (pointsAt_of_text text).mp points
  obtain ⟨-, before, after, same, start, size⟩ := slice?_eq_some_iff.mp source
  obtain ⟨-, front, back, written, startN, -⟩ := slice?_eq_some_iff.mp normalized
  have cut := cut?_eq_some_iff.mpr ⟨same, start⟩
  have unmoved : byteSize (contribution before (shown ++ after)) = d.span.start := by
    simpa [moved, cut] using still
  rw [normalize_eq_rewrite, same, rewrite_append] at written
  have rest := (append_inj_of_byteSize written (unmoved.trans startN.symm)).2
  have kept := (prefix_rewrite_iff shown after).mp ⟨back, rest.symm⟩
  have inner : cut? (shown ++ after) (d.span.stop - d.span.start) = some (shown, after) :=
    cut?_eq_some_iff.mpr ⟨rfl, size⟩
  have different : d.span.start ≠ d.span.stop := Nat.ne_of_lt text
  simp [inPlace, cut, different, unmoved, inner, kept]

/-- Every diagnostic that is in place is shown at its text; and if nothing was
moved in front of it, or its span is empty, no other one is. -/
theorem pointsAt_iff_inPlace {parse : Text → Node} {src : Text} {file : CheckedFile}
    (checked : checkFile parse src = some file) {d : Diagnostic} (reported : d ∈ file.diags) :
    (inPlace src d.span = true → PointsAt file.src d) ∧
      (moved src d.span.start = false ∨ d.span.start = d.span.stop →
        (PointsAt file.src d ↔ inPlace src d.span = true)) := by
  obtain ⟨rfl, located⟩ := checkFile_located checked
  have ordered := Node.ordered_of_mem _ (located d reported).2
  rcases Nat.eq_or_lt_of_le ordered with empty | text
  · have same : PointsAt file.src d ↔ inPlace file.src d.span = true := pointsAt_iff_of_empty empty
    exact ⟨same.mpr, fun _ => same⟩
  · refine ⟨pointsAt_of_inPlace text, fun cause => ?_⟩
    have still : moved file.src d.span.start = false :=
      cause.resolve_right (Nat.ne_of_lt text)
    exact ⟨inPlace_of_pointsAt text still, pointsAt_of_inPlace text⟩

/-- A leaf of a concrete syntax tree. -/
def leaf (field : Option String) (kind : String) (named : Bool) (start length : Nat) : Node where
  field
  kind
  named
  isError := false
  isMissing := false
  span := ⟨start, start + length⟩
  ordered := Nat.le_add_right _ _
  children := []

/-- The tree of a declaration `actor bob = nope_actor` whose type stands at `start`. -/
def declarationTree (start : Nat) : Node :=
  { leaf none "source_file" true 0 (start + 11) with
    children := [
      { leaf none "actor_declaration" true 0 (start + 10) with
        children := [
          leaf none "actor" false 0 5,
          leaf (some "name") "identifier" true 6 3,
          leaf none "=" false 10 1,
          { leaf (some "type") "actor_type" true start 10 with
            children := [leaf none "identifier" true start 10] }] },
      leaf none "NEWLINE" true (start + 11) 0] }

def spacedDeclaration : Text := "actor bob = nope_actor\n".toList

/-- The same with a tab for the space in front of the type. -/
def tabbedDeclaration : Text := "actor bob =\tnope_actor\n".toList

def unknownType (start : Nat) : Diagnostic :=
  .error ⟨start, start + 10⟩ .unknownActorType "unknown actor type `nope_actor`"

theorem pointsAt_iff_inPlace_spaced :
    ∃ file, checkFile (fun _ => declarationTree 12) spacedDeclaration = some file ∧
      unknownType 12 ∈ file.diags ∧ PointsAt file.src (unknownType 12) ∧
      (PointsAt file.src (unknownType 12) ↔
        inPlace spacedDeclaration (unknownType 12).span = true) := by
  have facts : (checkFile (fun _ => declarationTree 12) spacedDeclaration).map
      (fun file => file.diags) = some [unknownType 12] := rfl
  obtain ⟨file, checked, diags⟩ := Option.map_eq_some_iff.mp facts
  have reported : unknownType 12 ∈ file.diags := by
    rw [diags]
    exact List.mem_singleton_self _
  have points := pointsAt_iff_inPlace checked reported
  exact ⟨file, checked, reported, points.1 (by decide), points.2 (.inl (by decide))⟩

/-- The tab widens the text in front of the type, so the range shows the text
one byte further on. -/
theorem tabbed_declaration_points_elsewhere :
    ¬ ∀ file, checkFile (fun _ => declarationTree 13) tabbedDeclaration = some file →
      ∀ d ∈ file.diags, PointsAt file.src d := by
  intro all
  have facts : (checkFile (fun _ => declarationTree 13) tabbedDeclaration).map
      (fun file => (file.src, file.diags)) = some (tabbedDeclaration, [unknownType 13]) := rfl
  obtain ⟨file, checked, same⟩ := Option.map_eq_some_iff.mp facts
  obtain ⟨src, diags⟩ := Prod.mk.inj same
  have reported : unknownType 13 ∈ file.diags := by
    rw [diags]
    exact List.mem_singleton_self _
  have points := all file checked (unknownType 13) reported
  rw [src] at points
  obtain ⟨shown, source, normalized⟩ := (pointsAt_of_text (by decide)).mp points
  have wrong : slice? tabbedDeclaration 13 23 ≠ slice? (normalize tabbedDeclaration) 13 23 := by
    decide
  exact wrong (source.trans normalized.symm)

end Ill.Render
