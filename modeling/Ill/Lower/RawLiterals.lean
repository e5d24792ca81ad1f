import Ill.Lower.Canonical
import Ill.Lower.Escapes
import Ill.Lower.Total
import Ill.Runtime.Eval

/-!
# Raw literals

The content of a squiggle and of a single-quoted string is not unescaped.
Normalisation has no notion of literals, though, and rewrites the tabs in them
as it does those of an indentation.
-/

namespace Ill.Lower

open Base Base.Utf8 Base.Reporting Ast

/-! ## Literals -/

/-- `/[a-zA-Z_][a-zA-Z0-9_-]*/` -/
def isIdentifier : Text → Bool
  | [] => false
  | first :: rest =>
    (first.isAlpha || first == '_') && rest.all fun char => char.isAlphanum || char == '_' || char == '-'

/-- How a raw literal is delimited. -/
inductive RawQuote where
  | squiggle (name : Text) (identifier : isIdentifier name = true)
  | single

namespace RawQuote

def opening : RawQuote → Text
  | .squiggle name _ => '~' :: name ++ ['`']
  | .single => ['\'']

def delimiter : RawQuote → Char
  | .squiggle _ _ => '`'
  | .single => '\''

def spelling (quote : RawQuote) (content : Text) : Text :=
  quote.opening ++ content ++ [quote.delimiter]

end RawQuote

/-- A literal of one line whose content is neither escaped nor interpolated. -/
structure RawLiteral where
  quote : RawQuote
  content : Text
  undelimited : quote.delimiter ∉ content
  unescaped : '\\' ∉ content
  uninterpolated : ¬ ['$', '{'] <:+: content
  inLine : '\r' ∉ content ∧ '\n' ∉ content

def RawLiteral.text (literal : RawLiteral) : Text := literal.quote.spelling literal.content

/-! ## The literal after normalisation -/

theorem expandTabs_append (front back : Text) :
    expandTabs (front ++ back) = expandTabs front ++ expandTabs back := by
  simp [expandTabs]

theorem mem_expandTabs {line : Text} {char : Char} (inside : char ∈ expandTabs line) :
    char = ' ' ∨ char ∈ line := by
  obtain ⟨source, member, written⟩ := List.mem_flatMap.mp inside
  split at written
  · left
    simpa using written
  · right
    rwa [List.mem_singleton.mp written]

theorem mem_identifier {name : Text} (identifier : isIdentifier name = true) {char : Char}
    (inside : char ∈ name) :
    (char ≠ '\r' ∧ char ≠ '\n') ∧ char ≠ '\t' ∧ char ≠ '`' := by
  have shape : char.isAlphanum = true ∨ char = '_' ∨ char = '-' := by
    cases name with
    | nil => simp at inside
    | cons first rest =>
      rw [isIdentifier, Bool.and_eq_true, List.all_eq_true] at identifier
      rcases List.mem_cons.mp inside with rfl | later
      · have here := identifier.1
        simp only [Bool.or_eq_true, beq_iff_eq] at here
        rcases here with letter | underscore
        · exact .inl (by simp [Char.isAlphanum, letter])
        · exact .inr (.inl underscore)
      · have there := identifier.2 char later
        simpa [or_assoc] using there
  refine ⟨⟨?_, ?_⟩, ?_, ?_⟩ <;> rintro rfl <;> revert shape <;> decide

theorem RawQuote.mem_opening {quote : RawQuote} {char : Char} (inside : char ∈ quote.opening) :
    (char ≠ '\r' ∧ char ≠ '\n') ∧ char ≠ '\t' := by
  cases quote with
  | single =>
    rw [List.mem_singleton.mp inside]
    decide
  | squiggle name identifier =>
    rcases List.mem_append.mp inside with front | closing
    · rcases List.mem_cons.mp front with rfl | named
      · decide
      · obtain ⟨line, tab, -⟩ := mem_identifier identifier named
        exact ⟨line, tab⟩
    · rw [List.mem_singleton.mp closing]
      decide

theorem RawQuote.mem_delimiter (quote : RawQuote) : quote.delimiter ∈ ['`', '\''] := by
  cases quote <;> simp [delimiter]

theorem RawQuote.content_delimiter (quote : RawQuote) :
    isWhitespace quote.delimiter = false ∧
      (quote.delimiter ≠ '\r' ∧ quote.delimiter ≠ '\n') ∧ quote.delimiter ≠ '\t' := by
  have either := quote.mem_delimiter
  simp only [List.mem_cons, List.not_mem_nil, or_false] at either
  rcases either with same | same <;> rw [same] <;> decide

/-- Normalisation expands the tabs of the content, and nothing else. -/
theorem normalize_literal (literal : RawLiteral) (before after : Text) :
    normalize (before ++ literal.text ++ after) =
      contribution before (literal.text ++ after) ++
        (literal.quote.spelling (expandTabs literal.content) ++ normalize after) := by
  obtain ⟨content, ofLine, noTab⟩ := literal.quote.content_delimiter
  have inLine : ∀ char ∈ literal.text, char ≠ '\r' ∧ char ≠ '\n' := by
    intro char inside
    rcases List.mem_append.mp inside with front | closing
    · rcases List.mem_append.mp front with opening | inContent
      · exact (RawQuote.mem_opening opening).1
      · constructor
        · rintro rfl
          exact literal.inLine.1 inContent
        · rintro rfl
          exact literal.inLine.2 inContent
    · rw [List.mem_singleton.mp closing]
      exact ofLine
  have opening : '\t' ∉ literal.quote.opening := fun tab => (RawQuote.mem_opening tab).2 rfl
  have closing : '\t' ∉ [literal.quote.delimiter] := by simpa using noTab.symm
  have same : contribution literal.text after =
      literal.quote.spelling (expandTabs literal.content) := by
    rw [RawLiteral.text, RawQuote.spelling, contribution_line inLine content, expandTabs_append,
      expandTabs_append, expandTabs_of_noTab opening, expandTabs_of_noTab closing]
    rfl
  rw [List.append_assoc, normalize_eq_rewrite, normalize_eq_rewrite, rewrite_append, rewrite_append,
    same]

/-- The literal stands, with the same content, in the place that normalisation
gives it. -/
def RawLiteral.Stands (literal : RawLiteral) (before after : Text) : Prop :=
  contribution before (literal.text ++ after) ++ literal.text <+:
    normalize (before ++ literal.text ++ after)

theorem RawLiteral.stands_iff (literal : RawLiteral) (before after : Text) :
    literal.Stands before after ↔ '\t' ∉ literal.content := by
  constructor
  · intro stands tab
    have inText : '\t' ∈ contribution before (literal.text ++ after) ++ literal.text := by
      simp [text, RawQuote.spelling, tab]
    exact (normalize_canonical _).noTab (stands.subset inText)
  · intro noTab
    rw [Stands, normalize_literal, expandTabs_of_noTab noTab, List.prefix_append_right_inj]
    exact List.prefix_append _ _

/-! ## The literal in a tree -/

/-- An anonymous token outside every field. -/
structure IsToken (source : Text) (child : Node) (token : Text) : Prop where
  anonymous : child.named = false
  unlabelled : child.field = none
  text : child.text source = token

/-- A squiggle without interpolations, as the grammar has it. Nothing stands
between its tokens. -/
structure PlainSquiggle (source : Text) (node nameNode : Node) (contents : List Node) : Prop where
  children : ∃ tilde opening closing,
    node.children = tilde :: nameNode :: opening :: (contents ++ [closing]) ∧
      IsToken source tilde ['~'] ∧ IsToken source opening ['`'] ∧ IsToken source closing ['`']
  tiled : node.text source = node.children.flatMap (Node.text source)
  nameNamed : nameNode.named = true
  nameKind : nameNode.kind = "squiggle_name"
  nameField : nameNode.field = some "name"
  nameText : '`' ∉ nameNode.text source
  contentNamed : ∀ child ∈ contents, child.named = true
  contentKind : ∀ child ∈ contents, child.kind = "squiggle_content"
  contentText : ∀ child ∈ contents, '`' ∉ child.text source

/-- A `string` of the single-quoted form. -/
structure PlainString (source : Text) (node inner : Node) : Prop where
  only : node.firstNamed = some inner
  kind : inner.kind = "single_quoted_string"
  text : ∃ content, inner.text source = '\'' :: content ++ ['\''] ∧ '\'' ∉ content

/-- A text is cut at its first delimiter in one way. -/
theorem append_cons_inj {delimiter : Char} {front before back after : Text}
    (outside : delimiter ∉ front) (other : delimiter ∉ before)
    (same : front ++ delimiter :: back = before ++ delimiter :: after) :
    front = before ∧ back = after := by
  induction front generalizing before with
  | nil =>
    cases before with
    | nil => exact ⟨rfl, (List.cons.inj same).2⟩
    | cons first before => exact absurd (List.cons.inj same).1 fun equal => other (by simp [equal])
  | cons first front ih =>
    cases before with
    | nil => exact absurd (List.cons.inj same).1 fun equal => outside (by simp [equal])
    | cons second before =>
      obtain ⟨rfl, later⟩ := List.cons.inj same
      obtain ⟨rfl, rfl⟩ := ih (fun inside => outside (List.mem_cons_of_mem _ inside))
        (fun inside => other (List.mem_cons_of_mem _ inside)) later
      exact ⟨rfl, rfl⟩

/-- A node that starts at a position and has a text reads what stands there. -/
theorem text_at {source front written : Text} {node : Node} (whole : front ++ written = source)
    (start : node.span.start = byteSize front) (some_ : node.text source ≠ []) :
    ∃ rest, node.text source ++ rest = written := by
  unfold Node.text at some_ ⊢
  cases found : slice? source node.span.start node.span.stop with
  | none => simp [found] at some_
  | some part =>
    obtain ⟨-, before, after, same, size, -⟩ := slice?_eq_some_iff.mp found
    obtain ⟨-, same⟩ := append_inj_of_byteSize (whole.trans same) (start.symm.trans size.symm)
    exact ⟨after, same.symm⟩

section

variable {source : Text} {node nameNode : Node} {contents : List Node}

theorem PlainSquiggle.text_eq (plain : PlainSquiggle source node nameNode contents) :
    node.text source =
      '~' :: nameNode.text source ++ '`' :: (contents.flatMap (Node.text source) ++ ['`']) := by
  obtain ⟨tilde, opening, closing, children, first, second, third⟩ := plain.children
  rw [plain.tiled, children]
  simp [first.text, second.text, third.text]

/-- Lowering a squiggle without interpolations keeps its name and its content. -/
theorem lowerSquiggle_plain (plain : PlainSquiggle source node nameNode contents) :
    lowerSquiggle source node =
      .returned (some (.squiggle (identFromNode source nameNode)
        (contents.map fun child => .text (textOf source child)) node.span)) [] := by
  obtain ⟨tilde, opening, closing, children, first, second, third⟩ := plain.children
  have name : node.childByFieldName "name" = some nameNode := by
    rw [Node.childByFieldName, children]
    simp [first.unlabelled, plain.nameField]
  have named : node.namedChildren = nameNode :: contents := by
    have kept : contents.filter Node.named = contents := by
      simpa using plain.contentNamed
    rw [Node.namedChildren, children]
    simp [first.anonymous, second.anonymous, third.anonymous, plain.nameNamed, kept]
  have skipped : lowerFragment source "squiggle_content" nameNode = .returned none [] := by
    rw [lowerFragment, plain.nameKind]
    rfl
  rw [lowerSquiggle, name]
  dsimp only
  rw [collectFragments_eq, named, each, skipped, each_lowerFragment_text source plain.contentKind]
  rfl

end

/-! ## What is lowered and evaluated -/

/-- What a literal of the source is lowered to and evaluated to, if it starts at
a position: the characters of `content`. -/
def ReadsAs (source : Text) (start : Nat) (content : Text) : RawQuote → Prop
  | .squiggle name _ => ∀ (node nameNode : Node) (contents : List Node),
    PlainSquiggle source node nameNode contents → node.span.start = start →
      nameNode.text source = name ∧ ∃ fragments,
        lowerSquiggle source node =
          .returned (some (.squiggle (identFromNode source nameNode) fragments node.span)) [] ∧
        fragmentTexts fragments = content ∧
        ∀ scope squiggle, Squiggle.lookup (String.ofList name) = some squiggle →
          eval scope (.squiggle (identFromNode source nameNode) fragments node.span) =
            squiggle.finish (String.ofList content)
  | .single => ∀ node inner : Node, PlainString source node inner → inner.span.start = start →
    lowerString source node =
        .returned (some (.stringLit [.text (String.ofList content)] node.span)) [] ∧
      ∀ scope, eval scope (.stringLit [.text (String.ofList content)] node.span) =
        .ok (.string (String.ofList content))

/-- Lowering reads what stands in the text. -/
theorem readsAs_spelling (quote : RawQuote) {content : Text} (undelimited : quote.delimiter ∉ content)
    (front after : Text) :
    ReadsAs (front ++ (quote.spelling content ++ after)) (byteSize front) content quote := by
  generalize whole : front ++ (quote.spelling content ++ after) = source
  cases quote with
  | squiggle name identifier =>
    intro node nameNode contents plain start
    have shape := plain.text_eq
    obtain ⟨rest, there⟩ := text_at whole start (by simp [shape])
    have noDelimiter : '`' ∉ name := fun inside => (mem_identifier identifier inside).2.2 rfl
    have inContents : '`' ∉ contents.flatMap (Node.text source) := by
      intro inside
      obtain ⟨child, member, found⟩ := List.mem_flatMap.mp inside
      exact plain.contentText child member found
    rw [shape] at there
    simp only [RawQuote.spelling, RawQuote.opening, RawQuote.delimiter, List.append_assoc,
      List.cons_append, List.nil_append, List.cons.injEq, true_and] at there
    obtain ⟨sameName, behind⟩ := append_cons_inj plain.nameText noDelimiter there
    obtain ⟨sameContent, -⟩ := append_cons_inj inContents undelimited behind
    have texts : contents.map (fun child => .text (textOf source child)) =
        (contents.map (Node.text source)).map fun text => StringFragment.text (String.ofList text) := by
      rw [List.map_map]
      rfl
    refine ⟨sameName, _, lowerSquiggle_plain plain, ?_, ?_⟩
    · rw [texts, fragmentTexts_parts, ← List.flatMap_def, sameContent]
    · intro scope squiggle known
      refine eval_squiggle ?_ ?_
      · rw [identFromNode, textOf, sameName, known]
      · rw [texts, concatFragments_texts, ← List.flatMap_def, sameContent]
  | single =>
    intro node inner plain start
    obtain ⟨body, shape, outside⟩ := plain.text
    obtain ⟨rest, there⟩ := text_at whole start (by simp [shape])
    rw [shape] at there
    simp only [RawQuote.spelling, RawQuote.opening, RawQuote.delimiter, List.append_assoc,
      List.cons_append, List.nil_append, List.cons.injEq, true_and] at there
    obtain ⟨rfl, -⟩ := append_cons_inj outside undelimited there
    refine ⟨?_, fun scope => eval_text scope body node.span⟩
    rw [lowerString, plain.only]
    simp only [plain.kind, shape, unquote_quoted]
    rfl

/-- After normalisation the literal stands in its place with the same content,
and that content is what it is lowered and evaluated to. -/
structure RawLiteral.Survives (literal : RawLiteral) (before after : Text) : Prop where
  stands : literal.Stands before after
  reads : ReadsAs (normalize (before ++ literal.text ++ after))
    (byteSize (contribution before (literal.text ++ after))) literal.content literal.quote

/-- Normalisation keeps the content of a raw literal exactly if it has no tab;
in general the literal is read with its tabs expanded. -/
theorem raw_literal_survives_iff (literal : RawLiteral) (before after : Text) :
    (literal.Survives before after ↔ '\t' ∉ literal.content) ∧
      ReadsAs (normalize (before ++ literal.text ++ after))
        (byteSize (contribution before (literal.text ++ after))) (expandTabs literal.content)
        literal.quote := by
  have undelimited : literal.quote.delimiter ∉ expandTabs literal.content := by
    intro inside
    rcases mem_expandTabs inside with space | kept
    · have content := literal.quote.content_delimiter.1
      rw [space] at content
      exact absurd content (by decide)
    · exact literal.undelimited kept
  have reads := readsAs_spelling literal.quote undelimited
    (contribution before (literal.text ++ after)) (normalize after)
  rw [← normalize_literal] at reads
  refine ⟨⟨fun survives => (literal.stands_iff before after).mp survives.stands, ?_⟩, reads⟩
  intro noTab
  refine ⟨(literal.stands_iff before after).mpr noTab, ?_⟩
  rwa [expandTabs_of_noTab noTab] at reads

/-- ``~re`a→b` `` with a tab between its letters. -/
def tabbedPattern : RawLiteral where
  quote := .squiggle ['r', 'e'] rfl
  content := ['a', '\t', 'b']
  undelimited := by simp [RawQuote.delimiter]
  unescaped := by simp
  uninterpolated := by decide
  inLine := by simp

/-- A tab in a pattern does not survive. -/
theorem tabbedPattern_rewritten :
    ¬ ∀ (literal : RawLiteral) (before after : Text), literal.Survives before after := by
  intro survives
  have stands : tabbedPattern.text <+: normalize (tabbedPattern.text ++ ['\n']) :=
    (survives tabbedPattern [] ['\n']).stands
  exact absurd stands (by decide)

end Ill.Lower
