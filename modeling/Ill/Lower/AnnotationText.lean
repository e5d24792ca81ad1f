import Ill.Base.Except
import Ill.Lower.Constructs

/-!
# The text of an annotation

The value of an annotation is decoded by `extract_string_text`, and any other string
by `lower_string`. Both read the same tokens, but only the second unescapes them.
-/

namespace Ill.Lower

open Base Base.Utf8 Base.Reporting Ast

/-! ## Escapes shorten a text -/

/-- Decoding makes a text no longer, and shorter if there is an escape in it. -/
theorem length_unescape {token decoded : Text} (decodes : unescape token = .ok decoded) :
    decoded.length ≤ token.length ∧ ('\\' ∈ token → decoded.length < token.length) := by
  fun_induction unescape token generalizing decoded with
  | case1 rest ih | case2 rest ih | case3 rest ih | case4 rest ih | case5 rest ih | case6 rest ih
  | case7 rest ih =>
    obtain ⟨later, below, rfl⟩ := map_eq_ok.mp decodes
    have shorter := (ih below).1
    simp only [List.length_cons]
    omega
  | case8 => cases decodes
  | case9 => cases decodes
  | case10 char rest noEscape noDangling ih =>
    obtain ⟨later, below, rfl⟩ := map_eq_ok.mp decodes
    obtain ⟨within, shorter⟩ := ih below
    refine ⟨Nat.succ_le_succ within, fun inside => Nat.succ_lt_succ (shorter ?_)⟩
    rcases List.mem_cons.mp inside with same | deeper
    · cases rest with
      | nil => exact (noDangling same.symm rfl).elim
      | cons letter rest => exact (noEscape letter rest same.symm rfl).elim
    · exact deeper
  | case11 =>
    cases decodes
    simp

/-- Plain text stands for itself. -/
theorem unescape_of_noEscape {token : Text} (plain : '\\' ∉ token) : unescape token = .ok token := by
  induction token with
  | nil => exact unescape_nil
  | cons char rest ih =>
    rw [List.mem_cons, not_or] at plain
    rw [unescape_plain (Ne.symm plain.1), ih plain.2]
    rfl

theorem length_decodes {tokens parts : List Text} (decodes : Decodes tokens parts) :
    parts.flatten.length ≤ tokens.flatten.length := by
  induction decodes with
  | nil => exact Nat.le_refl 0
  | cons here _ ih =>
    rw [List.flatten_cons, List.flatten_cons, List.length_append, List.length_append]
    exact Nat.add_le_add (length_unescape here).1 ih

/-- The parts are the tokens themselves exactly if there is no escape among them. -/
theorem flatten_decodes_iff {tokens parts : List Text} (decodes : Decodes tokens parts) :
    tokens.flatten = parts.flatten ↔ ∀ token ∈ tokens, '\\' ∉ token := by
  induction decodes with
  | nil => simp
  | @cons token part tokens parts here later ih =>
    rw [List.flatten_cons, List.flatten_cons, List.forall_mem_cons, ← ih]
    constructor
    · intro same
      have lengths := congrArg List.length same
      rw [List.length_append, List.length_append] at lengths
      have within := length_decodes later
      have plain : '\\' ∉ token := by
        intro escape
        have shorter := (length_unescape here).2 escape
        omega
      obtain rfl := Except.ok.inj ((unescape_of_noEscape plain).symm.trans here)
      exact ⟨plain, List.append_cancel_left same⟩
    · rintro ⟨plain, same⟩
      obtain rfl := Except.ok.inj ((unescape_of_noEscape plain).symm.trans here)
      rw [same]

/-! ## Both readings of a string -/

section

variable (source : Text)

/-- The texts of the content tokens of a double-quoted string. -/
def contents (inner : Node) : List Text :=
  (inner.namedChildren.filter fun child => child.kind == "string_content").map (Node.text source)

/-- A string node without interpolation and with known escapes only. -/
inductive Uninterpolated (node : Node) : Prop where
  | doubleQuoted {inner : Node} (first : node.firstNamed = some inner)
      (double : inner.kind = "double_quoted_string")
      (uninterpolated : ∀ child ∈ inner.namedChildren, child.kind ≠ "interpolation")
      (known : ∀ token ∈ contents source inner, ∃ decoded, unescape token = .ok decoded)
  | singleQuoted {inner : Node} {content : Text} (first : node.firstNamed = some inner)
      (single : inner.kind = "single_quoted_string")
      (quoted : inner.text source = '\'' :: content ++ ['\''])

/-- There is no escape in the string, if it is in double quotes. -/
def Unescaped (node : Node) : Prop :=
  ∀ inner, node.firstNamed = some inner → inner.kind = "double_quoted_string" →
    ∀ token ∈ contents source inner, '\\' ∉ token

variable {source}

theorem lowerStringFragments_contents {inner : Node}
    (uninterpolated : ∀ child ∈ inner.namedChildren, child.kind ≠ "interpolation")
    {parts : List Text} (decodes : Decodes (contents source inner) parts) :
    lowerStringFragments source inner =
      .returned (parts.map fun part => .text (String.ofList part)) [] := by
  have collected : collectFragments source inner "string_content" =
      .returned ((contents source inner).map fun token => .text (String.ofList token)) [] := by
    rw [collectFragments_eq, each_lowerFragment_filter source fun child inside =>
      .inr (uninterpolated child inside), contents, List.map_map]
    rfl
  rw [lowerStringFragments, collected]
  exact (after_nil _).trans (each_unescapeFragment.mpr ⟨parts, decodes, rfl⟩)

theorem extractStringText_double {node inner : Node} (first : node.firstNamed = some inner)
    (double : inner.kind = "double_quoted_string") :
    extractStringText source node = .returned (String.ofList (contents source inner).flatten) [] := by
  rw [extractStringText, first]
  simp only [double, contents, List.flatMap_def]
  rfl

theorem extractStringText_single {node inner : Node} {content : Text}
    (first : node.firstNamed = some inner) (single : inner.kind = "single_quoted_string")
    (quoted : inner.text source = '\'' :: content ++ ['\'']) :
    extractStringText source node = .returned (String.ofList content) [] := by
  rw [extractStringText, first]
  simp only [single, quoted, unquote_quoted]
  rfl

theorem lowerString_double {node inner : Node} (first : node.firstNamed = some inner)
    (double : inner.kind = "double_quoted_string") {fragments : List StringFragment}
    (lowered : lowerStringFragments source inner = .returned fragments []) :
    lowerString source node = .returned (some (.stringLit fragments node.span)) [] := by
  rw [lowerString]
  split
  · next absent => simp [first] at absent
  · next child same =>
    obtain rfl := Option.some.inj (first.symm.trans same)
    simp only [double, lowered]
    rfl

theorem lowerString_single {node inner : Node} {content : Text} (first : node.firstNamed = some inner)
    (single : inner.kind = "single_quoted_string")
    (quoted : inner.text source = '\'' :: content ++ ['\'']) :
    lowerString source node =
      .returned (some (.stringLit [.text (String.ofList content)] node.span)) [] := by
  rw [lowerString]
  split
  · next absent => simp [first] at absent
  · next child same =>
    obtain rfl := Option.some.inj (first.symm.trans same)
    simp only [single, quoted, unquote_quoted]
    rfl

/-- As the value of an annotation, a string is the text that it is elsewhere exactly
if there is no escape in it. -/
theorem annotation_text_iff (node : Node) (plain : Uninterpolated source node) :
    ∃ fragments, lowerString source node = .returned (some (.stringLit fragments node.span)) [] ∧
      (extractStringText source node = .returned (String.ofList (fragmentTexts fragments)) [] ↔
        Unescaped source node) := by
  cases plain with
  | @doubleQuoted inner first double uninterpolated known =>
    obtain ⟨parts, decodes⟩ := exists_forall₂ known
    have lowered := lowerStringFragments_contents uninterpolated decodes
    refine ⟨_, lowerString_double first double lowered, ?_⟩
    rw [extractStringText_double first double, fragmentTexts_parts, Reporting.returned.injEq,
      and_iff_left rfl, String.ofList_inj, flatten_decodes_iff decodes]
    constructor
    · intro each other same _
      obtain rfl := Option.some.inj (first.symm.trans same)
      exact each
    · exact fun unescaped => unescaped inner first double
  | @singleQuoted inner content first single quoted =>
    refine ⟨_, lowerString_single first single quoted, ?_⟩
    rw [extractStringText_single first single quoted]
    refine iff_of_true ?_ ?_
    · simp [fragmentTexts, fragmentText]
    · intro other same double
      obtain rfl := Option.some.inj (first.symm.trans same)
      simp [single] at double

end

/-! ## Strings of the grammar -/

/-- A string that conforms to the grammar is plain if nothing is interpolated. -/
theorem Uninterpolated.of_sound {source : Text} {node : Node} (sound : node.Sound source)
    (kind : node.kind = "string") (uninterpolated : ∀ inner ∈ node.namedChildren,
      ∀ child ∈ inner.namedChildren, child.kind ≠ "interpolation") : Uninterpolated source node := by
  have derived := sound.derived kind rfl
  obtain ⟨inner, only, -, listed⟩ := sound.here.only_child derived (by rw [kind]; decide) (by decide)
    (by decide)
  obtain ⟨named, kinds⟩ :=
    Node.named_of_label listed ["double_quoted_string", "single_quoted_string"] (by decide)
  have alone : node.namedChildren = [inner] := by simp [Node.namedChildren, only, named]
  have first : node.firstNamed = some inner := by rw [Node.firstNamed, alone, List.head?_cons]
  have within := sound.child (only ▸ List.mem_singleton_self inner)
  simp only [List.mem_cons, List.not_mem_nil, or_false] at kinds
  rcases kinds with double | single
  · refine .doubleQuoted first double (uninterpolated inner (alone ▸ List.mem_singleton_self inner)) ?_
    intro token inside
    obtain ⟨child, member, rfl⟩ := List.mem_map.mp inside
    obtain ⟨among, content⟩ := List.mem_filter.mp member
    have deeper := within.child (Node.mem_of_namedChildren among)
    have textual := beq_iff_eq.mp content
    exact unescape_of_known (deeper.here.content textual) (deeper.unescapable child .here textual)
  · obtain ⟨content, quoted⟩ := within.here.quoted single
    exact .singleQuoted first single quoted

/-- `'\n'` -/
def rawSource : Text := ['\'', '\\', 'n', '\'']

def rawNode : Node := { token "string" true 0 4 with
  children := [token "single_quoted_string" true 0 4] }

theorem annotation_text_iff_raw :
    ∃ fragments, lowerString rawSource rawNode = .returned (some (.stringLit fragments ⟨0, 4⟩)) [] ∧
      extractStringText rawSource rawNode = .returned (String.ofList (fragmentTexts fragments)) [] := by
  have quoted : (token "single_quoted_string" true 0 4).text rawSource =
      '\'' :: ['\\', 'n'] ++ ['\''] := by decide
  have plain : Uninterpolated rawSource rawNode := .singleQuoted rfl rfl quoted
  obtain ⟨fragments, lowered, same⟩ := annotation_text_iff rawNode plain
  refine ⟨fragments, lowered, same.mpr ?_⟩
  intro inner first double
  obtain rfl := Option.some.inj first
  exact absurd double (by decide)

/-- `"\n"` -/
def escapedSource : Text := ['"', '\\', 'n', '"']

def escapedInner : Node := { token "double_quoted_string" true 0 4 with
  children := [token "\"" false 0 1, token "string_content" true 1 2, token "\"" false 3 1] }

def escapedNode : Node := { token "string" true 0 4 with children := [escapedInner] }

theorem sound_escapeToken : (token "string_content" true 1 2).Sound escapedSource := by
  refine .of_children ⟨?_, ?_, ?_, ?_, ?_, ?_, ?_, ?_⟩ ⟨rfl, rfl⟩ ?_ ?_ ?_
  · intro rule known
    exact nomatch known
  · exact fun _ => rfl
  · intro before comment after whole
    exact absurd whole.symm (by simp [token])
  · intro _ first last head
    exact nomatch head
  · exact fun unnamed => nomatch unnamed
  · exact fun kind => absurd kind (by decide)
  · exact fun _ => .escape 'n' (by decide)
  · exact fun kind => absurd kind (by decide)
  · exact fun kind => absurd kind (by decide)
  · intro _ char text
    obtain rfl : 'n' = char := by simpa using (show ['\\', 'n'] = ['\\', char] from text)
    rfl
  · exact fun child inside => absurd inside List.not_mem_nil

theorem sound_escapedNode : escapedNode.Sound escapedSource := by
  refine .of_wellFormed (by decide) fun inner only => ?_
  obtain rfl := List.mem_singleton.mp only
  refine .of_wellFormed (by decide) (List.forall_mem_cons.mpr ⟨?_, List.forall_mem_cons.mpr ⟨?_, ?_⟩⟩)
  · exact Node.sound_of_wellFormedTree _ (by decide)
  · exact sound_escapeToken
  · exact List.forall_mem_singleton.mpr (Node.sound_of_wellFormedTree _ (by decide))

/-- As the value of an annotation, `"\n"` is a backslash and an n. -/
theorem escaped_annotation_raw :
    ¬ ∀ (source : Text) (node : Node), node.Sound source → Uninterpolated source node → ∀ fragments,
      lowerString source node = .returned (some (.stringLit fragments node.span)) [] →
        extractStringText source node = .returned (String.ofList (fragmentTexts fragments)) [] := by
  intro means
  have plain : Uninterpolated escapedSource escapedNode := by
    refine .of_sound sound_escapedNode rfl fun inner only => ?_
    obtain rfl := List.mem_singleton.mp only
    decide
  have decodes : Decodes (contents escapedSource escapedInner) [['\n']] := by
    refine .cons ?_ .nil
    exact (unescape_known rfl []).trans (by rw [unescape_nil]; rfl)
  have first : escapedNode.firstNamed = some escapedInner := rfl
  have lowered := lowerString_double first rfl (lowerStringFragments_contents (by decide) decodes)
  have same := means escapedSource escapedNode sound_escapedNode plain [.text "\n"] lowered
  exact absurd same (by decide)

end Ill.Lower
