import Ill.Lower.Equations
import Ill.Lower.Rewrite

/-!
# Escapes

A double-quoted string is decoded one token of its content at a time. No token
ends inside an escape, so the parts are decoded to what the whole is, and
escaping the seven special characters spells every text in one line that
normalisation leaves alone.
-/

namespace Ill.Lower

open Base Base.Utf8 Base.Reporting Ast

/-! ## Tokens -/

/-- A `string_content` token: a run of plain characters, a backslash and one
character of the line, or a dollar. -/
inductive StringContent : Text → Prop where
  | run (char : Char) (rest : Text)
    (plain : ∀ inside ∈ char :: rest, inside ≠ '"' ∧ inside ≠ '\\' ∧ inside ≠ '$') :
    StringContent (char :: rest)
  | escape (char : Char) (inLine : char ≠ '\n') : StringContent ['\\', char]
  | dollar : StringContent ['$']

/-- The tokens cover the content of a string without interpolation. -/
structure Covers (tokens : List Text) (content : Text) : Prop where
  each : ∀ token ∈ tokens, StringContent token
  whole : tokens.flatten = content

/-- Decode one part, then the other. -/
def andThen (first second : Except String Text) : Except String Text := do
  let before ← first
  let after ← second
  return before ++ after

@[simp] theorem andThen_ok (before : Text) (second : Except String Text) :
    andThen (.ok before) second = second.map (before ++ ·) := by
  cases second <;> rfl

theorem andThen_nil (second : Except String Text) : andThen (.ok []) second = second := by
  cases second <;> rfl

@[simp] theorem andThen_error (message : String) (second : Except String Text) :
    andThen (.error message) second = .error message := rfl

@[simp] theorem unescape_nil : unescape [] = .ok [] := by
  rw [unescape.eq_def]

theorem unescape_plain {char : Char} (plain : char ≠ '\\') (rest : Text) :
    unescape (char :: rest) = (unescape rest).map (char :: ·) := by
  rw [unescape.eq_def]
  split
  · next same => exact absurd (List.cons.inj same).1 plain
  · next same => exact absurd (List.cons.inj same).1 plain
  · next same =>
    obtain ⟨rfl, rfl⟩ := List.cons.inj same
    rfl
  · next same => exact nomatch same

/-- The character that a known escape stands for. -/
def escaped? : Char → Option Char
  | '\\' => some '\\'
  | '"' => some '"'
  | 'n' => some '\n'
  | 't' => some '\t'
  | 'r' => some '\r'
  | '0' => some '\x00'
  | '$' => some '$'
  | _ => none

theorem unescape_known {char decoded : Char} (known : escaped? char = some decoded) (rest : Text) :
    unescape ('\\' :: char :: rest) = (unescape rest).map (decoded :: ·) := by
  unfold escaped? at known
  split at known
  case h_8 => simp at known
  all_goals
    obtain rfl := Option.some.inj known
    rw [unescape]

theorem unescape_unknown {char : Char} (unknown : escaped? char = none) (rest : Text) :
    unescape ('\\' :: char :: rest) = .error s!"unknown escape sequence `\\{char}`" := by
  unfold escaped? at unknown
  split at unknown
  case h_8 => rw [unescape] <;> assumption
  all_goals simp at unknown

/-- An escape is decoded by itself. -/
theorem unescape_escape (char : Char) (rest : Text) :
    unescape ('\\' :: char :: rest) = andThen (unescape ['\\', char]) (unescape rest) := by
  cases decoded : escaped? char with
  | none => rw [unescape_unknown decoded, unescape_unknown decoded, andThen_error]
  | some char => simp [unescape_known decoded, Except.map]

/-- What follows a token does not change how it is decoded. -/
theorem unescape_append {token : Text} (content : StringContent token) (rest : Text) :
    unescape (token ++ rest) = andThen (unescape token) (unescape rest) := by
  cases content with
  | run char tail plain =>
    generalize char :: tail = run at plain
    induction run with
    | nil => rw [unescape_nil, andThen_nil, List.nil_append]
    | cons first run ih =>
      obtain ⟨here, later⟩ := List.forall_mem_cons.mp plain
      rw [List.cons_append, unescape_plain here.2.1, unescape_plain here.2.1, ih later]
      cases unescape run with
      | error message => rfl
      | ok decoded => cases unescape rest <;> rfl
  | escape char inLine => exact unescape_escape char rest
  | dollar =>
    rw [List.singleton_append, unescape_plain (by decide), unescape_plain (by decide)]
    cases unescape rest <;> rfl

theorem andThen_eq_ok {first second : Except String Text} {out : Text} :
    andThen first second = .ok out ↔
      ∃ before after, first = .ok before ∧ second = .ok after ∧ before ++ after = out := by
  cases first with
  | error message => simp
  | ok before => cases second <;> simp [Except.map]

/-- Each token is decoded to the part beside it. -/
abbrev Decodes (tokens parts : List Text) : Prop :=
  List.Forall₂ (fun token part => unescape token = .ok part) tokens parts

/-- The whole can be decoded exactly if every part can, to the parts in order. -/
theorem unescape_flatten {tokens : List Text} (content : ∀ token ∈ tokens, StringContent token)
    (out : Text) :
    unescape tokens.flatten = .ok out ↔ ∃ parts, Decodes tokens parts ∧ parts.flatten = out := by
  induction tokens generalizing out with
  | nil => simp [eq_comm]
  | cons token rest ih =>
    obtain ⟨here, later⟩ := List.forall_mem_cons.mp content
    rw [List.flatten_cons, unescape_append here, andThen_eq_ok]
    constructor
    · rintro ⟨before, after, first, second, rfl⟩
      obtain ⟨parts, decoded, rfl⟩ := (ih later after).mp second
      exact ⟨before :: parts, .cons first decoded, rfl⟩
    · rintro ⟨parts, decoded, rfl⟩
      cases decoded with
      | cons first others => exact ⟨_, _, first, (ih later _).mpr ⟨_, others, rfl⟩, rfl⟩

/-! ## The closing quote -/

/-- The content up to the first quote outside an escape. -/
def uptoQuote : Text → Option Text
  | [] => none
  | '"' :: _ => some []
  | '\\' :: char :: rest => (uptoQuote rest).map fun content => '\\' :: char :: content
  | char :: rest => (uptoQuote rest).map (char :: ·)

theorem uptoQuote_plain {char : Char} (noQuote : char ≠ '"') (plain : char ≠ '\\') (rest : Text) :
    uptoQuote (char :: rest) = (uptoQuote rest).map (char :: ·) := by
  rw [uptoQuote]
  · exact noQuote
  · exact fun _ _ same => absurd same plain

theorem uptoQuote_token {token : Text} (content : StringContent token) (rest : Text) :
    uptoQuote (token ++ rest) = (uptoQuote rest).map (token ++ ·) := by
  cases content with
  | run char tail plain =>
    generalize char :: tail = run at plain
    induction run with
    | nil => simp
    | cons first run ih =>
      obtain ⟨here, later⟩ := List.forall_mem_cons.mp plain
      rw [List.cons_append, uptoQuote_plain here.1 here.2.1, ih later, Option.map_map]
      rfl
  | escape char inLine => rfl
  | dollar => exact uptoQuote_plain (by decide) (by decide) rest

/-- The content that tokens cover ends at the first quote outside an escape. -/
theorem uptoQuote_covers {tokens : List Text} {content : Text} (covers : Covers tokens content)
    (rest : Text) : uptoQuote (content ++ '"' :: rest) = some content := by
  obtain ⟨each, rfl⟩ := covers
  induction tokens with
  | nil => rfl
  | cons token tokens ih =>
    obtain ⟨here, later⟩ := List.forall_mem_cons.mp each
    rw [List.flatten_cons, List.append_assoc, uptoQuote_token here, ih later]
    rfl

/-! ## Spelling a text -/

/-- The spelling of a character inside double quotes. -/
def escapeChar : Char → Text
  | '\\' => ['\\', '\\']
  | '"' => ['\\', '"']
  | '$' => ['\\', '$']
  | '\n' => ['\\', 'n']
  | '\t' => ['\\', 't']
  | '\r' => ['\\', 'r']
  | '\x00' => ['\\', '0']
  | char => [char]

def escaped (text : Text) : Text := text.flatMap escapeChar

def quoted (text : Text) : Text := '"' :: escaped text ++ ['"']

/-- A character is spelt as one token, in the line, that is decoded to it. -/
structure Spells (token : Text) (char : Char) : Prop where
  content : StringContent token
  decoded : unescape token = .ok [char]
  inLine : ∀ inside ∈ token, (inside ≠ '\r' ∧ inside ≠ '\n') ∧ inside ≠ '\t'

theorem spells_escape {letter char : Char} (known : escaped? letter = some char)
    (inLine : (letter ≠ '\r' ∧ letter ≠ '\n') ∧ letter ≠ '\t') :
    Spells ['\\', letter] char where
  content := .escape letter inLine.1.2
  decoded := by
    rw [unescape_known known, unescape_nil]
    rfl
  inLine := by simpa using inLine

theorem spells_escapeChar (char : Char) : Spells (escapeChar char) char := by
  unfold escapeChar
  split
  case h_8 noBackslash noQuote noDollar noFeed noTab noReturn noNul =>
    refine ⟨.run char [] (by simpa using ⟨noQuote, noBackslash, noDollar⟩), ?_, ?_⟩
    · rw [unescape_plain noBackslash, unescape_nil]
      rfl
    · simpa using ⟨⟨noReturn, noFeed⟩, noTab⟩
  all_goals exact spells_escape rfl (by decide)

theorem covers_escaped (text : Text) : Covers (text.map escapeChar) (escaped text) where
  each := by
    intro token inside
    obtain ⟨char, -, rfl⟩ := List.mem_map.mp inside
    exact (spells_escapeChar char).content
  whole := List.flatMap_def.symm

theorem unescape_escaped (text : Text) : unescape (escaped text) = .ok text := by
  induction text with
  | nil => exact unescape_nil
  | cons char text ih =>
    have token := spells_escapeChar char
    have split : escaped (char :: text) = escapeChar char ++ escaped text := List.flatMap_cons
    rw [split, unescape_append token.content, token.decoded, ih]
    rfl

theorem inLine_escaped {text : Text} :
    ∀ inside ∈ escaped text, (inside ≠ '\r' ∧ inside ≠ '\n') ∧ inside ≠ '\t' := by
  intro inside member
  obtain ⟨char, -, inToken⟩ := List.mem_flatMap.mp member
  exact (spells_escapeChar char).inLine inside inToken

/-- Normalisation leaves a spelt text alone, whatever stands around it. -/
theorem normalize_quoted (before text after : Text) :
    normalize (before ++ quoted text ++ after) =
      contribution before (quoted text ++ after) ++ quoted text ++ normalize after := by
  have inLine : ∀ char ∈ quoted text, (char ≠ '\r' ∧ char ≠ '\n') ∧ char ≠ '\t' := by
    intro char inside
    rcases List.mem_append.mp inside with opened | closing
    · rcases List.mem_cons.mp opened with rfl | content
      · decide
      · exact inLine_escaped char content
    · rw [List.mem_singleton.mp closing]
      decide
  have same : contribution (quoted text) after = quoted text := by
    rw [quoted, contribution_line (fun char inside => (inLine char inside).1) (by decide)]
    exact expandTabs_of_noTab fun tab => (inLine '\t' tab).2 rfl
  rw [List.append_assoc, normalize_eq_rewrite, normalize_eq_rewrite, rewrite_append, rewrite_append,
    same, List.append_assoc]

/-! ## Lowering the fragments -/

/-- The text of a fragment that is not an interpolation. -/
def fragmentText : StringFragment → Text
  | .text text => text.toList
  | .interpolation _ => []

def fragmentTexts (fragments : List StringFragment) : Text := fragments.flatMap fragmentText

/-- The named children of a string are `string_content` nodes with these texts. -/
def HoldsTokens (source : Text) (node : Node) (tokens : List Text) : Prop :=
  node.namedChildren.map (fun child => (child.kind, child.text source)) =
    tokens.map fun token => ("string_content", token)

theorem collectFragments_tokens {source : Text} {node : Node} {tokens : List Text}
    (holds : HoldsTokens source node tokens) :
    collectFragments source node "string_content" =
      .returned (tokens.map fun token => .text (String.ofList token)) [] := by
  have kinds : ∀ child ∈ node.namedChildren, child.kind = "string_content" := by
    intro child inside
    have pair : (child.kind, child.text source) ∈
        tokens.map fun token => ("string_content", token) :=
      holds ▸ List.mem_map_of_mem inside
    obtain ⟨token, -, same⟩ := List.mem_map.mp pair
    exact (congrArg Prod.fst same).symm
  have texts : node.namedChildren.map (Node.text source) = tokens := by
    have second := congrArg (List.map Prod.snd) holds
    simpa [Function.comp_def] using second
  rw [collectFragments_eq, each_lowerFragment_text source kinds, ← texts, List.map_map]
  rfl

/-- Unescaping is silent exactly if every token can be decoded. -/
theorem each_unescapeFragment {node : Node} {tokens : List Text} {fragments : List StringFragment} :
    each (unescapeFragment node) (tokens.map fun token => .text (String.ofList token)) =
        .returned fragments [] ↔
      ∃ parts, Decodes tokens parts ∧ fragments = parts.map fun part => .text (String.ofList part) := by
  induction tokens generalizing fragments with
  | nil =>
    constructor
    · rintro ⟨⟩
      exact ⟨[], .nil, rfl⟩
    · rintro ⟨parts, ⟨⟩, rfl⟩
      rfl
  | cons token tokens ih =>
    rw [List.map_cons, each_cons_eq_quiet, unescapeFragment, String.toList_ofList]
    constructor
    · rintro ⟨value, others, first, later, rfl⟩
      obtain ⟨parts, decoded, rfl⟩ := ih.mp later
      cases here : unescape token with
      | error message =>
        rw [here] at first
        obtain ⟨-, reported⟩ := Reporting.returned.inj first
        simp at reported
      | ok part =>
        rw [here] at first
        obtain ⟨rfl, -⟩ := Reporting.returned.inj first
        exact ⟨part :: parts, .cons here decoded, rfl⟩
    · rintro ⟨parts, decoded, rfl⟩
      cases decoded with
      | cons first others =>
        rw [first]
        exact ⟨_, _, rfl, ih.mpr ⟨_, others, rfl⟩, rfl⟩

theorem fragmentTexts_parts (parts : List Text) :
    fragmentTexts (parts.map fun part => .text (String.ofList part)) = parts.flatten := by
  simp [fragmentTexts, fragmentText, List.flatMap_map, List.flatMap_id']

/-- A string whose tokens cover a content is lowered without a report exactly if
the content as a whole can be unescaped, and then to what that gives. -/
theorem lowerStringFragments_tokens {source : Text} {node : Node} {tokens : List Text}
    {content : Text} (covers : Covers tokens content) (holds : HoldsTokens source node tokens)
    (out : Text) :
    (∃ fragments, lowerStringFragments source node = .returned fragments [] ∧
      fragmentTexts fragments = out) ↔ unescape content = .ok out := by
  obtain ⟨each, rfl⟩ := covers
  rw [unescape_flatten each, lowerStringFragments, collectFragments_tokens holds]
  change (∃ fragments, Reporting.after [] _ = _ ∧ _) ↔ _
  rw [after_nil]
  constructor
  · rintro ⟨fragments, lowered, rfl⟩
    obtain ⟨parts, decoded, rfl⟩ := each_unescapeFragment.mp lowered
    exact ⟨parts, decoded, (fragmentTexts_parts parts).symm⟩
  · rintro ⟨parts, decoded, rfl⟩
    exact ⟨_, each_unescapeFragment.mpr ⟨parts, decoded, rfl⟩, fragmentTexts_parts parts⟩

/-- Every text can be spelt in double quotes. Normalisation leaves its spelling
alone, the string ends where the spelling does, tokens cover it, and however
they do its fragments are lowered to the text. In general, where tokens cover a
content, unescaping them one by one succeeds exactly if unescaping the whole
does, and gives the same. -/
theorem strings_expressible :
    (∀ before text after : Text,
      normalize (before ++ quoted text ++ after) =
        contribution before (quoted text ++ after) ++ quoted text ++ normalize after) ∧
    (∀ text after : Text, uptoQuote (escaped text ++ '"' :: after) = some (escaped text)) ∧
    (∀ text : Text, ∃ tokens, Covers tokens (escaped text)) ∧
    (∀ (text : Text) (tokens : List Text), Covers tokens (escaped text) →
      ∀ (source : Text) (node : Node), HoldsTokens source node tokens →
        ∃ fragments, lowerStringFragments source node = .returned fragments [] ∧
          fragmentTexts fragments = text) ∧
    (∀ (content : Text) (tokens : List Text), Covers tokens content →
      (∀ out, unescape content = .ok out ↔ ∃ parts, Decodes tokens parts ∧ parts.flatten = out) ∧
      ∀ (source : Text) (node : Node), HoldsTokens source node tokens → ∀ out,
        ((∃ fragments, lowerStringFragments source node = .returned fragments [] ∧
          fragmentTexts fragments = out) ↔ unescape content = .ok out)) := by
  refine ⟨normalize_quoted, ?_, ?_, ?_, ?_⟩
  · intro text after
    exact uptoQuote_covers (covers_escaped text) after
  · intro text
    exact ⟨_, covers_escaped text⟩
  · intro text tokens covers source node holds
    exact (lowerStringFragments_tokens covers holds text).mpr (unescape_escaped text)
  · intro content tokens covers
    refine ⟨?_, fun source node holds => lowerStringFragments_tokens covers holds⟩
    obtain ⟨each, rfl⟩ := covers
    exact unescape_flatten each

end Ill.Lower
