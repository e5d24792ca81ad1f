import Ill.Base.Utf8
import Mathlib.Data.List.DropRight

/-!
# Normalisation of source text

What is done to a source text before it is parsed: line endings become `\n`,
tabs two spaces, trailing whitespace goes, and the text ends in exactly one
line feed.
-/

namespace Ill.Lower

open Base.Utf8

/-- The Unicode property `White_Space`, which `trim_end` goes by. -/
def isWhitespace (char : Char) : Bool :=
  let code := char.toNat
  (9 ≤ code && code ≤ 13) || code == 0x20 || code == 0x85 || code == 0xA0 || code == 0x1680 ||
    (0x2000 ≤ code && code ≤ 0x200A) || code == 0x2028 || code == 0x2029 || code == 0x202F ||
    code == 0x205F || code == 0x3000

/-- `replace("\r\n", "\n")` -/
def replaceCrlf : Text → Text
  | '\r' :: '\n' :: rest => '\n' :: replaceCrlf rest
  | char :: rest => char :: replaceCrlf rest
  | [] => []

/-- `replace('\r', "\n")` -/
def replaceCr (text : Text) : Text :=
  text.map fun char => if char = '\r' then '\n' else char

/-- `replace('\t', "  ")` -/
def expandTabs (line : Text) : Text :=
  line.flatMap fun char => if char = '\t' then [' ', ' '] else [char]

def trimEnd (line : Text) : Text := line.rdropWhile isWhitespace

/-- The lines, expanded and trimmed, each with a line feed. -/
def joinLines (text : Text) : Text :=
  (text.splitOn '\n').flatMap fun line => trimEnd (expandTabs line) ++ ['\n']

/-- Pop a line feed as long as the text, given from its end, ends in two. -/
def popNewlines : Text → Text
  | '\n' :: '\n' :: rest => popNewlines ('\n' :: rest)
  | text => text

/-- Collapse the trailing line feeds down to one. -/
def collapse (text : Text) : Text := (popNewlines text.reverse).reverse

def normalize (src : Text) : Text := collapse (joinLines (replaceCr (replaceCrlf src)))

example : normalize ['a', '\r', '\n', '\t', 'b', ' ', '\n', '\r'] = ['a', '\n', ' ', ' ', 'b', '\n'] := by
  decide

end Ill.Lower
