/-
Prose that reads as markup, made literal.

Each dialect has characters that would be taken for markup within a line and openings that would be
taken for it at the start of one.  Markdown makes them literal with a backslash, the wiki dialect
with a tilde, or by doubling the opening bracket and the tilde itself.
-/
import WikiMigration.Dialect
import WikiMigration.Text.Lines
import WikiMigration.Text.WordChar

namespace WikiMigration.Writing

open Text

/-! ### Within a line -/

/-- The text with a backslash before every asterisk. -/
def escapeAsterisks (text : List Char) : List Char :=
  text.flatMap fun c => if c == '*' then ['\\', '*'] else [c]

/-- The text with a backslash before every low line that does not stand between two letters or
digits.  `inside` says that a letter or a digit stands before. -/
def escapeUnderscoresFrom (inside : Bool) : List Char → List Char
  | [] => []
  | c :: rest =>
    if c == '_' && !(inside && rest.head?.any isAlphanumeric) then
      '\\' :: '_' :: escapeUnderscoresFrom false rest
    else c :: escapeUnderscoresFrom (isAlphanumeric c) rest

/-- Prose of a Markdown page. -/
def escapeMarkdown (text : List Char) : List Char :=
  escapeUnderscoresFrom false (escapeAsterisks text)

/-- Prose of a wiki page. -/
def escapeWiki (text : List Char) : List Char :=
  let text := replaceAll ['~'] "~~".toList text
  let text := replaceAll ['['] "[[".toList text
  let text := replaceAll "__".toList "~_~_".toList text
  let text := replaceAll "''".toList "~'~'".toList text
  let text := replaceAll "\x7b\x7b".toList "~\x7b~\x7b".toList text
  replaceAll "\\\\".toList "~\\~\\".toList text

/-- Prose of a dialect. -/
def escape : Dialect → List Char → List Char
  | .markdown, text => escapeMarkdown text
  | .jspwiki, text => escapeWiki text

/-! ### At the start of a line -/

/-- Whether the character is a blank of the kind that indents. -/
def isIndent (c : Char) : Bool := c == ' ' || c == '\t'

/-- Whether a marker ends here: at an indenting blank or at the end of the line. -/
def endsMarker : List Char → Bool
  | [] => true
  | c :: _ => isIndent c

/-- The length of the block marker at the front of a line, if there is one: dashes, equals signs, a
plus sign, a quotation mark, up to six number signs, or up to nine digits with a dot or a
parenthesis behind them. -/
def markerLength? (line : List Char) : Option Nat :=
  let run (p : Char → Bool) := (line.takeWhile p).length
  let closed (n : Nat) : Option Nat := if endsMarker (line.drop n) then some n else none
  match line with
  | [] => none
  | c :: _ =>
    if c == '-' then closed (run (· == '-'))
    else if c == '=' then closed (run (· == '='))
    else if c == '+' || c == '>' then closed 1
    else if c == '#' then
      let n := run (· == '#')
      if n ≤ 6 then closed n else none
    else
      let n := run isDecimal
      if 1 ≤ n && n ≤ 9 && (line.drop n).head?.any (fun d => d == '.' || d == ')') then
        closed (n + 1)
      else none

/-- A line of Markdown prose: a block marker gets a backslash before it, one of a numbered item
before the character that ends it. -/
def escapeMarkdownLine (line : List Char) : List Char :=
  let indent := line.takeWhile isIndent
  let rest := line.drop indent.length
  match markerLength? rest with
  | none => line
  | some n =>
    let before := if rest.head?.any isDecimal then n - 1 else 0
    indent ++ rest.take before ++ '\\' :: rest.drop before

/-- A line of wiki prose: an item's marker, a heading's or a rule gets a tilde before it. -/
def escapeWikiLine (line : List Char) : List Char :=
  let indent := line.takeWhile isIndent
  let rest := line.drop indent.length
  let opens :=
    match rest with
    | [] => false
    | c :: _ => c == '*' || c == '#' || c == '!' || startsWith "----".toList rest
  if opens then indent ++ '~' :: rest else line

/-- Prose with the openings of its lines made literal. -/
def escapeLineStarts (dialect : Dialect) (text : List Char) : List Char :=
  unlines ((lines text).map (match dialect with
    | .markdown => escapeMarkdownLine
    | .jspwiki => escapeWikiLine))

end WikiMigration.Writing
