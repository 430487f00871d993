/-
A line of text while its markup is being read.

What has been read is closed to later rules: an element, or a text that is to stay as it is, counts
as one sign among the characters around it.  A new element is a draft first: the text within it may
hold markup for the later rules.
-/
import WikiMigration.Markdown.Definition
import WikiMigration.Markdown.RawHtml

namespace WikiMigration.Markdown

open Text

/-- A sign of a line. -/
inductive Glyph where
  | char (c : Char)
  /-- A text that is no longer read. -/
  | held (content : List Char)
  | element (tag : String) (attributes : List (String × List Char)) (content : List Node)

namespace Glyph

/-- The character that the sign is, if it is one. -/
def char? : Glyph → Option Char
  | .char c => some c
  | _ => none

/-- Whether the sign is the character. -/
def is (c : Char) (g : Glyph) : Bool := g.char? == some c

/-- Whether the sign is a word character. -/
def isWord (g : Glyph) : Bool := (g.char?.map isWordChar).getD false

/-- Whether the sign is blank. -/
def isSpace (g : Glyph) : Bool := (g.char?.map isBlank).getD false

/-- The text that the sign shows. -/
def shown : Glyph → List Char
  | .char c => [c]
  | .held content => content
  | .element _ _ content => innerTexts content

end Glyph

/-- The signs of a text. -/
def glyphs (text : List Char) : List Glyph := text.map .char

/-- The text that signs show. -/
def shownText (gs : List Glyph) : List Char := gs.flatMap Glyph.shown

/-- The characters that the signs are, if they all are characters. -/
def plainChars? (gs : List Glyph) : Option (List Char) := gs.mapM Glyph.char?

/-- A character in front of nodes; it joins a text of the same sort. -/
def consChar (isLiteral : Bool) (c : Char) : List Node → List Node
  | .text literal content :: rest =>
    if literal == isLiteral then .text literal (c :: content) :: rest
    else .text isLiteral [c] :: .text literal content :: rest
  | rest => .text isLiteral [c] :: rest

/-- The nodes that signs stand for; `isLiteral` says whether their text is. -/
def nodesOf (isLiteral : Bool) (gs : List Glyph) : List Node :=
  gs.foldr (fun g nodes =>
    match g with
    | .char c => consChar isLiteral c nodes
    | .held content => content.foldr (consChar isLiteral) nodes
    | .element tag attributes content => .element tag attributes content :: nodes) []

/-- The signs that nodes stand for. -/
def glyphsOf (nodes : List Node) : List Glyph :=
  nodes.flatMap fun node =>
    match node with
    | .text _ content => glyphs content
    | .element tag attributes content => [.element tag attributes content]

/-- A new piece of a line: its own text and that of its children are still to be read. -/
inductive Draft where
  /-- A piece in which nothing is to be read. -/
  | whole (g : Glyph)
  /-- An element with text, and children with text behind each. -/
  | element (tag : String) (attributes : List (String × List Char)) (text : List Glyph)
      (children : List (Draft × List Glyph))

/-! ### Where a sign may stand -/

/-- Whether the first sign is no word character; where there is none, it is not. -/
def noWordFirst : List Glyph → Bool
  | g :: _ => !g.isWord
  | [] => true

/-- Whether the first sign is the character. -/
def firstIs (c : Char) : List Glyph → Bool
  | g :: _ => g.is c
  | [] => false

/-- Whether the signs start with the character that many times. -/
def startsWithRun (c : Char) : Nat → List Glyph → Bool
  | 0, _ => true
  | n + 1, g :: rest => g.is c && startsWithRun c n rest
  | _ + 1, [] => false

/-- How many times the character stands at the front. -/
def runLength (c : Char) (gs : List Glyph) : Nat := (gs.takeWhile (Glyph.is c)).length

/-- Splits the signs at the first place, behind the first sign, where `here` holds of the signs before
it, last first, and of those from it on. -/
def splitWhere? (here : List Glyph → List Glyph → Bool) (before : List Glyph) :
    List Glyph → Option (List Glyph × List Glyph)
  | [] => none
  | g :: rest =>
    if here (g :: before) rest then some ([g], rest)
    else (splitWhere? here (g :: before) rest).map fun (inner, behind) => (g :: inner, behind)

end WikiMigration.Markdown
