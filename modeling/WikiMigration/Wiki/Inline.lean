/-
Inline markup of the wiki dialect.

A line of text passes through a fixed row of passes.  The first of them take literal
characters, preformatted text, plugins and links out of the text and hold them apart, so that no
later one looks inside; in the text a numbered mark stands for each.  The other passes turn
emphasis and styles into tags, and at the end every mark gives way to what it stands for.

A mark inside something that is held itself is not filled in: it is written as its number between
two NUL characters.
-/
import WikiMigration.Text.Scan
import WikiMigration.Wiki.Link

namespace WikiMigration.Wiki

open Text

/-- An item of a line: a character, or the mark of a held fragment. -/
inductive Piece where
  | char (c : Char)
  | held (index : Nat)
  deriving DecidableEq, Repr

/-- The characters as pieces. -/
def Piece.ofText (text : List Char) : List Piece := text.map .char

/-- A piece as text: a mark is its number between two NUL characters. -/
def Piece.text : Piece → List Char
  | .char c => [c]
  | .held index => '\x00' :: (Nat.repr index).toList ++ ['\x00']

/-- The pieces as text. -/
def Piece.textOf (pieces : List Piece) : List Char := pieces.flatMap Piece.text

/-- Whether the piece is a character of the class. -/
def Piece.isChar (p : Char → Bool) : Piece → Bool
  | .char c => p c
  | .held _ => false

/-- What follows the opening text, if the pieces start with it. -/
def afterChars? : List Char → List Piece → Option (List Piece)
  | [], rest => some rest
  | c :: cs, .char d :: rest => if c == d then afterChars? cs rest else none
  | _ :: _, _ => none

/-- What stands before the first occurrence of the text, if there is one. -/
def beforeChars? (mark : List Char) : List Piece → Option (List Piece)
  | [] => none
  | piece :: rest =>
    if (afterChars? mark (piece :: rest)).isSome then some []
    else (beforeChars? mark rest).map (piece :: ·)

/-- A line in work: its pieces and the fragments held so far. -/
structure Line where
  pieces : List Piece
  fragments : List (List Char)
  deriving DecidableEq, Repr

/-! ### Holding fragments apart -/

/-- The pieces of a scanned line, each match held under the next free number, and the fragments. -/
def holdParts {α : Type} (fragment : α → List Char) :
    Nat → List (Part Piece α) → List Piece × List (List Char)
  | _, [] => ([], [])
  | next, .item piece :: rest =>
    let (pieces, fragments) := holdParts fragment next rest
    (piece :: pieces, fragments)
  | next, .found a :: rest =>
    let (pieces, fragments) := holdParts fragment (next + 1) rest
    (.held next :: pieces, fragment a :: fragments)

/-- Holds every match of a pattern apart. -/
def Line.hold {α : Type} (line : Line) (pattern : Pattern Piece α)
    (fragment : α → List Char) : Line :=
  let (pieces, fragments) := holdParts fragment line.fragments.length (parts pattern line.pieces)
  ⟨pieces, line.fragments ++ fragments⟩

/-- Holds one fragment that stands for every occurrence of a text. -/
def Line.holdLiteral (line : Line) (literal : List Char) (fragment : List Char) : Line :=
  let mark := Piece.held line.fragments.length
  let pattern : Pattern Piece Unit := fun pieces =>
    (afterChars? literal pieces).map fun _ => ((), literal.length)
  ⟨substitute pattern (fun _ => [mark]) line.pieces, line.fragments ++ [fragment]⟩

/-- Puts pieces in the place of every match of a pattern. -/
def Line.replace {α : Type} (line : Line) (pattern : Pattern Piece α)
    (replacement : α → List Piece) : Line :=
  { line with pieces := substitute pattern replacement line.pieces }

/-- The text of a line: each mark gives way to its fragment. -/
def Line.restore (line : Line) : List Char :=
  line.pieces.flatMap fun piece =>
    match piece with
    | .char c => [c]
    | .held index => (line.fragments[index]?).getD []

/-! ### The patterns -/

/-- The characters that a tilde takes the meaning from. -/
def isEscapable (c : Char) : Bool :=
  "[]{}_'!*#|\\~%^,-".toList.contains c

/-- A tilde and the character it makes literal. -/
def literalPattern : Pattern Piece Char
  | .char '~' :: .char c :: _ => if isEscapable c then some (c, 2) else none
  | _ => none

/-- What stands between an opening and the nearest closing text, with at least `least` pieces in
between. -/
def enclosedPattern (opening closing : List Char) (least : Nat) : Pattern Piece (List Piece) :=
  fun pieces =>
    match afterChars? opening pieces with
    | none => none
    | some rest =>
      if rest.length < least then none
      else (beforeChars? closing (rest.drop least)).map fun more =>
        (rest.take least ++ more, opening.length + least + more.length + closing.length)

/-- What stands between two brackets, with no bracket in between. -/
def linkPattern : Pattern Piece (List Piece)
  | .char '[' :: rest =>
    let body := rest.takeWhile fun piece => !piece.isChar fun c => c == '[' || c == ']'
    match rest.drop body.length with
    | .char ']' :: _ => if body.isEmpty then none else some (body, body.length + 2)
    | _ => none
  | _ => none

/-- The name of a style at the front: a text in parentheses, or a word that starts with a letter.
The second part is what follows it. -/
def styleName? (pieces : List Piece) : Option (List Piece × List Piece) :=
  match pieces with
  | .char '(' :: rest =>
    let inner := rest.takeWhile fun piece => !piece.isChar (· == ')')
    match rest.drop inner.length with
    | .char ')' :: behind => some (.char '(' :: inner ++ [.char ')'], behind)
    | _ => none
  | .char c :: rest =>
    if isLatin c then
      let more := rest.takeWhile fun piece => piece.isChar fun d => isWordChar d || d == '-'
      some (.char c :: more, rest.drop more.length)
    else none
  | _ => none

/-- A style, a blank, and the text up to the end of the style. -/
def stylePattern : Pattern Piece (List Piece × List Piece) := fun pieces =>
  match afterChars? "%%".toList pieces with
  | none => none
  | some rest =>
    match styleName? rest with
    | some (name, .char blank :: content) =>
      if isBlank blank then
        (beforeChars? "/%".toList content).map fun content =>
          ((name, content), 2 + name.length + 1 + content.length + 2)
      else none
    | _ => none

/-- Two or three backslashes. -/
def lineBreakPattern : Pattern Piece Unit
  | .char '\\' :: .char '\\' :: .char '\\' :: _ => some ((), 3)
  | .char '\\' :: .char '\\' :: _ => some ((), 2)
  | _ => none

/-! ### The passes -/

/-- The pieces inside a tag without attributes. -/
def tagged (tag : String) (content : List Piece) : List Piece :=
  Piece.ofText ("<" ++ tag ++ ">").toList ++ content ++ Piece.ofText ("</" ++ tag ++ ">").toList

/-- The pieces as an attribute value. -/
def escapeAttributePieces (pieces : List Piece) : List Piece :=
  pieces.flatMap fun piece =>
    match piece with
    | .char c => Piece.ofText (Html.escapeAttributeChar c)
    | .held index => [.held index]

/-- The pieces as running text. -/
def escapePieces (pieces : List Piece) : List Piece :=
  pieces.flatMap fun piece =>
    match piece with
    | .char c => Piece.ofText (Html.escapeChar c)
    | .held index => [.held index]

/-- The opening tag of a style: its name is a class, a text in parentheses a style sheet. -/
def openStyle (tag : String) (name : List Piece) : List Piece :=
  match name with
  | .char '(' :: inner =>
    Piece.ofText ("<" ++ tag ++ " style=\"").toList ++ escapeAttributePieces inner.dropLast
      ++ Piece.ofText "\">".toList
  | _ =>
    Piece.ofText ("<" ++ tag ++ " class=\"").toList ++ escapeAttributePieces name
      ++ Piece.ofText "\">".toList

/-- The tag that a style of this name has, if it has one of its own. -/
def styleTag? (name : List Piece) : Option String :=
  if name == Piece.ofText "sup".toList then some "sup"
  else if name == Piece.ofText "sub".toList then some "sub"
  else if name == Piece.ofText "strike".toList then some "del"
  else none

/-- A text in a style. -/
def renderStyle (name content : List Piece) : List Piece :=
  match styleTag? name with
  | some tag => tagged tag content
  | none => openStyle "span" name ++ content ++ Piece.ofText "</span>".toList

/-- A plugin, kept as text. -/
def renderPlugin (body : List Piece) : List Char :=
  "<span class=\"wikiplugin\">".toList ++ Html.escape (Piece.textOf body) ++ "</span>".toList

/-- Preformatted text within a line. -/
def renderCode (body : List Piece) : List Char :=
  "<code>".toList ++ Html.escape (Piece.textOf body) ++ "</code>".toList

/-- The line with its literal characters and preformatted text held apart. -/
def Line.withLiteralsHeld (text : List Char) : Line :=
  (((Line.mk (Piece.ofText text) []).hold literalPattern fun c => [c]).holdLiteral
    "[[".toList ['[']).hold
      (enclosedPattern "\x7b\x7b\x7b".toList "\x7d\x7d\x7d".toList 0) renderCode

/-- A plugin: a text between a bracket and a brace. -/
def pluginPattern : Pattern Piece (List Piece) :=
  enclosedPattern "[\x7b".toList "\x7d]".toList 0

/-- The line with its plugins and links held apart too. -/
def Line.withLinksHeld (context : Context) (line : Line) : Line :=
  (line.hold pluginPattern renderPlugin).hold linkPattern fun body =>
    renderLink context (Piece.textOf body)

/-- The line with its running text written as HTML and its emphasis and styles as tags. -/
def Line.withStyles (line : Line) : Line :=
  (((((({ line with pieces := escapePieces line.pieces } : Line).replace
    (enclosedPattern "__".toList "__".toList 1) (tagged "b")).replace
    (enclosedPattern "''".toList "''".toList 1) (tagged "i")).replace
    (enclosedPattern "\x7b\x7b".toList "\x7d\x7d".toList 1) (tagged "code")).replace
    stylePattern fun (name, content) => renderStyle name content).replace
    lineBreakPattern fun _ => Piece.ofText "<br />".toList)

/-- One line of inline markup as HTML. -/
def renderInline (context : Context) (text : List Char) : List Char :=
  ((Line.withLiteralsHeld text).withLinksHeld context).withStyles.restore

/-- The plugins of a line, each as the text between its braces. -/
def pluginsOf (text : List Char) : List (List Char) :=
  (parts pluginPattern (Line.withLiteralsHeld text).pieces).filterMap fun part =>
    match part with
    | .item _ => none
    | .found body => some (Piece.textOf body)

end WikiMigration.Wiki
