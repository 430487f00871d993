/-
HTML within a Markdown source.

An element of the level of blocks that starts a line is set aside with all it holds, up to its end
tag; so are comments, instructions and declarations at the start of a line.  Its mark stands in a
paragraph of its own.  What is within a line stays in the text, to be read with the line.  An
element whose `markdown` attribute asks for it is set aside as an element, and its content is read
as Markdown.

The source is gone through once, from left to right; what has been read so far is a `RawState`.
-/
import WikiMigration.Markdown.Node
import WikiMigration.Markdown.Tag

namespace WikiMigration.Markdown

open Text

/-- A piece that is set aside. -/
inductive Kept where
  | html (content : List Char)
  | element (node : Node)

/-- How the content of an element is read. -/
inductive ContentMode where
  | blocks
  | lines
  | raw
  deriving DecidableEq, Repr

/-- The name of the mode, as an element carries it until its content is read. -/
def ContentMode.name : ContentMode → List Char
  | .blocks => "block".toList
  | .lines => "span".toList
  | .raw => "off".toList

/-- The elements whose content can only be read as lines. -/
def lineTags : List String :=
  ["address", "dd", "dt", "h1", "h2", "h3", "h4", "h5", "h6", "legend", "li", "p", "summary", "td",
    "th"]

/-- The elements whose content is never read. -/
def rawTags : List String := ["canvas", "math", "option", "pre", "script", "style", "textarea"]

/-- Whether the content of such elements can be read as blocks. -/
def holdsBlocks (tag : String) : Bool :=
  isBlockTag tag && !lineTags.contains tag && !rawTags.contains tag && tag != "hr"

/-- The mode of an element within one of the mode `outer`, for its `markdown` attribute; `none` for
elements that are never set aside. -/
def contentMode (outer : Option ContentMode) (tag : String) (asked : List Char) :
    Option ContentMode :=
  let asked := if asked == "markdown".toList then ['1'] else asked
  let asked := match outer with
    | some .raw => ContentMode.raw.name
    | some .lines => if asked == ['0'] then asked else ContentMode.lines.name
    | _ => asked
  let isLine := lineTags.contains tag
  if (asked == ['1'] && holdsBlocks tag)
      || (asked == ContentMode.blocks.name && (holdsBlocks tag || isLine)) then some .blocks
  else if (asked == ['1'] && isLine)
      || (asked == ContentMode.lines.name && (holdsBlocks tag || isLine)) then some .lines
  else if isBlockTag tag then some .raw
  else none

/-- An element whose content is being read as Markdown. -/
structure OpenElement where
  tag : String
  mode : ContentMode
  attributes : List (String × List Char)
  /-- Its content so far, last piece first. -/
  content : List Node

/-- What has been read of a source. -/
structure RawState where
  /-- The text so far, in pieces, last one first. -/
  pieces : List (List Char) := []
  /-- The pieces set aside, in order. -/
  kept : List Kept := []
  /-- Whether an element is being set aside. -/
  inRaw : Bool := false
  /-- The elements open within it, innermost first. -/
  rawStack : List String := []
  /-- What has been set aside of it, in pieces, last one first. -/
  pending : List (List Char) := []
  /-- Whether the line goes on behind an element that was set aside. -/
  inTail : Bool := false
  /-- The elements whose content is read as Markdown, innermost first. -/
  opened : List OpenElement := []
  /-- The element within which only its own end tag is markup. -/
  plainUntil : Option String := none

/-- Where in the source a piece of markup stands: whether it starts its line, and what follows it. -/
structure Spot where
  startsLine : Bool
  behind : List Char

/-- Whether an empty line follows. -/
def blankLineFollows (text : List Char) : Bool :=
  match text.dropWhile (· == ' ') with
  | '\n' :: rest => (rest.dropWhile (· == ' ')).head? == some '\n'
  | _ => false

namespace RawState

/-- Sets a piece aside; the result is its mark. -/
def keep (s : RawState) (piece : Kept) : List Char × RawState :=
  (keptMark s.kept.length, { s with kept := s.kept ++ [piece] })

/-- Adds a piece of text. -/
def put (s : RawState) (piece : List Char) : RawState := { s with pieces := piece :: s.pieces }

/-- Adds a piece to what is being set aside. -/
def hold (s : RawState) (piece : List Char) : RawState := { s with pending := piece :: s.pending }

/-- Ends the line of the last piece with an empty one, if it only ends a line. -/
def endParagraph (s : RawState) : RawState :=
  match s.pieces with
  | last :: _ =>
    if endsWith ['\n'] last && !endsWith ['\n', '\n'] last then s.put ['\n'] else s
  | [] => s

/-- Reads text. -/
def text (s : RawState) (data : List Char) : RawState :=
  let s := if s.inTail && data.contains '\n' then { s with inTail := false } else s
  if s.inRaw then s.hold data
  else
    match s.opened with
    | [] => s.put data
    | top :: rest => { s with opened := { top with content := .plain data :: top.content } :: rest }

/-- Reads a piece of markup without content. -/
def single (s : RawState) (spot : Spot) (data : List Char) (isBlock : Bool) : RawState :=
  if s.inRaw || s.opened.isEmpty then
    if s.inRaw || s.inTail then s.hold data
    else if spot.startsLine && isBlock then
      let isAlone := blankLineFollows spot.behind
      let s := if isAlone then s else { s with inTail := true }
      let (m, s) := s.endParagraph.keep (.html (if isAlone then data ++ ['\n'] else data))
      (s.put m).put ['\n', '\n']
    else s.put data
  else
    let (m, s) := s.keep (.html data)
    if spot.startsLine && isBlock then s.text ('\n' :: m ++ ['\n', '\n']) else s.text m

/-- Markup within a line, which a raw element sets aside. -/
def withinLine (s : RawState) (data : List Char) : RawState :=
  match s.opened with
  | top :: _ =>
    if top.mode == .raw then
      let (m, s) := s.keep (.html data)
      s.text m
    else s.text data
  | [] => s.text data

/-- A start tag that is not read as Markdown's own. -/
def plainStart (s : RawState) (spot : Spot) (tag : String) (data : List Char) : RawState :=
  let s := if isBlockTag tag && (s.inTail || spot.startsLine) then
      { s with inRaw := true }.put ['\n']
    else s
  if s.inRaw then { s.hold data with rawStack := tag :: s.rawStack }
  else { s.put data with plainUntil := none }

/-- An end tag that is not read as Markdown's own. -/
def plainEnd (s : RawState) (spot : Spot) (tag : String) (data : List Char) : RawState :=
  if s.inRaw then
    let s := s.hold data
    let s := if s.rawStack.contains tag then
        { s with rawStack := (s.rawStack.dropWhile (· != tag)).drop 1 }
      else s
    if s.rawStack.isEmpty then
      let s := if blankLineFollows spot.behind then s.hold ['\n'] else { s with inTail := true }
      let (m, s) := s.keep (.html s.pending.reverse.flatten)
      ({ s with inRaw := false, pending := [] }.put m).put ['\n', '\n']
    else s
  else s.put data

mutual

/-- The node with the modes of its elements taken off. -/
def withoutModes : Node → Node
  | .text isLiteral content => .text isLiteral content
  | .element tag attributes children =>
    .element tag (attributes.filter fun a => a.1 != "markdown") (allWithoutModes children)

/-- The nodes with the modes of their elements taken off. -/
def allWithoutModes : List Node → List Node
  | [] => []
  | node :: rest => withoutModes node :: allWithoutModes rest

end

/-- The text behind an element that is set aside within another. -/
def tailText (tail : List Char) : List Char :=
  if tail == ['\n'] then tail else '\n' :: trimRightWith (· == '\n') tail

mutual

/-- Sets the elements within an element aside; their marks stand in its text. -/
def flatten (s : RawState) : Node → Node × RawState
  | .text isLiteral content => (.text isLiteral content, s)
  | .element tag attributes children =>
    let (content, s) := flattenAll s [] children
    (.element tag attributes [.plain content], s)

/-- Sets elements aside that follow the given text; the result is the text with their marks. -/
def flattenAll (s : RawState) (before : List Char) : List Node → List Char × RawState
  | [] => (before, s)
  | .text _ content :: rest => flattenAll s (before ++ content) rest
  | .element tag attributes children :: rest =>
    let mode := (attributes.lookup "markdown").getD ContentMode.raw.name
    let (child, s) := if mode == ContentMode.raw.name then
        (withoutModes (.element tag attributes children), s)
      else
        let (content, s) := flattenAll s [] children
        (.element tag attributes [.plain content], s)
    let (m, s) := s.keep (.element child)
    let before := if endsWith ['\n', '\n'] before then before
      else trimRightWith (· == '\n') before ++ ['\n', '\n']
    match rest with
    | .text _ tail :: rest => flattenAll s (before ++ m ++ tailText tail) rest
    | rest => flattenAll s (before ++ m ++ tailText []) rest

end

/-- Closes the innermost open element. -/
def closeInnermost (s : RawState) (spot : Spot) : RawState :=
  match s.opened with
  | [] => s
  | top :: rest =>
    let node := Node.element top.tag (("markdown", top.mode.name) :: top.attributes)
      top.content.reverse
    match rest with
    | parent :: others =>
      { s with opened := { parent with content := node :: parent.content } :: others }
    | [] =>
      let s := { s with opened := [] }.endParagraph
      let (node, s) := flatten s node
      let (m, s) := s.keep (.element node)
      let s := (s.put m).put ['\n', '\n']
      if blankLineFollows spot.behind then s else { s with inTail := true }

/-- Closes open elements up to the given number of them. -/
def closeMany (s : RawState) (spot : Spot) : Nat → RawState
  | 0 => s
  | n + 1 => closeMany (s.closeInnermost spot) spot n

/-- Closes the innermost open element of the name and all within it. -/
def close (s : RawState) (spot : Spot) (tag : String) : RawState :=
  s.closeMany spot ((s.opened.takeWhile fun e => e.tag != tag).length + 1)

/-- Reads a start tag. -/
def start (s : RawState) (spot : Spot) (tag : String)
    (attributes : List (String × Option (List Char))) (data : List Char) : RawState :=
  let attributes := attributes.foldl (fun done (key, value) =>
    setAttribute key (value.getD key.toList) done) []
  if tag == "hr" then
    let plain := attributes.filter fun a => a.1 != "markdown"
    let data := if plain.length == attributes.length then data
      else "<hr".toList ++ plain.flatMap (fun (key, value) =>
        ' ' :: key.toList ++ "=\"".toList ++ writeValue value ++ ['"']) ++ ['>']
    s.single spot data true
  else if isBlockTag tag then
    let asked := (attributes.lookup "markdown").getD ['0']
    let mode := contentMode (s.opened.head?.map OpenElement.mode) tag asked
    if s.inRaw || (s.opened.isEmpty && (mode == none || mode == some .raw)) then
      s.plainStart spot tag data
    else
      let s := if s.opened.any fun e => e.tag == "p" then s.close spot "p" else s
      { s with opened :=
          ⟨tag, mode.getD .raw, attributes.filter fun a => a.1 != "markdown", []⟩ :: s.opened }
  else if s.inRaw then s.plainStart spot tag data
  else { s.withinLine data with plainUntil := none }

/-- Reads an end tag. -/
def stop (s : RawState) (spot : Spot) (tag : String) (data : List Char) : RawState :=
  if s.inRaw then s.plainEnd spot tag data
  else if isBlockTag tag && s.opened.any fun e => e.tag == tag then s.close spot tag
  else s.withinLine data

/-- Ends the source: what is still open is closed, and what is held is set aside. -/
def finish (s : RawState) : RawState :=
  let s := s.closeMany ⟨false, []⟩ s.opened.length
  if s.pending.isEmpty then s
  else
    let (m, s) := s.keep (.html s.pending.reverse.flatten)
    { s with pending := [] }.put m

end RawState

/-! ### Going through the source -/

/-- How many characters a reference covers, and the reference in full, if one is at the front of the
text. -/
def sourceReference? (text : List Char) : Option (List Char × Nat) :=
  let isHex (c : Char) : Bool := c.isDigit || ('a' ≤ c.toLower && c.toLower ≤ 'f')
  let numeric (opening : List Char) (digits rest : List Char) : Option (List Char × Nat) :=
    match rest with
    | c :: _ =>
      if digits.isEmpty || isHex c then none
      else
        let covered := opening.length + digits.length
        some (opening ++ digits ++ [';'], if c == ';' then covered + 1 else covered)
    | [] => none
  match text with
  | '&' :: '#' :: x :: rest =>
    if x == 'x' || x == 'X' then
      let digits := rest.takeWhile isHex
      numeric ['&', '#', x] digits (rest.drop digits.length)
    else
      let digits := (x :: rest).takeWhile Char.isDigit
      numeric ['&', '#'] digits ((x :: rest).drop digits.length)
  | '&' :: c :: rest =>
    if c.isAlpha then
      let name := c :: rest.takeWhile fun d => d.isAlphanum || d == '-' || d == '.'
      if (rest.drop (name.length - 1)).head? == some ';' then
        some ('&' :: name ++ [';'], name.length + 2)
      else none
    else none
  | _ => none

/-- What ends a comment: what stands before two dashes, blanks and a closing bracket, and whether
there are blanks. -/
def commentEnd? : List Char → Option (List Char × Bool)
  | '-' :: '-' :: rest =>
    match rest with
    | '>' :: _ => some ([], false)
    | rest =>
      if (rest.dropWhile isBlank).head? == some '>' then some ([], true)
      else (commentEnd? ('-' :: rest)).map fun (inner, blanks) => ('-' :: inner, blanks)
  | c :: rest => (commentEnd? rest).map fun (inner, blanks) => (c :: inner, blanks)
  | [] => none

/-- How much of the source a piece of markup covers, and the state behind it. -/
abbrev RawStep := Nat × RawState

/-- Ordinary text from a bracket on that starts no markup: up to the next closing bracket, or else
to the next opening one. -/
def unclosed (s : RawState) (text : List Char) : RawStep :=
  let inner := text.drop 1
  let n :=
    match cut? ['>'] inner with
    | some (before, _) => before.length + 2
    | none =>
      match cut? ['<'] inner with
      | some (before, _) => before.length + 1
      | none => 1
  (n, s.text (text.take n))

/-- An end tag, or what looks like one. -/
def readEndTag (s : RawState) (startsLine : Bool) (text : List Char) : RawStep :=
  match cut? ['>'] text with
  | none => unclosed s text
  | some (before, behind) =>
    let n := before.length + 1
    let data := text.take n
    let inner := (before.drop 2).dropWhile isBlank
    let name := inner.takeWhile fun c => !(Html.isTagBlank c || c == '/')
    let tag := Html.lowerName name
    let isTag := match name with
      | c :: _ => c.isAlpha
      | [] => false
    match s.plainUntil with
    | some plain =>
      if isTag && tag == plain then
        (n, { s.stop ⟨startsLine, behind⟩ tag data with plainUntil := none })
      else (n, s.text data)
    | none =>
      if isTag then (n, s.stop ⟨startsLine, behind⟩ tag data)
      else if before.length == 2 then (n, s.text data)
      else (n, s.single ⟨startsLine, behind⟩ data false)

/-- A start tag, or what looks like one. -/
def readTag (s : RawState) (startsLine : Bool) (text : List Char) : RawStep :=
  match readStartTag text with
  | .junk n => (max n 1, s.text (text.take (max n 1)))
  | .tag name attributes isClosed n =>
    let spot : Spot := ⟨startsLine, text.drop n⟩
    if isClosed then (n, s.single spot (text.take n) (isBlockTag name))
    else
      let s := if name == "script" || name == "style" then { s with plainUntil := some name } else s
      (n, s.start spot name attributes (text.take n))

/-- A comment, a declaration or an instruction. -/
def readDeclaration (s : RawState) (startsLine : Bool) (text : List Char) : RawStep :=
  let stands := startsLine || s.inTail || !s.opened.isEmpty
  let upTo (mark : List Char) (from_ : Nat) (isBlock : Bool) : RawStep :=
    match cut? mark (text.drop from_) with
    | some (inner, behind) =>
      let n := from_ + inner.length + mark.length
      (n, s.single ⟨startsLine, behind⟩ (text.take n) isBlock)
    | none => unclosed s text
  if startsWith "<!--".toList text then
    match commentEnd? (text.drop 4) with
    | some (inner, false) =>
      let n := inner.length + 7
      (n, s.single ⟨startsLine, text.drop n⟩ (text.take n) true)
    | some (_, true) => (1, s.text ['<'])
    | none => unclosed s text
  else if !stands then (2, s.text (text.take 2))
  else if startsWith "<?".toList text then upTo "?>".toList 2 true
  else if startsWith "<![CDATA[".toList text then upTo "]]>".toList 9 true
  else if startsWith "<![".toList text then
    match cut? ['>'] text with
    | some _ => upTo ['>'] 2 false
    | none => (1, s.text ['<'])
  else if (text.take 9).map Char.toLower == "<!doctype".toList then upTo ['>'] 9 true
  else upTo ['>'] 2 false

/-- Goes through the source.  `column` counts the characters since the line began, and `blank` says
whether they all are; `fuel` bounds the number of steps. -/
def readSource (fuel : Nat) (s : RawState) (column : Nat) (blank : Bool) (text : List Char) :
    RawState :=
  match fuel with
  | 0 => s
  | fuel + 1 =>
    match text with
    | [] => s
    | c :: rest =>
      let startsLine := column == 0 || (column ≤ 3 && blank)
      let isMarkup (d : Char) : Bool := d == '<' || (d == '&' && s.plainUntil.isNone)
      let (n, s) :=
        if !isMarkup c then
          let data := text.takeWhile fun d => !isMarkup d
          (data.length, s.text data)
        else if c == '&' then
          match sourceReference? text with
          | some (reference, n) =>
            (n, s.single ⟨startsLine, text.drop n⟩ reference false)
          | none => (1, s.text ['&'])
        else
          match rest with
          | d :: _ =>
            if d == '/' then readEndTag s startsLine text
            else if s.plainUntil.isSome then (1, s.text ['<'])
            else if d.isAlpha then readTag s startsLine text
            else if d == '!' || d == '?' then readDeclaration s startsLine text
            else (1, s.text ['<'])
          | [] => (1, s.text ['<'])
      let passed := text.take n
      let line := (passed.reverse.takeWhile (· != '\n')).reverse
      let hasNewline := line.length < passed.length
      readSource fuel s (if hasNewline then line.length else column + line.length)
        ((hasNewline || blank) && line.all isBlank) (text.drop n)

/-- The lines with HTML set aside, and the pieces set aside, behind those there are already. -/
def keepHtml (kept : List Kept) (ls : List (List Char)) : List (List Char) × List Kept :=
  let source := unlines ls
  let s := (readSource (source.length + 1) { kept } 0 true source).finish
  (lines s.pieces.reverse.flatten, s.kept)

end WikiMigration.Markdown
