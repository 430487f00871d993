/-
A place in a YAML text, and what can be read at one.

A cursor knows the text that is left and its position.  A reader of a scalar, an anchor or a tag
takes a cursor in front of it and gives what it read with the cursor behind it.  Behind the end of
the text stands the character NUL, which no document holds.
-/
import WikiMigration.Text.Lines
import WikiMigration.Text.Quoted

namespace WikiMigration.Yaml

open Text

/-! ### Tokens, where they stand, and what can be wrong

An error says what was being read, and where that began, and what went wrong, and where.
-/

/-- A position: line and column, both counted from zero. -/
structure Position where
  line : Nat
  column : Nat
  deriving DecidableEq, Repr

/-- The position in the document of a name, as a line of a message. -/
def Position.text (name : String) (p : Position) : String :=
  "  in \"" ++ name ++ "\", line " ++ Nat.repr (p.line + 1) ++ ", column " ++ Nat.repr (p.column + 1)

/-- What is wrong with a document. -/
inductive YamlError where
  /-- What was being read, where that began, what went wrong, and where. -/
  | malformed (context : Option String) (start : Option Position) (problem : String)
      (place : Option Position)
  /-- A character that no document may hold, with its index. -/
  | unprintable (c : Char) (index : Nat)
  deriving DecidableEq, Repr

/-- The message about an error in the document of a name.  Where both places are the same, only the
second is shown. -/
def YamlError.message (name : String) : YamlError → String
  | .malformed context start problem place =>
    let start := if start == place then none else start
    "\n".intercalate (context.toList ++ (start.map (Position.text name)).toList ++ [problem]
      ++ (place.map (Position.text name)).toList)
  | .unprintable c index =>
    "unacceptable character #x" ++ String.ofList (Text.hexDigits 4 c.toNat)
      ++ ": special characters are not allowed\n  in \"" ++ name ++ "\", position "
      ++ Nat.repr index

/-- A token. -/
inductive TokenKind where
  | version (major : Nat)
  | tagHandle (handle expansion : List Char)
  | otherDirective
  | documentStart
  | documentEnd
  | streamEnd
  | sequenceStart
  | mappingStart
  | blockEnd
  | flowSequenceStart
  | flowSequenceEnd
  | flowMappingStart
  | flowMappingEnd
  | flowEntry
  | blockEntry
  | key
  | value
  | alias (name : List Char)
  | anchor (name : List Char)
  /-- A tag: its handle, if it has one, and the rest of it. -/
  | tag (handle : Option (List Char)) (suffix : List Char)
  | scalar (content : List Char) (isPlain : Bool)
  deriving DecidableEq, Repr

/-- What messages call a token. -/
def TokenKind.label : TokenKind → String
  | .version _ => "<directive>"
  | .tagHandle _ _ => "<directive>"
  | .otherDirective => "<directive>"
  | .documentStart => "<document start>"
  | .documentEnd => "<document end>"
  | .streamEnd => "<stream end>"
  | .sequenceStart => "<block sequence start>"
  | .mappingStart => "<block mapping start>"
  | .blockEnd => "<block end>"
  | .flowSequenceStart => "["
  | .flowSequenceEnd => "]"
  | .flowMappingStart => "\x7b"
  | .flowMappingEnd => "\x7d"
  | .flowEntry => ","
  | .blockEntry => "-"
  | .key => "?"
  | .value => ":"
  | .alias _ => "<alias>"
  | .anchor _ => "<anchor>"
  | .tag _ _ => "<tag>"
  | .scalar _ _ => "<scalar>"

/-- A token with its position. -/
structure Token where
  kind : TokenKind
  start : Position
  deriving DecidableEq, Repr

/-! ### Places in a text -/

/-- A place in a text. -/
structure Cursor where
  rest : List Char
  index : Nat := 0
  line : Nat := 0
  column : Nat := 0

/-- Whether the character breaks a line. -/
def isBreak (c : Char) : Bool :=
  c == '\n' || c == '\r' || c == '\x85' || c == '\u2028' || c == '\u2029'

/-- Whether the character breaks a line, or stands behind the end. -/
def isBreakOrEnd (c : Char) : Bool := c == '\x00' || isBreak c

/-- Whether the character is a space, breaks a line, or stands behind the end. -/
def isSpaceOrEnd (c : Char) : Bool := c == ' ' || isBreakOrEnd c

/-- Whether the character separates tokens. -/
def isSeparator (c : Char) : Bool := c == '\t' || isSpaceOrEnd c

namespace Cursor

/-- The position of the cursor. -/
def position (c : Cursor) : Position := ⟨c.line, c.column⟩

/-- The character that stands `n` places ahead. -/
def ahead (c : Cursor) (n : Nat) : Char := (c.rest.drop n).headD '\x00'

/-- The character at the cursor. -/
def peek (c : Cursor) : Char := c.ahead 0

/-- The cursor one character ahead. -/
def next (c : Cursor) : Cursor :=
  match c.rest with
  | [] => c
  | x :: rest =>
    if isBreak x && !(x == '\r' && rest.head? == some '\n') then ⟨rest, c.index + 1, c.line + 1, 0⟩
    else ⟨rest, c.index + 1, c.line, if x == '\ufeff' then c.column else c.column + 1⟩

/-- The cursor that many characters ahead. -/
def skip (c : Cursor) : Nat → Cursor
  | 0 => c
  | n + 1 => c.next.skip n

/-- The characters of the class at the cursor. -/
def span (c : Cursor) (p : Char → Bool) : List Char := c.rest.takeWhile p

/-- The cursor behind the characters of the class. -/
def skipWhile (c : Cursor) (p : Char → Bool) : Cursor := c.skip (c.span p).length

/-- The line break at the cursor as it is read, and the cursor behind it. -/
def lineBreak (c : Cursor) : List Char × Cursor :=
  let x := c.peek
  if x == '\r' && c.ahead 1 == '\n' then (['\n'], c.skip 2)
  else if x == '\n' || x == '\r' || x == '\x85' then (['\n'], c.next)
  else if x == '\u2028' || x == '\u2029' then ([x], c.next)
  else ([], c)

/-- Whether three dashes or three dots stand at the cursor by themselves. -/
def atDocumentMark (c : Cursor) : Bool :=
  (startsWith "---".toList c.rest || startsWith "...".toList c.rest) && isSeparator (c.ahead 3)

end Cursor

/-- The failure of a reader: what it was reading, from where, and what it found instead. -/
def failAt {α : Type} (context : String) (start : Position) (problem : String) (c : Cursor) :
    Except YamlError α :=
  .error (.malformed (some context) (some start) problem (some c.position))

/-- A character as messages show it. -/
def shownChar (c : Char) : String := Text.quoted (String.singleton c)

/-! ### Plain scalars -/

/-- How many characters of a plain scalar stand together. -/
def plainLength (inFlow : Bool) : List Char → Nat
  | [] => 0
  | x :: rest =>
    let following := rest.headD '\x00'
    let endsHere := isSeparator x
      || (x == ':' && (isSeparator following || (inFlow && ",[]\x7b\x7d".toList.contains following)))
      || (inFlow && ",?[]\x7b\x7d".toList.contains x)
    if endsHere then 0 else plainLength inFlow rest + 1

/-- The line breaks and spaces at the cursor: the breaks, the cursor behind them, and whether a
document mark ended them.  `fuel` bounds the number of characters. -/
def breaksAndSpaces (fuel : Nat) (breaks : List Char) (c : Cursor) : List Char × Cursor × Bool :=
  match fuel with
  | 0 => (breaks, c, false)
  | fuel + 1 =>
    if c.peek == ' ' then breaksAndSpaces fuel breaks c.next
    else if isBreak c.peek then
      let (b, c) := c.lineBreak
      if c.atDocumentMark then (breaks ++ b, c, true) else breaksAndSpaces fuel (breaks ++ b) c
    else (breaks, c, false)

/-- What a line break and the breaks behind it stand for within a scalar: one break is a space. -/
def foldedBreaks (first breaks : List Char) : List Char :=
  (if first != ['\n'] then first else if breaks.isEmpty then [' '] else []) ++ breaks

/-- What separates the parts of a plain scalar, the cursor behind it, and whether a line was
broken; nothing separates them where a document mark follows. -/
def plainGap (c : Cursor) : List Char × Cursor × Bool :=
  let spaces := c.span (· == ' ')
  let c := c.skip spaces.length
  if isBreak c.peek then
    let (first, c) := c.lineBreak
    if c.atDocumentMark then ([], c, true)
    else
      let (breaks, c, stopped) := breaksAndSpaces (c.rest.length + 1) [] c
      if stopped then ([], c, true) else (foldedBreaks first breaks, c, true)
  else (spaces, c, false)

/-- A plain scalar within lines indented at least so far: its text, the cursor behind it, and whether
a line was broken behind its last part. -/
def plainScalar (fuel : Nat) (inFlow : Bool) (indent : Int) (gap : List Char) (broken : Bool)
    (c : Cursor) : List Char × Cursor × Bool :=
  match fuel with
  | 0 => ([], c, broken)
  | fuel + 1 =>
    let length := if c.peek == '#' then 0 else plainLength inFlow c.rest
    if length == 0 then ([], c, broken)
    else
      let part := c.rest.take length
      let (next, c, broken) := plainGap (c.skip length)
      if next.isEmpty || c.peek == '#' || (!inFlow && (c.column : Int) < indent) then
        (gap ++ part, c, broken)
      else
        let (more, c, broken) := plainScalar fuel inFlow indent next broken c
        (gap ++ part ++ more, c, broken)

/-! ### Quoted scalars -/

/-- The characters that a backslash and a letter stand for. -/
def escapes : List (Char × Char) :=
  [('0', '\x00'), ('a', '\x07'), ('b', '\x08'), ('t', '\t'), ('\t', '\t'), ('n', '\n'),
    ('v', '\x0b'), ('f', '\x0c'), ('r', '\r'), ('e', '\x1b'), (' ', ' '), ('"', '"'),
    ('\\', '\\'), ('/', '/'), ('N', '\x85'), ('_', '\xa0'), ('L', '\u2028'), ('P', '\u2029')]

/-- The letters behind a backslash that are followed by so many digits. -/
def escapeLengths : List (Char × Nat) := [('x', 2), ('u', 4), ('U', 8)]

/-- The value of a hexadecimal digit. -/
def hexDigit? (c : Char) : Option Nat :=
  if '0' ≤ c && c ≤ '9' then some (c.toNat - '0'.toNat)
  else if 'a' ≤ c && c ≤ 'f' then some (c.toNat - 'a'.toNat + 10)
  else if 'A' ≤ c && c ≤ 'F' then some (c.toNat - 'A'.toNat + 10)
  else none

/-- The number that hexadecimal digits spell. -/
def hexNumber (cs : List Char) : Nat := cs.foldl (fun n c => 16 * n + (hexDigit? c).getD 0) 0

/-- The line breaks within a quoted scalar, with the spaces at the start of the lines passed over. -/
def quotedBreaks (start : Position) (fuel : Nat) (breaks : List Char) (c : Cursor) :
    Except YamlError (List Char × Cursor) :=
  match fuel with
  | 0 => .ok (breaks, c)
  | fuel + 1 =>
    if c.atDocumentMark then
      failAt "while scanning a quoted scalar" start "found unexpected document separator" c
    else
      let c := c.skipWhile fun x => x == ' ' || x == '\t'
      if isBreak c.peek then
        let (b, c) := c.lineBreak
        quotedBreaks start fuel (breaks ++ b) c
      else .ok (breaks, c)

/-- What an escape sequence, whose backslash is at the cursor, stands for. -/
def escapeSequence (start : Position) (c : Cursor) : Except YamlError (List Char × Cursor) :=
  let c := c.next
  let x := c.peek
  match escapes.lookup x, escapeLengths.lookup x with
  | some y, _ => .ok ([y], c.next)
  | none, some length =>
    let c := c.next
    let digits := (c.rest.takeWhile fun d => (hexDigit? d).isSome).take length
    if digits.length < length then
      failAt "while scanning a double-quoted scalar" start
        ("expected escape sequence of " ++ Nat.repr length ++ " hexadecimal numbers, but found "
          ++ shownChar (c.ahead digits.length)) c
    else .ok ([Char.ofNat (hexNumber digits)], c.skip length)
  | none, none =>
    if isBreak x then
      let (_, c) := c.lineBreak
      quotedBreaks start (c.rest.length + 1) [] c
    else
      failAt "while scanning a double-quoted scalar" start
        ("found unknown escape character " ++ shownChar x) c

/-- What separates the words of a quoted scalar: spaces, or line breaks. -/
def quotedGap (start : Position) (c : Cursor) : Except YamlError (List Char × Cursor) :=
  let spaces := c.span fun x => x == ' ' || x == '\t'
  let c := c.skip spaces.length
  if c.peek == '\x00' then
    failAt "while scanning a quoted scalar" start "found unexpected end of stream" c
  else if isBreak c.peek then do
    let (first, c) := c.lineBreak
    let (breaks, c) ← quotedBreaks start (c.rest.length + 1) [] c
    return (foldedBreaks first breaks, c)
  else .ok (spaces, c)

/-- The rest of a quoted scalar; its opening quote is behind the cursor. -/
def quotedScalar (quote : Char) (start : Position) (fuel : Nat) (text : List Char) (c : Cursor) :
    Except YamlError (List Char × Cursor) :=
  match fuel with
  | 0 => .ok (text, c)
  | fuel + 1 => do
    let plain := c.span fun x => !(x == '\'' || x == '"' || x == '\\' || isSeparator x)
    if !plain.isEmpty then
      quotedScalar quote start fuel (text ++ plain) (c.skip plain.length)
    else
      let x := c.peek
      let isDouble := quote == '"'
      if !isDouble && x == '\'' && c.ahead 1 == '\'' then
        quotedScalar quote start fuel (text ++ ['\'']) (c.skip 2)
      else if x == quote then return (text, c.next)
      else if (isDouble && x == '\'') || (!isDouble && (x == '"' || x == '\\')) then
        quotedScalar quote start fuel (text ++ [x]) c.next
      else if x == '\\' then
        let (escaped, c) ← escapeSequence start c
        quotedScalar quote start fuel (text ++ escaped) c
      else
        let (gap, c) ← quotedGap start c
        quotedScalar quote start fuel (text ++ gap) c

/-! ### Block scalars -/

/-- How the line breaks at the end of a block scalar are kept. -/
inductive Chomping where
  | strip
  | clip
  | keep
  deriving DecidableEq, Repr

/-- The sign of a chomping at the cursor, with the cursor behind it. -/
def chomping? (c : Cursor) : Option (Chomping × Cursor) :=
  if c.peek == '+' then some (.keep, c.next)
  else if c.peek == '-' then some (.strip, c.next)
  else none

/-- The digit of an indentation at the cursor, with the cursor behind it. -/
def indentDigit? (start : Position) (c : Cursor) : Except YamlError (Option (Nat × Cursor)) :=
  if c.peek.isDigit then
    if c.peek == '0' then
      failAt "while scanning a block scalar" start
        "expected indentation indicator in the range 1-9, but found 0" c
    else .ok (some (c.peek.toNat - '0'.toNat, c.next))
  else .ok none

/-- The indicators of a block scalar. -/
def blockIndicators (start : Position) (c : Cursor) : Except YamlError ((Chomping × Option Nat) × Cursor) := do
  let (chomping, indent, c) ← match chomping? c with
    | some (chomping, c) =>
      match ← indentDigit? start c with
      | some (n, c) => pure (chomping, some n, c)
      | none => pure (chomping, none, c)
    | none =>
      match ← indentDigit? start c with
      | some (n, c) =>
        match chomping? c with
        | some (chomping, c) => pure (chomping, some n, c)
        | none => pure (.clip, some n, c)
      | none => pure (.clip, none, c)
  if isSpaceOrEnd c.peek then return ((chomping, indent), c)
  else
    failAt "while scanning a block scalar" start
      ("expected chomping or indentation indicators, but found " ++ shownChar c.peek) c

/-- The rest of a line that holds at most a comment. -/
def emptyLineEnd (context : String) (start : Position) (c : Cursor) : Except YamlError Cursor :=
  let c := c.skipWhile (· == ' ')
  let c := if c.peek == '#' then c.skipWhile fun x => !isBreakOrEnd x else c
  if isBreakOrEnd c.peek then .ok c.lineBreak.2
  else failAt context start ("expected a comment or a line break, but found " ++ shownChar c.peek) c

/-- The line breaks at the start of a block scalar, with the greatest indentation of its lines. -/
def leadingBreaks (fuel : Nat) (breaks : List Char) (deepest : Nat) (c : Cursor) :
    List Char × Nat × Cursor :=
  match fuel with
  | 0 => (breaks, deepest, c)
  | fuel + 1 =>
    if c.peek == ' ' then
      let c := c.next
      leadingBreaks fuel breaks (max deepest c.column) c
    else if isBreak c.peek then
      let (b, c) := c.lineBreak
      leadingBreaks fuel (breaks ++ b) deepest c
    else (breaks, deepest, c)

/-- The line breaks at the cursor, with the indentation of the lines behind them passed over. -/
def indentedBreaks (indent : Nat) (fuel : Nat) (breaks : List Char) (c : Cursor) :
    List Char × Cursor :=
  match fuel with
  | 0 => (breaks, c)
  | fuel + 1 =>
    let c := c.skip (min (c.span (· == ' ')).length (indent - c.column))
    if isBreak c.peek then
      let (b, c) := c.lineBreak
      indentedBreaks indent fuel (breaks ++ b) c
    else (breaks, c)

/-- The lines of a block scalar: its text, the break at the end of its last line, the breaks behind
it, and the cursor. -/
def blockLines (isFolded : Bool) (indent : Nat) (fuel : Nat) (text breaks : List Char) (c : Cursor) :
    List Char × List Char × List Char × Cursor :=
  match fuel with
  | 0 => (text, [], breaks, c)
  | fuel + 1 =>
    let startsPlainly := !(c.peek == ' ' || c.peek == '\t')
    let line := c.span fun x => !isBreakOrEnd x
    let text := text ++ breaks ++ line
    let (b, c) := (c.skip line.length).lineBreak
    let (breaks, c) := indentedBreaks indent (c.rest.length + 1) [] c
    if c.column == indent && c.peek != '\x00' then
      let isFold := isFolded && b == ['\n'] && startsPlainly && !(c.peek == ' ' || c.peek == '\t')
      let joined := if isFold then (if breaks.isEmpty then [' '] else []) else b
      blockLines isFolded indent fuel (text ++ joined) breaks c
    else (text, b, breaks, c)

/-- A block scalar, whose sign is at the cursor, within a block indented so far. -/
def blockScalar (isFolded : Bool) (outer : Int) (c : Cursor) : Except YamlError (List Char × Cursor) := do
  let start := c.position
  let ((chomping, indent?), c) ← blockIndicators start c.next
  let c ← emptyLineEnd "while scanning a block scalar" start c
  let least := (max (outer + 1) 1).toNat
  let (breaks, indent, c) := match indent? with
    | none =>
      let (breaks, deepest, c) := leadingBreaks (c.rest.length + 1) [] 0 c
      (breaks, max least deepest, c)
    | some n =>
      let indent := least + n - 1
      let (breaks, c) := indentedBreaks indent (c.rest.length + 1) [] c
      (breaks, indent, c)
  let (text, last, breaks, c) :=
    if c.column == indent && c.peek != '\x00' then
      blockLines isFolded indent (c.rest.length + 1) [] breaks c
    else ([], [], breaks, c)
  let text := match chomping with
    | .strip => text
    | .clip => text ++ last
    | .keep => text ++ last ++ breaks
  return (text, c)

/-! ### Anchors and tags -/

/-- Whether the character may stand in the name of an anchor. -/
def isAnchorChar (c : Char) : Bool := c.isAlphanum || c == '-' || c == '_'

/-- The name of an anchor or an alias, whose sign is at the cursor. -/
def anchorName (noun : String) (c : Cursor) : Except YamlError (List Char × Cursor) :=
  let start := c.position
  let context := "while scanning an " ++ noun
  let c := c.next
  let name := c.span isAnchorChar
  let refused (c : Cursor) : Except YamlError (List Char × Cursor) :=
    failAt context start ("expected alphabetic or numeric character, but found " ++ shownChar c.peek) c
  if name.isEmpty then refused c
  else
    let c := c.skip name.length
    if isSeparator c.peek || "?:,]\x7d%@`".toList.contains c.peek then .ok (name, c) else refused c

/-- Whether the character may stand in a tag. -/
def isTagChar (c : Char) : Bool :=
  c.isAlphanum || "-;/?:@&=+$,_.!~*'()[]".toList.contains c

/-- The bytes of escaped characters in a tag. -/
def tagEscapes (noun : String) (start : Position) (fuel : Nat) (bytes : List Nat) (c : Cursor) :
    Except YamlError (List Nat × Cursor) :=
  match fuel with
  | 0 => .ok (bytes, c)
  | fuel + 1 =>
    if c.peek == '%' then
      match hexDigit? (c.ahead 1), hexDigit? (c.ahead 2) with
      | some a, some b => tagEscapes noun start fuel (bytes ++ [16 * a + b]) (c.skip 3)
      | none, _ =>
        failAt ("while scanning a " ++ noun) start
          ("expected URI escape sequence of 2 hexadecimal numbers, but found " ++ shownChar (c.ahead 1))
          c.next
      | _, none =>
        failAt ("while scanning a " ++ noun) start
          ("expected URI escape sequence of 2 hexadecimal numbers, but found " ++ shownChar (c.ahead 2))
          c.next
    else .ok (bytes, c)

/-- The text of a tag. -/
def tagText (noun : String) (start : Position) (fuel : Nat) (text : List Char) (c : Cursor) :
    Except YamlError (List Char × Cursor) :=
  match fuel with
  | 0 => .ok (text, c)
  | fuel + 1 => do
    let part := c.span isTagChar
    if !part.isEmpty then tagText noun start fuel (text ++ part) (c.skip part.length)
    else if c.peek == '%' then
      let (bytes, c) ← tagEscapes noun start (c.rest.length + 1) [] c
      tagText noun start fuel (text ++ bytes.map Char.ofNat) c
    else if text.isEmpty then
      failAt ("while parsing a " ++ noun) start ("expected URI, but found " ++ shownChar c.peek) c
    else return (text, c)

/-- The handle of a tag: an exclamation mark, or a name between two. -/
def tagHandle (noun : String) (start : Position) (c : Cursor) : Except YamlError (List Char × Cursor) :=
  let refused (c : Cursor) : Except YamlError (List Char × Cursor) :=
    failAt ("while scanning a " ++ noun) start ("expected '!', but found " ++ shownChar c.peek) c
  if c.peek != '!' then refused c
  else
    let c := c.next
    if c.peek == ' ' then .ok (['!'], c)
    else
      let name := c.span isAnchorChar
      let c := c.skip name.length
      if c.peek == '!' then .ok ('!' :: name ++ ['!'], c.next)
      else if name.isEmpty then .ok (['!'], c)
      else refused c

/-- A tag, whose sign is at the cursor. -/
def tagToken (c : Cursor) : Except YamlError (TokenKind × Cursor) := do
  let start := c.position
  let x := c.ahead 1
  let (tag, c) ←
    if x == '<' then
      let (suffix, c) ← tagText "tag" start (c.rest.length + 1) [] (c.skip 2)
      if c.peek != '>' then
        failAt "while parsing a tag" start ("expected '>', but found " ++ shownChar c.peek) c
      else pure (TokenKind.tag none suffix, c.next)
    else if isSeparator x then pure (TokenKind.tag none ['!'], c.next)
    else
      let word := c.next.span fun y => !isSpaceOrEnd y
      if word.contains '!' then
        let (handle, c) ← tagHandle "tag" start c
        let (suffix, c) ← tagText "tag" start (c.rest.length + 1) [] c
        pure (TokenKind.tag (some handle) suffix, c)
      else
        let (suffix, c) ← tagText "tag" start (c.rest.length + 1) [] c.next
        pure (TokenKind.tag (some ['!']) suffix, c)
  if isSpaceOrEnd c.peek then return (tag, c)
  else failAt "while scanning a tag" start ("expected ' ', but found " ++ shownChar c.peek) c

/-! ### Directives -/

/-- A directive, whose sign is at the cursor. -/
def directiveToken (c : Cursor) : Except YamlError (TokenKind × Cursor) := do
  let start := c.position
  let context := "while scanning a directive"
  let c := c.next
  let name := c.span isAnchorChar
  let c := c.skip name.length
  if name.isEmpty || !isSpaceOrEnd c.peek then
    failAt context start ("expected alphabetic or numeric character, but found " ++ shownChar c.peek) c
  else if name == "YAML".toList then
    let c := c.skipWhile (· == ' ')
    let (major, c) ← number context start c
    if c.peek != '.' then
      failAt context start ("expected a digit or '.', but found " ++ shownChar c.peek) c
    else
      let (_, c) ← number context start c.next
      if !isSpaceOrEnd c.peek then
        failAt context start ("expected a digit or ' ', but found " ++ shownChar c.peek) c
      else
        let c ← emptyLineEnd context start c
        return (.version major, c)
  else if name == "TAG".toList then
    let (handle, c) ← tagHandle "directive" start (c.skipWhile (· == ' '))
    if c.peek != ' ' then
      failAt context start ("expected ' ', but found " ++ shownChar c.peek) c
    else
      let c := c.skipWhile (· == ' ')
      let (expansion, c) ← tagText "directive" start (c.rest.length + 1) [] c
      if !isSpaceOrEnd c.peek then
        failAt context start ("expected ' ', but found " ++ shownChar c.peek) c
      else
        let c ← emptyLineEnd context start c
        return (.tagHandle handle expansion, c)
  else
    let c ← emptyLineEnd context start (c.skipWhile fun x => !isBreakOrEnd x)
    return (.otherDirective, c)
where
  /-- A number of a version. -/
  number (context : String) (start : Position) (c : Cursor) : Except YamlError (Nat × Cursor) :=
    let digits := c.span Char.isDigit
    if digits.isEmpty then
      failAt context start ("expected a digit, but found " ++ shownChar c.peek) c
    else .ok (digits.foldl (fun n d => 10 * n + (d.toNat - '0'.toNat)) 0, c.skip digits.length)

end WikiMigration.Yaml
