/-
The tokens of a YAML text.

Outside brackets indentation makes structure: a block opens where an entry or a key stands further
in than the block around it, and closes where a token stands further out.  A key needs no sign of its
own: whatever may be one is remembered, and becomes one when a colon follows on its line.

Tokens are handed on one by one, so an error further on may come too late to be seen: only the tokens
that are certain before an error are handed on.
-/
import WikiMigration.Yaml.Cursor

namespace WikiMigration.Yaml

open Text

/-- What may turn out to be a key: which token it would come before, whether it must be one, and
where it stands. -/
structure PossibleKey where
  token : Nat
  isRequired : Bool
  index : Nat
  place : Position

/-- What has been read of a text. -/
structure Scan where
  cursor : Cursor
  /-- The tokens so far, last first. -/
  tokens : List Token := []
  /-- How many brackets are open. -/
  flowDepth : Int := 0
  /-- The column of the innermost block, and of those around it. -/
  indent : Int := -1
  outer : List Int := []
  /-- Whether a key may stand here. -/
  mayKey : Bool := true
  /-- What may be a key, for each depth of brackets. -/
  keys : List (Int × PossibleKey) := []

/-- What a step of reading gives: the error comes with what was read before it. -/
abbrev ScanResult := Except (YamlError × Scan) Scan

namespace Scan

/-- An error at the cursor, with what was being read. -/
def fail (s : Scan) (context : Option String) (start : Option Position) (problem : String) :
    ScanResult :=
  .error (.malformed context start problem (some s.cursor.position), s)

/-- Adds a token that stands at a position. -/
def add (s : Scan) (kind : TokenKind) (start : Position) : Scan :=
  { s with tokens := ⟨kind, start⟩ :: s.tokens }

/-- Adds a token in front of the token with the number. -/
def insert (s : Scan) (number : Nat) (kind : TokenKind) (start : Position) : Scan :=
  let later := s.tokens.length - number
  { s with tokens := s.tokens.take later ++ ⟨kind, start⟩ :: s.tokens.drop later }

/-- Whether brackets are open. -/
def inFlow (s : Scan) : Bool := s.flowDepth != 0

/-- The column of the cursor. -/
def column (s : Scan) : Int := s.cursor.column

/-! ### Blocks and keys -/

/-- Closes the blocks that stand further in than the column. -/
def unwindTo (column : Int) : List Int → Scan → Scan
  | [], s => s
  | outer :: rest, s =>
    if column < s.indent then
      unwindTo column rest { s.add .blockEnd s.cursor.position with indent := outer, outer := rest }
    else s

/-- Closes the blocks that stand further in than the column; within brackets there are none. -/
def unwind (s : Scan) (column : Int) : Scan :=
  if s.inFlow then s else unwindTo column s.outer s

/-- Whether a column is further in than the innermost block; then it is that of a new one. -/
def deepen (s : Scan) (column : Int) : Option Scan :=
  if s.indent < column then some { s with indent := column, outer := s.indent :: s.outer } else none

/-- What may be a key at the depth. -/
def keyHere? (s : Scan) : Option PossibleKey := s.keys.lookup s.flowDepth

/-- The text without what may be a key at the depth. -/
def dropKey (s : Scan) : Scan := { s with keys := s.keys.filter fun k => k.1 != s.flowDepth }

/-- The failure to find the colon of a key. -/
def missingColon (s : Scan) (key : PossibleKey) : ScanResult :=
  s.fail (some "while scanning a simple key") (some key.place) "could not find expected ':'"

/-- Gives up what may be a key at the depth. -/
def removeKey (s : Scan) : ScanResult :=
  match s.keyHere? with
  | some key => if key.isRequired then s.missingColon key else .ok s.dropKey
  | none => .ok s

/-- Remembers that what follows may be a key. -/
def saveKey (s : Scan) : ScanResult :=
  if s.mayKey then do
    let isRequired := !s.inFlow && s.indent == s.column
    let s ← s.removeKey
    let key : PossibleKey := ⟨s.tokens.length, isRequired, s.cursor.index, s.cursor.position⟩
    return { s with keys := s.keys ++ [(s.flowDepth, key)] }
  else .ok s

/-- Gives up what can no longer be a key: its line has ended, or it is too long. -/
def dropStaleKeys (s : Scan) : ScanResult :=
  let isStale (key : PossibleKey) : Bool :=
    key.place.line != s.cursor.line || 1024 < s.cursor.index - key.index
  match s.keys.find? fun k => isStale k.2 && k.2.isRequired with
  | some (_, key) => s.missingColon key
  | none => .ok { s with keys := s.keys.filter fun k => !isStale k.2 }

/-! ### Tokens -/

/-- Goes to the next token, over spaces, comments and line breaks. -/
def toNextToken (fuel : Nat) (s : Scan) : Scan :=
  match fuel with
  | 0 => s
  | fuel + 1 =>
    let c := s.cursor.skipWhile (· == ' ')
    let c := if c.peek == '#' then c.skipWhile fun x => !isBreakOrEnd x else c
    if isBreak c.peek then
      toNextToken fuel { s with cursor := c.lineBreak.2, mayKey := s.mayKey || !s.inFlow }
    else { s with cursor := c }

/-- The end of the text. -/
def streamEnd (s : Scan) : ScanResult := do
  let s ← (s.unwind (-1)).removeKey
  return { s.add .streamEnd s.cursor.position with mayKey := false, keys := [] }

/-- A mark of a document. -/
def documentMark (s : Scan) (kind : TokenKind) : ScanResult := do
  let s ← (s.unwind (-1)).removeKey
  return { s.add kind s.cursor.position with mayKey := false, cursor := s.cursor.skip 3 }

/-- A directive. -/
def directive (s : Scan) : ScanResult := do
  let s ← (s.unwind (-1)).removeKey
  let s := { s with mayKey := false }
  match directiveToken s.cursor with
  | .ok (kind, c) => return { s.add kind s.cursor.position with cursor := c }
  | .error e => .error (e, s)

/-- A bracket that opens. -/
def openFlow (s : Scan) (kind : TokenKind) : ScanResult := do
  let s ← s.saveKey
  return { s.add kind s.cursor.position with
    flowDepth := s.flowDepth + 1, mayKey := true, cursor := s.cursor.next }

/-- A bracket that closes. -/
def closeFlow (s : Scan) (kind : TokenKind) : ScanResult := do
  let s ← s.removeKey
  return { s.add kind s.cursor.position with
    flowDepth := s.flowDepth - 1, mayKey := false, cursor := s.cursor.next }

/-- A comma. -/
def flowEntry (s : Scan) : ScanResult := do
  let s ← { s with mayKey := true }.removeKey
  return { s.add .flowEntry s.cursor.position with cursor := s.cursor.next }

/-- Opens a block at the cursor, if it is further in than the block around it. -/
def openBlock (s : Scan) (kind : TokenKind) : Scan :=
  match s.deepen s.column with
  | some s => s.add kind s.cursor.position
  | none => s

/-- The dash of an entry. -/
def blockEntry (s : Scan) : ScanResult := do
  if !s.inFlow && !s.mayKey then
    s.fail none none "sequence entries are not allowed here"
  else
    let s := if s.inFlow then s else s.openBlock .sequenceStart
    let s ← { s with mayKey := true }.removeKey
    return { s.add .blockEntry s.cursor.position with cursor := s.cursor.next }

/-- The sign of a key. -/
def keySign (s : Scan) : ScanResult := do
  if !s.inFlow && !s.mayKey then s.fail none none "mapping keys are not allowed here"
  else
    let s := if s.inFlow then s else s.openBlock .mappingStart
    let s ← { s with mayKey := !s.inFlow }.removeKey
    return { s.add .key s.cursor.position with cursor := s.cursor.next }

/-- The colon of a value: what may be a key before it is one. -/
def valueSign (s : Scan) : ScanResult := do
  match s.keyHere? with
  | some key =>
    let s := s.dropKey.insert key.token .key key.place
    let s := if s.inFlow then s
      else match s.deepen key.place.column with
        | some s => s.insert key.token .mappingStart key.place
        | none => s
    return { s.add .value s.cursor.position with mayKey := false, cursor := s.cursor.next }
  | none =>
    if !s.inFlow && !s.mayKey then s.fail none none "mapping values are not allowed here"
    else
      let s := if s.inFlow then s else s.openBlock .mappingStart
      let s ← { s with mayKey := !s.inFlow }.removeKey
      return { s.add .value s.cursor.position with cursor := s.cursor.next }

/-- A token that may be a key, read by the reader. -/
def keyToken (s : Scan) (read : Cursor → Except YamlError (TokenKind × Cursor)) : ScanResult := do
  let s ← s.saveKey
  let s := { s with mayKey := false }
  match read s.cursor with
  | .ok (kind, c) => return { s.add kind s.cursor.position with cursor := c }
  | .error e => .error (e, s)

/-- A block scalar. -/
def blockText (s : Scan) (isFolded : Bool) : ScanResult := do
  let s ← { s with mayKey := true }.removeKey
  match blockScalar isFolded s.indent s.cursor with
  | .ok (text, c) => return { s.add (.scalar text false) s.cursor.position with cursor := c }
  | .error e => .error (e, s)

/-- A plain scalar; a key may follow one that ends its line. -/
def plainText (s : Scan) : ScanResult := do
  let s ← s.saveKey
  let (text, c, broken) :=
    plainScalar (s.cursor.rest.length + 1) s.inFlow (s.indent + 1) [] false s.cursor
  return { s.add (.scalar text true) s.cursor.position with cursor := c, mayKey := broken }

/-- A name behind a sign. -/
def named (noun : String) (kind : List Char → TokenKind) (c : Cursor) :
    Except YamlError (TokenKind × Cursor) :=
  (anchorName noun c).map fun (name, c) => (kind name, c)

/-- A scalar in quotes. -/
def quoted (quote : Char) (c : Cursor) : Except YamlError (TokenKind × Cursor) :=
  (quotedScalar quote c.position (c.rest.length + 1) [] c.next).map fun (text, c) =>
    (.scalar text false, c)

/-- Whether a plain scalar starts at the cursor. -/
def startsPlain (s : Scan) : Bool :=
  let x := s.cursor.peek
  let indicators := "-?:,[]\x7b\x7d#&*!|>'\"%@".toList ++ [Char.ofNat 0x60]
  !(isSeparator x || indicators.contains x)
    || (!isSeparator (s.cursor.ahead 1)
      && (x == '-' || (!s.inFlow && (x == '?' || x == ':'))))

/-- Reads the next token. -/
def token (s : Scan) : ScanResult := do
  let s ← (toNextToken (s.cursor.rest.length + 1) s).dropStaleKeys
  let s := s.unwind s.column
  let c := s.cursor
  let x := c.peek
  let separated := isSeparator (c.ahead 1)
  let atMark := c.column == 0 && isSeparator (c.ahead 3)
  if x == '\x00' then s.streamEnd
  else if x == '%' && c.column == 0 then s.directive
  else if atMark && startsWith "---".toList c.rest then s.documentMark .documentStart
  else if atMark && startsWith "...".toList c.rest then s.documentMark .documentEnd
  else if x == '[' then s.openFlow .flowSequenceStart
  else if x == '\x7b' then s.openFlow .flowMappingStart
  else if x == ']' then s.closeFlow .flowSequenceEnd
  else if x == '\x7d' then s.closeFlow .flowMappingEnd
  else if x == ',' then s.flowEntry
  else if x == '-' && separated then s.blockEntry
  else if x == '?' && (s.inFlow || separated) then s.keySign
  else if x == ':' && (s.inFlow || separated) then s.valueSign
  else if x == '*' then s.keyToken (named "alias" .alias)
  else if x == '&' then s.keyToken (named "anchor" .anchor)
  else if x == '!' then s.keyToken tagToken
  else if x == '|' && !s.inFlow then s.blockText false
  else if x == '>' && !s.inFlow then s.blockText true
  else if x == '\'' || x == '"' then s.keyToken (quoted x)
  else if s.startsPlain then s.plainText
  else
    s.fail (some "while scanning for the next token") none
      ("found character " ++ shownChar x ++ " that cannot start any token")

/-- The tokens that are certain: those before the first of which it is open whether a key stands
before it. -/
def certain (s : Scan) : List Token :=
  let first := s.keys.foldl (fun n k => min n k.2.token) s.tokens.length
  s.tokens.reverse.take first

/-- Reads tokens up to the end of the text, or up to an error.  `fuel` bounds their number. -/
def run (fuel : Nat) (s : Scan) : List Token × Option YamlError :=
  match fuel with
  | 0 => (s.tokens.reverse, none)
  | fuel + 1 =>
    match s.token with
    | .error (e, s) => (s.certain, some e)
    | .ok s =>
      match s.tokens with
      | ⟨.streamEnd, _⟩ :: _ => (s.tokens.reverse, none)
      | _ => run fuel s

end Scan

/-- Whether a document may hold the character. -/
def isPrintable (c : Char) : Bool :=
  let n := c.toNat
  n == 9 || n == 10 || n == 13 || (0x20 ≤ n && n ≤ 0x7E) || n == 0x85 || (0xA0 ≤ n && n ≤ 0xFFFD)
    || 0x10000 ≤ n

/-- The first character that no document may hold, with its index. -/
def firstUnprintable? (index : Nat) : List Char → Option (Char × Nat)
  | [] => none
  | c :: rest => if isPrintable c then firstUnprintable? (index + 1) rest else some (c, index)

/-- The tokens of a text, and the error that ends them, if one does. -/
def tokens (text : List Char) : List Token × Option YamlError :=
  match firstUnprintable? 0 text with
  | some (c, index) => ([], some (.unprintable c index))
  | none =>
    let cursor : Cursor := ⟨text, 0, 0, 0⟩
    let cursor := if cursor.peek == '\ufeff' then cursor.next else cursor
    Scan.run (2 * text.length + 4) { cursor }

end WikiMigration.Yaml
