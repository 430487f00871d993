/-
HTML as a sequence of tokens.

A text is cut into tags, comments, document types and the text between them.  Nothing is refused: a
sign that starts no tag is text, and what no tag can hold is passed over.  Names of tags and
attributes are read in lower case, and of several attributes of one name the first counts.  Inside
some elements, such as scripts, only their own end tag is markup.
-/
import WikiMigration.Html.Reference
import WikiMigration.Text.Lines

namespace WikiMigration.Html

open Text

/-- An attribute of an element. -/
structure Attribute where
  name : String
  value : List Char
  deriving DecidableEq, Repr

/-- A piece of HTML. -/
inductive Token where
  | startTag (name : String) (attributes : List Attribute) (selfClosing : Bool)
  | endTag (name : String)
  | text (content : List Char)
  | comment (content : List Char)
  | doctype (content : List Char)
  deriving DecidableEq, Repr

/-- The blanks that separate the parts of a tag. -/
def isTagBlank (c : Char) : Bool :=
  c == ' ' || c == '\n' || c == '\t' || c == '\r' || c == '\x0c'

/-- Whether the character may stand in a tag's name. -/
def isTagNameChar (c : Char) : Bool := !(isTagBlank c || c == '/' || c == '>')

/-- The name that characters spell, in lower case. -/
def lowerName (cs : List Char) : String := String.ofList (cs.map Char.toLower)

/-- The value of an attribute and what follows it, for the text behind the equals sign. -/
def readValue (cs : List Char) : List Char × List Char :=
  match cs.dropWhile isTagBlank with
  | '"' :: rest =>
    let value := rest.takeWhile (· != '"')
    (readReferences true value, rest.drop (value.length + 1))
  | '\'' :: rest =>
    let value := rest.takeWhile (· != '\'')
    (readReferences true value, rest.drop (value.length + 1))
  | rest =>
    let value := rest.takeWhile fun c => !(isTagBlank c || c == '>')
    (readReferences true value, rest.drop value.length)

/-- An attribute that starts with the given character, and what follows it. -/
def readAttribute (first : Char) (cs : List Char) : Attribute × List Char :=
  let more := cs.takeWhile fun c => !(isTagBlank c || c == '/' || c == '>' || c == '=')
  let name := lowerName (first :: more)
  let behind := cs.drop more.length
  match behind.dropWhile isTagBlank with
  | '=' :: rest =>
    let (value, rest) := readValue rest
    (⟨name, value⟩, rest)
  | _ => (⟨name, []⟩, behind)

/-- The end of a tag: its attributes, whether a slash closes it, and what follows; nothing if the
tag does not end.  `fuel` bounds the number of steps. -/
def readTagEnd : Nat → List Attribute → List Char → Option (List Attribute × Bool × List Char)
  | 0, _, _ => none
  | fuel + 1, attributes, cs =>
    match cs with
    | [] => none
    | '>' :: rest => some (attributes.reverse, false, rest)
    | '/' :: '>' :: rest => some (attributes.reverse, true, rest)
    | c :: rest =>
      if isTagBlank c || c == '/' then readTagEnd fuel attributes rest
      else
        let (found, rest) := readAttribute c rest
        let known := attributes.any fun a => a.name == found.name
        readTagEnd fuel (if known then attributes else found :: attributes) rest

/-- The content of a comment and what follows it, for the text behind its opening. -/
def readComment (cs : List Char) : List Char × List Char :=
  match cs with
  | '>' :: rest => ([], rest)
  | '-' :: '>' :: rest => ([], rest)
  | _ =>
    let plain := (cut? "-->".toList cs).getD (cs, [])
    let odd := (cut? "--!>".toList cs).getD (cs, [])
    if odd.1.length < plain.1.length then odd else plain

/-- The content of a malformed comment and what follows it. -/
def readBogusComment (cs : List Char) : List Char × List Char :=
  (cut? ['>'] cs).getD (cs, [])

/-- How the text inside an element is read. -/
inductive TextMode where
  | markup
  /-- Only the end tag of the element is markup, but references are read. -/
  | escapable
  /-- Only the end tag of the element is markup. -/
  | raw
  /-- Nothing is markup any more. -/
  | plain
  deriving DecidableEq, Repr

/-- How the text inside an element of the name is read. -/
def TextMode.of (name : String) : TextMode :=
  if name == "title" || name == "textarea" then .escapable
  else if ["script", "style", "xmp", "iframe", "noembed", "noframes"].contains name then .raw
  else if name == "plaintext" then .plain
  else .markup

/-- Whether the text starts with the end tag of the name. -/
def startsEndTag (name : String) (cs : List Char) : Bool :=
  match cs with
  | '<' :: '/' :: rest =>
    let word := rest.takeWhile isTagNameChar
    lowerName word == name && (rest.drop word.length).isEmpty == false
  | _ => false

/-- What stands before the end tag of the name, and the text from it on. -/
def untilEndTag (name : String) : List Char → List Char × List Char
  | [] => ([], [])
  | c :: rest =>
    if startsEndTag name (c :: rest) then ([], c :: rest)
    else
      let (before, behind) := untilEndTag name rest
      (c :: before, behind)

/-- The text inside an element, and what follows it. -/
def readInside (name : String) (cs : List Char) : List Token × List Char :=
  let asText (content : List Char) : List Token := if content.isEmpty then [] else [.text content]
  match TextMode.of name with
  | .markup => ([], cs)
  | .escapable =>
    let (content, rest) := untilEndTag name cs
    (asText (readReferences false content), rest)
  | .raw =>
    let (content, rest) := untilEndTag name cs
    (asText content, rest)
  | .plain => (asText cs, [])

/-- The start tag at the front of a text and the text inside its element, for the text behind the
opening sign. -/
def readStartTag (cs : List Char) : List Token × List Char :=
  let word := cs.takeWhile isTagNameChar
  let behind := cs.drop word.length
  match readTagEnd (behind.length + 1) [] behind with
  | none => ([], [])
  | some (attributes, selfClosing, rest) =>
    let name := lowerName word
    let (inside, rest) := if selfClosing then ([], rest) else readInside name rest
    (.startTag name attributes selfClosing :: inside, rest)

/-- The end tag at the front of a text, for the text behind its opening. -/
def readEndTag (cs : List Char) : List Token × List Char :=
  let word := cs.takeWhile isTagNameChar
  let behind := cs.drop word.length
  match readTagEnd (behind.length + 1) [] behind with
  | none => ([], [])
  | some (_, _, rest) => ([.endTag (lowerName word)], rest)

/-- The name of a document type. -/
def doctypeContent (cs : List Char) : List Char :=
  trimWith isTagBlank cs

/-- The declaration or comment at the front of a text, for the text behind `<!`. -/
def readDeclaration (cs : List Char) : List Token × List Char :=
  match cs with
  | '-' :: '-' :: rest =>
    let (content, rest) := readComment rest
    ([.comment content], rest)
  | _ =>
    if lowerName (cs.take 7) == "doctype" then
      let (content, rest) := readBogusComment (cs.drop 7)
      ([.doctype (doctypeContent content)], rest)
    else
      let (content, rest) := readBogusComment cs
      ([.comment content], rest)

/-- The text at the front up to the next sign that may start a tag. -/
def readText (first : Char) (cs : List Char) : List Token × List Char :=
  let more := cs.takeWhile (· != '<')
  ([.text (readReferences false (first :: more))], cs.drop more.length)

/-- What stands at the front of a text. -/
def readFront (c : Char) (cs : List Char) : List Token × List Char :=
  if c != '<' then readText c cs
  else match cs with
    | '!' :: rest => readDeclaration rest
    | '?' :: _ =>
      let (content, rest) := readBogusComment cs
      ([.comment content], rest)
    | '/' :: '>' :: rest => ([], rest)
    | '/' :: d :: rest =>
      if isLatin d then readEndTag (d :: rest)
      else
        let (content, rest) := readBogusComment (d :: rest)
        ([.comment content], rest)
    | '/' :: [] => ([.text "</".toList], [])
    | d :: _ => if isLatin d then readStartTag cs else readText c cs
    | [] => ([.text ['<']], [])

/-- The tokens of a text. -/
def tokensOf (cs : List Char) : List Token :=
  match cs with
  | [] => []
  | c :: rest =>
    let step := readFront c rest
    if _h : step.2.length < rest.length + 1 then step.1 ++ tokensOf step.2 else step.1
termination_by cs.length
decreasing_by exact _h

/-- The tokens of a document: every way to end a line is read alike, and a NUL is no character. -/
def tokens (text : List Char) : List Token :=
  tokensOf ((normalizeNewlines text).map fun c => if c == '\x00' then Char.ofNat 0xFFFD else c)

end WikiMigration.Html
