/-
Tags in a Markdown source.

A tag starts at an angle bracket before a letter; its attributes may have quoted or bare values, and
a backtick ends its name, the name of an attribute and a bare value, since it may open code.  What
looks like a tag but does not end like one is ordinary text.
-/
import WikiMigration.Html.Token

namespace WikiMigration.Markdown

open Text

/-- What stands where a start tag may begin. -/
inductive TagReading where
  /-- A start tag: its name, its attributes, whether a slash closes it, and how many characters it
  covers. -/
  | tag (name : String) (attributes : List (String × Option (List Char))) (isClosed : Bool)
      (covered : Nat)
  /-- Ordinary text of that many characters. -/
  | junk (covered : Nat)
  deriving Repr

/-- Whether the character ends the name of a tag. -/
def endsTagName (c : Char) : Bool :=
  c == '`' || c == '\t' || c == '\n' || c == '\r' || c == '\x0c' || c == ' ' || c == '/' || c == '>'
    || c == '\x00'

/-- How many characters the blanks, and the slashes that no closing bracket follows, cover. -/
def gapLength : List Char → Nat
  | [] => 0
  | '/' :: rest => if rest.head? == some '>' then 0 else gapLength rest + 1
  | c :: rest => if isBlank c then gapLength rest + 1 else 0

/-- How many characters commas with blanks before them cover. -/
def commaLength (fuel : Nat) (text : List Char) : Nat :=
  match fuel with
  | 0 => 0
  | fuel + 1 =>
    let blanks := (text.takeWhile isBlank).length
    match text.drop blanks with
    | ',' :: rest => blanks + 1 + commaLength fuel rest
    | _ => 0

/-- The value behind the name of an attribute, and how many characters it covers with its equals
sign. -/
def tagValue? (text : List Char) : Option (List Char × Nat) :=
  let blanks := (text.takeWhile isBlank).length
  let signs := ((text.drop blanks).takeWhile (· == '=')).length
  if signs == 0 then none
  else
    let more := (((text.drop (blanks + signs)).takeWhile isBlank)).length
    let start := blanks + signs + more
    match text.drop start with
    | [] => some ([], start)
    | c :: rest =>
      if c == '"' || c == '\'' then
        match cut? [c] rest with
        | some (inner, _) => some (Html.readReferences true inner, start + inner.length + 2)
        | none => none
      else
        let value := (c :: rest).takeWhile fun d => !(isBlank d || d == '>' || d == '`')
        some (Html.readReferences true value, start + value.length)

/-- The attributes at the front of the text, and how many characters they cover. -/
def tagAttributes (fuel : Nat) (text : List Char) : List (String × Option (List Char)) × Nat :=
  match fuel with
  | 0 => ([], 0)
  | fuel + 1 =>
    match text with
    | [] => ([], 0)
    | c :: rest =>
      if isBlank c || c == '/' || c == '>' || c == '`' then ([], 0)
      else
        let name := c :: rest.takeWhile fun d => !(isBlank d || d == '/' || d == '=' || d == '>')
        let behind := text.drop name.length
        let (value, valueLength) := match tagValue? behind with
          | some (value, covered) => (some value, covered + commaLength fuel (behind.drop covered))
          | none => (none, 0)
        let gap := gapLength (behind.drop valueLength)
        let covered := name.length + valueLength + gap
        if gap == 0 then ([(Html.lowerName name, value)], covered)
        else
          let (more, n) := tagAttributes fuel (text.drop covered)
          ((Html.lowerName name, value) :: more, covered + n)

/-- Reads a start tag at the front of a text that starts with an angle bracket and a letter. -/
def readStartTag (text : List Char) : TagReading :=
  let name := (text.drop 1).takeWhile fun c => !endsTagName c
  let head := 1 + name.length
  let gap := gapLength (text.drop head)
  let (attributes, length) :=
    if gap == 0 then ([], 0) else tagAttributes text.length (text.drop (head + gap))
  let stop := head + gap + length
  let blanks := ((text.drop stop).takeWhile isBlank).length
  match text.drop (stop + blanks) with
  | '>' :: _ => .tag (Html.lowerName name) attributes false (stop + blanks + 1)
  | '/' :: '>' :: _ => .tag (Html.lowerName name) attributes true (stop + blanks + 2)
  | [] => .junk 1
  | c :: _ => if c == '/' || c == '=' || c.isAlpha then .junk 1 else .junk (stop + blanks)

end WikiMigration.Markdown
