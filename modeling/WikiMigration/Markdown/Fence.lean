/-
Fenced code.

A fence is a line that starts with three or more tildes or backticks, and may go on with a language
or an attribute list; the block ends at the next line that is the same fence.  Its content is set
aside as finished HTML.  A fence that is not closed is ordinary text.
-/
import WikiMigration.Markdown.AttributeList
import WikiMigration.Markdown.Node
import WikiMigration.Text.WordChar

namespace WikiMigration.Markdown

open Text

/-- What the opening line of a fence says about its block. -/
structure FenceHead where
  fence : List Char
  language : List Char := []
  classes : List (List Char) := []
  id : List Char := []
  pairs : List (List Char × List Char) := []

/-- The run of tildes or backticks at the front of a line, if it is long enough for a fence. -/
def fence? (line : List Char) : Option (List Char) :=
  match line with
  | c :: _ =>
    if c == '~' || c == '`' then
      let run := line.takeWhile (· == c)
      if 3 ≤ run.length then some run else none
    else none
  | [] => none

/-- Whether the character may stand in the name of a language. -/
def isLanguageChar (c : Char) : Bool := isWordChar c || c == '#' || c == '.' || c == '+' || c == '-'

/-- The numbers of lines that an expression lists, as a text. -/
def lineNumbers (expression : List Char) : List Char :=
  let words := (splitAt ' ' expression).filter (!·.isEmpty)
  if words.all fun w => (number? w).isSome then
    '[' :: joinWith ", ".toList words ++ [']']
  else "[]".toList

/-- The head with an entry of an attribute list. -/
def FenceHead.add (head : FenceHead) : AttributeEntry → FenceHead
  | .className name => { head with classes := head.classes ++ [name] }
  | .pair key value =>
    if key == "id".toList then { head with id := value }
    else
      let value := if key == "hl_lines".toList then lineNumbers value else value
      { head with pairs := head.pairs ++ [(key, value)] }

/-- The lines to be marked, where the text asks for them to its end. -/
def markedLines? (text : List Char) : Option (List Char) :=
  match after? "hl_lines=".toList text with
  | some (q :: rest) =>
    if q == '"' || q == '\'' then
      match cut? [q] rest with
      | some (inner, more) => if more.all (· == ' ') then some inner else none
      | none => none
    else none
  | _ => none

/-- The opening line of a fenced block. -/
def fenceHead? (line : List Char) : Option FenceHead :=
  match fence? line with
  | none => none
  | some fence =>
    let rest := (line.drop fence.length).dropWhile (· == ' ')
    match rest with
    | '\x7b' :: inner =>
      match inner.reverse with
      | '\x7d' :: attributes =>
        let (entries, remainder) := attributeEntries attributes.reverse
        if remainder.isEmpty then
          let head := entries.foldl FenceHead.add { fence }
          match head.classes with
          | language :: classes => some { head with language, classes }
          | [] => some head
        else none
      | _ => none
    | _ =>
      let undotted := match rest with
        | '.' :: more => more
        | more => more
      let language := undotted.takeWhile isLanguageChar
      let behind := (undotted.drop language.length).dropWhile (· == ' ')
      if behind.isEmpty then some { fence, language }
      else
        match markedLines? behind, markedLines? undotted with
        | some marked, _ => some { fence, language, pairs := [("hl_lines".toList, lineNumbers marked)] }
        | none, some marked => some { fence, pairs := [("hl_lines".toList, lineNumbers marked)] }
        | none, none => none

/-- The lines up to the one that closes the fence, and the lines behind that one. -/
def untilFence? (fence : List Char) : List (List Char) → Option (List (List Char) × List (List Char))
  | [] => none
  | line :: rest =>
    match after? fence line with
    | some more =>
      if more.all (· == ' ') then some ([], rest)
      else (untilFence? fence rest).map fun (code, behind) => (line :: code, behind)
    | none => (untilFence? fence rest).map fun (code, behind) => (line :: code, behind)

/-- An attribute with its value between quotes. -/
def writeAttribute (name : List Char) (value : List Char) : List Char :=
  ' ' :: name ++ "=\"".toList ++ writeValue value ++ ['"']

/-- Code as HTML. -/
def escapeCode (code : List Char) : List Char :=
  code.flatMap fun c => if c == '"' then "&quot;".toList else Html.escapeChar c

/-- A fenced block as HTML. -/
def FenceHead.write (head : FenceHead) (code : List (List Char)) : List Char :=
  let given (name : String) (value : List Char) : List Char :=
    if value.isEmpty then [] else writeAttribute name.toList value
  let language := if head.language.isEmpty then [] else "language-".toList ++ head.language
  let pairs := head.pairs.filter fun (key, _) => key != "use_pygments".toList
  "<pre".toList ++ given "id" head.id ++ given "class" (joinWith [' '] head.classes)
    ++ "><code".toList ++ given "class" language
    ++ pairs.flatMap (fun (key, value) => writeAttribute key value)
    ++ '>' :: escapeCode (code.flatMap (· ++ ['\n'])) ++ "</code></pre>".toList

/-- The lines with every fenced block replaced by its mark, and the blocks; `first` is the number of
the first one.  `skip` counts the lines of the current block that are still to be passed over. -/
def keepFencesFrom (first : Nat) : Nat → List (List Char) → List (List Char) × List (List Char)
  | _, [] => ([], [])
  | skip + 1, _ :: rest => keepFencesFrom first skip rest
  | 0, line :: rest =>
    match fenceHead? line with
    | none =>
      let (ls, kept) := keepFencesFrom first 0 rest
      (line :: ls, kept)
    | some head =>
      match untilFence? head.fence rest with
      | none =>
        let (ls, kept) := keepFencesFrom first 0 rest
        (line :: ls, kept)
      | some (code, _) =>
        let (ls, kept) := keepFencesFrom (first + 1) (code.length + 1) rest
        ([] :: keptMark first :: [] :: ls, head.write code :: kept)

/-- The lines with every fenced block replaced by its mark, and the blocks. -/
def keepFences (ls : List (List Char)) : List (List Char) × List (List Char) :=
  keepFencesFrom 0 0 ls

end WikiMigration.Markdown
