/-
What the blocks of a page define.

References name the target of a link, notes have a text that is written at the end of the page, and
abbreviations have a text that explains them.  Each kind is a list of names with what they stand
for, in the order in which the names came; a later definition of a name replaces an earlier one.
-/
import WikiMigration.Markdown.Mark
import WikiMigration.Text.Case
import WikiMigration.Text.WordChar

namespace WikiMigration.Markdown

open Text

/-- The target of a reference. -/
structure Target where
  address : List Char
  title : Option (List Char)
  deriving DecidableEq, Repr

/-- What a page defines. -/
structure Definitions where
  references : List (List Char × Target) := []
  notes : List (List Char × List Char) := []
  abbreviations : List (List Char × List Char) := []

/-- The list with what a name stands for replaced, or with a new name at its end. -/
def define {α : Type} (name : List Char) (value : α) :
    List (List Char × α) → List (List Char × α)
  | [] => [(name, value)]
  | (n, v) :: rest => if n == name then (n, value) :: rest else (n, v) :: define name value rest

/-- The text without the spaces at its start, of which there may be at most the given number. -/
def dropIndent? (limit : Nat) (text : List Char) : Option (List Char) :=
  let n := (text.takeWhile (· == ' ')).length
  if n ≤ limit then some (text.drop n) else none

/-- The spaces at the front of a text dropped. -/
def dropSpaces (text : List Char) : List Char := text.dropWhile (· == ' ')

/-- A definition found in a block: the lines before it, what it says, and the text behind it. -/
structure Found (α : Type) where
  before : List (List Char)
  value : α
  behind : List Char

/-- The first line at which a definition can be read.  `read` gets the text from the start of the
line on, and gives what it says and the text behind it. -/
def findDefinition {α : Type} (read : List Char → Option (α × List Char)) :
    List (List Char) → Option (Found α)
  | [] => none
  | line :: rest =>
    match read (unlines (line :: rest)) with
    | some (value, behind) => some ⟨[], value, behind⟩
    | none => (findDefinition read rest).map fun found => { found with before := line :: found.before }

/-- The first line of a text, and the text from its end on. -/
def firstLine (text : List Char) : List Char × List Char :=
  let line := text.takeWhile (· != '\n')
  (line, text.drop line.length)

/-! ### References -/

/-- A title between the given brackets that fills the line, but for spaces at its end. -/
def titleIn? (opening closing : Char) (line : List Char) : Option (List Char) :=
  let line := trimRightWith (· == ' ') line
  match line, line.reverse with
  | o :: _ :: _, c :: inner => if o == opening && c == closing then some (inner.reverse.drop 1) else none
  | _, _ => none

/-- The title that fills a line. -/
def titleLine? (line : List Char) : Option (List Char) :=
  (titleIn? '"' '"' line).orElse fun _ =>
    (titleIn? '\'' '\'' line).orElse fun _ => titleIn? '(' ')' line

/-- What follows an address: its title, which may stand on the next line, and the text behind. -/
def referenceTail? (text : List Char) : Option (Option (List Char) × List Char) :=
  let rest := dropSpaces text
  let here : Option (Option (List Char) × List Char) :=
    let (line, behind) := firstLine rest
    match titleLine? line with
    | some title => some (some title, behind)
    | none => if line.isEmpty then some (none, behind) else none
  match rest with
  | '\n' :: next =>
    let (line, behind) := firstLine (dropSpaces next)
    match titleLine? line with
    | some title => some (some title, behind)
    | none => if line.isEmpty then some (none, behind) else here
  | _ => here

/-- An address of at most the given length at the front of the text, with what follows it. -/
def referenceAddress? (text : List Char) : Nat → Option (Target × List Char)
  | 0 => none
  | n + 1 =>
    match referenceTail? (text.drop (n + 1)) with
    | some (title, behind) =>
      let address := trimRightWith (· == '>') (trimLeftWith (· == '<') (text.take (n + 1)))
      some (⟨address, title.filter (!·.isEmpty)⟩, behind)
    | none => referenceAddress? text n

/-- A reference: its name in brackets with a colon, its address, which may stand on the next line,
and a title. -/
def readReference (text : List Char) : Option ((List Char × Target) × List Char) := do
  let inner ← after? ['['] (← dropIndent? 3 text)
  let name := inner.takeWhile fun c => c != '[' && c != ']'
  let rest := dropSpaces (← after? "]:".toList (inner.drop name.length))
  let rest := dropSpaces ((after? ['\n'] rest).getD rest)
  let length := (rest.takeWhile fun c => !isBlank c).length
  let (target, behind) ← referenceAddress? rest length
  return ((lower (trim name), target), behind)

/-! ### Notes and abbreviations -/

/-- A note: its name in brackets behind a caret, a colon, and the first line of its text. -/
def readNote (text : List Char) : Option ((List Char × List Char) × List Char) := do
  let inner ← after? "[^".toList (← dropIndent? 3 text)
  let name := inner.takeWhile (· != ']')
  let rest ← after? "]:".toList (inner.drop name.length)
  let (line, behind) := firstLine (dropSpaces rest)
  return ((name, line), behind)

/-- The text of an abbreviation behind its name, which may stand on the next line. -/
def abbreviationText? (text : List Char) : Option (List Char × List Char) := do
  let rest := (after? [' '] text).getD text
  let rest := dropSpaces (← after? [':'] rest)
  let rest := dropSpaces ((after? ['\n'] rest).getD rest)
  return firstLine rest

/-- The name of an abbreviation up to the bracket that closes it, and its text. -/
def abbreviationName? (name : List Char) :
    List Char → Option ((List Char × List Char) × List Char)
  | [] => none
  | c :: rest =>
    let further := if c == '\\' then none else abbreviationName? (c :: name) rest
    if c == ']' then
      match abbreviationText? rest with
      | some (meaning, behind) => some ((name.reverse, meaning), behind)
      | none => further
    else further

/-- An abbreviation: an asterisk, its name in brackets, a colon and its text. -/
def readAbbreviation (text : List Char) : Option ((List Char × List Char) × List Char) := do
  let ((name, meaning), behind) ← abbreviationName? [] (← after? "*[".toList text)
  return ((trim name, trim meaning), behind)

end WikiMigration.Markdown
