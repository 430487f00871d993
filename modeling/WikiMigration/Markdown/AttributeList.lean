/-
Attribute lists.

A list in braces gives attributes to the element it belongs to: `#name` its identifier, `.name` a
class, `key=value` with or without quotes any attribute, and a bare word an attribute with its own
name as value.
-/
import WikiMigration.Text.Lines
import WikiMigration.Text.Ranges

namespace WikiMigration.Markdown

open Text

/-- An entry of an attribute list. -/
inductive AttributeEntry where
  | className (name : List Char)
  | pair (key value : List Char)
  deriving DecidableEq, Repr

/-- Whether the character may stand in a word of an attribute list. -/
def isListChar (c : Char) : Bool := !(c == ' ' || c == '=' || c == '\x7d')

/-- The value within the quotes that the text starts with, and how many characters it covers. -/
def quotedValue? (text : List Char) : Option (List Char × Nat) :=
  match text with
  | q :: rest =>
    if q == '"' || q == '\'' then
      match cut? [q] rest with
      | some (inner, _) =>
        if inner.contains '\n' then none
        else some (trimWith (· == q) inner, inner.length + 2)
      | none => none
    else none
  | [] => none

/-- The entry that a bare word stands for. -/
def wordEntry (word : List Char) : AttributeEntry :=
  match word with
  | '.' :: name => .className name
  | '#' :: name => .pair "id".toList name
  | _ => .pair word word

/-- The entries at the front of the text, and what is left where no entry can be read. -/
def readEntries : Nat → List AttributeEntry → List Char → List AttributeEntry × List Char
  | 0, entries, text => (entries.reverse, text)
  | fuel + 1, entries, text =>
    match text with
    | ' ' :: rest => readEntries fuel entries rest
    | text =>
      let word := text.takeWhile isListChar
      if word.isEmpty then (entries.reverse, text)
      else
        match text.drop word.length with
        | '=' :: rest =>
          match quotedValue? rest with
          | some (value, covered) =>
            readEntries fuel (.pair word value :: entries) (rest.drop covered)
          | none =>
            let value := rest.takeWhile isListChar
            if value.isEmpty then readEntries fuel (wordEntry word :: entries) ('=' :: rest)
            else readEntries fuel (.pair word value :: entries) (rest.drop value.length)
        | rest => readEntries fuel (wordEntry word :: entries) rest

/-- The entries of a list, and what stands behind a closing brace within it. -/
def attributeEntries (text : List Char) : List AttributeEntry × List Char :=
  let (entries, rest) := readEntries (text.length + 1) [] text
  (entries, rest.dropWhile (· != '\x7d'))

/-- The characters that may stand in the name of an attribute. -/
def nameRanges : List (Nat × Nat) :=
  [(0x2D, 0x2E), (0x30, 0x3A), (0x41, 0x5A), (0x5F, 0x5F), (0x61, 0x7A), (0xB7, 0xB7), (0xC0, 0xD6),
    (0xD8, 0xF6), (0xF8, 0x37D), (0x37F, 0x1FFF), (0x200C, 0x200D), (0x203F, 0x2040),
    (0x2070, 0x218F), (0x2C00, 0x2FEF), (0x3001, 0xD7FF), (0xF900, 0xFDCF), (0xFDF0, 0xFFFD)]

/-- The name with every run of other characters written as one underscore. -/
def plainKeyFrom (inRun : Bool) : List Char → List Char
  | [] => []
  | c :: rest =>
    if nameRanges.any fun (low, high) => low ≤ c.toNat && c.toNat ≤ high then
      c :: plainKeyFrom false rest
    else if inRun then plainKeyFrom true rest
    else '_' :: plainKeyFrom true rest

/-- A list in braces at the front of the text: its entries, what stood behind a brace within it, and
what follows it.  The list reaches to the last closing brace of its line. -/
def bracedList? (text : List Char) : Option (List Char × List Char) :=
  match text with
  | '\x7b' :: rest =>
    let rest := match rest with
      | ':' :: more => more
      | more => more
    let line := (rest.takeWhile (· != '\n')).dropWhile (· == ' ')
    match line.reverse.dropWhile (· != '\x7d') with
    | '\x7d' :: inner =>
      match inner.reverse with
      | [] => none
      | c :: more =>
        if c == '\x7d' then none
        else
          let dropped := (line.reverse.takeWhile (· != '\x7d')).length
          let blanks := ((rest.takeWhile (· != '\n')).takeWhile (· == ' ')).length
          some (c :: more, rest.drop (blanks + (line.length - dropped)))
    | _ => none
  | _ => none

end WikiMigration.Markdown
