/-
Marks in a text.

A text that is being rendered holds, besides its characters, marks: for a piece of finished HTML
that is kept aside, for a character that a backslash has made literal, and for a few fixed pieces of
the output.  A mark stands between two control characters that are taken out of every text first, so
no text can imitate one.
-/
import WikiMigration.Text.Lines

namespace WikiMigration.Markdown

open Text

/-- The character that opens a mark. -/
def markOpening : Char := '\x02'

/-- The character that closes a mark. -/
def markClosing : Char := '\x03'

/-- Whether the character can only be part of a mark. -/
def isMarkChar (c : Char) : Bool := c == markOpening || c == markClosing

/-- A mark with the given content. -/
def mark (content : List Char) : List Char := markOpening :: content ++ [markClosing]

/-- The mark of the kept piece with the number. -/
def keptMark (n : Nat) : List Char := mark ('k' :: (Nat.repr n).toList)

/-- The mark of a character that stands for itself. -/
def literalMark (c : Char) : List Char := mark (Nat.repr c.toNat).toList

/-- The mark of an ampersand that begins a reference. -/
def ampersandMark : List Char := mark ['a']

/-- The mark of the sign that leads back from a note. -/
def returnMark : List Char := mark ['r']

/-- The mark of the space before that sign. -/
def returnSpaceMark : List Char := mark ['s']

/-- The number that decimal digits spell, if there is at least one and nothing else. -/
def number? (cs : List Char) : Option Nat :=
  if cs.isEmpty || !cs.all Char.isDigit then none
  else some (cs.foldl (fun n c => 10 * n + (c.toNat - '0'.toNat)) 0)

/-- The content of the mark at the front of the text, and what follows the mark. -/
def mark? : List Char → Option (List Char × List Char)
  | c :: rest => if c == markOpening then cut? [markClosing] rest else none
  | [] => none

/-- The number of the kept piece whose mark is at the front of the text, and what follows it. -/
def keptMark? (text : List Char) : Option (Nat × List Char) :=
  match mark? text with
  | some ('k' :: digits, rest) => (number? digits).map fun n => (n, rest)
  | _ => none

/-- The text with the marks that `f` knows replaced.  `skip` counts the characters of the current
mark that are still to be passed over. -/
def replaceMarksFrom (f : List Char → Option (List Char)) : Nat → List Char → List Char
  | _, [] => []
  | skip + 1, _ :: rest => replaceMarksFrom f skip rest
  | 0, c :: rest =>
    match mark? (c :: rest) with
    | some (content, _) =>
      match f content with
      | some replacement => replacement ++ replaceMarksFrom f (content.length + 1) rest
      | none => c :: replaceMarksFrom f 0 rest
    | none => c :: replaceMarksFrom f 0 rest

/-- The text with the marks that `f` knows replaced. -/
def replaceMarks (f : List Char → Option (List Char)) (text : List Char) : List Char :=
  replaceMarksFrom f 0 text

/-- The text with the characters that stand for themselves in place of their marks. -/
def readLiterals (text : List Char) : List Char :=
  replaceMarks (fun content => (number? content).map fun n => [Char.ofNat n]) text

end WikiMigration.Markdown
