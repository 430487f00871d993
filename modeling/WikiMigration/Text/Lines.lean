/-
Texts as lists of characters, and the small operations on them.

Pieces are cut at a separator and joined by one; a text is trimmed of blank characters, or of
characters of another class, at one end or both.  Cutting at a character never gives the empty list.
-/
import WikiMigration.Text.Ranges

namespace WikiMigration.Text

/-! ### Blank characters

Trimming a text, splitting it into words and the blank class of a pattern all mean the same set:
the Unicode white space together with the four separators U+001C to U+001F.
-/

/-- The blank characters from U+0080 on. -/
def blankRanges : Ranges := [
  (0x85, 0x85), (0xA0, 0xA0), (0x1680, 0x1680), (0x2000, 0x200A), (0x2028, 0x2029), (0x202F, 0x202F),
  (0x205F, 0x205F), (0x3000, 0x3000)]

/-- Whether the character is white space or one of the four information separators. -/
def isBlank (c : Char) : Bool :=
  let n := c.toNat
  if n < 0x80 then (9 ≤ n && n ≤ 13) || (0x1C ≤ n && n ≤ 0x20) else blankRanges.holds n

/-! ### Pieces and ends -/

/-- The pieces between the separators; one piece more than there are separators. -/
def splitAt (separator : Char) : List Char → List (List Char)
  | [] => [[]]
  | c :: rest =>
    if c == separator then [] :: splitAt separator rest
    else match splitAt separator rest with
      | [] => [[c]]
      | piece :: pieces => (c :: piece) :: pieces

/-- The lines of a text: the pieces between its line feeds. -/
def lines (text : List Char) : List (List Char) :=
  splitAt '\n' text

/-- The pieces with the separator between them. -/
def joinWith (separator : List Char) : List (List Char) → List Char
  | [] => []
  | [piece] => piece
  | piece :: pieces => piece ++ separator ++ joinWith separator pieces

/-- The lines with a line feed between them. -/
def unlines (pieces : List (List Char)) : List Char :=
  joinWith ['\n'] pieces

/-- The text without the characters of the class at its start. -/
def trimLeftWith (p : Char → Bool) (text : List Char) : List Char :=
  text.dropWhile p

/-- The text without the characters of the class at its end. -/
def trimRightWith (p : Char → Bool) (text : List Char) : List Char :=
  (text.reverse.dropWhile p).reverse

/-- The text without the characters of the class at its two ends. -/
def trimWith (p : Char → Bool) (text : List Char) : List Char :=
  trimRightWith p (trimLeftWith p text)

/-- The text without the blanks at its start. -/
def trimLeft (text : List Char) : List Char := trimLeftWith isBlank text

/-- The text without the blanks at its end. -/
def trimRight (text : List Char) : List Char := trimRightWith isBlank text

/-- The text without the blanks at its two ends. -/
def trim (text : List Char) : List Char := trimWith isBlank text

/-- The text without the line feeds at its two ends. -/
def trimNewlines (text : List Char) : List Char := trimWith (· == '\n') text

/-- Whether the text is empty or blank throughout. -/
def isBlankText (text : List Char) : Bool := text.all isBlank

/-- What follows the opening text, if the text starts with it. -/
def after? (opening : List Char) (text : List Char) : Option (List Char) :=
  match opening, text with
  | [], rest => some rest
  | _ :: _, [] => none
  | o :: opening, c :: rest => if o == c then after? opening rest else none

/-- Whether the text starts with the given one. -/
def startsWith (opening : List Char) (text : List Char) : Bool :=
  (after? opening text).isSome

/-- Whether the text ends with the given one. -/
def endsWith (ending : List Char) (text : List Char) : Bool :=
  startsWith ending.reverse text.reverse

/-- What stands before the first occurrence of the mark, and what stands behind it. -/
def cut? (mark : List Char) : List Char → Option (List Char × List Char)
  | [] => if mark.isEmpty then some ([], []) else none
  | c :: rest =>
    match after? mark (c :: rest) with
    | some behind => some ([], behind)
    | none => (cut? mark rest).map fun (before, behind) => (c :: before, behind)

/-- Whether the mark occurs in the text. -/
def hasInfix (mark : List Char) (text : List Char) : Bool :=
  (cut? mark text).isSome

theorem length_after? {opening text rest : List Char} (h : after? opening text = some rest) :
    text.length = opening.length + rest.length := by
  induction opening generalizing text with
  | nil => simp [after?] at h; simp [h]
  | cons o opening ih =>
    cases text with
    | nil => simp [after?] at h
    | cons c text =>
      simp only [after?] at h
      split at h
      · simp only [List.length_cons, ih h]; omega
      · cases h

/-- The text with every occurrence of a mark, from left to right, replaced.  `skip` counts the
characters of the current occurrence that are still to be passed over. -/
def replaceFrom (mark replacement : List Char) : Nat → List Char → List Char
  | _, [] => []
  | skip + 1, _ :: rest => replaceFrom mark replacement skip rest
  | 0, c :: rest =>
    if startsWith mark (c :: rest) then
      replacement ++ replaceFrom mark replacement (mark.length - 1) rest
    else c :: replaceFrom mark replacement 0 rest

/-- The text with every occurrence of the mark, from left to right, replaced.  The mark holds at
least one character. -/
def replaceAll (mark replacement text : List Char) : List Char :=
  replaceFrom mark replacement 0 text

/-- The text with carriage returns, alone or before a line feed, read as line feeds. -/
def normalizeNewlines : List Char → List Char
  | [] => []
  | '\r' :: '\n' :: rest => '\n' :: normalizeNewlines rest
  | c :: rest => (if c == '\r' then '\n' else c) :: normalizeNewlines rest

/-- The text with every run of blanks written as one space.  `pending` says that blanks were
passed and their space is still to be written. -/
def collapseFrom (pending : Bool) : List Char → List Char
  | [] => if pending then [' '] else []
  | c :: rest =>
    if isBlank c then collapseFrom true rest
    else if pending then ' ' :: c :: collapseFrom false rest
    else c :: collapseFrom false rest

/-- The text with every run of blanks written as one space. -/
def collapseBlanks (text : List Char) : List Char :=
  collapseFrom false text

end WikiMigration.Text
