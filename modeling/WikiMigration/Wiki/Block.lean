/-
Blocks of the wiki dialect.

A page is read line by line.  A line says by its opening what it is: a heading, a rule, an item of
a list, a row of a table, a definition, the start or the end of a style block, preformatted text, or
running text.  Reading turns the lines into a sequence of fragments, each of which opens, closes or
holds something; what the text of a fragment looks like is no concern of the reading.

Of the paragraph, the table and the lists that wait for further lines at most one is ever open.
-/
import WikiMigration.Text.Lines
import WikiMigration.Text.WordChar

namespace WikiMigration.Wiki

open Text

/-- The kinds of lists. -/
inductive ListKind where
  | bulleted
  | numbered
  deriving DecidableEq, Repr

/-- The kind that a marker at the front of an item stands for. -/
def ListKind.ofMarker (c : Char) : ListKind :=
  if c == '*' then .bulleted else .numbered

/-- What a line is, told by its opening. -/
inductive LineKind where
  | blank
  | preformattedOpening (first : List Char)
  | row
  | styleOpening (style : List Char)
  | styleClosing
  | rule
  | heading (level : Nat) (title : List Char)
  | item (kinds : List ListKind) (content : List Char)
  | definition (term : List Char) (meaning : List Char)
  | text
  deriving DecidableEq, Repr

/-- A step of the output: something that is opened, closed or written. -/
inductive Fragment where
  | paragraph (lines : List (List Char))
  | table (rows : List (List Char))
  | listOpening (kind : ListKind)
  /-- Closes the last item of a list together with the list. -/
  | listClosing (kind : ListKind)
  | itemClosing
  /-- An item that holds nothing but a deeper list. -/
  | itemOpening
  | item (content : List Char)
  | preformatted (lines : List (List Char)) (closed : Bool)
  | rule
  | heading (level : Nat) (title : List Char)
  | definition (term : List Char) (meaning : List Char)
  | styleOpening (style : List Char)
  | styleClosing
  deriving DecidableEq, Repr

/-! ### What a line is -/

/-- The opening of preformatted text. -/
def preformattedMark : List Char := "\x7b\x7b\x7b".toList

/-- The end of preformatted text. -/
def preformattedEnd : List Char := "\x7d\x7d\x7d".toList

/-- The style that a trimmed line opens: two percent signs and either a text in parentheses or a
word that starts with a letter. -/
def styleOpening? (stripped : List Char) : Option (List Char) :=
  match after? "%%".toList stripped with
  | some ('(' :: rest) =>
    let inner := rest.takeWhile (· != ')')
    match rest.drop inner.length with
    | ')' :: behind => if isBlankText behind then some ('(' :: inner ++ [')']) else none
    | _ => none
  | some (c :: rest) =>
    let more := rest.takeWhile fun d => isWordChar d || d == '-'
    if isLatin c && isBlankText (rest.drop more.length) then some (c :: more) else none
  | _ => none

/-- Whether the line is a rule: four dashes or more, and blanks. -/
def isRule (line : List Char) : Bool :=
  let dashes := line.takeWhile (· == '-')
  4 ≤ dashes.length && isBlankText (line.drop dashes.length)

/-- The heading level for the number of exclamation marks: more marks, higher heading. -/
def headingLevel (marks : Nat) : Nat := 5 - marks

/-- The heading of a line: one to three exclamation marks and a title. -/
def heading? (line : List Char) : Option (Nat × List Char) :=
  let marks := (line.takeWhile (· == '!')).take 3
  if marks.isEmpty then none
  else some (headingLevel marks.length, trim (line.drop marks.length))

/-- The list item of a line: markers, one for each level, and a content. -/
def item? (line : List Char) : Option (List ListKind × List Char) :=
  let markers := line.takeWhile fun c => c == '*' || c == '#'
  if markers.isEmpty then none
  else some (markers.map ListKind.ofMarker, trimLeft (line.drop markers.length))

/-- The definition of a line: a semicolon, a term, a colon and a meaning. -/
def definition? (line : List Char) : Option (List Char × List Char) :=
  match line with
  | ';' :: rest =>
    (cut? [':'] rest).map fun (term, meaning) => (trim term, trim meaning)
  | _ => none

/-- What a line is.  `inStyle` says that a style block is open, so that its end can be one. -/
def LineKind.of (inStyle : Bool) (line : List Char) : LineKind :=
  let stripped := trim line
  match (after? preformattedMark stripped).filter fun rest => !hasInfix preformattedEnd rest with
  | some first => .preformattedOpening first
  | none =>
    if stripped.isEmpty then .blank
    else if line.head? == some '|' then .row
    else match styleOpening? stripped with
      | some style => .styleOpening style
      | none =>
        if stripped == "/%".toList && inStyle then .styleClosing
        else if isRule line then .rule
        else match heading? line with
          | some (level, title) => .heading level title
          | none => match item? line with
            | some (kinds, content) => .item kinds content
            | none => match definition? line with
              | some (term, meaning) => .definition term meaning
              | none => .text

/-! ### Reading lines into fragments -/

/-- What is open between two lines. -/
structure Pending where
  /-- The lines of the open paragraph. -/
  paragraph : List (List Char)
  /-- The rows of the open table. -/
  rows : List (List Char)
  /-- The open lists, outermost first. -/
  lists : List ListKind
  /-- How many style blocks are open. -/
  styles : Nat
  /-- The lines of the open preformatted text. -/
  preformatted : Option (List (List Char))
  deriving DecidableEq, Repr

/-- Nothing is open. -/
def Pending.empty : Pending := ⟨[], [], [], 0, none⟩

/-- The end of the open paragraph. -/
def Pending.paragraphEnd (pending : Pending) : List Fragment :=
  if pending.paragraph.isEmpty then [] else [.paragraph pending.paragraph]

/-- The end of the open table. -/
def Pending.tableEnd (pending : Pending) : List Fragment :=
  if pending.rows.isEmpty then [] else [.table pending.rows]

/-- Closes lists, given outermost first, from the innermost outwards. -/
def closeLists (lists : List ListKind) : List Fragment :=
  lists.reverse.map .listClosing

/-- The end of all that is open but style blocks and preformatted text. -/
def Pending.blocksEnd (pending : Pending) : List Fragment :=
  pending.paragraphEnd ++ pending.tableEnd ++ closeLists pending.lists

/-- No paragraph, table or list is open. -/
def Pending.withoutBlocks (pending : Pending) : Pending :=
  { pending with paragraph := [], rows := [], lists := [] }

/-- How many of the open lists an item continues. -/
def sharedDepth : List ListKind → List ListKind → Nat
  | openKind :: lists, kind :: kinds =>
    if openKind = kind then sharedDepth lists kinds + 1 else 0
  | _, _ => 0

/-- Opens lists one inside another, each but the last in an item of its own. -/
def openLists : List ListKind → List Fragment
  | [] => []
  | [kind] => [.listOpening kind]
  | kind :: kinds => .listOpening kind :: .itemOpening :: openLists kinds

/-- The fragments that bring an item of the given lists after the open ones. -/
def itemFragments (lists kinds : List ListKind) (content : List Char) : List Fragment :=
  let shared := sharedDepth lists kinds
  closeLists (lists.drop shared)
    ++ (if shared != 0 && shared == kinds.length then [.itemClosing]
        else openLists (kinds.drop shared))
    ++ [.item content]

/-- Reads a line of preformatted text; the line that ends it may hold some of it before the end. -/
def Pending.stepPreformatted (pending : Pending) (read : List (List Char)) (line : List Char) :
    Pending × List Fragment :=
  match cut? preformattedEnd line with
  | none => ({ pending with preformatted := some (read ++ [line]) }, [])
  | some (before, _) =>
    let read := if isBlankText before then read else read ++ [before]
    ({ pending with preformatted := none }, [.preformatted read true])

/-- Reads a line outside preformatted text. -/
def Pending.stepLine (pending : Pending) (line : List Char) : Pending × List Fragment :=
  match LineKind.of (pending.styles != 0) line with
  | .preformattedOpening first =>
    ({ pending.withoutBlocks with
        preformatted := some (if isBlankText first then [] else [first]) },
      pending.blocksEnd)
  | .blank => (pending.withoutBlocks, pending.blocksEnd)
  | .row =>
    ({ pending with paragraph := [], lists := [], rows := pending.rows ++ [line] },
      pending.paragraphEnd ++ closeLists pending.lists)
  | .styleOpening style =>
    ({ pending.withoutBlocks with styles := pending.styles + 1 },
      pending.blocksEnd ++ [.styleOpening style])
  | .styleClosing =>
    ({ pending.withoutBlocks with styles := pending.styles - 1 },
      pending.blocksEnd ++ [.styleClosing])
  | .rule => (pending.withoutBlocks, pending.blocksEnd ++ [.rule])
  | .heading level title =>
    (pending.withoutBlocks, pending.blocksEnd ++ [.heading level title])
  | .definition term meaning =>
    (pending.withoutBlocks, pending.blocksEnd ++ [.definition term meaning])
  | .item kinds content =>
    ({ pending with paragraph := [], rows := [], lists := kinds },
      pending.tableEnd ++ pending.paragraphEnd ++ itemFragments pending.lists kinds content)
  | .text =>
    ({ pending with rows := [], lists := [], paragraph := pending.paragraph ++ [line] },
      pending.tableEnd ++ closeLists pending.lists)

/-- Reads one line. -/
def Pending.step (pending : Pending) (line : List Char) : Pending × List Fragment :=
  match pending.preformatted with
  | some read => pending.stepPreformatted read line
  | none => pending.stepLine line

/-- The fragments that end a page. -/
def Pending.finish (pending : Pending) : List Fragment :=
  (match pending.preformatted with
    | some read => [.preformatted read false]
    | none => [])
    ++ pending.blocksEnd ++ List.replicate pending.styles .styleClosing

/-- The fragments of the remaining lines. -/
def fragmentsFrom (pending : Pending) : List (List Char) → List Fragment
  | [] => pending.finish
  | line :: rest =>
    let (pending, fragments) := pending.step line
    fragments ++ fragmentsFrom pending rest

/-- The lines of a page: NUL characters are dropped, and every way to end a line is read alike. -/
def pageLines (text : List Char) : List (List Char) :=
  lines (normalizeNewlines (text.filter (· != '\x00')))

/-- The fragments of a page. -/
def fragmentsOf (text : List Char) : List Fragment :=
  fragmentsFrom .empty (pageLines text)

end WikiMigration.Wiki
