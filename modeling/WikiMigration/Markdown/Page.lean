/-
A Markdown page as HTML.

The source is made ready, fenced code and HTML are set aside, blocks are read into a tree, then the
lines within them; the tree is laid out and written, and what was set aside takes the place of its
marks.  HTML of the level of blocks that stands in a paragraph by itself takes the place of the
paragraph.
-/
import WikiMigration.Html.Escape
import WikiMigration.Markdown.Fence
import WikiMigration.Markdown.Layout
import WikiMigration.Markdown.Mark
import WikiMigration.Markdown.Node
import WikiMigration.Markdown.Note
import WikiMigration.Text.Scan
import WikiMigration.Text.WordChar

namespace WikiMigration.Markdown

open Text

/-! ### Abbreviations

Wherever the name of an abbreviation stands by itself in a text, it is put into an element that
carries its meaning.  Longer names are looked for before shorter ones.
-/

/-- Names with their meanings, those of longer names first. -/
def longestFirst (abbreviations : List (List Char × List Char)) : List (List Char × List Char) :=
  abbreviations.mergeSort fun a b => b.1.length ≤ a.1.length

/-- Whether a word starts or ends between two characters. -/
def isWordEdge (before after : Option Char) : Bool :=
  (before.map isWordChar).getD false != (after.map isWordChar).getD false

/-- The name that starts at the text, behind the given character. -/
def nameAt? (abbreviations : List (List Char × List Char)) (before : Option Char)
    (text : List Char) : Option (List Char × List Char) :=
  if !isWordEdge before text.head? then none
  else abbreviations.find? fun (name, _) =>
    match after? name text with
    | some rest => isWordEdge name.getLast? rest.head?
    | none => false

/-- The nodes of a text, with its abbreviations as elements.  `before` is the character before, and
`skip` counts the characters of the current name that are still to be passed over. -/
def markNamesFrom (abbreviations : List (List Char × List Char)) (before : Option Char) :
    Nat → List Char → List Node
  | _, [] => []
  | skip + 1, c :: rest => markNamesFrom abbreviations (some c) skip rest
  | 0, c :: rest =>
    match nameAt? abbreviations before (c :: rest) with
    | some (name, meaning) =>
      .element "abbr" [("title", meaning)] [.text true name]
        :: markNamesFrom abbreviations (some c) (name.length - 1) rest
    | none =>
      match markNamesFrom abbreviations (some c) 0 rest with
      | .text false content :: nodes => .plain (c :: content) :: nodes
      | nodes => .plain [c] :: nodes

mutual

/-- The nodes that a node becomes when its abbreviations are marked. -/
def markNames (abbreviations : List (List Char × List Char)) : Node → List Node
  | .text true content => [.text true content]
  | .text false content => markNamesFrom abbreviations none 0 content
  | .element tag attributes children =>
    [.element tag attributes (markAllNames abbreviations children)]

/-- The nodes with their abbreviations marked. -/
def markAllNames (abbreviations : List (List Char × List Char)) : List Node → List Node
  | [] => []
  | node :: rest => markNames abbreviations node ++ markAllNames abbreviations rest

end

/-! ### The source of a page, made ready

Line ends become line feeds, tabs become spaces up to the next column that four divides, lines of
spaces become empty, and the text ends with an empty line.  A piece in the plugin notation is put
between tags of its own before anything else is read.
-/

/-- The distance of the columns that tabs lead to, and the depth of one level of indentation. -/
def tabWidth : Nat := 4

/-- The text with tabs as spaces; `column` counts the characters since the line began. -/
def expandTabsFrom (column : Nat) : List Char → List Char
  | [] => []
  | '\t' :: rest =>
    let width := tabWidth - column % tabWidth
    List.replicate width ' ' ++ expandTabsFrom (column + width) rest
  | c :: rest => c :: expandTabsFrom (if c == '\n' then 0 else column + 1) rest

/-- The lines with those that hold only spaces made empty. -/
def emptyBlankLines (ls : List (List Char)) : List (List Char) :=
  ls.map fun line => if line.all (· == ' ') then [] else line

/-- The lines of a source made ready. -/
def sourceLines (source : List Char) : List (List Char) :=
  let text := normalizeNewlines (source.filter fun c => !isMarkChar c)
  match lines (expandTabsFrom 0 (text ++ ['\n', '\n'])) with
  | [] => []
  | first :: rest => first :: emptyBlankLines rest

/-- A plugin at the front of the text: what stands in its brackets. -/
def pluginPattern : Pattern Char (List Char)
  | '[' :: '\x7b' :: rest =>
    match cut? "\x7d]()".toList rest with
    | some (body, _) => if body.contains '\n' then none else some (body, body.length + 6)
    | none => none
  | _ => none

/-- The text with its plugins between tags. -/
def tagPlugins (text : List Char) : List Char :=
  substitute pluginPattern
    (fun body => "<span class=\"wikiplugin\">".toList ++ Html.escape body ++ "</span>".toList) text

/-! ### Lines -/

/-- The text that an element starts with, read, and the nodes behind it. -/
def readLead (defs : Definitions) : List Node → LineM (List Node × List Node)
  | .text false content :: rest => do
    let lead ← readMarkup defs content
    return (lead, rest)
  | .text true content :: rest => return ([.text true content], rest)
  | nodes => return ([], nodes)

/-- A node whose own text has been read: the nodes it becomes, or an element with what is still to
be read within it. -/
inductive HalfRead where
  | nodes (done : List Node)
  | element (tag : String) (attributes : List (String × List Char)) (lead rest : List Node)

/-- Reads the text of a node, or the one that an element starts with. -/
def readHalf (defs : Definitions) : Node → LineM HalfRead
  | .text false content => do return .nodes (← readMarkup defs content)
  | .text true content => return .nodes [.text true content]
  | .element tag attributes children => do
    let (lead, rest) ← readLead defs children
    return .element tag attributes lead rest

mutual

/-- Reads the lines in the nodes: first the texts between them and those they start with, in order,
then what is within each, the last first.  `fuel` bounds the depth. -/
def readLines (defs : Definitions) (fuel : Nat) (nodes : List Node) : LineM (List Node) :=
  match fuel with
  | 0 => return nodes
  | fuel + 1 => do
    let halves ← nodes.mapM (readHalf defs)
    let done ← readRest defs fuel halves.reverse
    return done.reverse.flatten

/-- Reads what is within the nodes, from the first in the list on. -/
def readRest (defs : Definitions) (fuel : Nat) (halves : List HalfRead) : LineM (List (List Node)) :=
  match halves with
  | [] => return []
  | .nodes done :: more => do
    let others ← readRest defs fuel more
    return done :: others
  | .element tag attributes lead rest :: more => do
    let inner ← readLines defs fuel rest
    let others ← readRest defs fuel more
    return [.element tag attributes (lead ++ inner)] :: others

end

mutual

/-- The depth of a node. -/
def Node.depth : Node → Nat
  | .text _ _ => 0
  | .element _ _ children => depthOfAll children + 1

/-- The greatest depth of the nodes. -/
def depthOfAll : List Node → Nat
  | [] => 0
  | node :: rest => max node.depth (depthOfAll rest)

end

/-! ### Marks -/

/-- Whether HTML that stands by itself is of the level of blocks. -/
def isBlockHtml (html : List Char) : Bool :=
  match html with
  | '<' :: rest =>
    let rest := (after? ['/'] rest).getD rest
    let name := rest.takeWhile fun c => !(c == ' ' || c == '>')
    match name with
    | [] => false
    | c :: _ =>
      c == '!' || c == '?' || c == '@' || c == '%'
        || isBlockTag (String.ofList (trimRightWith (· == '/') (name.map Char.toLower)))
  | _ => false

/-- The HTML that was set aside under a number. -/
def keptHtml? (kept : List Kept) (n : Nat) : Option (List Char) :=
  match kept[n]? with
  | some (.html content) => some content
  | some (.element node) => some node.write
  | none => none

/-- What was set aside takes the place of its marks.  `skip` counts the characters of the current
mark that are still to be passed over. -/
def restoreFrom (kept : List Kept) : Nat → List Char → List Char
  | _, [] => []
  | skip + 1, _ :: rest => restoreFrom kept skip rest
  | 0, c :: rest =>
    let alone : Option (List Char × Nat) := do
      let inner ← after? "<p>".toList (c :: rest)
      let (n, behind) ← keptMark? inner
      let behind ← after? "</p>".toList behind
      let html ← keptHtml? kept n
      let covered := (c :: rest).length - behind.length
      return (if isBlockHtml html then html else "<p>".toList ++ html ++ "</p>".toList, covered)
    let within : Option (List Char × Nat) := do
      let (n, behind) ← keptMark? (c :: rest)
      let html ← keptHtml? kept n
      return (html, (c :: rest).length - behind.length)
    match alone.orElse fun _ => within with
    | some (html, covered) => html ++ restoreFrom kept (covered - 1) rest
    | none => c :: restoreFrom kept 0 rest

/-- What was set aside takes the place of its marks, and of those within it.  `fuel` bounds how deep
marks are within what was set aside. -/
def restore (kept : List Kept) : Nat → List Char → List Char
  | 0, text => text
  | fuel + 1, text => if text.contains markOpening then restore kept fuel (restoreFrom kept 0 text) else text

/-- The fixed pieces of output that marks stand for. -/
def fixedPiece? : List Char → Option (List Char)
  | ['a'] => some ['&']
  | ['r'] => some "&#8617;".toList
  | ['s'] => some "&#160;".toList
  | _ => none

/-! ### The page -/

/-- The tree of a page, with the pieces set aside. -/
def pageTree (source : List Char) : List Node × List Kept :=
  let (ls, fences) := keepFences (sourceLines source)
  let (ls, kept) := keepHtml (fences.map Kept.html) ls
  let read : BlockM (List Node) := do
    let children ← readText kept (unlines ls)
    withNotes kept children
  let (children, defs) := read.run {}
  let (children, state) := (readLines defs (depthOfAll children + 1) children).run { kept }
  let children := if defs.notes.isEmpty then children else orderAllNotes state.mentions children
  let children := readAllLists (endAllLines (openBlock (layOutAll children)))
  let children :=
    if defs.abbreviations.isEmpty then children
    else markAllNames (longestFirst defs.abbreviations) children
  (showAllLiterals children, state.kept)

/-- A page, with its plugins between tags, as HTML. -/
def renderPage (text : List Char) : List Char :=
  let source := tagPlugins text
  if isBlankText source then []
  else
    let (children, kept) := pageTree source
    let html := restore kept (kept.length + 1) (trim (writeNodes children))
    trim (replaceMarks fixedPiece? html)

end WikiMigration.Markdown
