/-
The blocks of a Markdown page.

The text between empty lines is a block.  The rules for blocks are tried in a fixed order; the first
that applies takes the block, adds to the children of the element it stands in, and may give lines
back to be read again.  What a rule does depends on that element and on the mode: within an item of
a tight list text stays text, elsewhere it becomes a paragraph.

Blocks hold blocks: `ReadBlocks` reads those within a block, and every rule is given it.  The
number of times that blocks are read within each other is bounded by the length of the text.
-/
import WikiMigration.Markdown.Definition
import WikiMigration.Markdown.RawHtml
import WikiMigration.Markdown.TableRow

namespace WikiMigration.Markdown

open Text

/-! ### What rules work on -/

/-- How the blocks within an element are read. -/
inductive BlockMode where
  | plain
  /-- In an item of a tight list. -/
  | tight
  /-- In an item whose text is in paragraphs. -/
  | loose
  | quoted
  /-- With the indentation of an item taken off. -/
  | unindented
  deriving DecidableEq, Repr

/-- Reading blocks, with what the page defines. -/
abbrev BlockM := StateM Definitions

/-- The blocks of a text that are still to be read. -/
abbrev Blocks := List (List Char)

/-- Reads blocks within an element of a name that has children already; the result is its children
behind them. -/
abbrev ReadBlocks := BlockMode → String → List Node → Blocks → BlockM (List Node)

/-- What a rule can see: the mode, the name of the element, its children, the block, and the blocks
behind it. -/
structure BlockSpot where
  mode : BlockMode
  tag : String
  children : List Node
  block : List Char
  rest : Blocks

/-- A rule: the children and the blocks that are left, if it applies. -/
abbrev BlockRule := ReadBlocks → BlockSpot → BlockM (Option (List Node × Blocks))

/-- The blocks of a text. -/
def splitBlocksFrom (current : List Char) : List Char → Blocks
  | [] => [current.reverse]
  | '\n' :: '\n' :: rest => current.reverse :: splitBlocksFrom [] rest
  | c :: rest => splitBlocksFrom (c :: current) rest

/-- The blocks of a text: the pieces between its empty lines. -/
def splitBlocks (text : List Char) : Blocks := splitBlocksFrom [] text

/-- The last element among the children. -/
def lastElement? (children : List Node) : Option Node := children.reverse.find? Node.isElement

/-- The children with the last element replaced. -/
def replaceLastElement (node : Node) (children : List Node) : List Node :=
  let tail := (children.reverse.takeWhile fun n => !n.isElement).reverse
  children.take (children.length - tail.length - 1) ++ node :: tail

/-- The name of the last element among the children. -/
def lastTag? (children : List Node) : Option String := (lastElement? children).bind Node.tag?

/-- The children with the last element and what follows it left out. -/
def withoutLastElement (children : List Node) : List Node :=
  ((children.reverse.dropWhile fun n => !n.isElement).drop 1).reverse

/-- The text that the children start with. -/
def leadingText : List Node → List Char
  | .text _ content :: _ => content
  | _ => []

/-- The children with the text they start with in a paragraph. -/
def leadInParagraph : List Node → List Node
  | .text isLiteral content :: rest =>
    if content.isEmpty then rest else .plainElement "p" [.text isLiteral content] :: rest
  | children => children

/-- The lines before a position, the line at it, and the lines behind it, for the first line that
the function reads. -/
def findLine {α : Type} (read : List Char → Option α) :
    List (List Char) → Option (List (List Char) × α × List (List Char))
  | [] => none
  | line :: rest =>
    match read line with
    | some value => some ([], value, rest)
    | none => (findLine read rest).map fun (before, value, behind) => (line :: before, value, behind)

/-- The blocks with a text in front, unless it is blank. -/
def withBlock (text : List Char) (rest : Blocks) : Blocks := if text.isEmpty then rest else text :: rest

/-! ### Indentation -/

/-- One level of indentation. -/
def indentation : List Char := List.replicate tabLength ' '
where
  /-- The width of a level. -/
  tabLength : Nat := 4

/-- Whether a text is indented. -/
def isIndented (text : List Char) : Bool := startsWith indentation text

/-- The lines with one level of indentation taken off, up to the first line that has none and is not
blank, and the lines from that one on. -/
def unindentLines : List (List Char) → List (List Char) × List (List Char)
  | [] => ([], [])
  | line :: rest =>
    match after? indentation line with
    | some inner =>
      let (taken, left) := unindentLines rest
      (inner :: taken, left)
    | none =>
      if isBlankText line then
        let (taken, left) := unindentLines rest
        ([] :: taken, left)
      else ([], line :: rest)

/-- The text with indentation of the depth taken off wherever a line has it. -/
def unindentLoosely (depth : Nat) (text : List Char) : List Char :=
  let width := List.replicate (4 * depth) ' '
  unlines ((lines text).map fun line => (after? width line).getD line)

/-! ### Code and empty blocks -/

/-- The code that a `pre` element holds. -/
def codeText? : Node → Option (List Char)
  | .element "pre" _ (.element "code" _ children :: _) => some (innerTexts children)
  | _ => none

/-- A block of code. -/
def codeBlock (code : List Char) : Node :=
  .plainElement "pre" [.plainElement "code" [.text true code]]

/-- An empty block, or the empty line that a block starts with; in code it is kept. -/
def emptyRule : BlockRule := fun _ spot =>
  let within (filler : List Char) : List Node :=
    match (lastElement? spot.children).bind codeText? with
    | some code => replaceLastElement (codeBlock (code ++ filler)) spot.children
    | none => spot.children
  match spot.block with
  | [] => return some (within ['\n', '\n'], spot.rest)
  | '\n' :: block => return some (within ['\n'], withBlock block spot.rest)
  | _ => return none

/-- Indented lines are code; code behind code goes on with it. -/
def codeRule : BlockRule := fun _ spot =>
  if !isIndented spot.block then return none
  else
    let (taken, left) := unindentLines (lines spot.block)
    let code := trimRight (unlines taken)
    let children := match (lastElement? spot.children).bind codeText? with
      | some before =>
        replaceLastElement (codeBlock (before ++ '\n' :: code ++ ['\n'])) spot.children
      | none => spot.children ++ [codeBlock (code ++ ['\n'])]
    return some (children, withBlock (unlines left) spot.rest)

/-! ### Lists -/

/-- The marker of an item: a number, with its digits, or a bullet. -/
inductive ItemMarker where
  | number (digits : List Char)
  | bullet
  deriving DecidableEq, Repr

/-- The marker at the front of a line, and the text behind it and its spaces. -/
def itemMarker? (line : List Char) : Option (ItemMarker × List Char) :=
  let spaced (rest : List Char) (marker : ItemMarker) : Option (ItemMarker × List Char) :=
    if rest.head? == some ' ' then some (marker, dropSpaces rest) else none
  match line with
  | c :: rest =>
    if c == '*' || c == '+' || c == '-' then spaced rest .bullet
    else
      let digits := line.takeWhile isDecimal
      match digits, line.drop digits.length with
      | _ :: _, '.' :: rest => spaced rest (.number digits)
      | _, _ => none
  | [] => none

/-- The kind of a list. -/
inductive ListKind where
  | numbered
  | bulleted
  deriving DecidableEq, Repr

/-- The element of the list. -/
def ListKind.tag : ListKind → String
  | .numbered => "ol"
  | .bulleted => "ul"

/-- Whether items with the marker belong to the kind. -/
def ListKind.has : ListKind → ItemMarker → Bool
  | .numbered, .number _ => true
  | .bulleted, .bullet => true
  | _, _ => false

/-- The item of the kind that a line begins. -/
def ListKind.item? (kind : ListKind) (line : List Char) : Option (ItemMarker × List Char) :=
  (dropIndent? 3 line).bind fun rest => (itemMarker? rest).filter fun (marker, _) => kind.has marker

/-- Whether a line is an item of any kind, one level in. -/
def isNestedItem (line : List Char) : Bool :=
  match after? indentation line with
  | some inner => ((dropIndent? 3 inner).bind itemMarker?).isSome
  | none => false

/-- The items of a block; the one being read and those before it are held last first. -/
def collectItems (kind : ListKind) : List (List Char) → List (List Char) → List (List Char)
  | items, [] => items.reverse
  | items, line :: rest =>
    match kind.item? line, items with
    | some (_, text), items => collectItems kind (text :: items) rest
    | none, [] => collectItems kind [line] rest
    | none, last :: before =>
      if isNestedItem line && !isIndented last then collectItems kind (line :: last :: before) rest
      else collectItems kind ((last ++ '\n' :: line) :: before) rest

/-- Adds items to a list: an indented one goes on with the last item. -/
def addItems (nested : ReadBlocks) (items : List Node) : List (List Char) → BlockM (List Node)
  | [] => return items
  | text :: rest => do
    match isIndented text, lastElement? items with
    | true, some (.element tag attributes children) =>
      let children ← nested .tight tag children [text]
      addItems nested (replaceLastElement (.element tag attributes children) items) rest
    | _, _ =>
      let children ← nested .tight "li" [] [text]
      addItems nested (items ++ [.plainElement "li" children]) rest

/-- The text behind the last element of an item, in a paragraph. -/
def tailInParagraph (children : List Node) : List Node :=
  match children.reverse with
  | .text _ content :: .element tag attributes inner :: before =>
    before.reverse ++ [.element tag attributes inner, .plainElement "p" [.plain (trimLeft content)]]
  | _ => children

/-- A list of a kind.  It goes on with a list of the kind before it, whose last item is then put in
paragraphs. -/
def listRule (kind : ListKind) : BlockRule := fun nested spot => do
  match lines spot.block with
  | [] => return none
  | line :: more =>
    match kind.item? line with
    | none => return none
    | some (marker, _) =>
      let items := collectItems kind [] (line :: more)
      match lastElement? spot.children with
      | some (.element tag attributes old) =>
        if tag == kind.tag then
          let old := match lastElement? old with
            | some (.element itemTag itemAttributes inner) =>
              replaceLastElement
                (.element itemTag itemAttributes (tailInParagraph (leadInParagraph inner))) old
            | _ => old
          match items with
          | [] => return none
          | first :: items =>
            let children ← nested .loose "li" [] [first]
            let new ← addItems nested (old ++ [.plainElement "li" children]) items
            return some (replaceLastElement (.element tag attributes new) spot.children, spot.rest)
        else fresh nested spot marker items
      | _ => fresh nested spot marker items
where
  /-- A list of its own, unless the element is one already. -/
  fresh (nested : ReadBlocks) (spot : BlockSpot) (marker : ItemMarker) (items : List (List Char)) :
      BlockM (Option (List Node × Blocks)) := do
    if spot.tag == "ol" || spot.tag == "ul" then
      return some (← addItems nested spot.children items, spot.rest)
    else
      let attributes := match marker with
        | .number digits => if digits == ['1'] then [] else [("start", digits)]
        | .bullet => []
      let new ← addItems nested [] items
      return some (spot.children ++ [.element kind.tag attributes new], spot.rest)

/-- The names that matter to indented blocks: of lists, of their items, and of a new item. -/
structure ItemNames where
  lists : List String
  items : List String
  newItem : String

/-- The lists with bullets or numbers. -/
def listNames : ItemNames := ⟨["ul", "ol"], ["li"], "li"⟩

/-- All lists, those of definitions among them. -/
def definitionNames : ItemNames := ⟨["dl", "ol", "ul"], ["dd", "li"], "dd"⟩

/-- How far an indented block reaches into the last elements: the number of them passed, and the
number of lists among these and before. -/
def indentReach (names : ItemNames) (indent : Nat) :
    Nat → Nat → List Node → Nat × Nat
  | 0, level, _ => (0, level)
  | fuel + 1, level, children =>
    if indent ≤ level then (0, level)
    else
      match lastElement? children with
      | some (.element tag _ inner) =>
        if names.lists.contains tag || names.items.contains tag then
          let (depth, level) :=
            indentReach names indent fuel (if names.lists.contains tag then level + 1 else level) inner
          (depth + 1, level)
        else (0, level)
      | _ => (0, level)

/-- Changes the children of the last element at a depth. -/
def modifyInner (change : String → List Node → BlockM (List Node)) :
    Nat → String → List Node → BlockM (List Node)
  | 0, tag, children => change tag children
  | depth + 1, _, children => do
    match lastElement? children with
    | some (.element tag attributes inner) =>
      let inner ← modifyInner change depth tag inner
      return replaceLastElement (.element tag attributes inner) children
    | _ => return children

/-- An indented block within an item, or behind a list, belongs to the item it is indented like. -/
def indentRule (names : ItemNames) : BlockRule := fun nested spot => do
  let inItem := names.items.contains spot.tag
  let behindList := ((lastTag? spot.children).map names.lists.contains).getD false
  if !isIndented spot.block || spot.mode == .unindented || !(inItem || behindList) then return none
  else
    let indent := (spot.block.takeWhile (· == ' ')).length / 4
    let start := if spot.mode == .tight then 1 else 0
    let (depth, level) := indentReach names indent (2 * indent + 2) start spot.children
    let block := unindentLoosely level spot.block
    let within (tag : String) (children : List Node) (blocks : Blocks) : BlockM (List Node) :=
      nested .unindented tag children blocks
    if inItem then
      let children ←
        modifyInner (fun tag children => within tag children [block])
          (if behindList then 1 else 0) spot.tag spot.children
      return some (children, spot.rest)
    else
      let children ← modifyInner (fun tag children => do
        if names.items.contains tag then within tag children [block]
        else
          match lastElement? children with
          | some (.element itemTag attributes inner) =>
            if names.items.contains itemTag then
              let inner ← within itemTag (leadInParagraph inner) (splitBlocks block)
              return replaceLastElement (.element itemTag attributes inner) children
            else newItem within children block
          | _ => newItem within children block) depth spot.tag spot.children
      return some (children, spot.rest)
where
  /-- A new item with the block. -/
  newItem (within : String → List Node → Blocks → BlockM (List Node)) (children : List Node)
      (block : List Char) : BlockM (List Node) := do
    let inner ← within names.newItem [] [block]
    return children ++ [.plainElement names.newItem inner]

/-- The text of the definition that a line gives. -/
def definitionLine? (line : List Char) : Option (List Char) := do
  let rest ← after? [':'] (← dropIndent? 3 line)
  let n := (rest.takeWhile (· == ' ')).length
  if n == 0 then none else some (rest.drop (min n 3))

/-- A definition: its terms stand in the lines before it, or in the paragraph before. -/
def definitionRule : BlockRule := fun nested spot => do
  match findLine definitionLine? (lines spot.block) with
  | none => return none
  | some (before, text, behind) =>
    let terms := (before.map trim).filter (!·.isEmpty)
    let startsPlainly := match (dropIndent? 3 (unlines behind)).bind List.head? with
      | some c => c != ' ' && c != ':'
      | none => false
    let (taken, left) := if startsPlainly then (behind, []) else unindentLines behind
    let more := unlines taken
    let text := if more.isEmpty then text else text ++ '\n' :: more
    match terms, lastElement? spot.children with
    | [], none => return none
    | [], some (.element "p" _ inner) =>
      add nested spot (withoutLastElement spot.children) (lines (leadingText inner)) text true
        (unlines left)
    | terms, _ => add nested spot spot.children terms text false (unlines left)
where
  /-- Adds terms and their definition. -/
  add (nested : ReadBlocks) (spot : BlockSpot) (children : List Node) (terms : List (List Char))
      (text : List Char) (isLoose : Bool) (left : List Char) :
      BlockM (Option (List Node × Blocks)) := do
    let entries := terms.map fun term => Node.plainElement "dt" [.plain term]
    match lastElement? children with
    | some (.element "dl" attributes old) =>
      let followsLoose := terms.isEmpty && match lastElement? old with
        | some (.element "dd" _ inner) => (lastElement? inner).isSome
        | _ => false
      let inner ← nested (if isLoose || followsLoose then .loose else .tight) "dd" [] [text]
      let list := Node.element "dl" attributes (old ++ entries ++ [.plainElement "dd" inner])
      return some (replaceLastElement list children, withBlock left spot.rest)
    | _ =>
      let inner ← nested (if isLoose then .loose else .tight) "dd" [] [text]
      let list := Node.plainElement "dl" (entries ++ [.plainElement "dd" inner])
      return some (children ++ [list], withBlock left spot.rest)

/-! ### Tables, headings, rules and quotations -/

/-- A row of a table. -/
def tableRow (head : TableHead) (cellTag : String) (row : List Char) : Node :=
  let cells := tableCells head.hasBorder (trimWith (· == ' ') row)
  let cell (alignment : Option Alignment) (text : List Char) : Node :=
    let attributes := match alignment with
      | some a => [("style", ("text-align: " ++ a.name ++ ";").toList)]
      | none => []
    .element cellTag attributes (if text.isEmpty then [] else [.plain text])
  .plainElement "tr" (go cell head.columns cells)
where
  /-- A cell for every column; a row may have fewer. -/
  go (cell : Option Alignment → List Char → Node) : List (Option Alignment) → List (List Char) → List Node
    | [], _ => []
    | a :: columns, [] => cell a [] :: go cell columns []
    | a :: columns, text :: rest => cell a (trimWith (· == ' ') text) :: go cell columns rest

/-- A table: its head, the line under it, and its rows. -/
def tableRule : BlockRule := fun _ spot =>
  match tableHead? (lines spot.block), lines spot.block with
  | some head, first :: _ :: rows =>
    let body := match rows with
      | [] => [Node.plainElement "tr" (head.columns.map fun _ => .plainElement "td" [])]
      | rows => rows.map (tableRow head "td")
    let table := Node.plainElement "table"
      [.plainElement "thead" [tableRow head "th" first], .plainElement "tbody" body]
    return some (spot.children ++ [table], spot.rest)
  | _, _ => return none

/-- The heading behind hash signs, without those at its end; a backslash guards the character behind
it.  No heading ends with a backslash. -/
def headingText? : List Char → Option (List Char)
  | [] => some []
  | '\\' :: c :: rest => (headingText? rest).map fun text => '\\' :: c :: text
  | ['\\'] => none
  | c :: rest =>
    if c == '#' && rest.all (· == '#') then some []
    else (headingText? rest).map (c :: ·)

/-- The level and the text of the heading that a line is. -/
def heading? (line : List Char) : Option (Nat × List Char) :=
  let level := min 6 (line.takeWhile (· == '#')).length
  if level == 0 then none
  else (headingText? (line.drop level)).map fun text => (level, trim text)

/-- A heading of a level. -/
def headingNode (level : Nat) (text : List Char) : Node :=
  .plainElement ("h" ++ Nat.repr level) (if text.isEmpty then [] else [.plain text])

/-- A line that starts with hash signs is a heading. -/
def hashHeadingRule : BlockRule := fun nested spot => do
  match findLine heading? (lines spot.block) with
  | none => return none
  | some (before, (level, text), behind) =>
    let before := unlines before
    let children ← if before.isEmpty then pure spot.children
      else nested spot.mode spot.tag spot.children [before]
    let behind := unlines behind
    let behind := if spot.mode == .loose then unindentLoosely 1 behind else behind
    return some (children ++ [headingNode level text], withBlock behind spot.rest)

/-- A line over a line of equals signs or dashes is a heading. -/
def underlinedHeadingRule : BlockRule := fun _ spot =>
  match lines spot.block with
  | text :: underline :: behind =>
    let signs := trimRightWith (· == ' ') underline
    if !signs.isEmpty && signs.all fun c => c == '=' || c == '-' then
      let level := if underline.head? == some '=' then 1 else 2
      return some (spot.children ++ [headingNode level (trim text)],
        withBlock (unlines behind) spot.rest)
    else return none
  | _ => return none

/-- Whether the signs stand with at most two spaces between them; `gap` counts the last spaces. -/
def closeTogether (sign : Char) (gap : Nat) : List Char → Bool
  | [] => true
  | c :: rest =>
    if c == sign then gap ≤ 2 && closeTogether sign 0 rest
    else c == ' ' && closeTogether sign (gap + 1) rest

/-- Whether a line is a rule: at least three dashes, underscores or asterisks, and spaces. -/
def isRuleLine (line : List Char) : Bool :=
  match dropIndent? 3 line with
  | some (c :: rest) =>
    (c == '-' || c == '_' || c == '*') && 3 ≤ (c :: rest).count c && closeTogether c 0 (c :: rest)
  | _ => false

/-- The first line that is a rule is one; what stands before it is read first. -/
def ruleRule : BlockRule := fun nested spot => do
  match findLine (fun line => if isRuleLine line then some () else none) (lines spot.block) with
  | none => return none
  | some (before, _, behind) =>
    let before := trimRightWith (· == '\n') (unlines before)
    let children ← if before.isEmpty then pure spot.children
      else nested spot.mode spot.tag spot.children [before]
    let behind := trimLeftWith (· == '\n') (unlines behind)
    return some (children ++ [.plainElement "hr" []], withBlock behind spot.rest)

/-- What a line of a quotation says. -/
def quotedLine? (line : List Char) : Option (List Char) := do
  let rest ← after? ['>'] (← dropIndent? 3 line)
  return (after? [' '] rest).getD rest

/-- A line of a quotation without its sign, if it has one. -/
def unquote (line : List Char) : List Char :=
  if trim line == ['>'] then [] else (quotedLine? line).getD line

/-- From the first line with the sign of a quotation on, a block is one; it goes on with the
quotation before it. -/
def quoteRule : BlockRule := fun nested spot => do
  match findLine (fun line => (quotedLine? line).map fun _ => line) (lines spot.block) with
  | none => return none
  | some (before, line, behind) =>
    let children ← nested spot.mode spot.tag spot.children [unlines before]
    let quoted := (line :: behind).map unquote
    let blocks := splitBlocks (unlines (if before.isEmpty then quoted else [] :: quoted))
    match lastElement? children with
    | some (.element "blockquote" attributes inner) =>
      let inner ← nested .quoted "blockquote" inner blocks
      return some (replaceLastElement (.element "blockquote" attributes inner) children, spot.rest)
    | _ =>
      let inner ← nested .quoted "blockquote" [] blocks
      return some (children ++ [.plainElement "blockquote" inner], spot.rest)

/-! ### Definitions -/

/-- The blocks around a definition that was taken out. -/
def aroundDefinition (before : List (List Char)) (behind : List Char) (rest : Blocks) : Blocks :=
  let rest := if isBlankText behind then rest else trimLeftWith (· == '\n') behind :: rest
  let before := unlines before
  if isBlankText before then rest else trimRightWith (· == '\n') before :: rest

/-- The indented blocks at the front, up to the first that holds another note, without their
indentation, and the blocks behind. -/
def noteBlocks : Blocks → Blocks × Blocks
  | [] => ([], [])
  | block :: rest =>
    if !isIndented block then ([], block :: rest)
    else
      match findDefinition readNote (lines block) with
      | some found =>
        let start := unlines ((lines block).drop found.before.length)
        ([unindentLoosely 1 (trimRightWith (· == '\n') (unlines found.before))], start :: rest)
      | none =>
        let (blocks, rest) := noteBlocks rest
        (unindentLoosely 1 block :: blocks, rest)

/-- A note: the lines behind its first one belong to it, and so do indented blocks. -/
def noteRule : BlockRule := fun _ spot => do
  match findDefinition readNote (lines spot.block) with
  | none => return none
  | some found =>
    let (name, first) := found.value
    let behind := trimLeftWith (· == '\n') found.behind
    let (text, rest) := match findDefinition readNote (lines behind) with
      | some next =>
        let more := unindentLoosely 1 (trimRightWith (· == '\n') (unlines next.before))
        (trimLeftWith (· == '\n') (first ++ '\n' :: more),
          unlines ((lines behind).drop next.before.length) :: spot.rest)
      | none =>
        let (blocks, rest) := noteBlocks spot.rest
        (joinWith ['\n', '\n'] (trimNewlines (first ++ '\n' :: unindentLoosely 1 behind) :: blocks),
          rest)
    modify fun d => { d with notes := define name (trimRight text) d.notes }
    return some (spot.children, aroundDefinition found.before [] rest)

/-- An abbreviation; one with an empty text in quotes is taken back. -/
def abbreviationRule : BlockRule := fun _ spot => do
  match findDefinition readAbbreviation (lines spot.block) with
  | none => return none
  | some found =>
    let (name, meaning) := found.value
    if name.isEmpty || meaning.isEmpty then return none
    else
      if meaning == "''".toList || meaning == "\"\"".toList then
        modify fun d => { d with abbreviations := d.abbreviations.filter fun a => a.1 != name }
      else modify fun d => { d with abbreviations := define name meaning d.abbreviations }
      return some (spot.children, aroundDefinition found.before found.behind spot.rest)

/-- A reference. -/
def referenceRule : BlockRule := fun _ spot => do
  match findDefinition readReference (lines spot.block) with
  | none => return none
  | some found =>
    let (name, target) := found.value
    modify fun d => { d with references := define name target d.references }
    return some (spot.children, aroundDefinition found.before found.behind spot.rest)

/-! ### Text -/

/-- The children with a text behind them, on a line of its own. -/
def addTightText (text : List Char) (children : List Node) : List Node :=
  match children.reverse with
  | .text isLiteral old :: before =>
    let text := if (lastElement? children).isSome then text else trimLeft text
    let new := if old.isEmpty then text else old ++ '\n' :: text
    (Node.text isLiteral new :: before).reverse
  | [] => [.plain (trimLeft text)]
  | _ => children ++ [.plain ('\n' :: text)]

/-- All other text is a paragraph; in a tight list it stays text. -/
def paragraphRule : BlockRule := fun _ spot =>
  let children :=
    if isBlankText spot.block then spot.children
    else if spot.mode == .tight then addTightText spot.block spot.children
    else spot.children ++ [.plainElement "p" [.plain (trimLeft spot.block)]]
  return some (children, spot.rest)

/-! ### Elements that were set aside -/

mutual

/-- The node with its texts literal. -/
def literalNode : Node → Node
  | .text _ content => .text true content
  | .element tag attributes children => .element tag attributes (literalNodes children)

/-- The nodes with their texts literal. -/
def literalNodes : List Node → List Node
  | [] => []
  | node :: rest => literalNode node :: literalNodes rest

end

/-- The element that was set aside under a mark, if one was. -/
def keptElement? (kept : List Kept) (n : Nat) : Option Node :=
  match kept[n]? with
  | some (.element node) => some node
  | _ => none

/-- The content of an element that is read as lines: the elements set aside within it are put back,
with their own content literal. -/
def putBack (kept : List Kept) (fuel : Nat) (before : List Char) (text : List Char) : List Node :=
  let flush (cs : List Char) : List Node := if cs.isEmpty then [] else [.plain cs.reverse]
  match fuel, text with
  | 0, _ => flush before
  | _, [] => flush before
  | fuel + 1, c :: rest =>
    match keptMark? (c :: rest) with
    | some (n, behind) =>
      match keptElement? kept n with
      | some node => flush before ++ literalNode node :: putBack kept fuel [] behind
      | none => putBack kept fuel (c :: before) rest
    | none => putBack kept fuel (c :: before) rest

/-- An element that was set aside takes the place of its mark, and its content is read as its mode
says. -/
def keptRule (kept : List Kept) : BlockRule := fun nested spot => do
  match keptMark? spot.block with
  | none => return none
  | some (n, behind) =>
    match keptElement? kept n with
    | some (.element tag attributes children) =>
      let mode := (attributes.lookup "markdown").getD ContentMode.raw.name
      let attributes := attributes.filter fun a => a.1 != "markdown"
      let text := innerTexts children
      let children ←
        if mode == ContentMode.blocks.name then
          if text.isEmpty then pure []
          else nested spot.mode tag [] (splitBlocks (trimRightWith (· == '\n') text))
        else if mode == ContentMode.lines.name then
          pure (putBack kept (text.length + 1) [] text)
        else pure (literalNodes children)
      return some (spot.children ++ [.element tag attributes children], withBlock behind spot.rest)
    | _ => return none

/-! ### Reading -/

/-- The rules, in the order in which they are tried. -/
def blockRules (kept : List Kept) : List BlockRule :=
  [keptRule kept, emptyRule, indentRule listNames, indentRule definitionNames, codeRule, tableRule,
    hashHeadingRule, underlinedHeadingRule, ruleRule, listRule .numbered, listRule .bulleted,
    definitionRule, quoteRule, noteRule, abbreviationRule, referenceRule, paragraphRule]

/-- What the first of the rules that applies gives. -/
def firstRule (nested : ReadBlocks) (spot : BlockSpot) :
    List BlockRule → BlockM (Option (List Node × Blocks))
  | [] => return none
  | rule :: rules => do
    match ← rule nested spot with
    | some result => return some result
    | none => firstRule nested spot rules

/-- Reads blocks.  `fuel` bounds the number of blocks that are read one behind or within another. -/
def readBlocks (kept : List Kept) : Nat → ReadBlocks
  | 0, _, _, children, _ => return children
  | _, _, _, children, [] => return children
  | fuel + 1, mode, tag, children, block :: rest => do
    match ← firstRule (readBlocks kept fuel) ⟨mode, tag, children, block, rest⟩ (blockRules kept) with
    | some (children, rest) => readBlocks kept fuel mode tag children rest
    | none => readBlocks kept fuel mode tag children rest

/-- The length of a piece that was set aside. -/
def Kept.length : Kept → Nat
  | .html content => content.length
  | .element node => node.write.length

/-- A bound on the number of blocks of a text with pieces set aside. -/
def blockBound (kept : List Kept) (text : List Char) : Nat :=
  4 * ((kept.map Kept.length).foldr (· + ·) 0 + text.length + kept.length + 4)

/-- Reads a text into nodes. -/
def readText (kept : List Kept) (text : List Char) : BlockM (List Node) :=
  readBlocks kept (blockBound kept text) .plain "div" [] (splitBlocks text)

end WikiMigration.Markdown
