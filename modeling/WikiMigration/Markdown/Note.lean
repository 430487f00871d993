/-
The notes of a page.

The notes stand at the end of the page, or where a marker asks for them, as a numbered list: those
that are mentioned come first, in the order in which they are.  Each leads back to its mentions.
-/
import WikiMigration.Markdown.Block
import WikiMigration.Markdown.Inline

namespace WikiMigration.Markdown

open Text

/-- The link that leads back from a note with the number to one of its mentions. -/
def returnLink (number : Nat) (mention : List Char) : Node :=
  .element "a" [("href", '#' :: mention), ("class", "footnote-backref".toList),
      ("title", "Jump back to footnote ".toList ++ (Nat.repr number).toList ++ " in the text".toList)]
    [.plain returnMark]

/-- The content of a note with the link back at its end: in its last paragraph, or in one of its
own. -/
def withReturn (link : Node) (children : List Node) : List Node :=
  match lastElement? children with
  | some (.element "p" attributes inner) =>
    replaceLastElement (.element "p" attributes (inner ++ [.plain returnSpaceMark, link])) children
  | some _ => children ++ [.plainElement "p" [link]]
  | none => children

/-- A note in the list of notes. -/
def noteItem (kept : List Kept) (number : Nat) (name text : List Char) : BlockM Node := do
  let children ← readText kept text
  return .element "li" [("id", noteName name)]
    (withReturn (returnLink number (mentionName name 0)) children)

/-- The notes in the list of notes, from a number on. -/
def noteItems (kept : List Kept) (number : Nat) :
    List (List Char × List Char) → BlockM (List Node)
  | [] => return []
  | (name, text) :: rest => do
    let item ← noteItem kept number name text
    let items ← noteItems kept (number + 1) rest
    return item :: items

/-- The division that holds the notes. -/
def notesDivision (items : List Node) : Node :=
  .element "div" [("class", "footnote".toList)] [.plainElement "hr" [], .plainElement "ol" items]

/-- The text that stands for the notes. -/
def notesMarker : List Char := "///Footnotes Go Here///".toList

/-- Whether the element starts with a text that holds the marker. -/
def holdsMarker : Node → Bool
  | .element _ _ children => hasInfix notesMarker (leadingText children)
  | .text _ _ => false

mutual

/-- The node with the notes in place of the first element that holds the marker, if one within it
does. -/
def placeWithin? (division : Node) : Node → Option Node
  | .text _ _ => none
  | .element tag attributes children =>
    (placeAmong? division children).map fun children => .element tag attributes children

/-- The nodes with the notes in place of the first element that holds the marker, if there is one. -/
def placeAmong? (division : Node) : List Node → Option (List Node)
  | [] => none
  | node :: rest =>
    if holdsMarker node then some (division :: rest)
    else
      match placeWithin? division node with
      | some node => some (node :: rest)
      | none => (placeAmong? division rest).map (node :: ·)

end

/-- The page with its notes. -/
def withNotes (kept : List Kept) (children : List Node) : BlockM (List Node) := do
  let notes := (← get).notes
  if notes.isEmpty then return children
  else
    let division := notesDivision (← noteItems kept 1 notes)
    return (placeAmong? division children).getD (children ++ [division])

/-! ### Order and further mentions -/

/-- The links back to the mentions of a note behind the first. -/
def furtherLinks (number : Nat) (name : List Char) (count : Nat) : List Node :=
  (List.range (count - 1)).map fun k => returnLink number (mentionName name (k + 1))

/-- Adds the links back to further mentions to the last element of a note. -/
def withFurtherLinks (links : List Node) (item : List Node) : List Node :=
  match lastElement? item with
  | some (.element tag attributes inner) =>
    replaceLastElement (.element tag attributes (inner ++ links)) item
  | _ => item

mutual

/-- The node with the title of every link back telling the number. -/
def renumber (number : Nat) : Node → Node
  | .text isLiteral content => .text isLiteral content
  | .element tag attributes children =>
    let isReturn := attributes.lookup "class" == some "footnote-backref".toList
    let title := "Jump back to footnote ".toList ++ (Nat.repr number).toList
      ++ " in the text".toList
    .element tag (if isReturn then setAttribute "title" title attributes else attributes)
      (renumberAll number children)

/-- The nodes with the titles of their links back telling the number. -/
def renumberAll (number : Nat) : List Node → List Node
  | [] => []
  | node :: rest => renumber number node :: renumberAll number rest

end

/-- The note that an item of the list of notes holds. -/
def itemNote (item : Node) : List Char := ((item.attribute? "id").getD []).drop 3

/-- The items with those of mentioned notes first, in the order of the mentions. -/
def orderItems (mentions : List (List Char × Nat)) (items : List Node) : List Node :=
  let mentioned := mentions.filterMap fun (name, _) => items.find? fun item => itemNote item == name
  mentioned ++ items.filter fun item => !mentions.any fun m => m.1 == itemNote item

/-- The items numbered from a number on, with the links back to all mentions. -/
def numberItems (mentions : List (List Char × Nat)) (number : Nat) : List Node → List Node
  | [] => []
  | .element tag attributes children :: rest =>
    let name := itemNote (.element tag attributes children)
    let links := furtherLinks number name ((mentions.lookup name).getD 0)
    .element tag attributes (withFurtherLinks links (renumberAll number children))
      :: numberItems mentions (number + 1) rest
  | node :: rest => node :: numberItems mentions number rest

mutual

/-- The node with the notes in their order. -/
def orderNotes (mentions : List (List Char × Nat)) : Node → Node
  | .text isLiteral content => .text isLiteral content
  | .element tag attributes children =>
    if tag == "div" && attributes.lookup "class" == some "footnote".toList then
      .element tag attributes (children.map fun child =>
        match child with
        | .element "ol" listAttributes items =>
          .element "ol" listAttributes (numberItems mentions 1 (orderItems mentions items))
        | child => child)
    else .element tag attributes (orderAllNotes mentions children)

/-- The nodes with the notes in their order. -/
def orderAllNotes (mentions : List (List Char × Nat)) : List Node → List Node
  | [] => []
  | node :: rest => orderNotes mentions node :: orderAllNotes mentions rest

end

end WikiMigration.Markdown
