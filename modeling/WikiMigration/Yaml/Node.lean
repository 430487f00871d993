/-
The node that a YAML text holds.

A node is a scalar, a sequence or a mapping, with its tag and the place where it starts.  It is read
from the tokens, one after the other: an error in the text is met where its token would be.  An alias
stands for the node that its anchor marks, be it a node that the alias stands in.
-/
import WikiMigration.Yaml.Tag
import WikiMigration.Yaml.Tokens

namespace WikiMigration.Yaml

/-- A node. -/
inductive Node where
  | scalar (tag : Tag) (text : List Char) (start : Position)
  | sequence (tag : Tag) (items : List Node) (start : Position)
  | mapping (tag : Tag) (entries : List (Node × Node)) (start : Position)
  /-- An alias within the node that its anchor marks; `start` is the place where that node starts. -/
  | within (start : Position)

namespace Node

/-- The place where a node starts. -/
def start : Node → Position
  | scalar _ _ start => start
  | sequence _ _ start => start
  | mapping _ _ start => start
  | within start => start

/-- What messages call a node. -/
def noun : Node → String
  | scalar _ _ _ => "scalar"
  | sequence _ _ _ => "sequence"
  | mapping _ _ _ => "mapping"
  | within _ => "mapping"

/-- The node of a place where nothing stands. -/
def empty (start : Position) : Node := .scalar .null [] start

end Node

/-- A node that an anchor marks: there is none as long as it is being read. -/
structure Anchored where
  name : List Char
  start : Position
  node : Option Node

/-- What is left to read of a document. -/
structure Reading where
  tokens : List Token
  /-- What is wrong behind the last token. -/
  failure : YamlError
  /-- The tag handles with what they stand for. -/
  handles : List (List Char × List Char) := []
  anchors : List Anchored := []

/-- A reader of tokens. -/
abbrev Reader := StateT Reading (Except YamlError)

namespace Reader

/-- The next token, which stays. -/
def peek : Reader Token := do
  let reading ← get
  match reading.tokens with
  | token :: _ => return token
  | [] => throw reading.failure

/-- Goes behind the next token. -/
def advance : Reader Unit := modify fun reading => { reading with tokens := reading.tokens.drop 1 }

/-- Takes the next token if it is the given one. -/
def accept (kind : TokenKind) : Reader Bool := do
  if (← peek).kind == kind then
    advance
    return true
  else return false

/-- Whether the next token is one of the given ones. -/
def isAt (kinds : List TokenKind) : Reader Bool := return kinds.contains (← peek).kind

/-- An error at the next token. -/
def fail {α : Type} (context : Option String) (start : Option Position)
    (problem : String → String) : Reader α := do
  let token ← peek
  throw (.malformed context start (problem (Text.quoted token.kind.label)) (some token.start))

/-- The place behind a sign of one character. -/
def behind (start : Position) : Position := { start with column := start.column + 1 }

/-! ### Tags and anchors -/

/-- What stands before the content of a node: its anchor and its tag, each with its place. -/
structure Properties where
  anchor : Option (List Char) := none
  tag : Option (List Char) := none
  start : Option Position := none

/-- The name of a tag, with its handle written out. -/
def tagName (start place : Position) (handle : Option (List Char)) (suffix : List Char) :
    Reader (List Char) := do
  match handle with
  | none => return suffix
  | some handle =>
    match (← get).handles.lookup handle with
    | some expansion => return expansion ++ suffix
    | none =>
      throw (.malformed (some "while parsing a node") (some start)
        ("found undefined tag handle " ++ Text.quoted (String.ofList handle)) (some place))

/-- An anchor and a tag, in either order; the tag is looked up behind both. -/
def properties : Reader Properties := do
  let first ← peek
  match first.kind with
  | .anchor name =>
    advance
    let second ← peek
    match second.kind with
    | .tag handle suffix =>
      advance
      let tag ← tagName first.start second.start handle suffix
      return { anchor := some name, tag := some tag, start := some first.start }
    | _ => return { anchor := some name, start := some first.start }
  | .tag handle suffix =>
    advance
    let second ← peek
    let anchor ← match second.kind with
      | .anchor name => do
        advance
        pure (some name)
      | _ => pure none
    let tag ← tagName first.start first.start handle suffix
    return { anchor, tag := some tag, start := some first.start }
  | _ => return {}

/-- The tag of a scalar: without one, and with the tag that says nothing, a plain one is taken for
what it looks like. -/
def scalarTag (tag : Option (List Char)) (isPlain : Bool) (text : List Char) : Tag :=
  match tag with
  | none => if isPlain then .ofPlain text else .text
  | some ['!'] => .ofPlain text
  | some name => .ofName name

/-- The tag of a sequence or a mapping, for which the usual one stands. -/
def collectionTag (tag : Option (List Char)) (usual : Tag) : Tag :=
  match tag with
  | none => usual
  | some ['!'] => usual
  | some name => .ofName name

/-- Marks a node that is about to be read; no two nodes have one anchor. -/
def openAnchor (properties : Properties) (start : Position) : Reader Unit := do
  match properties.anchor with
  | none => return ()
  | some name =>
    let reading ← get
    match reading.anchors.find? fun a => a.name == name with
    | some earlier =>
      throw (.malformed
        (some ("found duplicate anchor " ++ Text.quoted (String.ofList name)
          ++ "; first occurrence"))
        (some earlier.start) "second occurrence" (some start))
    | none => set { reading with anchors := ⟨name, start, none⟩ :: reading.anchors }

/-- The node that has been read, at its anchor from now on. -/
def closeAnchor (properties : Properties) (node : Node) : Reader Node := do
  match properties.anchor with
  | none => return node
  | some name =>
    modify fun reading => { reading with
      anchors := reading.anchors.map fun a => if a.name == name then { a with node := some node }
        else a }
    return node

/-- The node that an alias stands for. -/
def aliased (name : List Char) (start : Position) : Reader Node := do
  match (← get).anchors.find? fun a => a.name == name with
  | some ⟨_, _, some node⟩ => return node
  | some ⟨_, start, none⟩ => return .within start
  | none =>
    throw (.malformed none none
      ("found undefined alias " ++ Text.quoted (String.ofList name)) (some start))

/-! ### Nodes -/

mutual

/-- A node.  Blocks stand only within blocks, and a sequence that is not indented only as the key or
the value of a mapping.  `fuel` bounds the number of steps. -/
def node (fuel : Nat) (inBlock mayBeFlush : Bool) : Reader Node :=
  match fuel with
  | 0 => do throw (← get).failure
  | fuel + 1 => do
    let first ← peek
    if let .alias name := first.kind then
      advance
      aliased name first.start
    else
      let properties ← properties
      let token ← peek
      let start := properties.start.getD token.start
      let isMarked := properties.anchor.isSome || properties.tag.isSome
      match token.kind with
      | .scalar text isPlain =>
        openAnchor properties start
        advance
        closeAnchor properties (.scalar (scalarTag properties.tag isPlain text) text start)
      | .flowSequenceStart =>
        openAnchor properties start
        advance
        let items ← flowItems fuel true token.start
        closeAnchor properties (.sequence (collectionTag properties.tag .sequence) items start)
      | .flowMappingStart =>
        openAnchor properties start
        advance
        let entries ← flowEntries fuel true token.start
        closeAnchor properties (.mapping (collectionTag properties.tag .mapping) entries start)
      | kind =>
        if kind == .blockEntry && mayBeFlush then
          openAnchor properties start
          let items ← flushItems fuel
          closeAnchor properties (.sequence (collectionTag properties.tag .sequence) items start)
        else if kind == .sequenceStart && inBlock then
          openAnchor properties start
          advance
          let items ← blockItems fuel token.start
          closeAnchor properties (.sequence (collectionTag properties.tag .sequence) items start)
        else if kind == .mappingStart && inBlock then
          openAnchor properties start
          advance
          let entries ← blockEntries fuel token.start
          closeAnchor properties (.mapping (collectionTag properties.tag .mapping) entries start)
        else if isMarked then
          openAnchor properties start
          closeAnchor properties (.scalar (scalarTag properties.tag true []) [] start)
        else
          fail (some (if inBlock then "while parsing a block node" else "while parsing a flow node"))
            (some start) fun label => "expected the node content, but found " ++ label

/-- A node, or nothing where one of the tokens follows. -/
def nodeUnless (fuel : Nat) (inBlock mayBeFlush : Bool) (ends : List TokenKind)
    (place : Position) : Reader Node :=
  match fuel with
  | 0 => do throw (← get).failure
  | fuel + 1 => do if ← isAt ends then return Node.empty place else node fuel inBlock mayBeFlush

/-- The items of a block sequence that started at the place. -/
def blockItems (fuel : Nat) (start : Position) : Reader (List Node) :=
  match fuel with
  | 0 => do throw (← get).failure
  | fuel + 1 => do
    let token ← peek
    if ← accept .blockEntry then
      let item ← nodeUnless fuel true false [.blockEntry, .blockEnd] (behind token.start)
      return item :: (← blockItems fuel start)
    else if ← accept .blockEnd then return []
    else
      fail (some "while parsing a block collection") (some start) fun label =>
        "expected <block end>, but found " ++ label

/-- The items of a sequence that is not indented. -/
def flushItems (fuel : Nat) : Reader (List Node) :=
  match fuel with
  | 0 => do throw (← get).failure
  | fuel + 1 => do
    let token ← peek
    if ← accept .blockEntry then
      let item ← nodeUnless fuel true false [.blockEntry, .key, .value, .blockEnd]
        (behind token.start)
      return item :: (← flushItems fuel)
    else return []

/-- The entries of a block mapping that started at the place. -/
def blockEntries (fuel : Nat) (start : Position) : Reader (List (Node × Node)) :=
  match fuel with
  | 0 => do throw (← get).failure
  | fuel + 1 => do
    let token ← peek
    let ends : List TokenKind := [.key, .value, .blockEnd]
    if ← accept .key then
      let key ← nodeUnless fuel true true ends (behind token.start)
      let sign ← peek
      let value ← if ← accept .value then nodeUnless fuel true true ends (behind sign.start)
        else pure (Node.empty sign.start)
      return (key, value) :: (← blockEntries fuel start)
    else if ← accept .blockEnd then return []
    else
      fail (some "while parsing a block mapping") (some start) fun label =>
        "expected <block end>, but found " ++ label

/-- The items of a sequence in brackets that started at the place.  A key makes a mapping of one
entry. -/
def flowItems (fuel : Nat) (isFirst : Bool) (start : Position) : Reader (List Node) :=
  match fuel with
  | 0 => do throw (← get).failure
  | fuel + 1 => do
    if ← accept .flowSequenceEnd then return []
    if !isFirst && !(← accept .flowEntry) then
      fail (some "while parsing a flow sequence") (some start) fun label =>
        "expected ',' or ']', but got " ++ label
    else
      let token ← peek
      if ← accept .key then
        let key ← nodeUnless fuel false false [.value, .flowEntry, .flowSequenceEnd]
          (behind token.start)
        let sign ← peek
        let value ← if ← accept .value then
            nodeUnless fuel false false [.flowEntry, .flowSequenceEnd] (behind sign.start)
          else pure (Node.empty sign.start)
        return .mapping .mapping [(key, value)] token.start :: (← flowItems fuel false start)
      else if ← accept .flowSequenceEnd then return []
      else
        let item ← node fuel false false
        return item :: (← flowItems fuel false start)

/-- The entries of a mapping in braces that started at the place. -/
def flowEntries (fuel : Nat) (isFirst : Bool) (start : Position) : Reader (List (Node × Node)) :=
  match fuel with
  | 0 => do throw (← get).failure
  | fuel + 1 => do
    if ← accept .flowMappingEnd then return []
    if !isFirst && !(← accept .flowEntry) then
      fail (some "while parsing a flow mapping") (some start) fun label =>
        "expected ',' or '\x7d', but got " ++ label
    else
      let token ← peek
      if ← accept .key then
        let key ← nodeUnless fuel false false [.value, .flowEntry, .flowMappingEnd]
          (behind token.start)
        let sign ← peek
        let value ← if ← accept .value then
            nodeUnless fuel false false [.flowEntry, .flowMappingEnd] (behind sign.start)
          else pure (Node.empty sign.start)
        return (key, value) :: (← flowEntries fuel false start)
      else if ← accept .flowMappingEnd then return []
      else
        let key ← node fuel false false
        let sign ← peek
        return (key, Node.empty sign.start) :: (← flowEntries fuel false start)

end

/-! ### Documents -/

/-- The tag handles that every document has. -/
def usualHandles : List (List Char × List Char) := [(['!'], ['!']), (['!', '!'], coreTag)]

/-- Reads the directives of a document.  `fuel` bounds their number. -/
def directives (fuel : Nat) (hasVersion : Bool) (handles : List (List Char × List Char)) :
    Reader Unit :=
  match fuel with
  | 0 => do throw (← get).failure
  | fuel + 1 => do
    let token ← peek
    let refuse (problem : String) : Reader Unit :=
      throw (.malformed none none problem (some token.start))
    match token.kind with
    | .version major =>
      if hasVersion then refuse "found duplicate YAML directive"
      else if major != 1 then
        refuse "found incompatible YAML document (version 1.* is required)"
      else
        advance
        directives fuel true handles
    | .tagHandle handle expansion =>
      if (handles.lookup handle).isSome then
        refuse ("duplicate tag handle " ++ Text.quoted (String.ofList handle))
      else
        advance
        directives fuel hasVersion ((handle, expansion) :: handles)
    | .otherDirective =>
      advance
      directives fuel hasVersion handles
    | _ => modify fun reading => { reading with handles := handles ++ usualHandles }

/-- Goes to the start of the next document that has one, with its directives; `false` at the end of
the text. -/
def toDocument (fuel : Nat) : Reader Bool :=
  match fuel with
  | 0 => do throw (← get).failure
  | fuel + 1 => do
    if ← accept .documentEnd then toDocument fuel
    else if ← isAt [.streamEnd] then return false
    else
      directives fuel false []
      if ← accept .documentStart then return true
      else fail none none fun label => "expected '<document start>', but found " ++ label

/-- Whether the next token is a directive, or marks the start or the end of a document. -/
def atBoundary : Reader Bool := do
  match (← peek).kind with
  | .version _ => return true
  | .tagHandle _ _ => return true
  | .otherDirective => return true
  | .documentStart => return true
  | .documentEnd => return true
  | .streamEnd => return true
  | _ => return false

/-- The document of a text, which has no more than one. -/
def document (fuel : Nat) : Reader (Option Node) := do
  let isBare := !(← atBoundary) || (← isAt [.documentEnd])
  if isBare then modify fun reading => { reading with handles := usualHandles }
  let isThere ← if isBare then pure true else toDocument fuel
  if !isThere then return none
  let root ←
    if !isBare && (← atBoundary) then pure (Node.empty (← peek).start)
    else node fuel true false
  let another ← do
    if ← accept .documentEnd then pure ()
    let _ ← skipEnds fuel
    pure (← peek).start
  if ← toDocument fuel then
    throw (.malformed (some "expected a single document in the stream") (some root.start)
      "but found another document" (some another))
  else return some root
where
  /-- Goes behind the marks that end a document. -/
  skipEnds (fuel : Nat) : Reader Unit :=
    match fuel with
    | 0 => return ()
    | fuel + 1 => do if ← accept .documentEnd then skipEnds fuel

end Reader

/-- The node that a text holds, if it holds any. -/
def Node.read (text : List Char) : Except YamlError (Option Node) :=
  let (tokens, failure?) := tokens text
  let failure := failure?.getD (.malformed none none "unexpected end of the document" none)
  ((Reader.document (4 * tokens.length + 8)).run { tokens, failure }).map (·.1)

end WikiMigration.Yaml
