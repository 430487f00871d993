/-
The value of a YAML text.

Each node stands for a value that its tag says how to read.  In a mapping a later entry takes the
place of an earlier one with its key; the entries of a mapping that is merged in come before the
mapping's own.  Where a value stands within itself there is a mark in its place.
-/
import WikiMigration.Data.Value
import WikiMigration.Text.Case
import WikiMigration.Yaml.Node

namespace WikiMigration.Yaml

open Text Data Decimal

/-- Why a text has no value. -/
inductive DocumentError where
  | malformed (e : YamlError)
  /-- A scalar is not written as its tag asks: the sort of the failure, and its message. -/
  | unreadable (sort message : String)
  deriving DecidableEq, Repr

/-- Why a scalar that is no number of the base is refused. -/
def notInt (base : Nat) (digits : List Char) : DocumentError :=
  .unreadable "ValueError" ("invalid literal for int() with base " ++ Nat.repr base ++ ": "
    ++ Text.quoted (String.ofList digits))

/-- Why a scalar without the characters that its tag asks for is refused. -/
def tooShort : DocumentError := .unreadable "IndexError" "string index out of range"

/-- Why a number with too many sixtieth parts is refused. -/
def tooLarge : DocumentError :=
  .unreadable "OverflowError" "int too large to convert to float"

/-! ### Scalars -/

/-- The number of parts that a number in sixtieth parts may have: the weight of one more is no number
of the machine. -/
def mostParts : Nat := 174

/-- The value of a digit. -/
def digitValue (c : Char) : Nat :=
  if c.isDigit then c.toNat - '0'.toNat else c.toLower.toNat - 'a'.toNat + 10

/-- The number that some digits write in a base. -/
def readDigits (base : Nat) (digits : List Char) : Except DocumentError Nat :=
  if !digits.isEmpty && digits.all fun c => c.isAlphanum && digitValue c < base then
    .ok (digits.foldl (fun n c => base * n + digitValue c) 0)
  else .error (notInt base digits)

/-- A whole number and sixtieth parts of it as one number of the least parts. -/
def readSixtieths (parts : List (List Char)) : Except DocumentError Nat :=
  parts.foldlM (fun n part => (readDigits 10 part).map (60 * n + ·)) 0

/-- The whole number that a text writes. -/
def readInt (text : List Char) : Except DocumentError Int :=
  let digits := text.filter (· != '_')
  let (negative, body) := unsigned digits
  let magnitude : Except DocumentError Nat :=
    match body with
    | [] => .error tooShort
    | ['0'] => .ok 0
    | '0' :: 'b' :: rest => readDigits 2 rest
    | '0' :: 'x' :: rest => readDigits 16 rest
    | '0' :: rest => readDigits 8 ('0' :: rest)
    | body => if body.contains ':' then readSixtieths (splitAt ':' body) else readDigits 10 body
  magnitude.map (Binary64.signed negative)

/-- The number that a whole part, a fraction and an exponent write. -/
def readPlaces (text : List Char) : Except DocumentError Binary64 :=
  let whole := text.takeWhile Char.isDigit
  let rest := text.drop whole.length
  let places := match rest with
    | '.' :: rest => rest.takeWhile Char.isDigit
    | _ => []
  let tail := if rest.head? == some '.' then rest.drop (places.length + 1) else rest
  let exponent? : Option Int :=
    match tail with
    | [] => some 0
    | 'e' :: tail =>
      let (negative, digits) := unsigned tail
      if !digits.isEmpty && digits.all Char.isDigit then
        some (Binary64.signed negative (Timestamp.number digits))
      else none
    | _ => none
  match exponent? with
  | some exponent =>
    if whole.isEmpty && places.isEmpty then .error (refused text)
    else .ok (.ofDecimal false (Timestamp.number (whole ++ places)) (exponent - places.length))
  | none => .error (refused text)
where
  /-- Why a text that is no number is refused. -/
  refused (text : List Char) : DocumentError :=
    .unreadable "ValueError" ("could not convert string to float: "
      ++ Text.quoted (String.ofList text))

/-- The number that a text writes. -/
def readFloat (text : List Char) : Except DocumentError Binary64 := do
  let digits := Text.lower (text.filter (· != '_'))
  if digits.isEmpty then throw tooShort
  let (negative, body) := unsigned digits
  let magnitude ←
    if body == ".inf".toList then pure (.infinite false)
    else if body == ".nan".toList then pure .nan
    else if body.contains ':' then do
      let parts ← (splitAt ':' body).mapM readPlaces
      if mostParts < parts.length then throw tooLarge
      let (sum, _) := parts.reverse.foldl
        (fun (sum, base) part =>
          (Binary64.add sum (Binary64.mul part (.ofInt (base : Nat))), 60 * base))
        (Binary64.zero false, 1)
      pure sum
    else readPlaces body
  return if negative then magnitude.neg else magnitude

/-- The timestamp that a text writes. -/
def readTimestamp (text : List Char) : Except DocumentError Scalar :=
  match Timestamp.read text with
  | none =>
    .error (.unreadable "AttributeError" "'NoneType' object has no attribute 'groupdict'")
  | some stamp =>
    match stamp.fault? with
    | some problem => .error (.unreadable "ValueError" problem)
    | none => .ok (.other stamp.kindName stamp.text stamp.quoted)

/-- The error of a node whose tag says nothing about values. -/
def noValue (tag : Tag) (start : Position) : DocumentError :=
  .malformed (.malformed none none
    ("could not determine a constructor for the tag " ++ Text.quoted (String.ofList tag.name))
    (some start))

/-- The error of a node that is not of the kind that its tag asks for. -/
def wrongKind (asked found : String) (start : Position) : DocumentError :=
  .malformed (.malformed none none ("expected a " ++ asked ++ " node, but found " ++ found)
    (some start))

/-- The value of a scalar. -/
def scalarValue (tag : Tag) (text : List Char) (start : Position) :
    Except DocumentError Scalar :=
  match tag with
  | .null => .ok .null
  | .bool =>
    let word := String.ofList (Text.lower text)
    if trueWords.contains word then .ok (.bool true)
    else if falseWords.contains word then .ok (.bool false)
    else .error (.unreadable "KeyError" (Text.quoted word))
  | .int => (readInt text).map .int
  | .float => (readFloat text).map .float
  | .text => .ok (.text (String.ofList text))
  | .timestamp => readTimestamp text
  | .sequence => .error (wrongKind "sequence" "scalar" start)
  | .mapping => .error (wrongKind "mapping" "scalar" start)
  | tag => .error (noValue tag start)

/-! ### Sequences and mappings -/

/-- The error of a sequence or a mapping whose tag is not that of its kind. -/
def collectionError (tag : Tag) (node : Node) : DocumentError :=
  match tag with
  | .sequence => wrongKind "sequence" node.noun node.start
  | .mapping => wrongKind "mapping" node.noun node.start
  | .merge => noValue tag node.start
  | .value => noValue tag node.start
  | .other _ => noValue tag node.start
  | _ => wrongKind "scalar" node.noun node.start

/-- An error about a mapping, with the node that is wrong in it. -/
def mappingError (mapping : Position) (problem : String) (node : Node) : DocumentError :=
  .malformed (.malformed (some "while constructing a mapping") (some mapping) problem
    (some node.start))

/-- The key that a node stands for in a mapping. -/
def keyValue (mapping : Position) (node : Node) : Except DocumentError Scalar :=
  match node with
  | .scalar .value text _ => .ok (.text (String.ofList text))
  | .scalar tag text start => scalarValue tag text start
  | node => .error (mappingError mapping "found unhashable key" node)

/-- Whether the node is the key under which other mappings are merged in. -/
def isMerge : Node → Bool
  | .scalar tag _ _ => tag == .merge
  | .sequence tag _ _ => tag == .merge
  | .mapping tag _ _ => tag == .merge
  | .within _ => false

/-- The mark that stands in the place of a value within itself. -/
def again : Scalar := .other "recursion" "..." "..."

mutual

/-- The value of a node. -/
def nodeValue : Node → Except DocumentError Value
  | .scalar tag text start => (scalarValue tag text start).map .scalar
  | .sequence tag items start =>
    if tag == .sequence then (itemValues items).map .list
    else .error (collectionError tag (.sequence tag items start))
  | .mapping tag entries start =>
    if tag == .mapping then do
      let (merged, own) ← entryValues start entries
      return .mapping ((merged ++ own).foldl (fun all entry => assign entry.1 entry.2 all) [])
    else .error (collectionError tag (.mapping tag entries start))
  | .within _ => .ok (.scalar again)

/-- The values of the items of a sequence. -/
def itemValues : List Node → Except DocumentError (List Value)
  | [] => .ok []
  | item :: rest => do
    let value ← nodeValue item
    return value :: (← itemValues rest)

/-- The entries of a mapping that starts at the place: those that are merged in, and its own. -/
def entryValues (start : Position) : List (Node × Node) →
    Except DocumentError (List (Scalar × Value) × List (Scalar × Value))
  | [] => .ok ([], [])
  | (key, value) :: rest =>
    if isMerge key then do
      let entries ← mergedEntries start value
      let (merged, own) ← entryValues start rest
      return (entries ++ merged, own)
    else do
      let key ← keyValue start key
      let value ← nodeValue value
      let (merged, own) ← entryValues start rest
      return (merged, (key, value) :: own)

/-- The entries that a node stands for where it is merged into a mapping: its own if it is a mapping,
and those of its items, the last first, if it is a sequence of mappings.  A mapping that is merged into
itself has its entries already; one that it stands in has it among its own. -/
def mergedEntries (mapping : Position) : Node → Except DocumentError (List (Scalar × Value))
  | .mapping _ entries start => do
    let (merged, own) ← entryValues start entries
    return merged ++ own
  | .sequence _ items _ => mergedItems mapping items
  | .scalar tag text start =>
    .error (mappingError mapping
      "expected a mapping or list of mappings for merging, but found scalar"
      (.scalar tag text start))
  | .within start => .ok (if start = mapping then [] else [(.null, .scalar again)])

/-- The entries of the items of a sequence that is merged into a mapping, the last item first. -/
def mergedItems (mapping : Position) : List Node → Except DocumentError (List (Scalar × Value))
  | [] => .ok []
  | .mapping _ entries start :: rest => do
    let (merged, own) ← entryValues start entries
    return (← mergedItems mapping rest) ++ (merged ++ own)
  | .within start :: rest => do
    return (← mergedItems mapping rest)
      ++ (if start = mapping then [] else [(.null, .scalar again)])
  | item :: _ =>
    .error (mappingError mapping
      ("expected a mapping for merging, but found " ++ item.noun) item)

end

mutual

/-- Whether the value stands within itself somewhere. -/
def isEndless : Value → Bool
  | .scalar s => s == again
  | .list items => anyEndless items
  | .mapping entries => anyEntryEndless entries

/-- Whether one of the items stands within itself. -/
def anyEndless : List Value → Bool
  | [] => false
  | item :: rest => isEndless item || anyEndless rest

/-- Whether the value of one of the entries stands within itself. -/
def anyEntryEndless : List (Scalar × Value) → Bool
  | [] => false
  | (_, value) :: rest => isEndless value || anyEntryEndless rest

end

/-- The value that a text holds; a text without a document holds the null value. -/
def read (text : List Char) : Except DocumentError Value :=
  match Node.read text with
  | .error e => .error (.malformed e)
  | .ok none => .ok .null
  | .ok (some node) => nodeValue node

end WikiMigration.Yaml
