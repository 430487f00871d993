/-
References to the environment in the texts of a configuration.

A reference is a dollar sign and a name in braces.  A text is read once, from left to right: every
reference whose variable is set becomes the variable's value, which is not read again, and everything
else stays.  The keys of mappings are no texts in this sense.
-/
import WikiMigration.Data.Value
import WikiMigration.Text.Lines
import WikiMigration.Text.Scan

namespace WikiMigration.Config

open Text Data

/-- The variables that are set, by name. -/
abbrev Environment := List Char → Option (List Char)

/-- Whether a character may begin the name of a variable. -/
def startsName (c : Char) : Bool := c.isAlpha || c == '_'

/-- Whether a character may stand within the name of a variable. -/
def isNameChar (c : Char) : Bool := c.isAlphanum || c == '_'

/-- The name in the reference that stands at the front, with the reference's length. -/
def reference? : Pattern Char (List Char)
  | '$' :: '\x7b' :: rest =>
    let name := rest.takeWhile isNameChar
    if (name.head?.map startsName).getD false && (rest.drop name.length).head? == some '\x7d' then
      some (name, name.length + 3)
    else none
  | _ => none

/-- What stands in the place of a reference. -/
def resolve (environment : Environment) (name : List Char) : List Char :=
  (environment name).getD ("$\x7b".toList ++ name ++ "\x7d".toList)

/-- A text with its references resolved. -/
def resolveText (environment : Environment) (text : List Char) : List Char :=
  substitute reference? (resolve environment) text

/-- The names in the references of a text. -/
def referenceNames (text : List Char) : List (List Char) :=
  (parts reference? text).filterMap fun part =>
    match part with
    | .item _ => none
    | .found name => some name

mutual

/-- A value with the references in its texts resolved. -/
def resolveValue (environment : Environment) : Value → Value
  | .scalar (.text s) => .text (String.ofList (resolveText environment s.toList))
  | .scalar s => .scalar s
  | .list items => .list (resolveItems environment items)
  | .mapping entries => .mapping (resolveEntries environment entries)

/-- The items of a list with their references resolved. -/
def resolveItems (environment : Environment) : List Value → List Value
  | [] => []
  | item :: rest => resolveValue environment item :: resolveItems environment rest

/-- The entries of a mapping with the references in their values resolved. -/
def resolveEntries (environment : Environment) :
    List (Scalar × Value) → List (Scalar × Value)
  | [] => []
  | (key, value) :: rest =>
    (key, resolveValue environment value) :: resolveEntries environment rest

end

/-- Whether a text has the beginning of a reference. -/
def mayRefer (text : List Char) : Bool := hasInfix "$\x7b".toList text

/-- The name in the first reference of a text; the whole text if it has none. -/
def firstReference (text : List Char) : List Char := (firstMatch? reference? text).getD text

end WikiMigration.Config
