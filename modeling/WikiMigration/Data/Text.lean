/-
Values as text.

In a message a text stands as it is; every other value, and a text within a list or a mapping, is
shown in quoted form.
-/
import WikiMigration.Data.Value
import WikiMigration.Decimal.Text
import WikiMigration.Text.Quoted

namespace WikiMigration.Data

open Text Decimal

/-- Texts with a comma between them. -/
def commaSeparated (texts : List String) : String := ", ".intercalate texts

/-- A scalar in quoted form. -/
def Scalar.quoted : Scalar → String
  | .null => "None"
  | .bool b => if b then "True" else "False"
  | .int n => toString n
  | .float x => x.text
  | .text s => Text.quoted s
  | .other _ _ quoted => quoted

/-- A text within the given brackets. -/
def bracketed (opening closing inner : String) : String := opening ++ inner ++ closing

mutual

/-- A value in quoted form. -/
def Value.quoted : Value → String
  | .scalar s => s.quoted
  | .list items => bracketed "[" "]" (commaSeparated (quotedItems items))
  | .mapping entries => bracketed "\x7b" "\x7d" (commaSeparated (quotedEntries entries))

/-- The items of a list in quoted form. -/
def quotedItems : List Value → List String
  | [] => []
  | item :: rest => item.quoted :: quotedItems rest

/-- The entries of a mapping in quoted form. -/
def quotedEntries : List (Scalar × Value) → List String
  | [] => []
  | (key, value) :: rest => (key.quoted ++ ": " ++ value.quoted) :: quotedEntries rest

end

/-- The name of the kind of a value. -/
def Value.kindName : Value → String
  | .null => "NoneType"
  | .bool _ => "bool"
  | .int _ => "int"
  | .float _ => "float"
  | .text _ => "str"
  | .scalar (.other kind _ _) => kind
  | .list _ => "list"
  | .mapping _ => "dict"

/-- The name of the kind of a value, with the family of kinds that it belongs to: the kinds that only
a document can hold are those of the calendar. -/
def Value.fullKindName : Value → String
  | .scalar (.other kind _ _) => "datetime." ++ kind
  | value => value.kindName

/-- A value as text. -/
def Value.toText : Value → String
  | .text s => s
  | .scalar (.other _ shown _) => shown
  | value => value.quoted

end WikiMigration.Data
