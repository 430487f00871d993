/-
Values as JSON text.

Every entry of a mapping and every item of a list has a line of its own, indented by two blanks for
each level.  Characters beyond ASCII stand for themselves.
-/
import WikiMigration.Data.Text

namespace WikiMigration.Data

open Text Decimal

/-- A character within quotes. -/
def jsonChar (c : Char) : List Char :=
  match c with
  | '"' => ['\\', '"']
  | '\\' => ['\\', '\\']
  | '\n' => ['\\', 'n']
  | '\r' => ['\\', 'r']
  | '\t' => ['\\', 't']
  | '\x0c' => ['\\', 'f']
  | '\x08' => ['\\', 'b']
  | c => if c.toNat < 0x20 then '\\' :: 'u' :: hexDigits 4 c.toNat else [c]

/-- A text in quotes. -/
def jsonText (s : String) : String :=
  String.ofList ('"' :: s.toList.flatMap jsonChar ++ ['"'])

/-- A number with a point. -/
def jsonFloat : Binary64 → String
  | .infinite negative => if negative then "-Infinity" else "Infinity"
  | .nan => "NaN"
  | x => x.text

/-- A scalar as JSON text. -/
def Scalar.json : Scalar → String
  | .null => "null"
  | .bool b => if b then "true" else "false"
  | .int n => toString n
  | .float x => jsonFloat x
  | .text s => jsonText s
  | .other _ shown _ => jsonText shown

/-- A key as JSON text, which must be a text. -/
def Scalar.jsonKey : Scalar → String
  | .text s => jsonText s
  | .other _ shown _ => jsonText shown
  | key => jsonText key.json

/-- A line break and the indentation of a level. -/
def jsonBreak (level : Nat) : String := "\n" ++ String.ofList (List.replicate (2 * level) ' ')

/-- Texts in brackets, each on a line of its own. -/
def jsonLines (opening closing : String) (level : Nat) (texts : List String) : String :=
  if texts.isEmpty then opening ++ closing
  else
    opening ++ jsonBreak (level + 1) ++ ("," ++ jsonBreak (level + 1)).intercalate texts
      ++ jsonBreak level ++ closing

mutual

/-- A value as JSON text at a level of indentation. -/
def Value.jsonAt (level : Nat) : Value → String
  | .scalar s => s.json
  | .list items => jsonLines "[" "]" level (jsonItems (level + 1) items)
  | .mapping entries => jsonLines "\x7b" "\x7d" level (jsonEntries (level + 1) entries)

/-- The items of a list as JSON text. -/
def jsonItems (level : Nat) : List Value → List String
  | [] => []
  | item :: rest => item.jsonAt level :: jsonItems level rest

/-- The entries of a mapping as JSON text. -/
def jsonEntries (level : Nat) : List (Scalar × Value) → List String
  | [] => []
  | (key, value) :: rest =>
    (key.jsonKey ++ ": " ++ value.jsonAt level) :: jsonEntries level rest

end

/-- A value as JSON text. -/
def Value.json (value : Value) : String := value.jsonAt 0

end WikiMigration.Data
