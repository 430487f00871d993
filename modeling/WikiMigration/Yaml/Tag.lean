/-
The tags of nodes, and what a plain scalar is taken for.

A tag says what a node stands for.  A plain scalar without one is taken for what it looks like: an
empty place, a truth value, a number, a timestamp, the sign that merges mappings, and otherwise text.
-/
import WikiMigration.Text.Lines
import WikiMigration.Yaml.Timestamp

namespace WikiMigration.Yaml

open Text

/-- The tags that a node may have. -/
inductive Tag where
  | null
  | bool
  | int
  | float
  | text
  | timestamp
  | sequence
  | mapping
  /-- The key under which other mappings are merged in. -/
  | merge
  /-- The key of the value that a mapping stands for. -/
  | value
  | other (name : List Char)
  deriving DecidableEq, Repr

/-- The beginning of the names of the tags that every document has. -/
def coreTag : List Char := "tag:yaml.org,2002:".toList

/-- The tags that every document has, with the ends of their names. -/
def coreTags : List (Tag × String) :=
  [(.null, "null"), (.bool, "bool"), (.int, "int"), (.float, "float"), (.text, "str"),
    (.timestamp, "timestamp"), (.sequence, "seq"), (.mapping, "map"), (.merge, "merge"),
    (.value, "value")]

/-- The tag of a name. -/
def Tag.ofName (name : List Char) : Tag :=
  match coreTags.find? fun entry => coreTag ++ entry.2.toList == name with
  | some (tag, _) => tag
  | none => .other name

/-- The name of a tag. -/
def Tag.name (tag : Tag) : List Char :=
  match tag with
  | .other name => name
  | tag => coreTag ++ ((coreTags.lookup tag).getD "").toList

/-! ### Plain scalars -/

/-- The words for truth and for falsehood. -/
def trueWords : List String := ["yes", "true", "on"]

/-- The words for falsehood. -/
def falseWords : List String := ["no", "false", "off"]

/-- A word in lower case, with a capital, and in upper case. -/
def threeCases (word : String) : List String := [word, word.capitalize, word.toUpper]

/-- A text without a sign in front of it, and whether that is a minus. -/
def unsigned : List Char → Bool × List Char
  | '-' :: rest => (true, rest)
  | '+' :: rest => (false, rest)
  | text => (false, text)

/-- Whether some characters are digits of a class, with lines between them. -/
def areDigits (p : Char → Bool) (text : List Char) : Bool := text.all fun c => c == '_' || p c

/-- Whether some characters are a digit and then digits or lines. -/
def isNumeral (text : List Char) : Bool :=
  (text.head?.map Char.isDigit).getD false && areDigits Char.isDigit text

/-- Whether a text is a sixtieth part: one digit, or two of which the first is below six. -/
def isSixtieth : List Char → Bool
  | [c] => c.isDigit
  | [c, d] => c.isDigit && c < '6' && d.isDigit
  | _ => false

/-- Whether a text is a number and sixtieth parts of it, with colons between them. -/
def isSexagesimal (text : List Char) : Bool :=
  match splitAt ':' text with
  | first :: second :: rest => isNumeral first && (second :: rest).all isSixtieth
  | _ => false

/-- Whether the digit is below eight. -/
def isOctalDigit (c : Char) : Bool := '0' ≤ c && c < '8'

/-- Whether the digit is one of base sixteen. -/
def isHexDigit (c : Char) : Bool := c.isDigit || ('a' ≤ c && c ≤ 'f') || ('A' ≤ c && c ≤ 'F')

/-- Whether a plain scalar is a whole number. -/
def isInt (text : List Char) : Bool :=
  match (unsigned text).2 with
  | '0' :: 'b' :: rest => !rest.isEmpty && areDigits (fun c => c == '0' || c == '1') rest
  | '0' :: 'x' :: rest => !rest.isEmpty && areDigits isHexDigit rest
  | '0' :: rest => areDigits isOctalDigit rest
  | body => isNumeral body || isSexagesimal body

/-- Whether a text is an exponent with its sign, or nothing. -/
def isExponent : List Char → Bool
  | [] => true
  | e :: sign :: digits =>
    (e == 'e' || e == 'E') && (sign == '-' || sign == '+') && !digits.isEmpty
      && digits.all Char.isDigit
  | _ => false

/-- Whether a plain scalar is a number with a point. -/
def isFloat (text : List Char) : Bool :=
  let body := (unsigned text).2
  let whole := body.takeWhile (· != '.')
  match body.drop whole.length with
  | [] => false
  | _ :: rest =>
    let places := rest.takeWhile fun c => c.isDigit || c == '_'
    let tail := rest.drop places.length
    if whole.isEmpty then
      ["inf", "Inf", "INF"].contains (String.ofList rest)
        || (body == text && (["nan", "NaN", "NAN"].contains (String.ofList rest)
          || (isNumeral places && isExponent tail)))
    else (isNumeral whole && isExponent tail) || (isSexagesimal whole && tail.isEmpty)

/-- What a plain scalar is taken for. -/
def Tag.ofPlain (text : List Char) : Tag :=
  let word := String.ofList text
  if (trueWords ++ falseWords).any fun w => (threeCases w).contains word then .bool
  else if isFloat text then .float
  else if isInt text then .int
  else if word == "<<" then .merge
  else if ["", "~", "null", "Null", "NULL"].contains word then .null
  else if Timestamp.isWritten text then .timestamp
  else if word == "=" then .value
  else .text

end WikiMigration.Yaml
