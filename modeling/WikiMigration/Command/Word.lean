/-
The words of a command line.

A word that begins with a dash is a switch, a number below zero, or unknown.  A switch may be cut
short as long as it can still be told from the others, and it may have its value in the same word,
after an equals sign.  Two dashes end the switches: every word after them stands for itself.
-/
import WikiMigration.Command.Switch
import WikiMigration.Text.Lines
import WikiMigration.Text.Quoted
import WikiMigration.Text.WordChar

namespace WikiMigration.Command

open Text

/-- What is wrong with a command line. -/
inductive Misuse where
  | ambiguous (word : String) (candidates : List String)
  | missingValue (s : Switch)
  | unusedValue (s : Switch) (value : String)
  | unrecognized (words : List String)
  deriving DecidableEq, Repr

/-- How a command line may end the program. -/
inductive Ending where
  | help
  | version
  | misuse (m : Misuse)
  deriving DecidableEq, Repr

/-- What stands behind a switch in its word. -/
inductive Tail where
  | nothing
  | value (text : String)
  /-- More switches of one letter each. -/
  | letters (text : List Char)
  deriving DecidableEq, Repr

/-- A word of a command line. -/
inductive Word where
  | plain (text : String)
  | switch (s : Switch) (tail : Tail)
  | unknown (text : String)
  /-- The two dashes that end the switches. -/
  | separator
  deriving DecidableEq, Repr

/-- Whether the text is a number below zero, with a point or without one. -/
def isNegativeNumber (text : List Char) : Bool :=
  let isCount (digits : List Char) : Bool := digits.all isDecimal
  match text with
  | '-' :: digits =>
    let digits := if digits.getLast? == some '\n' then digits.dropLast else digits
    match cut? ['.'] digits with
    | some (whole, part) => isCount whole && isCount part && !part.isEmpty
    | none => isCount digits && !digits.isEmpty
  | _ => false

/-- The names of switches that begin with the given text, each with its switch. -/
def completions (start : List Char) : List (String × Switch) :=
  switches.flatMap fun s =>
    (s.names.filter fun name => startsWith start name.toList).map fun name => (name, s)

/-- A word that is no name of a switch in full: what follows an equals sign is its value. -/
def longWord (text : List Char) : Except Ending (Option Word) :=
  let (start, tail) := match cut? ['='] text with
    | some (start, value) => (start, Tail.value (String.ofList value))
    | none => (text, .nothing)
  match completions start with
  | [] => .ok none
  | [(_, s)] => .ok (some (.switch s tail))
  | several => .error (.misuse (.ambiguous (String.ofList text) (several.map Prod.fst)))

/-- A word with a single dash: the letters behind the first one are switches too. -/
def shortWord (text : List Char) : Option Word :=
  (Switch.named? (text.take 2)).map fun s => .switch s (.letters (text.drop 2))

/-- A word that begins with a dash and is no name of a switch. -/
def dashedWord (text : List Char) : Except Ending Word := do
  let switch? ← match cut? ['='] text with
    | some (name, value) =>
      match Switch.named? name with
      | some s => pure (some (.switch s (.value (String.ofList value))))
      | none => abbreviated
    | none => abbreviated
  match switch? with
  | some word => return word
  | none =>
    if isNegativeNumber text || text.contains ' ' then return .plain (String.ofList text)
    else return .unknown (String.ofList text)
where
  abbreviated : Except Ending (Option Word) :=
    if startsWith ['-', '-'] text then longWord text else .ok (shortWord text)

/-- The word of a text before the switches have ended. -/
def Word.ofText (text : String) : Except Ending Word :=
  match text.toList with
  | '-' :: c :: rest =>
    match Switch.named? ('-' :: c :: rest) with
    | some s => .ok (.switch s .nothing)
    | none => dashedWord ('-' :: c :: rest)
  | _ => .ok (.plain text)

/-- The words of a command line. -/
def wordsOf : List String → Except Ending (List Word)
  | [] => .ok []
  | text :: rest =>
    if text == "--" then .ok (.separator :: rest.map .plain)
    else do
      let word ← Word.ofText text
      return word :: (← wordsOf rest)

/-- The names of a switch as messages show them. -/
def Switch.title (s : Switch) : String := "/".intercalate s.names

/-- The message about what is wrong. -/
def Misuse.message : Misuse → String
  | .ambiguous word candidates =>
    "ambiguous option: " ++ word ++ " could match " ++ ", ".intercalate candidates
  | .missingValue s => "argument " ++ s.title ++ ": expected one argument"
  | .unusedValue s value =>
    "argument " ++ s.title ++ ": ignored explicit argument " ++ quoted value
  | .unrecognized words => "unrecognized arguments: " ++ " ".intercalate words

end WikiMigration.Command
