/-
The texts about the command line.

Lines are filled greedily, and continued ones are indented.  What is said of a switch stands in a
column of its own, beside the switch if that leaves room.
-/
import WikiMigration.Command.Word

namespace WikiMigration.Command

open Text

/-- The width that lines are filled to. -/
def lineWidth : Nat := 78

/-- The column in which switches are explained. -/
def aboutColumn : Nat := 24

/-- A text of blanks. -/
def spaces (count : Nat) : String := String.ofList (List.replicate count ' ')

/-- One word more: it goes into the last line if there is room, and otherwise begins a new one.  The
lines are held last line first. -/
def fillStep (width : Nat) : List String → String → List String
  | [], word => [word]
  | line :: before, word =>
    if line.length + 1 + word.length ≤ width then (line ++ " " ++ word) :: before
    else word :: line :: before

/-- Lines of at most the given width, as long as no word is wider. -/
def fill (width : Nat) (words : List String) : List String :=
  (words.foldl (fillStep width) []).reverse

/-- Lines, each with its end. -/
def block (lines : List String) : String := String.join (lines.map (· ++ "\n"))

/-- A switch in the summary. -/
def Switch.summary (s : Switch) : String :=
  let name := s.names.headD ""
  match s.effect with
  | .value placeholder => "[" ++ name ++ " " ++ placeholder ++ "]"
  | _ => "[" ++ name ++ "]"

/-- The summary of the command line: the switches, and below them the operands. -/
def usage : String :=
  let start := "usage: " ++ programName ++ " "
  let width := lineWidth - start.length
  let lines := fill width (switches.map Switch.summary)
    ++ fill width (operands.map fun operand => "[" ++ operand.key ++ "]")
  match lines with
  | [] => ""
  | first :: rest => block ((start ++ first) :: rest.map (spaces start.length ++ ·))

/-- A switch with its names. -/
def Switch.entry (s : Switch) : String :=
  let name (name : String) : String := match s.effect with
    | .value placeholder => name ++ " " ++ placeholder
    | _ => name
  ", ".intercalate (s.names.map name)

/-- An entry of the help text with what is said of it. -/
def helpEntry (entry about : String) : List String :=
  let lines := fill (lineWidth - aboutColumn)
    ((splitAt ' ' about.toList).map String.ofList)
  let head := "  " ++ entry
  match lines with
  | [] => [head]
  | first :: rest =>
    let later := rest.map (spaces aboutColumn ++ ·)
    if head.length + 2 ≤ aboutColumn then
      (head ++ spaces (aboutColumn - head.length) ++ first) :: later
    else head :: (spaces aboutColumn ++ first) :: later

/-- What the program does. -/
def purpose : String := "Migrate a JSPWiki page directory from one markup dialect to another"

/-- Examples of command lines. -/
def examples : String := block [
  "Examples:",
  "  # Convert the German edition to Markdown",
  "  jspwiki-migrate wiki/de markdown/de de",
  "",
  "  # Start from an empty target directory",
  "  jspwiki-migrate wiki/de markdown/de de --clean-target",
  "",
  "  # Preview without writing anything",
  "  jspwiki-migrate wiki/de markdown/de de --dry-run -v",
  "",
  "  # Settings from a YAML file, JSON report next to it",
  "  jspwiki-migrate wiki/pt_BR markdown/pt_BR pt_BR --config config.yaml --report report.json",
  "        "]

/-- The help text. -/
def helpText : String :=
  usage ++ "\n" ++ block [purpose, "", "positional arguments:"]
    ++ block (operands.flatMap fun operand => helpEntry operand.key operand.about)
    ++ "\n" ++ block ["options:"]
    ++ block (switches.flatMap fun s => helpEntry s.entry s.about)
    ++ "\n" ++ examples

/-! ### Endings -/

/-- The code that the program ends with. -/
def Ending.code : Ending → Nat
  | .misuse _ => 2
  | _ => 0

/-- What is put out at the end. -/
def Ending.output : Ending → String
  | .help => helpText
  | .version => programName ++ " " ++ programVersion ++ "\n"
  | .misuse _ => ""

/-- What is said about what went wrong. -/
def Ending.complaint : Ending → String
  | .misuse m => usage ++ programName ++ ": error: " ++ m.message ++ "\n"
  | _ => ""

end WikiMigration.Command
