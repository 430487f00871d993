/-
Files that are named by a text as it is given.

Such a text is not read as the path it stands for: it is walked as it is, from the working directory
if it does not begin at the root, and messages show it as it is.  Where a file is written a whole number
stands for one that is open already; besides the streams that every program has none is.
-/
import WikiMigration.Data.Text
import WikiMigration.Files.Operation
import WikiMigration.Text.Utf8

namespace WikiMigration.Migration

open Text Data Files

/-- The path that a text is walked as. -/
def rawPath (workingDirectory : Path) (text : List Char) : Path :=
  let names := splitAt '/' text
  if text.head? == some '/' then { names } else { names := workingDirectory.names ++ names }

/-- The text that names a file; it may not hold a NUL character. -/
def fileName (value : Value) : Except Failure (List Char) :=
  match value with
  | .text s =>
    if s.toList.contains '\x00' then .error (.other "ValueError" "embedded null byte")
    else .ok s.toList
  | value =>
    .error (.other "TypeError"
      ("expected str, bytes or os.PathLike object, not " ++ value.kindName))

/-- The result of an operation on the path of a text; the failure shows the text. -/
def named {α : Type} (text : List Char) (result : Result α) : Except Failure α :=
  result.mapError fun e => e.fault.failure (String.ofList text)

/-- The number of an open file that a value may be: a whole number of 32 bits. -/
def openFile? : Value → Option Int
  | .scalar s => s.int?.filter fun n => decide (-0x80000000 ≤ n ∧ n < 0x80000000)
  | _ => none

/-- The failure to write to the open file of a number. -/
def notOpen (number : Int) : Failure :=
  if number < 0 then .other "ValueError" "negative file descriptor"
  else numbered 9 "Bad file descriptor"

/-- Writes a text to the file that a value names. -/
def writeFile (workingDirectory : Path) (name : Value) (content : String) (tree : Tree) :
    Except Failure Tree :=
  match openFile? name with
  | some number => .error (notOpen number)
  | none => do
    let text ← fileName name
    named text (tree.write (rawPath workingDirectory text) (Utf8.encode content.toList))

end WikiMigration.Migration
