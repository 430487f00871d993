/-
Why an operation on files fails.

The system numbers its faults; a message names the fault and the path, or the two paths, that it is
about.
-/
import WikiMigration.Error
import WikiMigration.Path
import WikiMigration.Text.Quoted

namespace WikiMigration.Files

/-- A fault of an operation on files. -/
inductive Fault where
  | missing
  | alreadyThere
  | notDirectory
  | isDirectory
  | nameTooLong
  | notEmpty
  | tooManyLinks
  deriving DecidableEq, Repr

/-- The number of the fault. -/
def Fault.number : Fault → Nat
  | .missing => 2
  | .alreadyThere => 17
  | .notDirectory => 20
  | .isDirectory => 21
  | .nameTooLong => 36
  | .notEmpty => 39
  | .tooManyLinks => 40

/-- What the system says about the fault. -/
def Fault.text : Fault → String
  | .missing => "No such file or directory"
  | .alreadyThere => "File exists"
  | .notDirectory => "Not a directory"
  | .isDirectory => "Is a directory"
  | .nameTooLong => "File name too long"
  | .notEmpty => "Directory not empty"
  | .tooManyLinks => "Too many levels of symbolic links"

/-- The sort of failure that the number of a fault of the system stands for. -/
def sortOf (number : Int) : String :=
  let sorts : List (Int × String) := [
    (1, "PermissionError"), (2, "FileNotFoundError"), (3, "ProcessLookupError"),
    (4, "InterruptedError"), (10, "ChildProcessError"), (11, "BlockingIOError"),
    (13, "PermissionError"), (17, "FileExistsError"), (20, "NotADirectoryError"),
    (21, "IsADirectoryError"), (32, "BrokenPipeError"), (103, "ConnectionAbortedError"),
    (104, "ConnectionResetError"), (108, "BrokenPipeError"), (110, "TimeoutError"),
    (111, "ConnectionRefusedError"), (114, "BlockingIOError"), (115, "BlockingIOError")]
  (sorts.lookup number).getD "OSError"

/-- A fault of the system with its number and what is said about it. -/
def numbered (number : Int) (text : String) : Failure :=
  .system (sortOf number) ("[Errno " ++ toString number ++ "] " ++ text)

/-- A fault with the text of the path it is about. -/
def Fault.failure (fault : Fault) (path : String) : Failure :=
  numbered fault.number (fault.text ++ ": " ++ Text.quoted path)

/-- A fault with the path, or the two paths, it is about. -/
structure FileError where
  fault : Fault
  path : Path
  second : Option Path := none
  deriving DecidableEq, Repr

/-- A path as it is shown in messages. -/
def shown (path : Path) : String := String.ofList path.text

/-- The error as a failure. -/
def FileError.failure (e : FileError) : Failure :=
  match e.second with
  | none => e.fault.failure (shown e.path)
  | some second =>
    numbered e.fault.number (e.fault.text ++ ": " ++ Text.quoted (shown e.path) ++ " -> "
      ++ Text.quoted (shown second))

end WikiMigration.Files
