/-
Failures of a migration.

A failure that the program has classified is of one of four kinds and may name a page; a failure of
the configuration ends the run, every other one only its page.  A failure that has not been
classified yet has the name of its sort and a message; those of the system are told from the rest.
A boundary gives the failures of a step the kind of the step and leaves classified ones alone.
-/
namespace WikiMigration

/-- The kinds of failure. -/
inductive ErrorKind where
  | configuration
  | storage
  | conversion
  | resource
  deriving DecidableEq, Repr

/-- The name of the kind. -/
def ErrorKind.name : ErrorKind → String
  | .configuration => "configuration"
  | .storage => "storage"
  | .conversion => "translation"
  | .resource => "resource"

/-- A classified failure. -/
structure MigrationError where
  kind : ErrorKind
  message : String
  page : Option String := none
  deriving DecidableEq, Repr

/-- Only a failure of the configuration ends the run. -/
def MigrationError.isFatal (e : MigrationError) : Bool := decide (e.kind = .configuration)

/-- The failure with its kind, as it is shown in the log. -/
def MigrationError.text (e : MigrationError) : String := "[" ++ e.kind.name ++ "] " ++ e.message

/-- A failure of the configuration. -/
def MigrationError.ofConfiguration (message : String) : MigrationError := ⟨.configuration, message, none⟩

/-- What a step may fail with. -/
inductive Failure where
  | classified (e : MigrationError)
  /-- A failure of the system: its sort, and its message. -/
  | system (sort message : String)
  /-- Any other failure: its sort, and its message. -/
  | other (sort message : String)
  deriving DecidableEq, Repr

/-- The message of a failure. -/
def Failure.message : Failure → String
  | .classified e => e.text
  | .system _ message => message
  | .other _ message => message

/-- The other names of the sort of all failures of the system. -/
def systemSynonyms : List String := ["IOError", "EnvironmentError"]

/-- The sorts of failure that are failures of the system. -/
def systemSorts : List String :=
  ["OSError", "BlockingIOError", "ChildProcessError",
    "ConnectionError", "BrokenPipeError", "ConnectionAbortedError", "ConnectionRefusedError",
    "ConnectionResetError", "FileExistsError", "FileNotFoundError", "InterruptedError",
    "IsADirectoryError", "NotADirectoryError", "PermissionError", "ProcessLookupError",
    "TimeoutError"]

/-- The failure of a sort. -/
def Failure.named (sort message : String) : Failure :=
  if systemSynonyms.contains sort then .system "OSError" message
  else if systemSorts.contains sort then .system sort message
  else .other sort message

/-- The kind a failure belongs to: those of the system are of the storage kind. -/
def Failure.kind : Failure → ErrorKind
  | .classified e => e.kind
  | .system _ _ => .storage
  | .other _ _ => .conversion

/-- The failure as a classified one; one that names no page gets the given one. -/
def Failure.classify (page : Option String) : Failure → MigrationError
  | .classified e => { e with page := e.page.orElse fun _ => page }
  | .system sort message => ⟨.storage, sort ++ ": " ++ message, page⟩
  | .other sort message => ⟨.conversion, sort ++ ": " ++ message, page⟩

/-- The failure of a step: its action, its page if it has one, and the message of what went wrong. -/
def stepMessage (action : String) (page : Option String) (message : String) : String :=
  let target := match page with
    | some name => if name.isEmpty then "" else " for page '" ++ name ++ "'"
    | none => ""
  action ++ " failed" ++ target ++ ": " ++ message

/-- What leaves a step that failed: a classified failure as it is, any other one as a failure of the
step's kind. -/
def Failure.atBoundary (kind : ErrorKind) (page : Option String) (action : String) :
    Failure → MigrationError
  | .classified e => e
  | failure => ⟨kind, stepMessage action page failure.message, page⟩

/-- Whether the failure is a classified one. -/
def Failure.isClassified : Failure → Bool
  | .classified _ => true
  | _ => false

end WikiMigration
