/-
Absolute paths.

A path is the list of the names that lead from the root to a place.  Text is read as a path by
walking it name by name: an empty name and `.` stay where they are, `..` goes back to the directory
before, and at the root stays there.  A text that does not begin at the root is walked from the
working directory.
-/
import WikiMigration.Text.Lines

namespace WikiMigration

open Text

/-- An absolute path. -/
structure Path where
  /-- Whether the root is written with two slashes, which is a place of its own. -/
  doubled : Bool := false
  /-- The names from the root inwards. -/
  names : List (List Char) := []
  deriving DecidableEq, Repr

/-- What reading a path depends on: where relative paths begin, and the home directories. -/
structure Place where
  workingDirectory : Path
  /-- The user's home directory, as it is written. -/
  home : List Char
  /-- The home directories of the other accounts. -/
  accounts : List (List Char × List Char) := []
  deriving Repr

namespace Path

/-- The root. -/
def root : Path := {}

/-- One step of a walk; the names of the place are held innermost first. -/
def step (place : List (List Char)) (name : List Char) : List (List Char) :=
  if name = [] ∨ name = ['.'] then place
  else if name = ['.', '.'] then place.drop 1
  else name :: place

/-- The names of the place that a walk from the given names ends at. -/
def walk (start : List (List Char)) (steps : List (List Char)) : List (List Char) :=
  (steps.foldl step start.reverse).reverse

/-- The path of a text, walked from the working directory if it does not begin at the root.  Two
slashes at the start are a root of their own, more than two are one. -/
def resolve (workingDirectory : Path) (text : List Char) : Path :=
  match text with
  | '/' :: '/' :: '/' :: rest => { names := walk [] (splitAt '/' rest) }
  | '/' :: '/' :: rest => { doubled := true, names := walk [] (splitAt '/' rest) }
  | '/' :: rest => { names := walk [] (splitAt '/' rest) }
  | text => { workingDirectory with names := walk workingDirectory.names (splitAt '/' text) }

/-- The text of a path. -/
def text (path : Path) : List Char :=
  (if path.doubled then ['/', '/'] else ['/']) ++ joinWith ['/'] path.names

/-- The place with the name within the path. -/
def child (path : Path) (name : List Char) : Path :=
  { path with names := path.names ++ [name] }

end Path

/-- The text with a home directory at its start written out: a tilde is the user's own, a tilde and
a name that of an account.  A name that has no account stays as it is. -/
def Place.expandHome (place : Place) (text : List Char) : List Char :=
  match text with
  | '~' :: rest =>
    let account := rest.takeWhile (· != '/')
    let inner := rest.drop account.length
    let home? := if account.isEmpty then some place.home else place.accounts.lookup account
    match home? with
    | none => text
    | some home =>
      let whole := trimRightWith (· == '/') home ++ inner
      if whole.isEmpty then ['/'] else whole
  | text => text

/-- The accounts that a list of them names, with their home directories: on each line there is an
account, with its name as the first and its home as the sixth of the fields between colons. -/
def accountsOf (text : List Char) : List (List Char × List Char) :=
  (lines text).filterMap fun line =>
    match splitAt ':' line with
    | name :: _ :: _ :: _ :: _ :: home :: _ => some (name, home)
    | _ => none

/-- The path that a text stands for, with home directories written out. -/
def Place.pathOf (place : Place) (text : List Char) : Path :=
  Path.resolve place.workingDirectory (place.expandHome text)

end WikiMigration
