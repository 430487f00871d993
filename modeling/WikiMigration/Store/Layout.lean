/-
Where the stores keep things.

A page has one file in the directory of the pages; its earlier versions lie in a directory of their
own, one file for each.  An attachment has a directory for its versions, within the directory of its
page's attachments.  The file of a version begins with the version's number.
-/
import WikiMigration.Files.Operation
import WikiMigration.Text.WordChar
import WikiMigration.Url.Percent

namespace WikiMigration.Store

open Text Files

/-! ### Names as file names

The name of a page or an attachment becomes a file name by percent-encoding, with a plus sign for a
space.  A slash is encoded, and so is a dot at the front, so that no name leaves its directory or is
hidden in it.
-/

/-- The file name of a name. -/
def mangle (name : List Char) : List Char :=
  match Url.encodeQuery name with
  | '.' :: rest => "%2E".toList ++ rest
  | mangled => mangled

/-- The name that a file name stands for. -/
def unmangle (fileName : List Char) : List Char := Url.decodeQuery fileName

/-- The ending of the files that hold an attachment: what follows the last dot of its name, as a
file name. -/
def attachmentExtension (name : List Char) : List Char :=
  if name.contains '.' then
    let extension := (name.reverse.takeWhile (· != '.')).reverse
    if extension.isEmpty then "bin".toList else mangle extension
  else "bin".toList

/-! ### Places -/

/-- The number that stands for the latest version. -/
def latestVersion : Int := -1

/-! ### Pages -/

/-- The file of a page. -/
def pageFile (directory : Path) (extension : String) (page : List Char) : Path :=
  directory.child (mangle page ++ extension.toList)

/-- The name of the directory of the earlier versions. -/
def archiveName : Name := "OLD".toList

/-- The directory of a page's earlier versions: it has the page's name within the directory of all
earlier versions, which keeps those of the page without a name itself. -/
def archive (directory : Path) (page : List Char) : Path :=
  let all := directory.child archiveName
  if page.isEmpty then all else all.child (mangle page)

/-- The file of an earlier version of a page. -/
def archivedFile (directory : Path) (extension : String) (page : List Char) (version : Int) :
    Path :=
  (archive directory page).child ((toString version).toList ++ extension.toList)

/-! ### Attachments -/

/-- The ending of the directories of pages' attachments. -/
def attachmentsSuffix : List Char := "-att".toList

/-- The ending of the directories of attachments. -/
def fileSuffix : List Char := "-dir".toList

/-- The directory of a page's attachments. -/
def attachments (directory : Path) (page : List Char) : Path :=
  directory.child (mangle page ++ attachmentsSuffix)

/-- The directory of an attachment's versions. -/
def attachmentVersions (directory : Path) (page file : List Char) : Path :=
  (attachments directory page).child (mangle file ++ fileSuffix)

/-- The name of the file of a version of an attachment. -/
def versionName (file : List Char) (version : Int) : Name :=
  (toString version).toList ++ '.' :: attachmentExtension file

/-! ### Versions -/

/-- The version whose file has the name: a number, a dot, and something without a dot. -/
def versionOf? (name : Name) : Option Nat :=
  let digits := name.takeWhile isDecimal
  match name.drop digits.length with
  | '.' :: rest => if rest.isEmpty || rest.contains '.' then none else decimalNumber? digits
  | _ => none

/-- The versions that have files in the directory; there need not be a directory. -/
def versionsIn (tree : Tree) (directory : Path) : Result (List Nat) := do
  if ← tree.isDirectory directory then
    return (← tree.list directory).filterMap versionOf?
  else return []

/-- The latest version that has a file in the directory. -/
def latestIn (tree : Tree) (directory : Path) : Result (Option Nat) :=
  (versionsIn tree directory).map List.max?

/-- The version of the file that a page has: one more than the latest of the earlier ones. -/
def currentVersion (tree : Tree) (directory : Path) (page : List Char) : Result Nat :=
  (latestIn tree (archive directory page)).map fun latest => latest.getD 0 + 1

/-! ### Staging -/

/-- The file that is written before it takes the place of another one; `mark` tells it from all
others. -/
def stagingFile (mark : Name) (target : Path) : Path :=
  let name := target.names.getLastD []
  (parent target).child ('.' :: name ++ '.' :: mark ++ ".tmp".toList)

end WikiMigration.Store
