/-
The program.

What a session may look at is read from the disk into a tree of files, the session is run on the tree,
and the disk is changed to match what the session left.
-/
import Std.Time.Zoned
import WikiMigration.Command.Session
import WikiMigration.Files.Tree

namespace WikiMigration.Disk

open Files

/-- The name of a place on the disk. -/
def nameOf (place : Location) : String := String.ofList (Path.text { names := place })

/-- The bytes of a file on the disk. -/
def readBytes (place : Location) : IO Bytes := do
  return (← IO.FS.readBinFile (nameOf place)).toList

mutual

/-- The tree with what stands at a place of the disk and within it; a link is followed. -/
partial def readEntry (tree : Tree) (place : Location) : IO Tree := do
  if (tree.at? place).isSome then return tree
  let path := (← IO.currentDir) / nameOf place
  match (← path.symlinkMetadata).type with
  | .dir => do
    let children ← path.readDir
    children.foldlM (fun tree child => readEntry tree (place ++ [child.fileName.toList]))
      (tree.plant place .directory)
  | .symlink => do
    let target := (← IO.FS.realPath path).toString.toList
    let tree := tree.plant place (.link target)
    readPath tree (Path.resolve .root target)
  | _ => return tree.plant place (.file (← readBytes place))

/-- The tree with what stands at a path of the disk, or with the directories on the way there if
nothing does. -/
partial def readPath (tree : Tree) (path : Path) : IO Tree := do
  let onDisk := (← IO.currentDir) / nameOf path.names
  if ← onDisk.pathExists then readEntry tree path.names
  else if path.names.isEmpty then return tree
  else
    let above := parent path
    if (tree.at? above.names).isSome then return tree
    let directory := (← IO.currentDir) / nameOf above.names
    if ← directory.isDir then return tree.plant above.names .directory
    else readPath tree above

end

/-- Makes a step on the disk. -/
def make : Patch → IO Unit
  | .remove place .directory => IO.FS.removeDir (nameOf place)
  | .remove place _ => IO.FS.removeFile (nameOf place)
  | .make place .directory => IO.FS.createDirAll (nameOf place)
  | .make place (.file bytes) => IO.FS.writeBinFile (nameOf place) ⟨bytes.toArray⟩
  | .make _ (.link _) => pure ()

/-- A number as two digits. -/
def twoDigits (n : Int) : String := (if n < 10 then "0" else "") ++ toString n

/-- What the clock shows. -/
def clock : IO Log.Clock := do
  let now ← Std.Time.PlainDateTime.now
  let date := toString now.date.year.toInt ++ "-" ++ twoDigits now.date.month.val ++ "-"
    ++ twoDigits now.date.day.val
  let time := twoDigits now.time.hour.val ++ ":" ++ twoDigits now.time.minute.val ++ ":"
    ++ twoDigits now.time.second.val
  return ⟨date ++ " " ++ time, date ++ "T" ++ time, .zero false⟩

/-- Where the program runs. -/
def site : IO Migration.Site := do
  let here ← IO.currentDir
  let accounts ← try IO.FS.readFile "/etc/passwd" catch _ => pure ""
  let letters := "abcdefghijklmnopqrstuvwxyz0123456789_".toList
  let mark ← (List.range 8).mapM fun _ => do
    return letters.getD (← IO.rand 0 (letters.length - 1)) 'a'
  return {
    place := {
      workingDirectory := Path.resolve .root here.toString.toList
      home := ((← IO.getEnv "HOME").getD "/root").toList
      accounts := accountsOf accounts.toList }
    mark
    clock := ← clock }

/-- The variables that the references in the text of a file name. -/
def environmentOf (tree : Tree) (path : Path) : IO Config.Environment := do
  let text := match tree.read path with
    | .ok bytes => Text.Utf8.decodeLossy bytes
    | .error _ => []
  let given ← (Config.referenceNames text).mapM fun name => do
    return (name, (← IO.getEnv (String.ofList name)).map String.toList)
  return fun name => (given.lookup name).join

/-- Runs the session that the arguments ask for; gives the code to end with. -/
def runSession (arguments : Command.Arguments) : IO UInt32 := do
  let site ← site
  let here := site.place.workingDirectory
  let configPath := Migration.rawPath here
    (Command.argument arguments "config").toText.toList
  let start ← readPath (Tree.plant {} here.names .directory) configPath
  let environment ← environmentOf start configPath
  let before ← match Command.configure environment site arguments start with
    | .ok config => (Command.places site config).foldlM readPath start
    | .error _ => pure start
  let ended := Command.session environment site (.usual site) arguments before
  (difference before ended.tree).forM make
  IO.print ended.output
  IO.eprint ended.errors
  match ended.code with
  | .ok code => return code.toUInt32
  | .error failure =>
    IO.eprintln failure.message
    return 1

end WikiMigration.Disk

open WikiMigration in
/-- Reads the command line and does what it asks for. -/
def main (line : List String) : IO UInt32 := do
  match Command.parse line with
  | .ok arguments => Disk.runSession arguments
  | .error ending =>
    IO.print ending.output
    IO.eprint ending.complaint
    return ending.code.toUInt32
