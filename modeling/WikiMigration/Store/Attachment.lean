/-
The store of an engine's attachments in files.

Every version of an attachment is a file; a new version gets the number after the latest one and is
staged until it is whole.
-/
import WikiMigration.Store.World

namespace WikiMigration.Store

open Text Files

/-! ### On the tree -/

/-- The file of a version of an attachment; without a version, of the latest one, or of the first if
the latest is none or zero. -/
def attachmentFile (tree : Tree) (directory : Path) (page file : List Char) (version : Int) :
    Result Path := do
  let versions := attachmentVersions directory page file
  if version == latestVersion then
    match ← latestIn tree versions with
    | some (n + 1) => return versions.child (versionName file (n + 1 : Nat))
    | _ => return versions.child (versionName file 1)
  else return versions.child (versionName file version)

/-- The version that is written next to a directory of versions. -/
def nextVersion (tree : Tree) (versions : Path) : Result Nat :=
  (latestIn tree versions).map fun latest => match latest with
    | some version => version + 1
    | none => 1

/-- The steps before the bytes of a version are read: its staging file is made. -/
def stageSteps (mark : Name) (target : Path) : List FileStep := [.create (stagingFile mark target)]

/-- The steps once the bytes of a version are read: they are staged, and the staged file takes its
place. -/
def storeSteps (mark : Name) (target : Path) (bytes : Bytes) : List FileStep :=
  let staged := stagingFile mark target
  filling staged bytes ++ [.replace staged target]

/-! ### The store -/

/-- The store of an engine's attachments. -/
structure FileAttachments where
  engine : Engine
  /-- What tells staging files from all others. -/
  mark : Name

namespace FileAttachments

variable (store : FileAttachments)

/-- The directory of the pages. -/
def directory : Path := store.engine.pageDirectory

/-- The name of the store's logger. -/
def logger : String := "providers.attachments"

/-- An attachment of a page in quotes, for messages. -/
def labelled (file page : List Char) : String :=
  "'" ++ String.ofList file ++ "' of page '" ++ String.ofList page ++ "'"

/-- The latest version of the attachment whose directory has the name, if it has any. -/
def latest (page : List Char) (name : Name) : Task World (List Attachment) := do
  let versions := (attachments store.directory page).child name
  let file := unmangle (name.take (name.length - fileSuffix.length))
  match ← inspect fun tree => latestIn tree versions with
  | none =>
    log .warning logger ("Attachment '" ++ String.ofList file ++ "' of '" ++ String.ofList page
      ++ "' has no stored versions")
    return []
  | some version =>
    let path := versions.child (versionName file version)
    let size ← inspect fun tree => do
      return if ← tree.isThere path then tree.size path else 0
    return [⟨file, page, version, size⟩]

/-- The latest versions of a page's attachments. -/
def list (page : List Char) : Task World (List Attachment) := do
  let all := attachments store.directory page
  if !(← inspect fun tree => tree.isDirectory all) then return []
  else
    let names ← classified .storage (some page)
      (fun text => "Cannot list attachments of page '" ++ String.ofList page ++ "': " ++ text)
      (inspect fun tree => tree.list all)
    (names.filter fun name => endsWith fileSuffix name).foldlM
      (fun found name => do
        if ← inspect fun tree => tree.isDirectory (all.child name) then
          return found ++ (← store.latest page name)
        else return found)
      []

/-- The file of a version of an attachment. -/
def path (attachment : Attachment) : Task World Path :=
  inspect fun tree =>
    attachmentFile tree store.directory attachment.page attachment.file attachment.version

/-- Opens a version of an attachment. -/
def openStream (page : List Char) (attachment : Attachment) : Task World Nat := do
  let path ← store.path attachment
  let bytes ← classified .resource (some page)
    (fun text => "Cannot open attachment " ++ labelled attachment.file page ++ ": " ++ text)
    (inspect fun tree => tree.read path)
  let world ← .world
  .change fun world => { world with streams := world.streams ++ [some bytes] }
  return world.streams.length

/-- Reads on in a stream. -/
def read (stream : Nat) (size : Option Nat) : Task World Bytes := do
  match ((← .world).streams[stream]?).join with
  | none => .fail (.other "ValueError" "read of closed file")
  | some bytes =>
    let count := size.getD bytes.length
    .change fun world => { world with streams := world.streams.set stream (some (bytes.drop count)) }
    return bytes.take count

/-- Closes a stream. -/
def close (stream : Nat) : Task World Unit :=
  .change fun world => { world with streams := world.streams.set stream none }

/-- Makes what a stream holds the next version of an attachment. -/
def put (attachment : Attachment) (reader : StreamReader World) :
    Task World (Option Int × Bytes) := do
  let versions := attachmentVersions store.directory attachment.page attachment.file
  let (version, bytes) ← classified .storage (some attachment.page)
    (fun text =>
      "Cannot store attachment " ++ labelled attachment.file attachment.page ++ ": " ++ text) do
      makeSteps none [.makeDirectories versions]
      let version ← inspect fun tree => nextVersion tree versions
      let target := versions.child (versionName attachment.file version)
      let staged := stagingFile store.mark target
      makeSteps (some staged) (stageSteps store.mark target)
      let bytes ← match ← (reader none).attempt with
        | .ok bytes => pure bytes
        | .error failure => do
          .change fun world => world.setTree (discard world.tree staged)
          .fail failure
      makeSteps (some staged) (storeSteps store.mark target bytes)
      pure (version, bytes)
  log .debug logger ("Stored " ++ String.ofList attachment.page ++ "/"
    ++ String.ofList attachment.file ++ " as version " ++ Nat.repr version)
  return (some version, bytes)

/-- The store as one of attachments. -/
def interface : AttachmentStore World Nat :=
  ⟨store.list, store.openStream, read, close, store.put⟩

end FileAttachments

end WikiMigration.Store
