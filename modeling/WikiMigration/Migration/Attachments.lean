/-
The migration of a page's attachments.

One attachment is copied after the other, and each stream is closed before the next is opened, whatever
happens.  The first failure is the end of it: the attachments before it stay stored, those behind it
are left alone.
-/
import WikiMigration.Checksum.Sha256
import WikiMigration.Migration.Page
import WikiMigration.Store.Layout

namespace WikiMigration.Migration

open Store

variable {σ ρ τ : Type}

/-- Closes a stream after a failure; that it cannot be closed is only noted. -/
def closeAfterFailure (crew : Crew σ ρ τ) (options : Options) (page file : String) (stream : ρ) :
    Task σ Unit := do
  match ← (crew.sourceFiles.close stream).attempt with
  | .ok _ => return ()
  | .error failure =>
    note options .warning ("Failed to close attachment '" ++ file ++ "' of '" ++ page ++ "': "
      ++ failure.message)

/-- The bytes of a stored attachment; its stream is closed whatever happens. -/
def readBack (crew : Crew σ ρ τ) (page : List Char) (stored : Attachment) :
    Task σ Files.Bytes := do
  let stream ← crew.targetFiles.openStream page stored
  let result ← (crew.targetFiles.read stream none).attempt
  crew.targetFiles.close stream
  .ofResult result

/-- Compares a stored attachment with the bytes that were to be stored. -/
def verify (crew : Crew σ ρ τ) (page : List Char) (stored : Attachment) (bytes : Files.Bytes) :
    Task σ Unit := do
  let name := String.ofList page
  let file := String.ofList stored.file
  let copy ← (readBack crew page stored).boundary .storage (some name)
    ("Verifying attachment '" ++ file ++ "'")
  if Checksum.sha256 copy == Checksum.sha256 bytes then return ()
  else
    .fail (.classified ⟨.storage,
      "Checksum mismatch for attachment '" ++ file ++ "' of page '" ++ name ++ "'", some name⟩)

/-- The version that a stored attachment is looked up by: the latest if the store names none. -/
def versionOrLatest (version : Option Int) : Int :=
  match version with
  | some version => if version == 0 then latestVersion else version
  | none => latestVersion

/-- Copies an attachment of a page. -/
def copyAttachment (crew : Crew σ ρ τ) (options : Options) (page : List Char)
    (attachment : Attachment) : Task σ Unit := do
  let name := String.ofList page
  let file := String.ofList attachment.file
  let stream ← (crew.sourceFiles.openStream page attachment).boundary .resource (some name)
    ("Opening attachment '" ++ file ++ "'")
  let copy : Attachment := ⟨attachment.file, page, latestVersion, attachment.size⟩
  let stored ← ((crew.targetFiles.store copy (crew.sourceFiles.read stream)).boundary .storage
    (some name) ("Storing attachment '" ++ file ++ "'")).attempt
  match stored with
  | .error failure =>
    closeAfterFailure crew options name file stream
    .fail failure
  | .ok (version, bytes) =>
    (crew.sourceFiles.close stream).boundary .resource (some name)
      ("Closing attachment '" ++ file ++ "'")
    if options.verifies then
      verify crew page ⟨attachment.file, page, versionOrLatest version, 0⟩ bytes
    note options .debug ("Copied attachment '" ++ file ++ "' of '" ++ name ++ "' ("
      ++ Nat.repr bytes.length ++ " bytes)")

/-- Copies attachments of a page, one after the other. -/
def copyAll (crew : Crew σ ρ τ) (options : Options) (page : List Char) :
    List Attachment → Task σ Unit
  | [] => pure ()
  | attachment :: rest => do
    copyAttachment crew options page attachment
    copyAll crew options page rest

/-- Migrates the attachments of a page: gives their number. -/
def migrateAttachments (crew : Crew σ ρ τ) (options : Options) (page : List Char) :
    Task σ Nat := do
  let name := String.ofList page
  let attachments ← (crew.sourceFiles.list page).boundary .storage (some name)
    "Listing attachments"
  let count := attachments.length
  if attachments.isEmpty then return 0
  else if options.isDry then
    note options .info ("[dry-run] Would copy " ++ Nat.repr count ++ " attachment(s) of '" ++ name
      ++ "'")
    return count
  else
    note options .debug ("Processing " ++ Nat.repr count ++ " attachment(s) for page '" ++ name
      ++ "'")
    copyAll crew options page attachments
    return count

end WikiMigration.Migration
