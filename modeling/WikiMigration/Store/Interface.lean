/-
What a store of pages and a store of attachments can do.

Both act on a world that they know more about than those who use them.
-/
import WikiMigration.Action
import WikiMigration.Files.Tree
import WikiMigration.Log
import WikiMigration.PageContext

namespace WikiMigration.Store

open Files

/-- An action whose output is records of the log. -/
abbrev Task := Action Log.Record

/-- An attachment: a version of a file that belongs to a page. -/
structure Attachment where
  file : List Char
  page : List Char
  version : Int
  size : Nat
  deriving DecidableEq, Repr

/-- A store of pages. -/
structure PageStore (σ : Type) where
  /-- The pages with their current versions. -/
  list : Task σ (List PageVersion)
  /-- The text of a version of a page. -/
  read : List Char → Int → Task σ (List Char)
  /-- Makes a text the current version of the page that the context is about. -/
  save : PageContext → List Char → Task σ Unit

/-- Reads on in a stream: as many bytes as given, or all that are left. -/
abbrev StreamReader (σ : Type) := Option Nat → Task σ Bytes

/-- A store of attachments with streams `ρ`. -/
structure AttachmentStore (σ ρ : Type) where
  /-- The latest versions of a page's attachments. -/
  list : List Char → Task σ (List Attachment)
  /-- Opens a version of an attachment, on behalf of a page. -/
  openStream : List Char → Attachment → Task σ ρ
  /-- Reads on in a stream. -/
  read : ρ → StreamReader σ
  /-- Closes a stream. -/
  close : ρ → Task σ Unit
  /-- Makes what a stream holds a new version of an attachment; gives the version, if the store has
  versions, and what was read. -/
  store : Attachment → StreamReader σ → Task σ (Option Int × Bytes)

end WikiMigration.Store
