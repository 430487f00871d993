/-
The migration of the text of a page.

The text is read, rendered, written in the target's markup and handed to the hooks; only when all of
that has been done is it saved.  A failure is classified by the step that it happened in.

Nothing is known of those who do the steps, the stores, the renderer, the writer and the hooks, but that each may
fail and may change the world it works on.
-/
import WikiMigration.Store.Interface

namespace WikiMigration.Migration

open Store

/-- Those who work on a migration; `ρ` and `τ` are the streams of the two stores of attachments. -/
structure Crew (σ ρ τ : Type) where
  source : PageStore σ
  target : PageStore σ
  sourceFiles : AttachmentStore σ ρ
  targetFiles : AttachmentStore σ τ
  /-- Renders the text of a page. -/
  render : PageContext → List Char → Task σ (List Char)
  /-- Writes what was rendered in the target's markup. -/
  write : List Char → Task σ (List Char)
  /-- What is done to the written text, in order. -/
  hooks : List (List Char → Task σ (List Char))

/-- How pages are to be migrated. -/
structure Options where
  /-- Whether nothing is to be written. -/
  isDry : Bool := false
  /-- Whether copies of attachments are compared with what was copied. -/
  verifies : Bool := true
  /-- The logger of those who have none of their own. -/
  logger : String
  deriving DecidableEq, Repr

/-- A record of the log. -/
def note {σ : Type} (options : Options) (level : Log.Level) (message : String) : Task σ Unit :=
  .emit { level, logger := Log.loggerName options.logger, message }

variable {σ ρ τ : Type}

/-- The text after all hooks. -/
def applyHooks (hooks : List (List Char → Task σ (List Char))) (text : List Char) :
    Task σ (List Char) :=
  match hooks with
  | [] => pure text
  | hook :: rest => do applyHooks rest (← hook text)

/-- The text of a page in the target's markup, with the text it was made from. -/
def convertPage (crew : Crew σ ρ τ) (page : PageVersion) :
    Task σ (List Char × List Char) := do
  let name := some (String.ofList page.name)
  let text ← (crew.source.read page.name page.version).boundary .storage name "Reading page"
  let html ← (crew.render (.forRendering page) text).boundary .conversion name "Rendering"
  let written ← (crew.write html).boundary .conversion name "Translating"
  let finished ← (applyHooks crew.hooks written).boundary .conversion name "Post-processing"
  return (text, finished)

/-- The version that a saved page is given to the store with. -/
def unversioned (page : PageVersion) : PageVersion := { page with version := -1 }

/-- Migrates the text of a page: gives the text that was saved, or would have been. -/
def migrateText (crew : Crew σ ρ τ) (options : Options) (page : PageVersion) :
    Task σ (List Char) := do
  let name := String.ofList page.name
  let (text, written) ← convertPage crew page
  if options.isDry then
    note options .info ("[dry-run] Would save page '" ++ name ++ "' (" ++ Nat.repr written.length
      ++ " chars)")
    return written
  else
    (crew.target.save (.forSaving (unversioned page)) written).boundary .storage (some name)
      "Saving page"
    note options .debug ("Translated page '" ++ name ++ "': " ++ Nat.repr text.length ++ " -> "
      ++ Nat.repr written.length ++ " chars")
    return written

end WikiMigration.Migration
