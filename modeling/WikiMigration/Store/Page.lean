/-
The store of an engine's pages in files.

A page that is saved is archived under its version first, so that no version is ever lost, and then
replaced as a whole.  A store may remember what it read; saving makes it forget what it remembers of
the page, and the list of the pages.
-/
import WikiMigration.Store.World
import WikiMigration.Text.Utf8

namespace WikiMigration.Store

open Text Files

/-! ### On the tree -/

/-- The pages of a directory with their versions. -/
def listPages (tree : Tree) (directory : Path) (extension : String) :
    Result (List PageVersion) := do
  let names := (← tree.list directory).filter fun name => endsWith extension.toList name
  names.foldlM
    (fun pages file => do
      if ← tree.isFile (directory.child file) then
        let name := unmangle (file.take (file.length - extension.length))
        let version ← currentVersion tree directory name
        return pages ++ [⟨name, version⟩]
      else return pages)
    []

/-- The file of a version of a page. -/
def versionFile (tree : Tree) (directory : Path) (extension : String) (page : List Char)
    (version : Int) : Result Path := do
  if version == latestVersion then return pageFile directory extension page
  else
    let current ← currentVersion tree directory page
    if version == current then return pageFile directory extension page
    else return archivedFile directory extension page version

/-- The text of some bytes; every line end is a line feed. -/
def textOf (bytes : Bytes) : Except Utf8.DecodeError (List Char) :=
  (Utf8.decode bytes).map normalizeNewlines

/-- The steps that archive a page: its file is copied under the page's version. -/
def archiveSteps (tree : Tree) (directory : Path) (extension : String) (page : List Char) :
    List FileStep :=
  let file := pageFile directory extension page
  let version := match currentVersion tree directory page with
    | .ok version => version
    | .error _ => 1
  let bytes := match tree.read file with
    | .ok bytes => bytes
    | .error _ => []
  [.makeDirectories (archive directory page), .openToRead file]
    ++ writing (archivedFile directory extension page version) bytes

/-- Whether a page has a file, or anything else in its place. -/
def hasFile (tree : Tree) (directory : Path) (extension : String) (page : List Char) : Bool :=
  match tree.isThere (pageFile directory extension page) with
  | .ok isThere => isThere
  | .error _ => false

/-- The steps that save a page: the text is staged, the page is archived if it has a file, and the
staged file takes its place. -/
def saveSteps (tree : Tree) (directory : Path) (extension : String) (mark : Name)
    (page text : List Char) : List FileStep :=
  let file := pageFile directory extension page
  let staged := stagingFile mark file
  [.makeDirectories directory] ++ writing staged (Utf8.encode text)
    ++ (if hasFile tree directory extension page then
        archiveSteps tree directory extension page
      else [])
    ++ [.replace staged file]

/-! ### The store -/

/-- The store of an engine's pages. -/
structure FilePages where
  engine : Engine
  /-- What tells staging files from all others. -/
  mark : Name

namespace FilePages

variable (store : FilePages)

/-- The directory of the pages. -/
def directory : Path := store.engine.pageDirectory

/-- The ending of the pages' files. -/
def extension : String := store.engine.dialect.fileExtension

/-- The name of the store's logger. -/
def logger : String := "providers.file_system"

/-- What the store remembers; nothing if it is not to remember. -/
def remembered : Task World PageCache := fun world =>
  ⟨.ok (if store.engine.isCached then world.cache store.engine else {}), world, []⟩

/-- Changes what the store remembers, if it is to remember. -/
def remember (f : PageCache → PageCache) : Task World Unit :=
  .change fun world =>
    if store.engine.isCached then
      world.setCache store.engine (f (world.cache store.engine))
    else world

/-- The pages with their current versions. -/
def list : Task World (List PageVersion) := do
  match (← store.remembered).pages with
  | some pages => return pages
  | none =>
    if !(← inspect fun tree => tree.isDirectory store.directory) then
      .fail (.classified ⟨.storage,
        "Page directory does not exist: " ++ shown store.directory, none⟩)
    else
      let pages ← inspect fun tree => listPages tree store.directory store.extension
      log .debug logger ("Found " ++ Nat.repr pages.length ++ " pages in " ++ shown store.directory)
      store.remember fun cache => { cache with pages := some pages }
      return pages

/-- The text of a version of a page. -/
def read (page : List Char) (version : Int) : Task World (List Char) := do
  match (← store.remembered).texts.lookup (page, version) with
  | some text => return text
  | none =>
    let name := String.ofList page
    let file ← inspect fun tree =>
      versionFile tree store.directory store.extension page version
    let bytes ← classified .storage (some page)
      (fun text => "Cannot read page '" ++ name ++ "' version " ++ toString version ++ ": " ++ text)
      (inspect fun tree => tree.read file)
    match textOf bytes with
    | .error e =>
      .fail (.classified ⟨.conversion,
        "Page '" ++ name ++ "' is not valid UTF-8: " ++ e.message, some name⟩)
    | .ok text =>
      store.remember fun cache => { cache with texts := ((page, version), text) :: cache.texts }
      return text

/-- What the store remembers once a page is saved: nothing about versions whose keys begin as those
of the page do. -/
def forget (page : List Char) (cache : PageCache) : PageCache :=
  { texts := cache.texts.filter fun ((name, version), _) =>
      !startsWith (page ++ ['@']) (name ++ '@' :: (toString version).toList)
    pages := none }

/-- Makes a text the current version of a page. -/
def save (page text : List Char) : Task World Unit := do
  let name := String.ofList page
  let file := pageFile store.directory store.extension page
  let world ← .world
  classified .storage (some page)
    (fun text => "Cannot save page '" ++ name ++ "' to " ++ shown file ++ ": " ++ text)
    (makeSteps (some (stagingFile store.mark file))
      (saveSteps world.tree store.directory store.extension store.mark page text))
  store.remember (forget page)
  log .debug logger ("Saved page '" ++ name ++ "' to " ++ shown file)

/-- Whether a page has a file. -/
def has (page : List Char) : Task World Bool :=
  inspect fun tree => tree.isFile (pageFile store.directory store.extension page)

/-- The store as one of pages. -/
def interface : PageStore World := 
  ⟨store.list, store.read, fun context text => store.save context.page.name text⟩

end FilePages

end WikiMigration.Store
