/-
The world of the stores over files: a tree of files, what the stores remember of it, and the streams
that are open.
-/
import WikiMigration.Engine
import WikiMigration.Store.Interface
import WikiMigration.Store.Layout

namespace WikiMigration.Store

open Files

/-! ### Changes of a tree that are made step by step

Whatever is to be written is written to a file of its own first, piece by piece, and put in its place
when it is whole.  The steps may stop anywhere: a fault ends them, and the tree is what the steps
before it made of it.
-/

/-- A step. -/
inductive FileStep where
  /-- Makes a directory and those it stands in. -/
  | makeDirectories (path : Path)
  /-- Opens a file to be read. -/
  | openToRead (path : Path)
  /-- Makes a file without bytes. -/
  | create (path : Path)
  /-- Writes a piece at the end of a file. -/
  | append (path : Path) (piece : Bytes)
  /-- Puts a file in the place of another one. -/
  | replace (source target : Path)
  deriving DecidableEq, Repr

/-- A changed tree as the end of a step, and the tree as it was behind a fault. -/
def ended (before : Tree) : Result Tree → Option FileError × Tree
  | .ok tree => (none, tree)
  | .error e => (some e, before)

/-- What a step makes of a tree, and the fault that ended it. -/
def FileStep.apply (tree : Tree) : FileStep → Option FileError × Tree
  | .makeDirectories path => tree.makeDirectories path
  | .openToRead path => ended tree ((tree.read path).map fun _ => tree)
  | .create path => ended tree (tree.write path [])
  | .append path piece => ended tree (tree.append path piece)
  | .replace source target => ended tree (tree.replace source target)

/-- What steps make of a tree, up to the first fault. -/
def applySteps (tree : Tree) : List FileStep → Option FileError × Tree
  | [] => (none, tree)
  | step :: rest =>
    match step.apply tree with
    | (none, tree) => applySteps tree rest
    | (some e, tree) => (some e, tree)

/-- The size of the pieces that are written. -/
def pieceSize : Nat := 65536

/-- Some bytes in pieces; `count` bounds their number. -/
def piecesOf (count : Nat) (bytes : Bytes) : List Bytes :=
  match count with
  | 0 => []
  | count + 1 =>
    if bytes.isEmpty then [] else bytes.take pieceSize :: piecesOf count (bytes.drop pieceSize)

/-- The steps that write bytes at the end of a file. -/
def filling (path : Path) (bytes : Bytes) : List FileStep :=
  (piecesOf (bytes.length / pieceSize + 1) bytes).map (.append path)

/-- The steps that write bytes to a file of their own. -/
def writing (path : Path) (bytes : Bytes) : List FileStep := .create path :: filling path bytes

/-- The tree without a file that is of no more use. -/
def discard (tree : Tree) (path : Path) : Tree :=
  match tree.remove path with
  | .ok tree => tree
  | .error _ => tree

/-! ### What the stores remember -/

/-- What a store of pages remembers: texts of versions, and the list of the pages. -/
structure PageCache where
  texts : List ((List Char × Int) × List Char) := []
  pages : Option (List PageVersion) := none
  deriving DecidableEq, Repr

/-- A tree of files with what the stores know. -/
structure World where
  tree : Tree
  /-- What the store of each engine remembers. -/
  caches : List (Engine × PageCache) := []
  /-- What is left to read in each stream; nothing in a closed one. -/
  streams : List (Option Bytes) := []
  deriving Repr

namespace World

/-- What the store of an engine remembers. -/
def cache (world : World) (engine : Engine) : PageCache :=
  (world.caches.lookup engine).getD {}

/-- The world in which the store of an engine remembers that. -/
def setCache (engine : Engine) (cache : PageCache) (world : World) : World :=
  { world with caches := (engine, cache) :: world.caches.filter fun c => c.1 != engine }

/-- The world with another tree. -/
def setTree (tree : Tree) (world : World) : World := { world with tree }

end World

/-- What a function of the tree gives. -/
def inspect {α : Type} (look : Tree → Result α) : Task World α := fun world =>
  ⟨(look world.tree).mapError FileError.failure, world, []⟩

/-- A record of the log. -/
def log (level : Log.Level) (logger message : String) : Task World Unit :=
  .emit { level, logger := Log.loggerName logger, message }

/-- The action whose failures of the system become classified ones. -/
def classified {α : Type} (kind : ErrorKind) (page : Option (List Char))
    (message : String → String) (action : Task World α) : Task World α :=
  action.mapFailure fun failure =>
    match failure with
    | .system _ text => .classified ⟨kind, message text, page.map String.ofList⟩
    | failure => failure

/-- Makes the steps; a file that they stage is gone after a fault. -/
def makeSteps (staged : Option Path) (steps : List FileStep) : Task World Unit := fun world =>
  match applySteps world.tree steps with
  | (none, tree) => ⟨.ok (), world.setTree tree, []⟩
  | (some e, tree) =>
    ⟨.error e.failure, world.setTree ((staged.map (discard tree)).getD tree), []⟩

end WikiMigration.Store
