/-
The configuration of a file.

The file is read as text, in pieces; its document must be a mapping or nothing, its references are
resolved, and it is laid over the defaults.  Without a file there are only the defaults.
-/
import WikiMigration.Config.Defaults
import WikiMigration.Config.Reference
import WikiMigration.Error
import WikiMigration.Text.Utf8
import WikiMigration.Yaml.Value

namespace WikiMigration.Config

open Text Data

/-- What there is at the path of a configuration. -/
inductive Source where
  | nothing
  | directory
  | file (bytes : List UInt8)

/-- Why a configuration cannot be loaded. -/
inductive LoadError where
  | notFound
  | isDirectory
  | undecodable (e : Utf8.DecodeError)
  | document (e : Yaml.DocumentError)
  | notMapping
  /-- A value of the document stands within itself. -/
  | endless

/-- The error as a failure; `path` is the path as it was given. -/
def LoadError.failure (path : String) : LoadError → Failure
  | .notFound => .system "FileNotFoundError" ("Configuration file not found: " ++ path)
  | .isDirectory => .system "IsADirectoryError" ("[Errno 21] Is a directory: " ++ quoted path)
  | .undecodable e => .other "UnicodeDecodeError" e.message
  | .document (.malformed e) => .other "YAMLError" (e.message path)
  | .document (.unreadable sort message) => .other sort message
  | .notMapping => .other "ValueError" "Configuration file must contain a dictionary"
  | .endless => .other "RecursionError" "maximum recursion depth exceeded"

/-- The size of the pieces in which a file is read. -/
def pieceSize : Nat := 8192

/-- The text of some bytes that are read in pieces: a character that a piece cuts is carried over to
the next one, and a fault is placed in the piece that it is found in.  `fuel` bounds the number of
pieces. -/
def readPieces (fuel : Nat) (carried bytes : List UInt8) :
    Except Utf8.DecodeError (List Char) :=
  match fuel with
  | 0 => .ok []
  | fuel + 1 =>
    if bytes.isEmpty then
      if carried.isEmpty then .ok [] else .error ⟨0, carried, .unexpectedEnd⟩
    else
      let piece := carried ++ bytes.take pieceSize
      let rest := bytes.drop pieceSize
      match Utf8.decode piece with
      | .ok text => (readPieces fuel [] rest).map (text ++ ·)
      | .error e =>
        if e.fault == .unexpectedEnd then do
          let text ← Utf8.decode (piece.take e.position)
          return text ++ (← readPieces fuel (piece.drop e.position) rest)
        else .error e

/-- The text of a file; every line end is a line feed. -/
def readText (bytes : List UInt8) : Except Utf8.DecodeError (List Char) :=
  (readPieces (bytes.length / pieceSize + 2) [] bytes).map normalizeNewlines

/-- The configuration that a document stands for. -/
def ofDocument (environment : Environment) : Value → Except LoadError Value
  | .null => .ok defaults
  | .mapping entries =>
    if Yaml.anyEntryEndless entries then .error .endless
    else .ok (overlay (some defaults) (.mapping (resolveEntries environment entries)))
  | _ => .error .notMapping

/-- The configuration of what there is at a path. -/
def load (environment : Environment) (source : Source) : Except LoadError Value := do
  match source with
  | .nothing => throw .notFound
  | .directory => throw .isDirectory
  | .file bytes =>
    let text ← (readText bytes).mapError .undecodable
    let document ← (Yaml.read text).mapError .document
    ofDocument environment document

end WikiMigration.Config
