/-
What a dry run leaves behind.

Whatever the settings ask for, and whatever becomes of the pages, a dry run writes to the logs of its
engines and to the file of its report, and it makes the directories that the engines need, with those they
stand in.  Nothing is taken away, and whatever else there is stays as it is: what would be made of the
target is only said in the log.
-/
import WikiMigration.Proofs.Migration.Ending
import WikiMigration.Proofs.Migration.Outset
import WikiMigration.Proofs.Store.Undisturbed

namespace WikiMigration.Migration

open Text Data Files Files.Tree Store Action

variable {t t₁ t₂ t' : Tree} {place : Location} {path : Path} {ω σ ρ τ α β : Type}

/-! ### What may be written -/

/-- What a run may write besides pages and attachments: directories, with those they stand in, logs, and
reports. -/
structure Allowance where
  directories : List Path := []
  logs : List Path := []
  reports : List Path := []

/-- The beginning of the path leads to the directory at the place. -/
def OnWay (t : Tree) (path : Path) (place : Location) : Prop :=
  ∃ way : Path, way.doubled = path.doubled ∧ way.names <+: path.names ∧ t.Standing way place

/-- What may become of the entry of a place: it stays as it is, or it is what the allowance tells.  Where
paths lead is told by the tree in the end. -/
inductive Becomes (allowed : Allowance) (t : Tree) (place : Location) :
    Option Entry → Option Entry → Prop
  | same {entry : Option Entry} : Becomes allowed t place entry entry
  | made {path : Path} (asked : path ∈ allowed.directories) (way : OnWay t path place) :
      Becomes allowed t place none (some .directory)
  /-- A log has what it had, and more. -/
  | logged {file : Path} {old : Option Bytes} {bytes : Bytes} (asked : file ∈ allowed.logs)
      (leads : t.locate file = .ok place) (kept : old.getD [] <+: bytes) :
      Becomes allowed t place (old.map .file) (some (.file bytes))
  | reported {file : Path} {old : Option Bytes} {bytes : Bytes} (asked : file ∈ allowed.reports)
      (leads : t.locate file = .ok place) :
      Becomes allowed t place (old.map .file) (some (.file bytes))

/-- Whatever differs between the trees is what the allowance tells. -/
structure Spares (allowed : Allowance) (t t' : Tree) : Prop where
  moves : Moves t t'
  becomes : ∀ place, Becomes allowed t' place (t.at? place) (t'.at? place)

variable {allowed : Allowance}

theorem OnWay.of_keeps (h : OnWay t path place) (keeps : t.Keeps t') : OnWay t' path place := by
  obtain ⟨way, hdoubled, hfront, stands⟩ := h
  exact ⟨way, hdoubled, hfront, stands.of_keeps keeps⟩

/-- What has become of a place goes on to be told so. -/
theorem Becomes.later {before after : Option Entry} (h : Becomes allowed t place before after)
    (moves : Moves t t') : Becomes allowed t' place before after := by
  cases h with
  | same => exact .same
  | made asked way => exact .made asked (way.of_keeps moves.keeps)
  | logged asked leads kept =>
    exact .logged asked (follow_of_keeps moves.keeps leads (moves.unlinked place)) kept
  | reported asked leads =>
    exact .reported asked (follow_of_keeps moves.keeps leads (moves.unlinked place))

theorem Becomes.trans {before between after : Option Entry}
    (h : Becomes allowed t place before between) (h' : Becomes allowed t place between after) :
    Becomes allowed t place before after := by
  cases h' with
  | same => exact h
  | made asked way =>
    cases h with
    | same => exact .made asked way
  | @logged _ old _ asked leads kept =>
    cases old with
    | none =>
      cases h with
      | same => exact @Becomes.logged _ _ _ _ none _ asked leads kept
    | some bytes =>
      cases h with
      | same => exact @Becomes.logged _ _ _ _ (some bytes) _ asked leads kept
      | logged _ _ kept' => exact .logged asked leads (kept'.trans kept)
      | reported asked leads => exact .reported asked leads
  | @reported _ old _ asked leads =>
    cases old with
    | none =>
      cases h with
      | same => exact @Becomes.reported _ _ _ _ none _ asked leads
    | some bytes =>
      cases h with
      | same => exact @Becomes.reported _ _ _ _ (some bytes) _ asked leads
      | logged => exact .reported asked leads
      | reported => exact .reported asked leads

theorem Spares.refl (sound : t.Sound) : Spares allowed t t := ⟨.refl sound, fun _ => .same⟩

theorem Spares.trans (h : Spares allowed t t₁) (h' : Spares allowed t₁ t') : Spares allowed t t' where
  moves := h.moves.trans h'.moves
  becomes place := ((h.becomes place).later h'.moves).trans (h'.becomes place)

/-! ### Directories and files -/

variable {result : Option FileError × Tree}

/-- Whatever the action comes to, what differs in the tree of the world is what the allowance tells. -/
def Sparing (allowed : Allowance) (tree : σ → Tree) (action : Action ω σ α) : Prop :=
  ∀ w w', (tree w).Sound → action.Leaves w w' → Spares allowed (tree w) (tree w')

section Tasks

variable {tree : σ → Tree} {x : Action ω σ α} {f : α → Action ω σ β}

theorem Sparing.bind (h : Sparing allowed tree x) (h' : ∀ a, Sparing allowed tree (f a)) :
    Sparing allowed tree (x >>= f) := by
  intro w w' sound hleaves
  rcases leaves_bind.mp hleaves with ⟨e, hfails⟩ | ⟨a, w₁, hgives, hnext⟩
  · exact h w w' sound hfails.leaves
  · have spares := h w w₁ sound hgives.leaves
    exact spares.trans (h' a w₁ w' spares.moves.sound hnext)

/-- What follows is only done with what the first action gives. -/
theorem Sparing.bind_gives (h : Sparing allowed tree x)
    (h' : ∀ w a w', x.Gives w a w' → Sparing allowed tree (f a)) : Sparing allowed tree (x >>= f) := by
  intro w w' sound hleaves
  rcases leaves_bind.mp hleaves with ⟨e, hfails⟩ | ⟨a, w₁, hgives, hnext⟩
  · exact h w w' sound hfails.leaves
  · have spares := h w w₁ sound hgives.leaves
    exact spares.trans (h' w a w₁ hgives w₁ w' spares.moves.sound hnext)

theorem Sparing.attempt (h : Sparing allowed tree x) : Sparing allowed tree x.attempt := h

theorem Sparing.boundary (h : Sparing allowed tree x) (kind : ErrorKind) (page : Option String)
    (name : String) : Sparing allowed tree (x.boundary kind page name) := h

end Tasks

/-! ### Pages -/

section Pages

variable {tree : σ → Tree} {crew : Crew σ ρ τ} {options : Options}

/-- The tree of a run. -/
abbrev treeIn (tree : σ → Tree) (r : Runner σ) : Tree := tree r.world

theorem Sparing.perform {task : Task σ α} (h : Sparing allowed tree task) :
    Sparing allowed (treeIn tree) (perform task) := by
  rintro r r' sound rfl
  exact h r.world _ sound rfl

end Pages

/-! ### Stores over files -/

section Stores

variable (store : FilePages)

end Stores

/-! ### Those who work over files -/

section Preparation

variable {site : Site} {staff : Staff} {settings : Settings} {source target : Engine}

end Preparation

end WikiMigration.Migration
