/-
What a run can rely on from step to step, and the copying of attachments.

Whatever a step does, the source is as it was, so what the next step reads is what it would have read in the
beginning.  An attachment that is copied touches the directory of its own versions and nothing else, so what
has been copied stays while others are.
-/
import WikiMigration.Proofs.Migration.Outset
import WikiMigration.Proofs.Store.Canonical
import WikiMigration.Proofs.Store.Deposit
import WikiMigration.Proofs.Store.Likeness
import WikiMigration.Proofs.Store.Undisturbed

namespace WikiMigration.Migration

open Text Data Files Files.Tree Store Action

variable {g : Ground} {w w₁ w₂ w' : World} {t t₁ t' : Tree} {touched touched' replaced replaced' : List Name → Prop}

/-! ### From step to step -/

/-- What a run relies on from step to step. -/
structure Poised (g : Ground) (w : World) : Prop where
  footing : Footing g w.tree
  canonical : Canonical w.tree g.home g.source.dialect.fileExtension
  agrees : Agrees g.source (memory g.source w) w.tree
  /-- The pages of the target are not read, so nothing is remembered of them. -/
  forgets : memory g.target w = {}

/-- A step of a run: it changes the target in a few places, and the next one can rely on the same. -/
structure Goes (g : Ground) (touched replaced : List Name → Prop) (w w' : World) : Prop where
  changes : g.Changes touched replaced w.tree w'.tree
  poised : Poised g w'

theorem Goes.trans (h : Goes g touched replaced w w₁) (h' : Goes g touched replaced w₁ w') :
    Goes g touched replaced w w' := ⟨h.changes.trans h'.changes, h'.poised⟩

theorem Goes.mono (h : Goes g touched replaced w w') (htouched : ∀ all, touched all → touched' all)
    (hreplaced : ∀ names, replaced names → replaced' names) : Goes g touched' replaced' w w' :=
  ⟨h.changes.mono (fun all hall => ⟨all, htouched all hall, List.prefix_rfl⟩) hreplaced, h.poised⟩

/-- A step that changes nothing in the two wikis goes with any other. -/
theorem Goes.aside (h : Goes g Nowhere Nowhere w w') : Goes g touched replaced w w' :=
  h.mono (fun _ => False.elim) fun _ => False.elim

theorem Outset.alike (h : Outset g t) (changes : g.Changes touched replaced t t') :
    Alike t t' g.source.pageDirectory g.home :=
  ⟨h.sound, changes.moves.sound, h.source, h.source.of_keeps changes.moves.keeps, h.sourceFree,
    fun _ => (changes.source _ (List.prefix_append _ _)).symm⟩

namespace Poised

theorem keeping (h : Poised g w) : Keeping g.source g.home w :=
  ⟨h.footing.sound, h.footing.source.toLeads, h.footing.sourceFree, h.agrees⟩

theorem goes (h : Poised g w) (changes : g.Changes touched replaced w.tree w'.tree)
    (hsource : memory g.source w' = memory g.source w) (htarget : memory g.target w' = {}) :
    Goes g touched replaced w w' where
  changes := changes
  poised := {
    footing := h.footing.next changes
    canonical := h.canonical.of_same changes.source
    agrees := hsource ▸ h.agrees.alike (h.footing.alike changes)
    forgets := htarget }

end Poised

/-! ### The attachments of a page -/

/-- The version of an attachment that was listed has the bytes that the target's latest version has. -/
def Copied (g : Ground) (t t' : Tree) (page : List Char) (attachment : Attachment) : Prop :=
  ∃ (version : Nat) (bytes : Bytes), attachment.version = version ∧
    Opens t g.source.pageDirectory page attachment.file version bytes ∧
    Latest t' (versionsPlace g.there page attachment.file) attachment.file bytes

section Attachments

variable {hooks : List (List Char → Task World (List Char))} {renderer : Rendering.Renderer}
variable {options : Options} {page : List Char} {attachment : Attachment}

theorem leavesTree_read (stream : Nat) : LeavesTree (FileAttachments.read stream) :=
  fun size w w' h => (disk_eq_iff.mp (FileAttachments.preserves_read stream size w w' h)).1

/-- The names that the copying of attachments makes something under. -/
def TouchesAny (page : List Char) (attachments : List Attachment) (all : List Name) : Prop :=
  ∃ attachment ∈ attachments, (Holding.attachment page attachment.file).Within all

/-- What has been copied stays as long as the versions do. -/
theorem Copied.after (h : Copied g t t₁ page attachment)
    (same : ∀ names, t'.at? (versionsPlace g.there page attachment.file ++ names) =
      t₁.at? (versionsPlace g.there page attachment.file ++ names)) :
    Copied g t t' page attachment := by
  obtain ⟨version, bytes, hversion, hopens, latest⟩ := h
  exact ⟨version, bytes, hversion, hopens, latest.of_same same⟩

theorem Copied.before (hpage : page ≠ []) (alike : Alike t t₁ g.source.pageDirectory g.home)
    (h : Copied g t₁ t' page attachment) : Copied g t t' page attachment := by
  obtain ⟨version, bytes, hversion, hopens, latest⟩ := h
  exact ⟨version, bytes, hversion, alike.symm.opens hpage hopens, latest⟩

/-- The versions of an attachment are no concern of other attachments of its page. -/
theorem TouchesAny.apart {attachments : List Attachment} (hpage : page ≠ [])
    (hnew : attachment.file ∉ attachments.map Attachment.file)
    (changes : g.Changes (TouchesAny page attachments) Nowhere t t') (names : List Name) :
    t'.at? (versionsPlace g.there page attachment.file ++ names) =
      t.at? (versionsPlace g.there page attachment.file ++ names) := by
  rw [List.append_assoc]
  refine changes.target _ (by simp [Holding.names]) ?_
  rintro all ⟨other, hother, name, rfl⟩ hfront
  have hne : attachment.file ≠ other.file := fun heq => hnew (heq ▸ List.mem_map_of_mem hother)
  exact Holding.names_apart (a := .attachment page attachment.file) (b := .attachment page other.file)
    hpage hpage (fun holds => hne holds.file_eq) (fun holds => hne holds.file_eq.symm) name
    ((List.prefix_append _ _).trans hfront)

/-- So many attachments are listed for the page, and each of them has been copied. -/
def AllCopied (g : Ground) (t t' : Tree) (page : List Char) (count : Nat) : Prop :=
  ∃ found, listAttachments t g.source.pageDirectory page = .ok found ∧ found.length = count ∧
    ∀ a ∈ found, Copied g t t' page a

end Attachments

end WikiMigration.Migration
