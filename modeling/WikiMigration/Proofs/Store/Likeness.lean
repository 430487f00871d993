/-
What stores see of a directory that has not changed.

Whatever happens elsewhere, and as long as the path still leads to the directory, its store reads the same
texts, lists the same pages and the same attachments, and what it remembers is still right.
-/
import Mathlib.Data.List.Forall2
import WikiMigration.Proofs.Files.Sight
import WikiMigration.Proofs.Store.Remembered
import WikiMigration.Proofs.Store.PageList
import WikiMigration.Proofs.Store.Separation

namespace WikiMigration.Files.Tree.Alike

open Text Files Files.Tree Store

variable {t t' : Tree} {directory : Path} {place : Location} {page text : List Char}
variable {extension : String} {names : List Name}

theorem symm (h : Alike t t' directory place) : Alike t' t directory place :=
  ⟨h.sound', h.sound, h.stands', h.stands, h.free', fun names => (h.same names).symm⟩

/-! ### Texts and pages -/

theorem versionAt_eq (h : Alike t t' directory place) (page : List Char) :
    versionAt t place page = versionAt t' place page := by
  rw [versionAt, versionAt, versionsAt, versionsAt, archivePlace, h.names_eq]

theorem reads (h : Alike t t' directory place) {dialect : Dialect} (hpage : page ≠ []) {version : Int}
    (hreads : ReadsFrom t directory dialect.fileExtension page version text) :
    ReadsFrom t' directory dialect.fileExtension page version text := by
  obtain ⟨bytes, hat, htext⟩ := (readsFrom_iff hpage h.sound h.stands.toLeads h.free).mp hreads
  refine (readsFrom_iff hpage h.sound' h.stands'.toLeads h.free').mpr ⟨bytes, ?_, htext⟩
  rw [← hat, versionPlace, versionPlace, h.versionAt_eq]
  split
  · exact (h.same _).symm
  · rw [archivePlace, List.append_assoc]
    exact (h.same _).symm

theorem lists (h : Alike t t' directory place) {pages : List PageVersion}
    (hlists : listPages t directory extension = .ok pages) :
    listPages t' directory extension = .ok pages := by
  obtain ⟨-, hversions, rfl⟩ := (listPages_at h.sound h.stands.toLeads h.free).mp hlists
  have hnames : pageNames t' place extension = pageNames t place extension := by
    have hsame := h.names_eq []
    rw [List.append_nil] at hsame
    rw [pageNames, pageNames, hsame]
  have hlisted : listedAt t' place extension = listedAt t place extension := by
    funext file
    rw [listedAt, listedAt, h.same, h.versionAt_eq]
  refine (listPages_at h.sound' h.stands'.toLeads h.free').mpr ⟨h.stands', ?_, by rw [hnames, hlisted]⟩
  intro file hfile held hat
  rw [hnames] at hfile
  rw [← h.same] at hat
  have hversion := hversions file hfile held hat
  rw [HasVersion, h.same] at hversion
  exact hversion

/-! ### Attachments -/

theorem latestIn_eq (h : Alike t t' directory place) (plain : ∀ n ∈ names, Name.IsPlain n) :
    latestIn t (directory.into names) = latestIn t' (directory.into names) := by
  simp only [latestIn, versionsIn, h.isDirectory_eq plain, h.list_eq plain]

theorem attachmentEntry_eq (h : Alike t t' directory place) (page : List Char) {name : Name}
    (hname : Name.IsPlain name) :
    attachmentEntry t directory page name = attachmentEntry t' directory page name := by
  have hpage : Name.IsPlain (mangle page ++ attachmentsSuffix) := isPlain_append (by decide)
  have hversions : (attachments directory page).child name =
      directory.into [mangle page ++ attachmentsSuffix, name] := by
    rw [attachments, Path.child_eq_into directory, Path.into_child]
    rfl
  have plain : ∀ n ∈ [mangle page ++ attachmentsSuffix, name], Name.IsPlain n := by
    simp [hpage, hname]
  have hsize : ∀ (file : List Char) (version : Nat),
      storedSize t ((directory.into [mangle page ++ attachmentsSuffix, name]).child
          (versionName file version)) =
        storedSize t' ((directory.into [mangle page ++ attachmentsSuffix, name]).child
          (versionName file version)) := by
    intro file version
    have plain' : ∀ n ∈ [mangle page ++ attachmentsSuffix, name] ++ [versionName file version],
        Name.IsPlain n := by
      simpa [hpage, hname] using isPlain_versionName file version
    rw [Path.into_child, storedSize, storedSize, h.isThere_eq plain', h.size_eq plain']
  simp only [attachmentEntry, latestEntry, hversions, h.isDirectory_eq plain, h.latestIn_eq plain,
    hsize]

theorem listAttachments (h : Alike t t' directory place) {found : List Attachment}
    (hlists : listAttachments t directory page = .ok found) :
    Store.listAttachments t' directory page = .ok found := by
  have plain : ∀ n ∈ [mangle page ++ attachmentsSuffix], Name.IsPlain n := by
    simpa using isPlain_append (by decide)
  have hall : attachments directory page = directory.into [mangle page ++ attachmentsSuffix] :=
    Path.child_eq_into ..
  rcases listAttachments_eq_ok.mp hlists with ⟨hdir, rfl⟩ | ⟨spot, entries, stands, hentries, rfl⟩
  · refine listAttachments_eq_ok.mpr (Or.inl ⟨?_, rfl⟩)
    rw [hall] at hdir ⊢
    rw [← h.isDirectory_eq plain, hdir]
  rw [hall] at stands
  obtain rfl := h.stands.eq_into h.sound (h.free.clear _) plain stands
  have stands' := h.stands'.into h.sound' (h.free'.clear _) plain
    ((h.same _).symm.trans stands.directory)
  rw [← hall] at stands'
  refine listAttachments_eq_ok.mpr (Or.inr ⟨_, entries, stands', ?_, rfl⟩)
  rw [← h.names_eq]
  have hplain : ∀ name ∈ (t.names (place ++ [mangle page ++ attachmentsSuffix])).filter
      fun name => endsWith fileSuffix name, Name.IsPlain name := by
    intro name hname
    obtain ⟨entry, hat⟩ := mem_names.mp (List.mem_of_mem_filter hname)
    exact (h.sound.named _ _ _ hat).plain
  refine ((List.forall₂_and_left _ _).mpr ⟨hplain, hentries⟩).imp fun name more hmore => ?_
  rw [← h.attachmentEntry_eq page hmore.1]
  exact hmore.2

theorem opens (h : Alike t t' directory place) (hpage : page ≠ []) {file : List Char} {version : Nat}
    {bytes : Bytes} (hopens : Opens t directory page file version bytes) :
    Opens t' directory page file version bytes := by
  have hchild : (attachmentVersions directory page file).child (versionName file version) =
      directory.into ((Holding.attachment page file).names ++ [versionName file version]) := by
    rw [← Path.into_child, ← Holding.path_eq_into]
    rfl
  rw [opens_iff, hchild] at hopens ⊢
  rw [← h.read_eq, hopens]
  intro n hn
  rcases List.mem_append.mp hn with hn | hn
  · exact @isPlain_names (.attachment page file) hpage n hn
  · exact List.mem_singleton.mp hn ▸ isPlain_versionName file version

end WikiMigration.Files.Tree.Alike

namespace WikiMigration.Store

open Files Files.Tree

/-- What a store remembers stays right while its directory does not change. -/
theorem Agrees.alike {engine : Engine} {memory : PageCache} {t t' : Tree} {place : Location}
    (h : Agrees engine memory t) (alike : Alike t t' engine.pageDirectory place) :
    Agrees engine memory t' where
  texts page version text hpage hlookup := alike.reads hpage (h.texts page version text hpage hlookup)
  pages pages hpages := alike.lists (h.pages pages hpages)

end WikiMigration.Store
