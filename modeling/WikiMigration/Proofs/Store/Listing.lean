/-
What the stores list.

A listing goes through the names in a directory in their order and asks of each what it stands for: a
page, an attachment, or nothing.  So what is listed is told name by name, and by the names that the
store looks for alone; the name of a staging file is none of them.
-/
import Mathlib.Data.List.Forall2
import WikiMigration.Proofs.Store.Version
import WikiMigration.Proofs.Store.World
import WikiMigration.Store.Attachment
import WikiMigration.Store.Page

namespace WikiMigration.Store

open Text Files Files.Tree Action

/-! ### Going through names -/

theorem foldlM_append_eq_ok {ε α β : Type} {f : List β → α → Except ε (List β)}
    {entry : α → Except ε (List β)}
    (hf : ∀ found x, f found x = (entry x).map (found ++ ·)) {xs : List α} {found all : List β} :
    xs.foldlM f found = .ok all ↔
      ∃ entries, List.Forall₂ (fun x ys => entry x = .ok ys) xs entries ∧
        all = found ++ entries.flatten := by
  induction xs generalizing found with
  | nil => simp [pure, Except.pure, List.forall₂_nil_left_iff, eq_comm]
  | cons x xs ih =>
    rw [List.foldlM_cons, hf]
    simp only [List.forall₂_cons_left_iff]
    cases hx : entry x with
    | error e => simp [bind, Except.bind, Except.map]
    | ok ys =>
      show xs.foldlM f (found ++ ys) = .ok all ↔ _
      rw [ih]
      constructor
      · rintro ⟨entries, h, rfl⟩
        exact ⟨ys :: entries, ⟨ys, entries, rfl, h, rfl⟩, by simp⟩
      · rintro ⟨_, ⟨ys', entries, hys, h, rfl⟩, rfl⟩
        obtain rfl := Except.ok.inj hys
        exact ⟨entries, h, by simp⟩

theorem mem_flatten_of_forall₂ {α β : Type} {r : α → List β → Prop} {xs : List α}
    {entries : List (List β)} (h : List.Forall₂ r xs entries) {y : β} (hy : y ∈ entries.flatten) :
    ∃ x ∈ xs, ∃ ys, r x ys ∧ y ∈ ys := by
  induction h with
  | nil => simp at hy
  | @cons x ys xs entries hx h ih =>
    rw [List.flatten_cons, List.mem_append] at hy
    rcases hy with hy | hy
    · exact ⟨x, by simp, ys, hx, hy⟩
    · obtain ⟨x', hx', hrest⟩ := ih hy
      exact ⟨x', by simp [hx'], hrest⟩

theorem list_eq_ok {t : Tree} {path : Path} {names : List Name} :
    t.list path = .ok names ↔ ∃ place, t.Standing path place ∧ names = t.names place := by
  constructor
  · intro h
    rw [Tree.list, about_eq_ok] at h
    cases hleads : t.locate path with
    | error fault => simp [hleads, bind, Except.bind] at h
    | ok place =>
      rw [hleads] at h
      cases hat : t.at? place with
      | none => simp [hat, bind, Except.bind, throw, throwThe, MonadExceptOf.throw] at h
      | some entry =>
        cases entry with
        | directory =>
          simp only [hat, bind, Except.bind, pure, Except.pure, Except.ok.injEq] at h
          exact ⟨place, ⟨hleads, hat⟩, h.symm⟩
        | _ => simp [hat, bind, Except.bind, throw, throwThe, MonadExceptOf.throw] at h
  · rintro ⟨place, h, rfl⟩
    exact list_of_standing h

/-! ### Pages -/

/-- What a name in the directory of the pages stands for. -/
def pageEntry (t : Tree) (directory : Path) (extension : String) (file : Name) :
    Result (List PageVersion) := do
  if ← t.isFile (directory.child file) then
    let name := unmangle (file.take (file.length - extension.length))
    return [⟨name, ← currentVersion t directory name⟩]
  else return []

theorem pageEntry_eq_ok {t : Tree} {directory : Path} {extension : String} {file : Name}
    {found : List PageVersion} : pageEntry t directory extension file = .ok found ↔
      (t.isFile (directory.child file) = .ok false ∧ found = []) ∨
      t.isFile (directory.child file) = .ok true ∧ ∃ version,
        currentVersion t directory (unmangle (file.take (file.length - extension.length))) =
          .ok version ∧
        found = [⟨unmangle (file.take (file.length - extension.length)), version⟩] := by
  rw [pageEntry, bind_eq_ok]
  constructor
  · rintro ⟨isFile, hfile, h⟩
    cases isFile with
    | false => exact Or.inl ⟨hfile, (Except.ok.inj h).symm⟩
    | true =>
      obtain ⟨version, hversion, h⟩ := bind_eq_ok.mp h
      exact Or.inr ⟨hfile, version, hversion, (Except.ok.inj h).symm⟩
  · rintro (⟨hfile, rfl⟩ | ⟨hfile, version, hversion, rfl⟩)
    · exact ⟨false, hfile, rfl⟩
    · exact ⟨true, hfile, bind_eq_ok.mpr ⟨version, hversion, rfl⟩⟩

/-- What is listed for a name comes behind what is listed for the names before it. -/
theorem listed_append (t : Tree) (directory : Path) (extension : String) (found : List PageVersion)
    (file : Name) : (do
      if ← t.isFile (directory.child file) then
        let name := unmangle (file.take (file.length - extension.length))
        let version ← currentVersion t directory name
        return found ++ [⟨name, version⟩]
      else return found) = (pageEntry t directory extension file).map (found ++ ·) := by
  rw [pageEntry]
  cases t.isFile (directory.child file) with
  | error e => rfl
  | ok isFile =>
    cases isFile with
    | false => simp [bind, Except.bind, pure, Except.pure, Except.map]
    | true =>
      cases hversion : currentVersion t directory
        (unmangle (file.take (file.length - extension.length))) <;>
        simp [bind, Except.bind, pure, Except.pure, Except.map, hversion]

theorem listPages_eq_ok {t : Tree} {directory : Path} {extension : String}
    {pages : List PageVersion} : listPages t directory extension = .ok pages ↔
      ∃ place entries, t.Standing directory place ∧
        List.Forall₂ (fun file found => pageEntry t directory extension file = .ok found)
          ((t.names place).filter fun name => endsWith extension.toList name) entries ∧
        pages = entries.flatten := by
  have hfold := fun names : List Name =>
    @foldlM_append_eq_ok _ _ _ _ (pageEntry t directory extension) (listed_append t directory extension)
      names [] pages
  constructor
  · intro h
    cases hlist : t.list directory with
    | error e => simp [listPages, hlist, bind, Except.bind] at h
    | ok names =>
      obtain ⟨place, hstands, rfl⟩ := list_eq_ok.mp hlist
      simp only [listPages, hlist] at h
      obtain ⟨entries, hentries, rfl⟩ := (hfold _).mp h
      exact ⟨place, entries, hstands, hentries, rfl⟩
  · rintro ⟨place, entries, hstands, hentries, rfl⟩
    simp only [listPages, list_of_standing hstands]
    exact (hfold _).mpr ⟨entries, hentries, rfl⟩

/-! ### Attachments -/

/-- The size of the file of a version; a missing one has none. -/
def storedSize (t : Tree) (path : Path) : Result Nat := do
  return if ← t.isThere path then t.size path else 0

/-- What the store lists for the directory of an attachment. -/
def latestEntry (t : Tree) (versions : Path) (page file : List Char) : Result (List Attachment) := do
  match ← latestIn t versions with
  | none => return []
  | some version =>
    let size ← storedSize t (versions.child (versionName file version))
    return [⟨file, page, version, size⟩]

/-- What a name in the directory of a page's attachments stands for. -/
def attachmentEntry (t : Tree) (directory : Path) (page : List Char) (name : Name) :
    Result (List Attachment) := do
  let versions := (attachments directory page).child name
  if ← t.isDirectory versions then
    latestEntry t versions page (unmangle (name.take (name.length - fileSuffix.length)))
  else return []

/-- The latest versions of a page's attachments, as the tree has them. -/
def listAttachments (t : Tree) (directory : Path) (page : List Char) :
    Result (List Attachment) := do
  let all := attachments directory page
  if !(← t.isDirectory all) then return []
  else
    ((← t.list all).filter fun name => endsWith fileSuffix name).foldlM
      (fun found name => (attachmentEntry t directory page name).map (found ++ ·)) []

/-- A version of an attachment can be opened, and has the bytes. -/
def Opens (t : Tree) (directory : Path) (page file : List Char) (version : Int) (bytes : Bytes) : Prop :=
  ∃ path, attachmentFile t directory page file version = .ok path ∧ t.read path = .ok bytes

theorem opens_iff {t : Tree} {directory : Path} {page file : List Char} {version : Nat} {bytes : Bytes} :
    Opens t directory page file version bytes ↔
      t.read ((attachmentVersions directory page file).child (versionName file version)) = .ok bytes := by
  have hfile : attachmentFile t directory page file version =
      .ok ((attachmentVersions directory page file).child (versionName file version)) := by
    rw [attachmentFile, if_neg (by simp [latestVersion])]
    rfl
  simp [Opens, hfile]

theorem attachmentEntry_eq_ok {t : Tree} {directory : Path} {page : List Char} {name : Name}
    {found : List Attachment} : attachmentEntry t directory page name = .ok found ↔
      (t.isDirectory ((attachments directory page).child name) = .ok false ∧ found = []) ∨
      t.isDirectory ((attachments directory page).child name) = .ok true ∧
        (latestIn t ((attachments directory page).child name) = .ok none ∧ found = [] ∨
        ∃ version size,
          latestIn t ((attachments directory page).child name) = .ok (some version) ∧
          storedSize t (((attachments directory page).child name).child (versionName
            (unmangle (name.take (name.length - fileSuffix.length))) version)) = .ok size ∧
          found = [⟨unmangle (name.take (name.length - fileSuffix.length)), page, version, size⟩]) := by
  rw [attachmentEntry, bind_eq_ok]
  constructor
  · rintro ⟨isDirectory, hdir, h⟩
    cases isDirectory with
    | false => exact Or.inl ⟨hdir, (Except.ok.inj h).symm⟩
    | true =>
      obtain ⟨latest, hlatest, h⟩ := bind_eq_ok.mp h
      cases latest with
      | none => exact Or.inr ⟨hdir, Or.inl ⟨hlatest, (Except.ok.inj h).symm⟩⟩
      | some version =>
        obtain ⟨size, hsize, h⟩ := bind_eq_ok.mp h
        exact Or.inr ⟨hdir, Or.inr ⟨version, size, hlatest, hsize, (Except.ok.inj h).symm⟩⟩
  · rintro (⟨hdir, rfl⟩ | ⟨hdir, ⟨hlatest, rfl⟩ | ⟨version, size, hlatest, hsize, rfl⟩⟩)
    · exact ⟨false, hdir, rfl⟩
    · exact ⟨true, hdir, bind_eq_ok.mpr ⟨none, hlatest, rfl⟩⟩
    · exact ⟨true, hdir, bind_eq_ok.mpr ⟨some version, hlatest, bind_eq_ok.mpr ⟨size, hsize, rfl⟩⟩⟩

theorem looks_latest (store : FileAttachments) (page : List Char) (name : Name) :
    Looks (store.latest page name) fun t =>
      latestEntry t ((attachments store.directory page).child name) page
        (unmangle (name.take (name.length - fileSuffix.length))) := by
  refine (looks_inspect _).bind fun latest => ?_
  cases latest with
  | none => exact (looks_pure []).log _ _ _
  | some version => exact (looks_inspect _).bind fun size => looks_pure _

theorem looks_list (store : FileAttachments) (page : List Char) :
    Looks (store.list page) fun t => listAttachments t store.directory page := by
  refine (looks_inspect _).bind fun isDirectory => ?_
  cases isDirectory with
  | false => exact looks_pure []
  | true =>
    refine ((looks_inspect _).classified _ _ _).bind fun names => looks_foldlM ?_ _ _
    intro found name
    have hname := (looks_inspect fun t =>
      t.isDirectory ((attachments store.directory page).child name)).bind fun isDirectory =>
        show Looks (if isDirectory then do return found ++ (← store.latest page name)
          else return found) fun t => if isDirectory then do
            let more ← latestEntry t ((attachments store.directory page).child name) page
              (unmangle (name.take (name.length - fileSuffix.length)))
            .ok (found ++ more) else .ok found by
        cases isDirectory with
        | false => exact looks_pure found
        | true => exact (looks_latest store page name).bind fun more => looks_pure _
    refine hname.congr fun t => ?_
    rw [attachmentEntry]
    cases t.isDirectory ((attachments store.directory page).child name) with
    | error e => rfl
    | ok isDirectory =>
      cases isDirectory with
      | false => simp [bind, Except.bind, pure, Except.pure, Except.map]
      | true =>
        show (latestEntry t ((attachments store.directory page).child name) page
          (unmangle (name.take (name.length - fileSuffix.length)))).bind _ = _
        cases latestEntry t ((attachments store.directory page).child name) page
          (unmangle (name.take (name.length - fileSuffix.length))) <;> rfl

theorem listAttachments_eq_ok {t : Tree} {directory : Path} {page : List Char}
    {found : List Attachment} : listAttachments t directory page = .ok found ↔
      (t.isDirectory (attachments directory page) = .ok false ∧ found = []) ∨
      ∃ place entries, t.Standing (attachments directory page) place ∧
        List.Forall₂ (fun name more => attachmentEntry t directory page name = .ok more)
          ((t.names place).filter fun name => endsWith fileSuffix name) entries ∧
        found = entries.flatten := by
  rw [listAttachments]
  cases hdir : t.isDirectory (attachments directory page) with
  | error e =>
    have hnot : ¬ ∃ place, t.Standing (attachments directory page) place := by
      intro h
      rw [isDirectory_eq_true.mpr h] at hdir
      cases hdir
    simp only [bind, Except.bind, reduceCtorEq, false_and, false_or, false_iff, not_exists]
    exact fun place entries h => hnot ⟨place, h.1⟩
  | ok isDirectory =>
    cases isDirectory with
    | false =>
      have hnot : ¬ ∃ place, t.Standing (attachments directory page) place := by
        intro h
        rw [isDirectory_eq_true.mpr h] at hdir
        cases hdir
      constructor
      · intro h
        exact Or.inl ⟨rfl, (Except.ok.inj h).symm⟩
      · rintro (⟨-, rfl⟩ | ⟨place, -, h, -⟩)
        · rfl
        · exact absurd ⟨place, h⟩ hnot
    | true =>
      obtain ⟨place, hstands⟩ := isDirectory_eq_true.mp hdir
      simp only [bind, Except.bind, list_of_standing hstands, Bool.not_true, Bool.false_eq_true,
        if_false, foldlM_append_eq_ok fun _ _ => rfl, List.nil_append]
      constructor
      · rintro ⟨entries, h, rfl⟩
        exact Or.inr ⟨place, entries, hstands, h, rfl⟩
      · rintro (⟨h, -⟩ | ⟨place', entries, hstands', h, rfl⟩)
        · cases h
        · obtain rfl := hstands.unique hstands'
          exact ⟨entries, h, rfl⟩

/-! ### What is listed is no staging file -/

/-- Whether a name is that of a staging file. -/
def IsStaging (name : Name) : Prop := ∃ mark target, name = stagingName mark target

/-- A name that is looked for stands in the directory and is not that of a staging file. -/
structure Seen (t : Tree) (path : Path) (name : Name) : Prop where
  stands : ∃ place entry, t.Standing path place ∧ t.at? (place ++ [name]) = some entry
  notStaging : ¬ IsStaging name

theorem seen_of_endsWith {t : Tree} {path : Path} {place : Location} {name : Name}
    {ending : List Char} (hstands : t.Standing path place)
    (hunseen : ∀ mark target, endsWith ending (stagingName mark target) = false)
    (h : name ∈ (t.names place).filter fun name => endsWith ending name) : Seen t path name := by
  obtain ⟨hmem, hends⟩ := List.mem_filter.mp h
  obtain ⟨entry, hentry⟩ := mem_names.mp hmem
  refine ⟨⟨place, entry, hstands, hentry⟩, ?_⟩
  rintro ⟨mark, target, rfl⟩
  rw [hunseen mark target] at hends
  cases hends

theorem seen_of_mem_listPages {t : Tree} {directory : Path} {extension : String}
    {pages : List PageVersion} {page : PageVersion} (ending : IsEnding extension.toList)
    (h : listPages t directory extension = .ok pages) (hpage : page ∈ pages) :
    ∃ file, Seen t directory file ∧
      page.name = unmangle (file.take (file.length - extension.length)) := by
  obtain ⟨place, entries, hstands, hentries, rfl⟩ := listPages_eq_ok.mp h
  obtain ⟨file, hfile, found, hfound, hpage⟩ := mem_flatten_of_forall₂ hentries hpage
  refine ⟨file, seen_of_endsWith hstands
    (fun mark target => (stagingName_unseen mark target).1 _ ending) hfile, ?_⟩
  rcases pageEntry_eq_ok.mp hfound with ⟨-, rfl⟩ | ⟨-, version, -, rfl⟩
  · cases hpage
  · rw [List.mem_singleton.mp hpage]

theorem seen_of_mem_versionsIn {t : Tree} {path : Path} {versions : List Nat} {version : Nat}
    (h : versionsIn t path = .ok versions) (hversion : version ∈ versions) :
    ∃ file, Seen t path file ∧ versionOf? file = some version := by
  rcases versionsIn_eq_ok h with ⟨place, hstands, rfl⟩ | ⟨-, rfl⟩
  · obtain ⟨file, entry, hentry, hof⟩ := mem_versionsAt.mp hversion
    refine ⟨file, ⟨⟨place, entry, hstands, hentry⟩, ?_⟩, hof⟩
    rintro ⟨mark, target, rfl⟩
    rw [(stagingName_unseen mark target).2.2] at hof
    cases hof
  · cases hversion

theorem seen_of_mem_listAttachments {t : Tree} {directory : Path} {page : List Char}
    {found : List Attachment} {a : Attachment} (h : listAttachments t directory page = .ok found)
    (ha : a ∈ found) : ∃ name, Seen t (attachments directory page) name ∧
      a.file = unmangle (name.take (name.length - fileSuffix.length)) ∧
      ∃ version : Nat, a.version = version ∧
        latestIn t ((attachments directory page).child name) = .ok (some version) := by
  rcases listAttachments_eq_ok.mp h with ⟨-, rfl⟩ | ⟨place, entries, hstands, hentries, rfl⟩
  · cases ha
  · obtain ⟨name, hname, more, hmore, ha⟩ := mem_flatten_of_forall₂ hentries ha
    refine ⟨name, seen_of_endsWith hstands
      (fun mark target => (stagingName_unseen mark target).2.1) hname, ?_⟩
    rcases attachmentEntry_eq_ok.mp hmore with
      ⟨-, rfl⟩ | ⟨-, ⟨-, rfl⟩ | ⟨version, size, hlatest, -, rfl⟩⟩
    · cases ha
    · cases ha
    · rw [List.mem_singleton.mp ha]
      exact ⟨rfl, version, rfl, hlatest⟩

end WikiMigration.Store
