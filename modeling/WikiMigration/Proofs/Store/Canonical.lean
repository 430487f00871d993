/-
Directories in which everything has the name that the store gives it.

A file name that no name becomes is read back all the same, and two file names may be read back as one
name.  Where there are none of these, each page and each attachment is listed once, and what is
listed is what a reader gets under the name.
-/
import Mathlib.Data.List.Forall2
import Mathlib.Data.List.Nodup
import WikiMigration.Proofs.Store.PageList
import WikiMigration.Proofs.Store.Separation

namespace WikiMigration.Store

open Text Files Files.Tree

variable {t : Tree} {directory : Path} {home : Location} {page : List Char}

/-- The files of pages, and the directories of attachments, have names that the store gives. -/
structure Canonical (t : Tree) (home : Location) (extension : String) : Prop where
  pages : ∀ file bytes, t.at? (home ++ [file]) = some (.file bytes) →
    endsWith extension.toList file = true → ∃ page, page ≠ [] ∧ file = pageName extension page
  attachments : ∀ page name, t.at? (home ++ [mangle page ++ attachmentsSuffix, name]) =
      some .directory → endsWith fileSuffix name = true → ∃ file, name = mangle file ++ fileSuffix

/-- The directories of attachments have names that the store gives. -/
def OwnAttachments (t : Tree) (home : Location) : Prop :=
  ∀ page name, t.at? (home ++ [mangle page ++ attachmentsSuffix, name]) = some .directory →
    endsWith fileSuffix name = true → ∃ file, name = mangle file ++ fileSuffix

theorem Canonical.of_same {t' : Tree} {extension : String} (h : Canonical t home extension)
    (same : ∀ place, home <+: place → t'.at? place = t.at? place) : Canonical t' home extension where
  pages file bytes hat := h.pages file bytes ((same _ (List.prefix_append _ _)).symm.trans hat)
  attachments page name hat := h.attachments page name ((same _ (List.prefix_append _ _)).symm.trans hat)

/-- What is listed, where each name gives one entry at most and can be told from it. -/
theorem sublist_of_entries {α β : Type} {tell : β → α} {names : List α} {entries : List (List β)}
    (h : List.Forall₂ (fun name found => found = [] ∨ ∃ entry, found = [entry] ∧ tell entry = name)
      names entries) : (entries.flatten.map tell).Sublist names := by
  induction h with
  | nil => simp
  | cons hfirst _ ih =>
    rcases hfirst with rfl | ⟨entry, rfl, rfl⟩
    · simpa using ih.cons _
    · simpa using ih

/-- Pages with such names can always be listed. -/
theorem Canonical.lists {dialect : Dialect} (h : Canonical t home dialect.fileExtension) (sound : t.Sound)
    (stands : t.Standing directory home) (free : t.LinkFree home) :
    ∃ pages, listPages t directory dialect.fileExtension = .ok pages := by
  refine ⟨_, (listPages_at sound stands.toLeads free).mpr ⟨stands, fun file hfile held hat => ?_, rfl⟩⟩
  obtain ⟨page, hpage, rfl⟩ := h.pages file held hat (List.mem_filter.mp hfile).2
  rw [pageOf_pageName]
  exact Or.inr (Or.inl (canStand_mangle hpage (sound.named _ _ _ hat)).short)

/-- The place of the directory of a page's attachments. -/
abbrev attachmentsPlace (place : Location) (page : List Char) : Location :=
  place ++ (Holding.attachments page).names

/-- Where no links stand among the attachments of a page, none are in the way of one of them. -/
theorem not_link_of_attachments {way names : List Name} (free : t.LinkFree (attachmentsPlace home page))
    (hne : way ≠ []) (hway : way <+: (mangle page ++ attachmentsSuffix) :: names) (target : List Char) :
    t.at? (home ++ way) ≠ some (.link target) := by
  rcases List.prefix_cons_iff.mp hway with rfl | ⟨rest, rfl, -⟩
  · exact absurd rfl hne
  · rw [List.append_cons]
    exact free rest target

theorem clear_attachments {names : List Name} (free : t.LinkFree (attachmentsPlace home page))
    (hdir : t.at? home = some .directory) : t.Clear home ((mangle page ++ attachmentsSuffix) :: names) := by
  intro way hway target
  by_cases hne : way = []
  · subst hne
    rw [List.append_nil, hdir]
    simp
  · exact not_link_of_attachments free hne hway target

/-- What is listed as the attachments of a page, links to directories included, has names that the store
gives. -/
def ListsOwn (t : Tree) (directory : Path) (page : List Char) : Prop :=
  ∀ name, t.isDirectory ((attachments directory page).child name) = .ok true →
    endsWith fileSuffix name = true → ∃ file, name = mangle file ++ fileSuffix

/-- Without links, the directory that a name leads to is the one that has the name. -/
theorem OwnAttachments.lists (h : OwnAttachments t home) (sound : t.Sound)
    (stands : t.Standing directory home) (free : t.LinkFree (attachmentsPlace home page)) :
    ListsOwn t directory page := by
  intro name hdir hends
  obtain ⟨spot, standsOwn⟩ := isDirectory_eq_true.mp hdir
  have hpath : (Store.attachments directory page).child name =
      directory.into [mangle page ++ attachmentsSuffix, name] := by
    rw [Store.attachments, Path.child_eq_into, Path.child_eq_into, Path.into_into]
    rfl
  have plain : ∀ n ∈ [mangle page ++ attachmentsSuffix, name], Name.IsPlain n := by
    obtain ⟨front, rfl⟩ := endsWith_iff.mp hends
    intro n hn
    rcases List.mem_pair.mp hn with rfl | rfl
    all_goals exact isPlain_append (by decide)
  obtain rfl := stands.eq_into sound (clear_attachments free stands.directory) plain (hpath ▸ standsOwn)
  exact h page name standsOwn.directory hends

/-- **Each attachment is listed once**, with the latest version of those in its directory. -/
theorem ListsOwn.once {found : List Attachment} (h : ListsOwn t directory page) (sound : t.Sound)
    (hlist : listAttachments t directory page = .ok found) :
    (found.map Attachment.file).Nodup ∧ ∀ a ∈ found, a.page = page ∧
      ∃ version : Nat, a.version = version ∧
        latestIn t (attachmentVersions directory page a.file) = .ok (some version) := by
  rcases listAttachments_eq_ok.mp hlist with ⟨-, rfl⟩ | ⟨place, entries, -, hentries, rfl⟩
  · simp
  have hentry : ∀ name ∈ (t.names place).filter (fun name => endsWith fileSuffix name), ∀ more,
      attachmentEntry t directory page name = .ok more → more = [] ∨ ∃ a, more = [a] ∧
        mangle a.file ++ fileSuffix = name ∧ a.page = page ∧ ∃ version : Nat, a.version = version ∧
          latestIn t (attachmentVersions directory page a.file) = .ok (some version) := by
    intro name hname more hmore
    rcases attachmentEntry_eq_ok.mp hmore with ⟨-, rfl⟩ | ⟨hdir, ⟨-, rfl⟩ | ⟨version, size, hlatest, -, rfl⟩⟩
    · exact Or.inl rfl
    · exact Or.inl rfl
    obtain ⟨file, rfl⟩ := h name hdir (List.mem_filter.mp hname).2
    have hlength : (mangle file ++ fileSuffix).length - fileSuffix.length = (mangle file).length := by
      simp
    have hfile : unmangle ((mangle file ++ fileSuffix).take
        ((mangle file ++ fileSuffix).length - fileSuffix.length)) = file := by
      rw [hlength, List.take_left, unmangle_mangle]
    rw [hfile]
    exact Or.inr ⟨_, rfl, rfl, rfl, version, rfl, hlatest⟩
  have hall' := (List.forall₂_and_left _ _).mpr ⟨hentry, hentries⟩
  constructor
  · have hnodup := (@sublist_of_entries _ _ (fun a : Attachment => mangle a.file ++ fileSuffix) _ _
      (hall'.imp fun name more hmore => (hmore.1 more hmore.2).imp_right fun ⟨a, ha, hname, _⟩ =>
        ⟨a, ha, hname⟩)).nodup ((sound.nodup_names _).filter _)
    rw [← Function.comp_def (fun file => mangle file ++ fileSuffix) Attachment.file,
      ← List.map_map] at hnodup
    exact List.Nodup.of_map _ hnodup
  · intro a ha
    obtain ⟨name, -, more, hmore, hmem⟩ := mem_flatten_of_forall₂ hall' ha
    rcases hmore.1 more hmore.2 with rfl | ⟨a', rfl, -, hpage, hversion⟩
    · cases hmem
    · rw [List.mem_singleton.mp hmem]
      exact ⟨hpage, hversion⟩

theorem Canonical.attachments_once {extension : String} {found : List Attachment}
    (h : Canonical t home extension) (sound : t.Sound) (stands : t.Standing directory home)
    (free : t.LinkFree home) (hlist : listAttachments t directory page = .ok found) :
    (found.map Attachment.file).Nodup ∧ ∀ a ∈ found, a.page = page ∧
      ∃ version : Nat, a.version = version ∧
        latestIn t (attachmentVersions directory page a.file) = .ok (some version) :=
  (OwnAttachments.lists h.attachments sound stands (free.into _)).once sound hlist

end WikiMigration.Store
