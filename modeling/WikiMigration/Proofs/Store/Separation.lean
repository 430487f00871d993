/-
What the stores keep in the directory of the pages lies apart.

A name can be read back from its file name, which is a safe one: nothing in it leads out of the
directory, and it is not hidden there.  The endings of page files and of directories of attachments tell
them apart from one another and from the directory of the earlier versions.  So of all that the stores
keep for pages with names, nothing is the same as or lies within something else, but the attachments of a
page within the directory of its attachments.
-/
import WikiMigration.Proofs.Store.History

namespace WikiMigration.Store

open Text Files

/-! ### Safe names -/

/-- A file name that leads to a visible entry of the directory it is looked up in, and nowhere else. -/
structure IsSafe (name : Name) : Prop where
  notEmpty : name ≠ []
  noSlash : '/' ∉ name
  notHidden : ∀ rest, name ≠ '.' :: rest

/-- A safe name is neither that of the directory itself nor that of the one it stands in. -/
theorem IsSafe.isPlain {name : Name} (h : IsSafe name) : Name.IsPlain name :=
  ⟨h.notEmpty, h.notHidden _, h.notHidden _⟩

theorem noSlash_mangle (name : List Char) : '/' ∉ mangle name := by
  intro hmem
  have hencoded : '/' ∉ Url.encodeQuery name := Url.not_mem_encodeQuery (by decide) name
  rw [mangle] at hmem
  split at hmem
  next rest heq =>
    rcases List.mem_append.mp hmem with h | h
    · exact absurd h (by decide)
    · exact hencoded (heq ▸ List.mem_cons_of_mem _ h)
  next => exact hencoded hmem

theorem isSafe_mangle {name : List Char} (h : name ≠ []) : IsSafe (mangle name) :=
  ⟨mangle_ne_nil h, noSlash_mangle name, head_mangle name⟩

theorem isSafe_archiveName : IsSafe archiveName := by
  refine ⟨by decide, by decide, fun rest h => ?_⟩
  exact absurd (List.cons.inj h).1 (by decide)

/-- A name with an ending is safe, and the name in front of the ending may even be empty if the ending
does not begin with a dot. -/
theorem isSafe_mangle_append {name ending : List Char} (hslash : '/' ∉ ending) (hending : ending ≠ [])
    (h : name ≠ [] ∨ ∀ rest, ending ≠ '.' :: rest) : IsSafe (mangle name ++ ending) := by
  refine ⟨by simp [hending], ?_, fun rest heq => ?_⟩
  · simp [noSlash_mangle, hslash]
  · cases hmangled : mangle name with
    | nil =>
      rw [hmangled, List.nil_append] at heq
      rcases h with hname | hdot
      · exact mangle_ne_nil hname hmangled
      · exact hdot rest heq
    | cons c more =>
      rw [hmangled, List.cons_append] at heq
      exact head_mangle name more ((List.cons.inj heq).1 ▸ hmangled)

/-! ### What the stores keep -/

/-- What the stores keep in the directory of the pages. -/
inductive Holding where
  /-- The file of a page in a dialect. -/
  | current (dialect : Dialect) (page : List Char)
  /-- The directory of a page's earlier versions. -/
  | archive (page : List Char)
  /-- The directory of a page's attachments. -/
  | attachments (page : List Char)
  /-- The directory of an attachment's versions. -/
  | attachment (page file : List Char)
  deriving DecidableEq, Repr

namespace Holding

/-- The page that something is kept for. -/
def owner : Holding → List Char
  | .current _ page | .archive page | .attachments page | .attachment page _ => page

/-- Where something is kept. -/
def path (directory : Path) : Holding → Path
  | .current dialect page => pageFile directory dialect.fileExtension page
  | .archive page => Store.archive directory page
  | .attachments page => Store.attachments directory page
  | .attachment page file => attachmentVersions directory page file

/-- What is kept within something: itself, and an attachment within the attachments of its page. -/
inductive Holds : Holding → Holding → Prop
  | self (holding : Holding) : Holds holding holding
  | attachment (page file : List Char) : Holds (.attachments page) (.attachment page file)

/-- The names that lead to something from the directory of the pages. -/
def names : Holding → List Name
  | .current dialect page => [pageName dialect.fileExtension page]
  | .archive page => archiveNames page
  | .attachments page => [mangle page ++ attachmentsSuffix]
  | .attachment page file => [mangle page ++ attachmentsSuffix, mangle file ++ fileSuffix]

theorem path_eq_into (directory : Path) (holding : Holding) :
    holding.path directory = directory.into holding.names := by
  cases holding with
  | current => rfl
  | archive => exact archive_eq_into _ _
  | attachments => rfl
  | attachment => simp [path, names, attachmentVersions, Store.attachments, Path.into, Path.child]

theorem names_archive {page : List Char} (h : (archive page).owner ≠ []) :
    (archive page).names = [archiveName, mangle page] := archiveNames_of_ne_nil h

theorem names_ne_nil (holding : Holding) : holding.names ≠ [] := by
  cases holding with
  | archive page =>
    rw [names, archiveNames]
    split <;> simp
  | _ => simp [names]

/-- All names on the way are safe, if the page has a name. -/
theorem isSafe_of_mem_names {holding : Holding} (h : holding.owner ≠ []) {name : Name}
    (hname : name ∈ holding.names) : IsSafe name := by
  have hattachments : ∀ page, IsSafe (mangle page ++ attachmentsSuffix) := fun page =>
    isSafe_mangle_append (by decide) (by decide)
      (Or.inr fun rest h => absurd (List.cons.inj h).1 (by decide))
  cases holding with
  | current dialect page =>
    rw [List.mem_singleton.mp hname]
    refine isSafe_mangle_append ?_ (isEnding_fileExtension dialect).ne_nil (Or.inl h)
    cases dialect <;> decide
  | archive page =>
    rw [names_archive h, List.mem_cons, List.mem_singleton] at hname
    rcases hname with rfl | rfl
    · exact isSafe_archiveName
    · exact isSafe_mangle h
  | attachments page =>
    rw [List.mem_singleton.mp hname]
    exact hattachments page
  | attachment page file =>
    rw [names, List.mem_cons, List.mem_singleton] at hname
    rcases hname with rfl | rfl
    · exact hattachments page
    · exact isSafe_mangle_append (by decide) (by decide)
        (Or.inr fun rest h => absurd (List.cons.inj h).1 (by decide))

/-! ### Apart -/

theorem pageName_inj {dialect dialect' : Dialect} {page other : List Char} :
    pageName dialect.fileExtension page = pageName dialect'.fileExtension other ↔
      dialect = dialect' ∧ page = other := by
  constructor
  · intro h
    have hdialect : dialect = dialect' := by
      have hsuffix := suffix_or_suffix h
      revert hsuffix
      cases dialect <;> cases dialect' <;> decide
    subst hdialect
    exact ⟨rfl, pageName_injective h⟩
  · rintro ⟨rfl, rfl⟩
    rfl

theorem attachmentsName_inj {page other : List Char} :
    mangle page ++ attachmentsSuffix = mangle other ++ attachmentsSuffix ↔ page = other :=
  ⟨fun h => mangle_injective (List.append_cancel_right h), fun h => h ▸ rfl⟩

theorem fileName_inj {file other : List Char} :
    mangle file ++ fileSuffix = mangle other ++ fileSuffix ↔ file = other :=
  ⟨fun h => mangle_injective (List.append_cancel_right h), fun h => h ▸ rfl⟩

theorem attachmentsName_ne_archiveName (page : List Char) :
    mangle page ++ attachmentsSuffix ≠ archiveName := by
  intro h
  have hends : attachmentsSuffix <:+ archiveName := h ▸ List.suffix_append _ _
  exact absurd hends (by decide)

theorem pageName_ne_attachmentsName (dialect : Dialect) (page other : List Char) :
    pageName dialect.fileExtension page ≠ mangle other ++ attachmentsSuffix := fun h =>
  (suffix_or_suffix h).elim (isEnding_fileExtension dialect).notAttachments.1
    (isEnding_fileExtension dialect).notAttachments.2

section Prefixes

variable {dialect : Dialect} {page file : List Char} {b : Holding}

theorem eq_of_current_prefix (hb : b.owner ≠ []) (h : (current dialect page).names <+: b.names) :
    b = current dialect page := by
  cases b with
  | current dialect' other =>
    obtain ⟨rfl, rfl⟩ := pageName_inj.mp (List.cons_prefix_cons.mp h).1
    rfl
  | archive other =>
    rw [names_archive hb] at h
    exact absurd (List.cons_prefix_cons.mp h).1 (pageName_ne_archiveName _ _)
  | attachments other =>
    exact absurd (List.cons_prefix_cons.mp h).1 (pageName_ne_attachmentsName _ _ _)
  | attachment other file =>
    exact absurd (List.cons_prefix_cons.mp h).1 (pageName_ne_attachmentsName _ _ _)

theorem eq_of_archive_prefix (ha : page ≠ []) (hb : b.owner ≠ [])
    (h : (archive page).names <+: b.names) : b = archive page := by
  rw [names_archive ha] at h
  cases b with
  | current dialect other =>
    exact absurd (List.cons_prefix_cons.mp h).1.symm (pageName_ne_archiveName _ _)
  | archive other =>
    rw [names_archive hb] at h
    obtain rfl := mangle_injective (List.cons_prefix_cons.mp (List.cons_prefix_cons.mp h).2).1
    rfl
  | attachments other =>
    exact absurd (List.cons_prefix_cons.mp h).1.symm (attachmentsName_ne_archiveName _)
  | attachment other file =>
    exact absurd (List.cons_prefix_cons.mp h).1.symm (attachmentsName_ne_archiveName _)

theorem holds_of_attachments_prefix (hb : b.owner ≠ []) (h : (attachments page).names <+: b.names) :
    Holds (attachments page) b := by
  cases b with
  | current dialect other =>
    exact absurd (List.cons_prefix_cons.mp h).1.symm (pageName_ne_attachmentsName _ _ _)
  | archive other =>
    rw [names_archive hb] at h
    exact absurd (List.cons_prefix_cons.mp h).1 (attachmentsName_ne_archiveName _)
  | attachments other =>
    obtain rfl := attachmentsName_inj.mp (List.cons_prefix_cons.mp h).1
    exact .self _
  | attachment other file =>
    obtain rfl := attachmentsName_inj.mp (List.cons_prefix_cons.mp h).1
    exact .attachment _ _

theorem eq_of_attachment_prefix (hb : b.owner ≠ []) (h : (attachment page file).names <+: b.names) :
    b = attachment page file := by
  have hfront : (attachments page).names <+: b.names :=
    (List.prefix_append [mangle page ++ attachmentsSuffix] [mangle file ++ fileSuffix]).trans h
  rcases holds_of_attachments_prefix hb hfront with _ | ⟨_, file'⟩
  · have hlength := h.length_le
    simp [names] at hlength
  · obtain ⟨-, hfile⟩ := List.cons_prefix_cons.mp h
    obtain rfl := fileName_inj.mp (List.cons_prefix_cons.mp hfile).1
    rfl

end Prefixes

/-- What leads to something leads on to something else only if that is kept within it. -/
theorem names_prefix_iff {a b : Holding} (ha : a.owner ≠ []) (hb : b.owner ≠ []) :
    a.names <+: b.names ↔ Holds a b := by
  constructor
  · intro h
    cases a with
    | current dialect page => exact eq_of_current_prefix hb h ▸ .self _
    | archive page => exact eq_of_archive_prefix ha hb h ▸ .self _
    | attachments page => exact holds_of_attachments_prefix hb h
    | attachment page file => exact eq_of_attachment_prefix hb h ▸ .self _
  · rintro (_ | ⟨page, file⟩)
    · exact List.prefix_rfl
    · exact ⟨[mangle file ++ fileSuffix], rfl⟩

theorem Holds.owner_eq {a b : Holding} (h : Holds a b) : a.owner = b.owner := by
  cases h <;> rfl

theorem Holds.file_eq {page other file file' : List Char}
    (h : Holds (.attachment page file) (.attachment other file')) : file = file' := by
  cases h
  rfl

/-- What is held apart from something is not on the way to what stands in that either. -/
theorem names_apart {a b : Holding} (ha : a.owner ≠ []) (hb : b.owner ≠ []) (hab : ¬ Holds a b)
    (hba : ¬ Holds b a) (name : Name) : ¬ a.names <+: b.names ++ [name] := by
  intro hfront
  rcases List.prefix_concat_iff.mp hfront with heq | hfront
  · exact hba ((names_prefix_iff hb ha).mp (heq ▸ List.prefix_append _ _))
  · exact hab ((names_prefix_iff ha hb).mp hfront)

end Holding

theorem isPlain_names {holding : Holding} (h : holding.owner ≠ []) :
    ∀ n ∈ holding.names, Name.IsPlain n := fun _ hn => (Holding.isSafe_of_mem_names h hn).isPlain

/-- A path that leads from a directory into it by safe names. -/
def LiesIn (directory path : Path) : Prop :=
  ∃ names, names ≠ [] ∧ (∀ name ∈ names, IsSafe name) ∧ path = directory.into names

/-- **Names are kept apart.**  Every name is read back from its file name, and names of their own have
file names of their own; the file name of a name that is not empty is safe.  What the stores keep for
pages with names lies in the directory of the pages, and leads to nothing else that they keep, but the
attachments of a page to each of them; and only what is archived lies in the directory of the earlier
versions. -/
theorem names_kept_apart :
    (∀ name, unmangle (mangle name) = name) ∧ Function.Injective mangle ∧
      (∀ name, name ≠ [] → IsSafe (mangle name) ∧ Name.IsPlain (mangle name)) ∧
      ∀ directory : Path,
        (∀ a : Holding, a.owner ≠ [] → LiesIn directory (a.path directory) ∧
          ((directory.child archiveName).names <+: (a.path directory).names ↔
            a = .archive a.owner)) ∧
        ∀ a b : Holding, a.owner ≠ [] → b.owner ≠ [] →
          ((a.path directory).names <+: (b.path directory).names ↔ a.Holds b) := by
  refine ⟨unmangle_mangle, mangle_injective, fun name h => ⟨isSafe_mangle h, isPlain_mangle h⟩,
    fun directory => ⟨fun a ha => ⟨?_, ?_⟩, fun a b ha hb => ?_⟩⟩
  · exact ⟨a.names, a.names_ne_nil, fun name => Holding.isSafe_of_mem_names ha, a.path_eq_into _⟩
  · rw [a.path_eq_into, Path.child_eq_into]
    simp only [Path.into, List.prefix_append_right_inj]
    cases a with
    | current dialect page =>
      simp [Holding.names, Holding.owner, (pageName_ne_archiveName dialect page).symm]
    | archive page =>
      rw [Holding.names_archive ha]
      exact ⟨fun _ => rfl, fun _ => ⟨[mangle page], rfl⟩⟩
    | attachments page =>
      simp [Holding.names, Holding.owner, (Holding.attachmentsName_ne_archiveName page).symm]
    | attachment page file =>
      simp [Holding.names, Holding.owner, (Holding.attachmentsName_ne_archiveName page).symm]
  · rw [a.path_eq_into, b.path_eq_into]
    simp only [Path.into, List.prefix_append_right_inj]
    exact Holding.names_prefix_iff ha hb

/-- The file of a page whose name looks like that of another page's attachment, and that attachment. -/
theorem lookalike_kept_apart :
    unmangle (mangle "../b %2E+é".toList) = "../b %2E+é".toList ∧
      IsSafe (mangle "../b %2E+é".toList) ∧
      ¬ ((Holding.current .markdown "a-att/b-dir/1".toList).path Path.root).names <+:
        ((Holding.attachment "a".toList "b".toList).path Path.root).names ∧
      ((Holding.attachments "a".toList).path Path.root).names <+:
        ((Holding.attachment "a".toList "b".toList).path Path.root).names := by
  obtain ⟨hback, -, hsafe, hkept⟩ := names_kept_apart
  obtain ⟨-, hapart⟩ := hkept Path.root
  refine ⟨hback _, (hsafe _ (by decide)).1, fun h => ?_,
    (hapart _ _ (by decide) (by decide)).mpr (.attachment _ _)⟩
  cases (hapart _ _ (by decide) (by decide)).mp h

end WikiMigration.Store
