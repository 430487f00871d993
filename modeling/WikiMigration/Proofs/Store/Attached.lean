/-
The versions of an attachment, place by place.

Where no links stand in the directory of the pages, what a store opens as a version of an attachment is
told by the places in the directory of its versions, and so is the latest version.  Storing a version
touches one name in one such directory.  The listing looks at the latest version of every attachment of
the page: all are listed, or the name of a latest version is too long to be looked up and there is no
list at all.
-/
import WikiMigration.Proofs.Store.Canonical
import WikiMigration.Proofs.Store.Deposit

namespace WikiMigration.Store

open Text Files Files.Tree

variable {t t' : Tree} {directory : Path} {place : Location} {page file other name : List Char}
variable {bytes held : Bytes}

/-! ### Versions -/

theorem isPlain_numbered (file : List Char) (version : Int) :
    Name.IsPlain (versionName file version) := by
  cases version with
  | ofNat version => exact isPlain_versionName file version
  | negSucc version =>
    have htext : (toString (Int.negSucc version)).toList = '-' :: (version + 1).repr.toList := by
      rw [Int.toString_eq_repr, Int.repr_eq_if, if_neg (by omega), String.toList_append]
      simp
    rw [versionName, htext]
    constructor <;> simp

theorem versionName_inj {version number : Nat} :
    versionName file version = versionName file number ↔ version = number := by
  constructor
  · intro h
    have hversion := versionOf?_versionName file version
    rw [h, versionOf?_versionName] at hversion
    exact (Option.some.inj hversion).symm
  · rintro rfl
    rfl

theorem attachmentVersions_eq_into (directory : Path) (page file : List Char) :
    attachmentVersions directory page file = directory.into (Holding.attachment page file).names :=
  Holding.path_eq_into directory (.attachment page file)

theorem versionsPlace_inj {page' file' : List Char} :
    versionsPlace place page file = versionsPlace place page' file' ↔ page = page' ∧ file = file' := by
  rw [List.append_cancel_left_eq, Holding.names, Holding.names, List.cons.injEq, List.cons.injEq,
    Holding.attachmentsName_inj, Holding.fileName_inj]
  simp

/-- Something that stands within the directory of the pages shows that this is there. -/
theorem standing_of_within {names : List Name} {entry : Entry} (sound : t.Sound)
    (leads : t.Leads directory place) (hnames : names ≠ []) (hat : t.at? (place ++ names) = some entry) :
    t.Standing directory place :=
  leads.standing sound (sound.directory_of_behind hnames hat)

theorem standing_versions (sound : t.Sound) (leads : t.Leads directory place) (free : t.LinkFree place)
    (hdir : t.at? (versionsPlace place page file) = some .directory) :
    t.Standing (attachmentVersions directory page file) (versionsPlace place page file) := by
  rw [attachmentVersions_eq_into]
  exact (standing_of_within sound leads (Holding.names_ne_nil _) hdir).into sound (free.clear _)
    isPlain_attachment hdir

theorem latestIn_eq_max (sound : t.Sound) (leads : t.Leads directory place) (free : t.LinkFree place)
    {latest : Option Nat} (h : latestIn t (attachmentVersions directory page file) = .ok latest) :
    latest = (versionsAt t (versionsPlace place page file)).max? := by
  rw [latestIn, attachmentVersions_eq_into] at h
  cases hversions : versionsIn t (directory.into (Holding.attachment page file).names) with
  | error e => simp [hversions, Except.map] at h
  | ok versions =>
    rw [hversions] at h
    rw [← Except.ok.inj h, versionsIn_within sound leads free (Holding.names_ne_nil _)
      isPlain_attachment hversions]

theorem latestIn_of_directory (sound : t.Sound) (leads : t.Leads directory place)
    (free : t.LinkFree place) (hdir : t.at? (versionsPlace place page file) = some .directory) :
    latestIn t (attachmentVersions directory page file) =
      .ok (versionsAt t (versionsPlace place page file)).max? := by
  rw [latestIn, versionsIn_of_standing (standing_versions sound leads free hdir)]
  rfl

/-- **The latest version** is the greatest number in the directory of the versions. -/
theorem latestIn_eq_some (sound : t.Sound) (leads : t.Leads directory place) (free : t.LinkFree place)
    {version : Nat} : latestIn t (attachmentVersions directory page file) = .ok (some version) ↔
      (versionsAt t (versionsPlace place page file)).max? = some version := by
  constructor
  · exact fun h => (latestIn_eq_max sound leads free h).symm
  · intro h
    obtain ⟨name, entry, hat, -⟩ := mem_versionsAt.mp (List.max?_eq_some_iff.mp h).1
    rw [latestIn_of_directory sound leads free (sound.housed _ _ _ hat), h]

/-! ### What is opened -/

/-- The number that is opened as the latest one. -/
def latestAt (t : Tree) (place : Location) (page file : List Char) : Nat :=
  max 1 ((versionsAt t (versionsPlace place page file)).max?.getD 0)

/-- The place of a version of an attachment. -/
def attachedPlace (t : Tree) (place : Location) (page file : List Char) (version : Int) : Location :=
  versionsPlace place page file ++
    [versionName file (if version = latestVersion then latestAt t place page file else version)]

theorem attachmentFile_latest (t : Tree) (directory : Path) (page file : List Char) :
    attachmentFile t directory page file latestVersion =
      (latestIn t (attachmentVersions directory page file)).map fun latest =>
        (attachmentVersions directory page file).child (versionName file (max 1 (latest.getD 0) : Nat)) := by
  rw [attachmentFile, if_pos (beq_self_eq_true _)]
  cases latestIn t (attachmentVersions directory page file) with
  | error e => rfl
  | ok latest =>
    cases latest with
    | none => rfl
    | some version =>
      cases version with
      | zero => rfl
      | succ version =>
        have hmax : max 1 (version + 1) = version + 1 := Nat.max_eq_right (by omega)
        simp [bind, Except.bind, Except.map, pure, Except.pure, hmax]

/-- **What is opened as a version is what stands at its place.** -/
theorem opens_iff_at (sound : t.Sound) (leads : t.Leads directory place) (free : t.LinkFree place)
    {version : Int} : Opens t directory page file version bytes ↔
      t.at? (attachedPlace t place page file version) = some (.file bytes) := by
  have hread : ∀ version : Int, t.read ((attachmentVersions directory page file).child
      (versionName file version)) = .ok bytes ↔
      t.at? (versionsPlace place page file ++ [versionName file version]) = some (.file bytes) := by
    intro version
    rw [attachmentVersions_eq_into, Path.into_child, List.append_assoc]
    refine read_into_iff sound leads free (by simp) fun n hn => ?_
    rcases List.mem_append.mp hn with hn | hn
    · exact isPlain_attachment n hn
    · exact List.mem_singleton.mp hn ▸ isPlain_numbered file version
  rw [attachedPlace]
  by_cases hversion : version = latestVersion
  · subst hversion
    rw [if_pos rfl, Opens, attachmentFile_latest]
    constructor
    · rintro ⟨path, hpath, hbytes⟩
      cases hlatest : latestIn t (attachmentVersions directory page file) with
      | error e => simp [hlatest, Except.map] at hpath
      | ok latest =>
        rw [hlatest] at hpath
        obtain rfl := Except.ok.inj hpath
        rw [latestIn_eq_max sound leads free hlatest] at hbytes
        exact (hread _).mp hbytes
    · intro hat
      rw [latestIn_of_directory sound leads free (sound.housed _ _ _ hat)]
      exact ⟨_, rfl, (hread _).mpr hat⟩
  · rw [if_neg hversion, ← hread, Opens, attachmentFile, if_neg (by simpa using hversion)]
    simp [pure, Except.pure]

/-! ### What storing leaves alone -/

namespace Deposited

theorem kept (h : Deposited t place file bytes t') {spot : Location} {entry : Entry}
    (hat : t.at? spot = some entry) : t'.at? spot = some entry := by
  by_cases hspot : spot = place ++ [versionName file (after (versionsAt t place) : Nat)]
  · rw [hspot, h.unused] at hat
    cases hat
  · rcases h.rest spot hspot with hsame | ⟨hnone, -⟩
    · exact hsame.trans hat
    · rw [hnone] at hat
      cases hat

theorem keeps (h : Deposited t place file bytes t') : t.Keeps t' := fun _ _ hat _ => h.kept hat

theorem free {spot : Location} (h : Deposited t place file bytes t') (before : t.LinkFree spot) :
    t'.LinkFree spot := by
  intro rest target hlink
  by_cases hspot : spot ++ rest = place ++ [versionName file (after (versionsAt t place) : Nat)]
  · rw [hspot, h.written] at hlink
    cases hlink
  · rcases h.rest _ hspot with hsame | ⟨-, hdir, -⟩
    · exact before rest target (hsame ▸ hlink)
    · rw [hdir] at hlink
      cases hlink

variable {page' file' : List Char}

/-- Nothing but the new version is new in a directory of versions. -/
theorem at?_versions (h : Deposited t (versionsPlace place page file) file bytes t')
    (hne : versionsPlace place page' file' ++ [name] ≠ versionsPlace place page file ++
      [versionName file (after (versionsAt t (versionsPlace place page file)) : Nat)]) :
    t'.at? (versionsPlace place page' file' ++ [name]) =
      t.at? (versionsPlace place page' file' ++ [name]) := by
  refine (h.rest _ hne).resolve_right fun hnew => ?_
  have hlength := hnew.2.2.length_le
  simp [Holding.names] at hlength

theorem at?_other (h : Deposited t (versionsPlace place page file) file bytes t')
    (hne : ¬ (page' = page ∧ file' = file)) (name : Name) :
    t'.at? (versionsPlace place page' file' ++ [name]) =
      t.at? (versionsPlace place page' file' ++ [name]) :=
  h.at?_versions fun heq => hne (versionsPlace_inj.mp (List.append_inj' heq rfl).1)

theorem max?_other (h : Deposited t (versionsPlace place page file) file bytes t')
    (hne : ¬ (page' = page ∧ file' = file)) :
    (versionsAt t' (versionsPlace place page' file')).max? =
      (versionsAt t (versionsPlace place page' file')).max? :=
  max?_congr (mem_versionsAt_congr fun name _ _ => by rw [h.at?_other hne])

/-- **Other attachments are left alone.** -/
theorem attached_other (h : Deposited t (versionsPlace place page file) file bytes t')
    (hne : ¬ (page' = page ∧ file' = file)) (version : Int) :
    t'.at? (attachedPlace t' place page' file' version) =
      t.at? (attachedPlace t place page' file' version) := by
  rw [attachedPlace, attachedPlace, latestAt, latestAt, h.max?_other hne, h.at?_other hne]

/-- **Other versions are left alone.** -/
theorem attached_earlier (h : Deposited t (versionsPlace place page file) file bytes t') {version : Nat}
    (hne : version ≠ after (versionsAt t (versionsPlace place page file))) :
    t'.at? (attachedPlace t' place page file version) =
      t.at? (attachedPlace t place page file version) := by
  have hnot : ¬ (version : Int) = latestVersion := by
    rw [latestVersion]
    omega
  rw [attachedPlace, attachedPlace, if_neg hnot, if_neg hnot]
  refine h.at?_versions fun heq => hne ?_
  exact versionName_inj.mp (List.singleton_inj.mp (List.append_cancel_left heq))

theorem attached_new (h : Deposited t (versionsPlace place page file) file bytes t') :
    t'.at? (attachedPlace t' place page file
      (after (versionsAt t (versionsPlace place page file)) : Nat)) = some (.file bytes) := by
  rw [attachedPlace, if_neg (by rw [latestVersion]; omega)]
  exact h.written

/-- What was stored last is what is opened as the latest version. -/
theorem attached_latest (h : Deposited t (versionsPlace place page file) file bytes t') :
    t'.at? (attachedPlace t' place page file latestVersion) = some (.file bytes) := by
  rw [attachedPlace, if_pos rfl, latestAt, h.max?_eq, Option.getD_some,
    Nat.max_eq_right (by rw [after]; omega)]
  exact h.written

end Deposited

/-! ### What is listed -/

theorem OwnAttachments.deposited (h : OwnAttachments t place)
    (deposited : Deposited t (versionsPlace place page file) file bytes t') : OwnAttachments t' place := by
  intro other name hdir hends
  by_cases hnew : place ++ [mangle other ++ attachmentsSuffix, name] = versionsPlace place page file ++
      [versionName file (after (versionsAt t (versionsPlace place page file)) : Nat)]
  · have hlength := congrArg List.length hnew
    simp [Holding.names] at hlength
  · rcases deposited.rest _ hnew with hsame | ⟨-, -, hfront⟩
    · exact h other name (hsame ▸ hdir) hends
    · have hnames := List.IsPrefix.eq_of_length ((List.prefix_append_right_inj place).mp hfront) rfl
      rw [Holding.names, List.cons.injEq, List.cons.injEq] at hnames
      exact ⟨file, hnames.2.1⟩

theorem unmangle_fileName (file : List Char) : unmangle ((mangle file ++ fileSuffix).take
    ((mangle file ++ fileSuffix).length - fileSuffix.length)) = file := by
  have hlength : (mangle file ++ fileSuffix).length - fileSuffix.length = (mangle file).length := by
    simp
  rw [hlength, List.take_left, unmangle_mangle]

theorem attachments_child (directory : Path) (page file : List Char) :
    (attachments directory page).child (mangle file ++ fileSuffix) =
      attachmentVersions directory page file := rfl

theorem exists_of_forall₂ {α β : Type} {r : α → β → Prop} {xs : List α} {ys : List β} {x : α}
    (h : List.Forall₂ r xs ys) (hx : x ∈ xs) : ∃ y ∈ ys, r x y := by
  induction h with
  | nil => cases hx
  | cons hfirst _ ih =>
    rcases List.mem_cons.mp hx with rfl | hx
    · exact ⟨_, List.mem_cons_self, hfirst⟩
    · obtain ⟨y, hy, hr⟩ := ih hx
      exact ⟨y, List.mem_cons_of_mem _ hy, hr⟩

/-- The file of a version can be looked for if its name is not too long. -/
theorem storedSize_ok_iff (sound : t.Sound) (leads : t.Leads directory place) (free : t.LinkFree place)
    (hdir : t.at? (versionsPlace place page file) = some .directory) {version : Nat} :
    (∃ size, storedSize t ((attachmentVersions directory page file).child
        (versionName file version)) = .ok size) ↔ isTooLong (versionName file version) = false := by
  have stands := standing_versions sound leads free hdir
  have hthere : (∃ size, storedSize t ((attachmentVersions directory page file).child
      (versionName file version)) = .ok size) ↔
      ∃ b, t.isThere ((attachmentVersions directory page file).child (versionName file version)) =
        .ok b := by
    rw [storedSize]
    cases t.isThere ((attachmentVersions directory page file).child (versionName file version)) <;>
      simp [bind, Except.bind, pure, Except.pure]
  rw [hthere, isThere_ok_iff, Path.child_eq_into]
  cases hlong : isTooLong (versionName file version) with
  | true =>
    have hlocate : t.locate ((attachmentVersions directory page file).into
        [versionName file version]) = .error .nameTooLong :=
      stands.follow_long (isPlain_versionName file version) hlong true []
    simp [hlocate]
  | false =>
    have hnot := stands.not_long ((free.into _).clear [versionName file version]) fun n hn =>
      List.mem_singleton.mp hn ▸ ⟨isPlain_versionName file version, hlong⟩
    simpa using hnot

theorem storedSize_of_file (sound : t.Sound) (leads : t.Leads directory place)
    (free : t.LinkFree place) {version : Nat}
    (hat : t.at? (versionsPlace place page file ++ [versionName file version]) = some (.file bytes)) :
    storedSize t ((attachmentVersions directory page file).child (versionName file version)) =
      .ok bytes.length := by
  have stands := standing_versions sound leads free (sound.housed _ _ _ hat)
  have hfind := (find_child_iff sound stands.toLeads (free.into _)
    (isPlain_versionName file version)).mpr hat
  simp [storedSize, isThere, find?, hfind, size, about, Except.map, bind, Except.bind, pure,
    Except.pure]

/-- An attachment has the directory of its versions in that of its page's attachments. -/
theorem directory_of_attachment (sound : t.Sound)
    (hdir : t.at? (versionsPlace place page file) = some .directory) :
    t.at? (attachmentsPlace place page) = some .directory := by
  refine sound.housed _ (mangle file ++ fileSuffix) .directory ?_
  rw [List.append_assoc]
  exact hdir

theorem standing_attachments (sound : t.Sound) (leads : t.Leads directory place)
    (free : t.LinkFree place) (hdir : t.at? (attachmentsPlace place page) = some .directory) :
    t.Standing (attachments directory page) (attachmentsPlace place page) := by
  refine (standing_of_within sound leads (Holding.names_ne_nil _) hdir).into sound (free.clear _)
    (fun n hn => ?_) hdir
  rw [List.mem_singleton.mp hn]
  exact isPlain_append (by decide)

/-- The names of the directories of a page's attachments. -/
def fileNames (t : Tree) (place : Location) (page : List Char) : List Name :=
  (t.names (attachmentsPlace place page)).filter fun name => endsWith fileSuffix name

theorem mem_fileNames (hdir : t.at? (versionsPlace place page file) = some .directory) :
    mangle file ++ fileSuffix ∈ fileNames t place page := by
  refine List.mem_filter.mpr ⟨mem_names.mpr ⟨.directory, ?_⟩,
    endsWith_iff.mpr (List.suffix_append _ _)⟩
  rw [List.append_assoc]
  exact hdir

theorem attachmentEntry_of_directory (sound : t.Sound) (leads : t.Leads directory place)
    (free : t.LinkFree place) (hdir : t.at? (versionsPlace place page file) = some .directory) :
    attachmentEntry t directory page (mangle file ++ fileSuffix) =
      latestEntry t (attachmentVersions directory page file) page file := by
  have stands := isDirectory_eq_true.mpr ⟨_, standing_versions sound leads free hdir⟩
  simp only [attachmentEntry, attachments_child, stands, unmangle_fileName]
  rfl

theorem latestEntry_of_some {versions : Path} {version : Nat}
    (h : latestIn t versions = .ok (some version)) : latestEntry t versions page file =
      (storedSize t (versions.child (versionName file version))).map fun size =>
        [⟨file, page, version, size⟩] := by
  rw [latestEntry, h]
  cases hsize : storedSize t (versions.child (versionName file version)) <;>
    simp [bind, Except.bind, hsize, Except.map, pure, Except.pure]

variable {found : List Attachment}

/-- Where there is a directory of a page's attachments, the list is put together of what each name in it
gives. -/
theorem listAttachments_at (sound : t.Sound) (leads : t.Leads directory place) (free : t.LinkFree place)
    (hdir : t.at? (attachmentsPlace place page) = some .directory) :
    listAttachments t directory page = .ok found ↔ ∃ entries,
      List.Forall₂ (fun name more => attachmentEntry t directory page name = .ok more)
        (fileNames t place page) entries ∧ found = entries.flatten := by
  have standsAll := standing_attachments sound leads free hdir
  rw [listAttachments_eq_ok]
  constructor
  · rintro (⟨hnone, -⟩ | ⟨other, entries, standsOther, hentries, rfl⟩)
    · rw [isDirectory_eq_true.mpr ⟨_, standsAll⟩] at hnone
      cases hnone
    · obtain rfl := standsAll.unique standsOther
      exact ⟨entries, hentries, rfl⟩
  · rintro ⟨entries, hentries, rfl⟩
    exact Or.inr ⟨_, entries, standsAll, hentries, rfl⟩

/-- The latest version of an attachment is listed with the size of its file. -/
theorem mem_listAttachments (sound : t.Sound) (leads : t.Leads directory place)
    (free : t.LinkFree place) (hlist : listAttachments t directory page = .ok found) {version : Nat}
    (hlatest : latestIn t (attachmentVersions directory page file) = .ok (some version))
    (hat : t.at? (versionsPlace place page file ++ [versionName file version]) = some (.file bytes)) :
    ⟨file, page, version, bytes.length⟩ ∈ found := by
  have hdir := sound.housed _ _ _ hat
  obtain ⟨entries, hentries, rfl⟩ :=
    (listAttachments_at sound leads free (directory_of_attachment sound hdir)).mp hlist
  obtain ⟨more, hmore, hentry⟩ := exists_of_forall₂ hentries (mem_fileNames hdir)
  rw [attachmentEntry_of_directory sound leads free hdir, latestEntry_of_some hlatest,
    storedSize_of_file sound leads free hat] at hentry
  exact List.mem_flatten.mpr ⟨more, hmore, Except.ok.inj hentry ▸ List.mem_cons_self⟩

/-- Where each element has something, the elements have a list of it. -/
theorem exists_forall₂ {α β : Type} {r : α → β → Prop} {xs : List α} (h : ∀ x ∈ xs, ∃ y, r x y) :
    ∃ ys, List.Forall₂ r xs ys := by
  induction xs with
  | nil => exact ⟨[], .nil⟩
  | cons x xs ih =>
    obtain ⟨y, hy⟩ := h x List.mem_cons_self
    obtain ⟨ys, hys⟩ := ih fun x hx => h x (List.mem_cons_of_mem _ hx)
    exact ⟨y :: ys, .cons hy hys⟩

/-- An entry can be made for what stands in the directory of a page's attachments: there is none for what is no
directory, and none for an attachment without versions. -/
theorem attachmentEntry_ok {name : Name} (sound : t.Sound) (leads : t.Leads directory place)
    (free : t.LinkFree place) (own : OwnAttachments t place)
    (hdir : t.at? (attachmentsPlace place page) = some .directory) (hname : name ∈ fileNames t place page)
    (hshort : ∀ file version, latestIn t (attachmentVersions directory page file) = .ok (some version) →
      isTooLong (versionName file version) = false) :
    ∃ more, attachmentEntry t directory page name = .ok more := by
  obtain ⟨hthere, hends⟩ := List.mem_filter.mp hname
  obtain ⟨entry, hat⟩ := mem_names.mp hthere
  by_cases hentry : entry = .directory
  · subst hentry
    rw [List.append_assoc] at hat
    obtain ⟨file, rfl⟩ := own page name hat hends
    rw [attachmentEntry_of_directory sound leads free hat]
    have hlatest := latestIn_of_directory sound leads free hat
    cases hmax : (versionsAt t (versionsPlace place page file)).max? with
    | none =>
      rw [hmax] at hlatest
      exact ⟨[], by rw [latestEntry, hlatest]; rfl⟩
    | some version =>
      rw [hmax] at hlatest
      obtain ⟨size, hsize⟩ := (storedSize_ok_iff sound leads free hat).mpr (hshort file version hlatest)
      exact ⟨_, by rw [latestEntry_of_some hlatest, hsize]; rfl⟩
  · have hnot : t.isDirectory ((attachments directory page).child name) = .ok false := by
      have hfind := (find_child_iff sound (standing_attachments sound leads free hdir).toLeads
        (free.into _) (sound.named _ _ _ hat).plain).mpr hat
      simp [isDirectory, find?, hfind, about, Except.map, hentry]
    exact ⟨[], attachmentEntry_eq_ok.mpr (Or.inl ⟨hnot, rfl⟩)⟩

/-- **Attachments can be listed** exactly if the file of each latest version can be looked for. -/
theorem listAttachments_ok_iff (sound : t.Sound) (leads : t.Leads directory place)
    (free : t.LinkFree place) (own : OwnAttachments t place)
    (hdir : t.at? (attachmentsPlace place page) = some .directory) :
    (∃ found, listAttachments t directory page = .ok found) ↔
      ∀ file version, latestIn t (attachmentVersions directory page file) = .ok (some version) →
        isTooLong (versionName file version) = false := by
  constructor
  · rintro ⟨found, hlist⟩ file version hlatest
    have hmax := (latestIn_eq_some sound leads free).mp hlatest
    obtain ⟨name, entry, hat, -⟩ := mem_versionsAt.mp (List.max?_eq_some_iff.mp hmax).1
    have hdirOwn := sound.housed _ _ _ hat
    obtain ⟨entries, hentries, -⟩ := (listAttachments_at sound leads free hdir).mp hlist
    obtain ⟨more, -, hentry⟩ := exists_of_forall₂ hentries (mem_fileNames hdirOwn)
    rw [attachmentEntry_of_directory sound leads free hdirOwn, latestEntry_of_some hlatest] at hentry
    refine (storedSize_ok_iff sound leads free hdirOwn).mp ?_
    cases hsize : storedSize t ((attachmentVersions directory page file).child
      (versionName file version)) with
    | error e => simp [hsize, Except.map] at hentry
    | ok size => exact ⟨size, rfl⟩
  · intro hshort
    have hentries : ∀ name ∈ fileNames t place page, ∃ more,
        attachmentEntry t directory page name = .ok more := fun name hname =>
      attachmentEntry_ok sound leads free own hdir hname hshort
    obtain ⟨entries, hentries⟩ := exists_forall₂ hentries
    exact ⟨_, (listAttachments_at sound leads free hdir).mpr ⟨entries, hentries, rfl⟩⟩

end WikiMigration.Store
