/-
What the storing of an attachment changes.

A version is stored under a number that no version has, so it is told place by place what is new: the
file of the version, and directories on the way to it.  From then on it is the latest version of the
attachment, until another one is stored or something else reaches the directory.
-/
import WikiMigration.Proofs.Store.Canonical
import WikiMigration.Proofs.Store.Reach

namespace WikiMigration.Store

open Text Files Files.Tree Action

variable {t t₁ t₂ t' : Tree} {directory : Path} {home place there : Location} {mark : Name}
variable {page file : List Char} {bytes : Bytes} {w w' : World}

/-! ### The change -/

/-- The names one further on than what is held. -/
def Holding.Within (holding : Holding) (all : List Name) : Prop := ∃ name, all = holding.names ++ [name]

/-- The place of the directory of an attachment's versions. -/
abbrev versionsPlace (place : Location) (page file : List Char) : Location :=
  place ++ (Holding.attachment page file).names

/-- What the storing of an attachment changes; the place is that of the directory of its versions. -/
structure Deposited (t : Tree) (place : Location) (file : List Char) (bytes : Bytes) (t' : Tree) :
    Prop where
  sound : t'.Sound
  directory : t'.at? place = some .directory
  unused : t.at? (place ++ [versionName file (after (versionsAt t place) : Nat)]) = none
  written : t'.at? (place ++ [versionName file (after (versionsAt t place) : Nat)]) =
    some (.file bytes)
  /-- All else stays, and only the directories on the way may be new. -/
  rest : ∀ other, other ≠ place ++ [versionName file (after (versionsAt t place) : Nat)] →
    t'.at? other = t.at? other ∨
      t.at? other = none ∧ t'.at? other = some .directory ∧ other <+: place

theorem versionName_ne_stagingName (file : List Char) (version : Nat) (mark name : Name) :
    versionName file version ≠ stagingName mark name := by
  intro h
  have hversion := versionOf?_versionName file version
  rw [h, (stagingName_unseen mark name).2.2] at hversion
  cases hversion

variable {files : FileAttachments} {attachment : Attachment} {reader : StreamReader World}

theorem versions_eq_into (files : FileAttachments) (attachment : Attachment) :
    files.versions attachment =
      files.directory.into (Holding.attachment attachment.page attachment.file).names :=
  Holding.path_eq_into files.directory (.attachment attachment.page attachment.file)

/-- The names on the way to an attachment are those that a walk goes by, even if the page has no
name. -/
theorem isPlain_attachment : ∀ n ∈ (Holding.attachment page file).names, Name.IsPlain n := by
  intro n hn
  rw [Holding.names, List.mem_cons, List.mem_singleton] at hn
  rcases hn with rfl | rfl
  all_goals exact isPlain_append (by decide)

/-- Where the directory of the versions is once it is made. -/
theorem made_versions (sound : t.Sound) (leads : t.Leads files.directory there)
    (free : t.LinkFree (attachmentsPlace there attachment.page)) :
    GrowsTo (versionsPlace there attachment.page attachment.file) t
        (t.makeDirectories (files.versions attachment)).2 ∧
      (t.makeDirectories (files.versions attachment)).2.Sound ∧
      ((t.makeDirectories (files.versions attachment)).1 = none →
        (t.makeDirectories (files.versions attachment)).2.Standing (files.versions attachment)
          (versionsPlace there attachment.page attachment.file)) := by
  have attempts := t.makeDirectories_attempts (files.versions attachment)
  have clear : ∀ way, way ≠ [] → way <+: (Holding.attachment attachment.page attachment.file).names →
      ∀ target, t.at? (there ++ way) ≠ some (.link target) :=
    fun way hne hway => not_link_of_attachments free hne hway
  obtain ⟨growsTo, hstands⟩ := leads.makeDirectories_into sound clear
    (@isPlain_attachment attachment.page attachment.file)
  rw [← versions_eq_into] at growsTo hstands
  exact ⟨growsTo, (attempts.grows sound).2, hstands⟩

/-- A version is written where the directory of the versions is once it is made, and nothing else changes
behind it. -/
structure Written (t : Tree) (path : Path) (file : List Char) (bytes : Bytes) (place : Location)
    (t₁ t' : Tree) : Prop where
  made : t.makeDirectories path = (none, t₁)
  grows : t.Grows t₁
  stands : t₁.Standing path place
  sound : t'.Sound
  at? : ∀ other, t'.at? other =
    if other = place ++ [versionName file (after (versionsAt t₁ place) : Nat)] then some (.file bytes)
    else t₁.at? other

/-- **What is stored is the version after the latest one**, whatever links there are. -/
theorem written_of_put {stored : Option Int} (sound : w.tree.Sound)
    (fresh : files.IsFresh attachment w.tree) (quiet : LeavesTree reader)
    (h : (files.put attachment reader).Gives w (stored, bytes) w') :
    ∃ place t₁, stored = some (after (versionsAt t₁ place) : Int) ∧
      Written w.tree (files.versions attachment) attachment.file bytes place t₁ w'.tree ∧
      ∃ t w₁, (reader none).Gives (w.setTree t) bytes w₁ := by
  obtain ⟨version, hstored, hnext, happly, hreads⟩ := put_reads quiet h
  obtain ⟨place, t₁, t₂, t₃, opened, filled, hnil, replaced⟩ := staged_done sound
    (isPlain_versionName _ version) (fresh version) between_nil_noCopy happly
  obtain rfl : t₂ = t₃ := (Prod.mk.inj hnil).2
  have hnumber := hnext t₁ opened.made
  rw [nextVersion_eq, versionsIn_of_standing opened.stands] at hnumber
  obtain rfl : after (versionsAt t₁ place) = version := Except.ok.inj hnumber
  refine ⟨place, t₁, hstored, ⟨opened.made, opened.grows, opened.stands, replaced.sound, fun other => ?_⟩,
    hreads⟩
  -- The staging file has come and gone.
  rw [replaced.at?]
  split
  · rfl
  next =>
    obtain ⟨t₁', opened', hplace, -, rfl⟩ := filled.through
    obtain rfl : t₁ = t₁' := (Prod.mk.inj (opened.made.symm.trans opened'.made)).2
    split
    next hstaged => rw [hstaged, opened.free]
    next hother => rw [hplace.at?_put, if_neg hother]

/-- **What is stored is told place by place**, and its version is the one after the latest. -/
theorem deposited_of_fresh {stored : Option Int} (sound : w.tree.Sound)
    (leads : w.tree.Leads files.directory there)
    (free : w.tree.LinkFree (attachmentsPlace there attachment.page))
    (fresh : files.IsFresh attachment w.tree) (quiet : LeavesTree reader)
    (h : (files.put attachment reader).Gives w (stored, bytes) w') :
    stored = some (after (versionsAt w.tree
        (versionsPlace there attachment.page attachment.file)) : Int) ∧
      Deposited w.tree (versionsPlace there attachment.page attachment.file)
        attachment.file bytes w'.tree ∧
      ∃ t w₁, (reader none).Gives (w.setTree t) bytes w₁ := by
  obtain ⟨place, t₁, hstored, written, hreads⟩ := written_of_put sound fresh quiet h
  obtain ⟨growsTo, -, hstands⟩ := @made_versions _ _ files attachment sound leads free
  rw [written.made] at growsTo hstands
  obtain rfl := (hstands rfl).unique written.stands
  -- The versions are those that were there before the directory was made.
  have hversion : after (versionsAt t₁ (versionsPlace there attachment.page attachment.file)) =
      after (versionsAt w.tree (versionsPlace there attachment.page attachment.file)) :=
    after_congr fun v => @mem_versionsAt_congr t₁ w.tree _
      (fun name _ _ => by rw [at?_of_growsTo growsTo (by simp)]) v
  have hat := written.at?
  rw [hversion] at hstored hat
  refine ⟨hstored, ⟨written.sound, ?_, at?_after (versionOf?_versionName _ _), by rw [hat, if_pos rfl],
    fun other hother => ?_⟩, hreads⟩
  · rw [hat, if_neg (by simp)]
    exact written.stands.directory
  · rw [hat, if_neg hother]
    exact growsTo other

/-- **An attachment that cannot be stored** leaves nothing but directories on the way. -/
theorem growsTo_of_put_fails {e : Failure} (sound : w.tree.Sound)
    (leads : w.tree.Leads files.directory there)
    (free : w.tree.LinkFree (attachmentsPlace there attachment.page))
    (fresh : files.IsFresh attachment w.tree) (quiet : LeavesTree reader)
    (h : (files.put attachment reader).Fails w e w') :
    GrowsTo (versionsPlace there attachment.page attachment.file) w.tree w'.tree ∧
      w'.tree.Sound := by
  obtain ⟨growsTo, sound₁, hstands⟩ :=
    @made_versions _ _ files attachment sound leads free
  rcases put_broken quiet h with ⟨fault, hmade⟩ | ⟨t₁, hmade, hbroken⟩
  · rw [hmade] at growsTo sound₁
    exact ⟨growsTo, sound₁⟩
  rw [hmade] at growsTo sound₁ hstands
  have stands₁ := hstands rfl
  rcases hbroken with ⟨fault, hnext⟩ | ⟨version, bytes, t', hbreaks, htree⟩
  · rw [nextVersion_eq, versionsIn_of_standing stands₁] at hnext
    cases hnext
  have cleaned := staged_cleaned sound (fresh version) between_nil_noCopy hmade hbreaks
  rw [← htree] at cleaned
  refine ⟨?_, cleaned.sound⟩
  obtain ⟨place, opened⟩ := opened_of_made sound (fresh version) hmade
  rw [htree]
  rcases behind_broken opened between_nil_noCopy hbreaks with rfl | ⟨part, t₂, -, filled, -, -, hnil⟩
  · rw [FileAttachments.staged, opened.discard_eq]
    exact growsTo
  · obtain rfl := hnil rfl
    exact growsTo.trans (filled.growsTo hmade filled.sound (.refl _ _))

/-- What is new on the way to the versions of an attachment, or is a version, is no concern of
anything else. -/
theorem changes_of_attachment {file : List Char} (hpage : page ≠ [])
    (apart : ¬ home <+: there ∧ ¬ there <+: home) (sound : t'.Sound)
    (places : ∀ other, t'.at? other = t.at? other ∨ t.at? other = none ∧
      (∀ target, t'.at? other ≠ some (.link target)) ∧
      (other <+: versionsPlace there page file ∨ ∃ version : Nat,
        other = versionsPlace there page file ++ [versionName file version])) :
    Changes home there mark (Holding.attachment page file).Within Nowhere t t' := by
  refine .of_confined (.of_places sound fun other => ?_) (fun other hnot => ?_) apart
    (fun names held _ _ hat => ?_) fun hfree names name => ?_
  · exact (places other).imp_right fun hnew => ⟨by simp [hnew.1], hnew.2.1⟩
  · refine (places other).resolve_right fun hnew => ?_
    rcases hnew.2.2 with hfront | ⟨version, rfl⟩
    · refine hnot _ ⟨[], rfl⟩ (hfront.trans ?_)
      rw [← List.append_assoc]
      exact List.prefix_append _ _
    · exact hnot _ ⟨versionName file version, rfl⟩ ⟨[], by rw [List.append_nil, List.append_assoc]⟩
  · rcases places (there ++ names) with hsame | ⟨hbefore, -⟩
    · exact hsame.trans hat
    · rw [hbefore] at hat
      cases hat
  · rcases places (there ++ (names ++ [stagingName mark name])) with hsame | ⟨-, -, hfront | ⟨version, hver⟩⟩
    · exact hsame.trans (hfree names name)
    · have hmem := ((List.prefix_append_right_inj there).mp hfront).subset
        (List.mem_append_right names (List.mem_singleton.mpr rfl))
      exact absurd (@Holding.isSafe_of_mem_names (.attachment page file) hpage _ hmem)
        (not_isSafe_stagingName _ _)
    · rw [List.append_assoc] at hver
      have hlast := List.append_inj_right' (List.append_cancel_left hver) rfl
      exact absurd (List.singleton_inj.mp hlast).symm (versionName_ne_stagingName _ _ _ _)

theorem Deposited.changes {file : List Char} (hpage : page ≠ [])
    (apart : ¬ home <+: there ∧ ¬ there <+: home)
    (h : Deposited t (versionsPlace there page file) file bytes t') :
    Changes home there mark (Holding.attachment page file).Within Nowhere t t' := by
  refine changes_of_attachment hpage apart h.sound fun other => ?_
  by_cases hother : other = versionsPlace there page file ++
      [versionName file (after (versionsAt t (versionsPlace there page file)) : Nat)]
  · subst hother
    exact Or.inr ⟨h.unused, by rw [h.written]; simp, Or.inr ⟨_, rfl⟩⟩
  · exact (h.rest other hother).imp_right fun hnew => ⟨hnew.1, by simp [hnew.2.1], Or.inl hnew.2.2⟩

/-- The latest version in a directory of versions has the bytes. -/
structure Latest (t : Tree) (place : Location) (file : List Char) (bytes : Bytes) : Prop where
  directory : t.at? place = some .directory
  through : ∃ version : Nat, (versionsAt t place).max? = some (version + 1) ∧
    t.at? (place ++ [versionName file (version + 1 : Nat)]) = some (.file bytes)

/-- The new version is the latest one. -/
theorem Deposited.max?_eq (h : Deposited t place file bytes t') :
    (versionsAt t' place).max? = some (after (versionsAt t place)) := by
  have hadded := versionOf?_versionName file (after (versionsAt t place))
  refine max?_of_added fun v => mem_versionsAt_of_added hadded (by simp [h.written]) ?_ v h.unused
  intro name hname _ _
  refine (h.rest _ fun hsame => hname (List.singleton_inj.mp (List.append_cancel_left hsame))).resolve_right ?_
  rintro ⟨-, -, hfront⟩
  have hlength := hfront.length_le
  rw [List.length_append, List.length_singleton] at hlength
  omega

/-- **What has been stored is the latest version.** -/
theorem Deposited.latest (h : Deposited t place file bytes t') : Latest t' place file bytes :=
  ⟨h.directory, (versionsAt t place).max?.getD 0, h.max?_eq, h.written⟩

theorem Latest.of_same (h : Latest t place file bytes)
    (same : ∀ names, t'.at? (place ++ names) = t.at? (place ++ names)) : Latest t' place file bytes := by
  obtain ⟨version, hmax, hat⟩ := h.through
  refine ⟨?_, version, ?_, (same _).trans hat⟩
  · simpa using (same []).trans (by simpa using h.directory)
  · rw [max?_congr fun v => @mem_versionsAt_congr t' t _ (fun name _ _ => by rw [same]) v]
    exact hmax

/-- The latest version of an attachment, as its store sees it, has the bytes. -/
def LatestHas (t : Tree) (directory : Path) (page file : List Char) (bytes : Bytes) : Prop :=
  ∃ version : Nat, latestIn t (attachmentVersions directory page file) = .ok (some version) ∧
    Opens t directory page file version bytes

/-- The latest version is the one that a store sees. -/
theorem Latest.has (h : Latest t (versionsPlace there page file) file bytes) (sound : t.Sound)
    (stands : t.Standing directory there) (free : t.LinkFree (attachmentsPlace there page)) :
    LatestHas t directory page file bytes := by
  have stands' : t.Standing (attachmentVersions directory page file) (versionsPlace there page file) := by
    have clear : t.Clear there (Holding.attachment page file).names := clear_attachments free stands.directory
    have hinto := stands.into sound clear isPlain_attachment h.directory
    rwa [← Holding.path_eq_into] at hinto
  obtain ⟨version, hmax, hat⟩ := h.through
  refine ⟨version + 1, ?_, opens_iff.mpr ?_⟩
  · rw [latestIn, versionsIn_of_standing stands', ← hmax]
    rfl
  · have hfree : t.LinkFree (versionsPlace there page file) := by
      have hinto := free.into [mangle file ++ fileSuffix]
      rwa [List.append_assoc] at hinto
    have hchild := (find_child_iff sound stands'.toLeads hfree
      (isPlain_versionName file (version + 1))).mpr hat
    obtain ⟨spot, hend, hfile⟩ := find_eq_ok.mp hchild
    exact read_eq_ok.mpr ⟨spot, hend, hfile⟩

/-! ### Pages apart -/

/-- The names are those of something that is kept for the page, or of something in it. -/
def Belongs (page : List Char) (names : List Name) : Prop :=
  ∃ holding rest, holding.owner = page ∧ names = Holding.names holding ++ rest

theorem Belongs.ne_nil {names : List Name} (h : Belongs page names) : names ≠ [] := by
  obtain ⟨holding, rest, -, rfl⟩ := h
  simp [holding.names_ne_nil]

/-- The names that the migration of a page makes or fills something under. -/
inductive Touches (mark : Name) (dialect : Dialect) (page : List Char) : List Name → Prop
  | saved {all : List Name} (h : SaveTouches mark dialect.fileExtension page all) :
      Touches mark dialect page all
  | attached {file : List Char} {all : List Name} (h : (Holding.attachment page file).Within all) :
      Touches mark dialect page all

/-- **One page is no concern of another.** -/
theorem Touches.apart {dialect : Dialect} {other : List Char} {names all : List Name}
    (h : Touches mark dialect other all) (hpage : page ≠ []) (hother : other ≠ []) (hne : page ≠ other)
    (hbelongs : Belongs page names) : ¬ names <+: all := by
  obtain ⟨holding, rest, rfl, rfl⟩ := hbelongs
  intro hfront
  have hfront := (List.prefix_append holding.names rest).trans hfront
  -- What is kept for one page is kept apart from what is kept for the other.
  have apart : ∀ kept : Holding, kept.owner = other → ∀ name, ¬ holding.names <+: kept.names ++ [name] := by
    rintro kept rfl name
    exact Holding.names_apart hpage hother (fun holds => hne holds.owner_eq)
      (fun holds => hne holds.owner_eq.symm) name
  cases h with
  | saved h =>
    cases h with
    | staged =>
      rcases List.prefix_cons_iff.mp hfront with hnil | ⟨left, hnames, -⟩
      · exact holding.names_ne_nil hnil
      · exact not_isSafe_stagingName _ _
          (Holding.isSafe_of_mem_names hpage (hnames ▸ List.mem_cons_self))
    | current => exact apart (.current dialect other) rfl [] (hfront.trans (List.prefix_append _ _))
    | copy version => exact apart (.archive other) rfl _ hfront
  | attached h =>
    obtain ⟨name, rfl⟩ := h
    exact apart (.attachment other _) rfl name hfront

end WikiMigration.Store
