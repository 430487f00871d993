/-
What the saving of a page changes.

Where no links stand in the directory of the pages, all places can be told by their names, so the
change can be told place by place: the page's file has the new text, the text that it had stands in the
archive under the page's version, where nothing stood, and all else is as it was.
-/
import WikiMigration.Proofs.Store.Interruption

namespace WikiMigration.Store

open Text Files Files.Tree Action

/-! ### Places -/

/-- The place of the archive of a page. -/
def archivePlace (place : Location) (page : List Char) : Location := place ++ archiveNames page

/-- The version of a page, as its archive tells. -/
def versionAt (t : Tree) (place : Location) (page : List Char) : Nat :=
  after (versionsAt t (archivePlace place page))

/-- The place of an earlier version of a page. -/
def copyPlace (place : Location) (extension : String) (page : List Char) (version : Nat) :
    Location := archivePlace place page ++ [archivedName extension version]

theorem isTooLong_of_append {a b : Name} (h : isTooLong (a ++ b) = false) :
    isTooLong a = false := by
  have hlength : ¬ longestName < (Utf8.encode (a ++ b)).length := of_decide_eq_false h
  refine decide_eq_false fun hlong => hlength ?_
  rw [Utf8.encode, List.flatMap_append, List.length_append]
  exact Nat.lt_of_lt_of_le hlong (Nat.le_add_right _ _)

theorem canStand_mangle {page : List Char} {extension : String} (hpage : page ≠ [])
    (h : Name.CanStand (pageName extension page)) : Name.CanStand (mangle page) :=
  ⟨isPlain_mangle hpage, isTooLong_of_append h.short⟩

theorem archiveNames_ne_nil (page : List Char) : archiveNames page ≠ [] := by
  rw [archiveNames]
  split <;> simp

theorem canStand_archiveNames {page : List Char}
    (h : page ≠ [] → isTooLong (mangle page) = false) :
    ∀ n ∈ archiveNames page, Name.CanStand n := by
  intro n hn
  refine ⟨isPlain_archiveNames n hn, ?_⟩
  rw [archiveNames] at hn
  split at hn
  next =>
    rw [List.mem_singleton.mp hn]
    decide
  next hempty =>
    rcases List.mem_cons.mp hn with rfl | hn
    · decide
    · rw [List.mem_singleton.mp hn]
      exact h (by simpa using hempty)

variable {t t' : Tree} {directory : Path} {place : Location} {page text : List Char}

/-- The version that the store sees is the one that the archive tells. -/
theorem currentVersion_eq_versionAt (sound : t.Sound) (stands : t.Standing directory place)
    (free : t.LinkFree place) (hpage : page ≠ [] → isTooLong (mangle page) = false) :
    currentVersion t directory page = .ok (versionAt t place page) := by
  rw [currentVersion_eq, archive_eq_into,
    versionsIn_into_ok sound stands (free.clear _) (canStand_archiveNames hpage)]
  rfl

/-! ### The change -/

/-- What the saving of a page changes. -/
structure Saved (t : Tree) (directory : Path) (extension : String) (place : Location)
    (page : List Char) (bytes : Bytes) (t' : Tree) : Prop where
  sound : t'.Sound
  stands : t'.Standing directory place
  written : t'.at? (place ++ [pageName extension page]) = some (.file bytes)
  /-- What is replaced is a file. -/
  before : ∀ entry, t.at? (place ++ [pageName extension page]) = some entry →
    ∃ old, entry = .file old
  /-- The file that is replaced is copied to a place where nothing is. -/
  copied : ∀ old, t.at? (place ++ [pageName extension page]) = some (.file old) →
    t.at? (copyPlace place extension page (versionAt t place page)) = none ∧
      t'.at? (copyPlace place extension page (versionAt t place page)) = some (.file old)
  /-- All else stays, and only the directories on the way to the archive may be new. -/
  rest : ∀ other, other ≠ place ++ [pageName extension page] →
    (t.at? (place ++ [pageName extension page]) = none ∨
      other ≠ copyPlace place extension page (versionAt t place page)) →
    t'.at? other = t.at? other ∨ t.at? other = none ∧ t'.at? other = some .directory ∧
      other <+: archivePlace place page

/-- Places within a directory are none of the directories that are made on the way to it. -/
theorem at?_of_growsTo (h : GrowsTo place t t') {rest : List Name} (hrest : rest ≠ []) :
    t'.at? (place ++ rest) = t.at? (place ++ rest) := by
  rcases h (place ++ rest) with hsame | ⟨-, -, hfront⟩
  · exact hsame
  · have hlength := hfront.length_le
    rw [List.length_append] at hlength
    have hpos := List.length_pos_iff.mpr hrest
    omega

theorem LinkFree.of_grows (free : t.LinkFree place) (h : t.Grows t') : t'.LinkFree place :=
  fun rest target hat => free rest target (h.at?_of_ne_directory hat (by simp))

/-- What a name in the directory leads to is what stands there. -/
theorem find_child_iff (sound : t.Sound) (leads : t.Leads directory place)
    (free : t.LinkFree place) {name : Name} (hname : Name.IsPlain name) {entry : Entry} :
    t.find (directory.child name) = .ok entry ↔ t.at? (place ++ [name]) = some entry := by
  constructor
  · intro hfind
    obtain ⟨spot, hend, -⟩ := find_eq_ok.mp hfind
    obtain ⟨other, stands⟩ := standing_of_locate_child sound hend
    obtain rfl := leads.eq_of_standing stands
    exact (find_into sound stands (free.clear [name]) (by simpa using hname)).mp hfind
  · intro hat
    have stands := leads.standing sound (sound.housed _ _ _ hat)
    exact (find_into sound stands (free.clear [name]) (by simpa using hname)).mpr hat

theorem copyPlace_ne_child (place : Location) (extension : String) (page : List Char)
    (version : Nat) (name : Name) : copyPlace place extension page version ≠ place ++ [name] := by
  intro h
  have hlength := congrArg List.length h
  have hpos := List.length_pos_iff.mpr (archiveNames_ne_nil page)
  simp only [copyPlace, archivePlace, List.length_append, List.length_singleton] at hlength
  omega

/-- What the copying of a page leaves, if it is copied. -/
structure Copied (t t₂ : Tree) (extension : String) (place : Location) (page : List Char)
    (held : Bytes) (t₃ : Tree) : Prop where
  old : t.at? (place ++ [pageName extension page]) = some (.file held)
  unused : t₂.at? (copyPlace place extension page (versionAt t place page)) = none
  copied : t₃.at? (copyPlace place extension page (versionAt t place page)) = some (.file held)
  rest : ∀ other, other ≠ copyPlace place extension page (versionAt t place page) →
    t₃.at? other = t₂.at? other ∨ t₂.at? other = none ∧ t₃.at? other = some .directory ∧
      other <+: archivePlace place page

theorem copied_of_done {dialect : Dialect} {mark : Name} {bytes : Bytes} {t₂ t₃ : Tree}
    {entry : Entry} (hpage : isTooLong (mangle page) = false) (sound : t.Sound)
    (stands : t.Standing directory place) (free : t.LinkFree place)
    (hat : t.at? (place ++ [pageName dialect.fileExtension page]) = some entry)
    (filled : Filled t directory mark (pageName dialect.fileExtension page) bytes place t₂)
    (h : applySteps t₂ (archiveSteps t directory dialect.fileExtension page) = (none, t₃)) :
    ∃ held, Copied t t₂ dialect.fileExtension place page held t₃ := by
  have hfind := (find_child_iff sound stands.toLeads free (isPlain_pageName dialect page)).mpr hat
  obtain ⟨old, hsteps, hold⟩ := archiveSteps_eq t directory dialect.fileExtension page
  rw [hsteps, applySteps_append_eq] at h
  obtain ⟨t₄, happly, hwrite⟩ := h
  obtain ⟨hmade, held, hread⟩ := archive_opened happly
  have grows := grows_of_makeDirectories filled.sound hmade
  obtain ⟨arch, standsArch, hnone⟩ := filled.unused sound (isEnding_fileExtension dialect) hfind hmade
  obtain ⟨copied, hplace, rfl⟩ := writing_done grows.2 hwrite
  obtain ⟨rfl, -⟩ := hplace.eq_child standsArch (isPlain_archivedName _ _) (by simp [hnone])
  -- Where the archive is made, and under which version.
  have free₂ : t₂.LinkFree place := fun rest target hlink =>
    free rest target (filled.adds.at?_link hlink)
  have attempts := t₂.makeDirectories_attempts (archive directory page)
  rw [hmade] at attempts
  obtain ⟨growsTo, hstands⟩ := attempts.into (archive_eq_into directory page) filled.sound
    filled.stands (free₂.clear _) isPlain_archiveNames
  obtain rfl : arch = archivePlace place page := standsArch.unique (hstands rfl)
  have hversion : archivedVersion t directory page = versionAt t place page := by
    rw [archivedVersion, currentVersion_eq_versionAt sound stands free fun _ => hpage]
  rw [hversion] at hplace hnone ⊢
  -- What has been opened is the page's own file.
  obtain ⟨spot, hend, -, hheld⟩ := (filled.adds.trans (Adds.of_grows grows.1)).read_back hfind hread
  have hread' := read_eq_ok.mpr ⟨spot, hend, hheld⟩
  obtain rfl := hold held hread'
  have hfind' := find_eq_ok.mpr ⟨spot, hend, hheld⟩
  refine ⟨old, (find_child_iff sound stands.toLeads free (isPlain_pageName dialect page)).mp hfind',
    grows.1.at?_none hnone, hplace.at?_put_self old, fun other hother => ?_⟩
  rw [hplace.at?_put, if_neg (show ¬ other = archivePlace place page ++ [_] from hother)]
  exact growsTo other

section Replacing

variable {extension : String} {mark : Name} {bytes : Bytes} {t₁ t₂ t₃ : Tree}

/-- The staging file is the only one that is new before the page is archived. -/
theorem Filled.at?_beside {name : Name} (filled : Filled t directory mark name bytes place t₂)
    (opened : Opened t directory mark name place t₁) {other : Location}
    (hother : other ≠ place ++ [stagingName mark name]) : t₂.at? other = t₁.at? other := by
  obtain ⟨t₁', opened', hplace, -, rfl⟩ := filled.through
  obtain rfl : t₁ = t₁' := (Prod.mk.inj (opened.made.symm.trans opened'.made)).2
  rw [hplace.at?_put, if_neg hother]

/-- The place of the staging file is free again. -/
theorem Replaced.at?_beside {name : Name} (replaced : Replaced t₃ place mark name bytes t')
    (opened : Opened t directory mark name place t₁) {other : Location}
    (hother : other ≠ place ++ [name]) :
    t'.at? other = t.at? other ∨
      other ≠ place ++ [stagingName mark name] ∧ t'.at? other = t₃.at? other := by
  rw [replaced.at?, if_neg hother]
  by_cases hplace : other = place ++ [stagingName mark name]
  · rw [if_pos hplace, hplace]
    exact Or.inl (opened.grows.at?_none opened.free).symm
  · rw [if_neg hplace]
    exact Or.inr ⟨hplace, rfl⟩

theorem Replaced.stands {name : Name} {sort : Location → Bytes → Prop}
    (replaced : Replaced t₃ place mark name bytes t')
    (filled : Filled t directory mark name bytes place t₂) (adds : Adds sort t₂ t₃)
    (free : t.LinkFree place) : t'.Standing directory place := by
  refine ((filled.stands.of_keeps adds.keeps).of_keeps
    (replaced.keeps (fun target hlink => ?_) (adds.kept _ _ filled.at?_staged)))
  exact free _ target (filled.adds.at?_link (adds.at?_link hlink))

/-- A page that is new. -/
theorem Saved.of_new (hat : t.at? (place ++ [pageName extension page]) = none)
    (growsTo : GrowsTo place t t₁)
    (opened : Opened t directory mark (pageName extension page) place t₁)
    (filled : Filled t directory mark (pageName extension page) bytes place t₂)
    (replaced : Replaced t₂ place mark (pageName extension page) bytes t')
    (stands : t'.Standing directory place) : Saved t directory extension place page bytes t' where
  sound := replaced.sound
  stands := stands
  written := by rw [replaced.at?, if_pos rfl]
  before := by simp [hat]
  copied := by simp [hat]
  rest := by
    intro other hother _
    rcases replaced.at?_beside opened hother with hsame | ⟨hplace, hsame⟩
    · exact Or.inl hsame
    · rw [hsame, filled.at?_beside opened hplace]
      refine (growsTo other).imp_right fun hnew => ?_
      obtain ⟨hnone, hdir, hfront⟩ := hnew
      exact ⟨hnone, hdir, hfront.trans (List.prefix_append _ _)⟩

/-- A page that has been copied to its archive before. -/
theorem Saved.of_copied {held : Bytes} (copied : Copied t t₂ extension place page held t₃)
    (opened : Opened t directory mark (pageName extension page) place t)
    (filled : Filled t directory mark (pageName extension page) bytes place t₂)
    (replaced : Replaced t₃ place mark (pageName extension page) bytes t')
    (stands : t'.Standing directory place) : Saved t directory extension place page bytes t' where
  sound := replaced.sound
  stands := stands
  written := by rw [replaced.at?, if_pos rfl]
  before := fun entry hentry => ⟨held, Option.some.inj (hentry.symm.trans copied.old)⟩
  copied := by
    intro old hentry
    obtain rfl : held = old := by simpa [copied.old] using hentry
    have hne := copyPlace_ne_child place extension page (versionAt t place page)
    refine ⟨?_, ?_⟩
    · rw [← filled.at?_beside opened (hne _)]
      exact copied.unused
    · rw [replaced.at?, if_neg (hne _), if_neg (hne _)]
      exact copied.copied
  rest := by
    intro other hother hcopy
    have hcopy' := hcopy.resolve_left (by simp [copied.old])
    rcases replaced.at?_beside opened hother with hsame | ⟨hplace, hsame⟩
    · exact Or.inl hsame
    · rw [hsame, ← filled.at?_beside opened hplace]
      exact copied.rest other hcopy'

end Replacing

/-- **What is saved is told place by place.** -/
theorem saved_of_done {dialect : Dialect} {mark : Name} (hpage : page ≠ []) (sound : t.Sound)
    (leads : t.Leads directory place) (free : t.LinkFree place)
    (fresh : IsFresh t directory mark (pageName dialect.fileExtension page))
    (h : applySteps t (saveSteps t directory dialect.fileExtension mark page text) = (none, t')) :
    Saved t directory dialect.fileExtension place page (Utf8.encode text) t' := by
  have ending := isEnding_fileExtension dialect
  have hname := isPlain_pageName dialect page
  rw [saveSteps_eq] at h
  obtain ⟨place', t₁, t₂, t₃, opened, filled, happly, replaced⟩ :=
    staged_done sound hname fresh (between_page sound ending) h
  obtain ⟨growsTo, hstands⟩ := leads.makeDirectories sound
  rw [opened.made] at growsTo hstands
  have stands : t₁.Standing directory place := hstands rfl
  obtain rfl := stands.unique opened.stands
  obtain ⟨-, adds⟩ := (between_page sound ending).done filled happly
  have stands' := replaced.stands filled adds free
  rw [archiveBetween] at happly
  cases hat : t.at? (place ++ [pageName dialect.fileExtension page]) with
  | none =>
    have hnot : hasFile t directory dialect.fileExtension page = false := by
      refine Bool.eq_false_iff.mpr fun hthere => ?_
      obtain ⟨entry, hfind⟩ := hasFile_iff.mp hthere
      rw [(find_child_iff sound leads free hname).mp hfind] at hat
      cases hat
    rw [hnot, if_neg (by decide)] at happly
    obtain rfl : t₂ = t₃ := (Prod.mk.inj happly).2
    exact .of_new hat growsTo opened filled replaced stands'
  | some entry =>
    have hfind := (find_child_iff sound leads free hname).mpr hat
    have hthere : hasFile t directory dialect.fileExtension page = true :=
      hasFile_iff.mpr ⟨entry, hfind⟩
    obtain rfl := opened.eq_of_find sound hfind
    rw [hthere, if_pos rfl] at happly
    have hshort := (canStand_mangle hpage (sound.named _ _ _ hat)).short
    obtain ⟨held, copied⟩ := copied_of_done hshort sound stands free hat filled happly
    exact .of_copied copied opened filled replaced stands'

end WikiMigration.Store
