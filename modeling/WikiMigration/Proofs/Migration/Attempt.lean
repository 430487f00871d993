/-
How the attempt at a page may end.

The relations here tell, step by step, what those who work on a migration may do to a page: read its
text, render it, write it, hand it to the hooks, save it, and then copy its attachments one after the
other.  Each step may fail, and the kind of the failure is the one that was raised with it, or that of
the step.  Nothing is said about boundaries, retries or the log; that the migration of a page follows
these relations is what is proved.
-/
import WikiMigration.Proofs.Action
import WikiMigration.Migration.Run

namespace WikiMigration

/-- The kind of a failure that is raised in a step: its own if it has one, and that of the step if
not. -/
def Failure.kindIn (step : ErrorKind) : Failure → ErrorKind
  | .classified e => e.kind
  | _ => step

/-- Whether the failure is a classified one of the kind. -/
def Failure.IsOf (kind : ErrorKind) (failure : Failure) : Prop :=
  ∃ e, failure = .classified e ∧ e.kind = kind

theorem Failure.kind_atBoundary (kind : ErrorKind) (page : Option String) (name : String)
    (failure : Failure) : (failure.atBoundary kind page name).kind = failure.kindIn kind := by
  cases failure <;> rfl

theorem Failure.isOf_atBoundary (kind : ErrorKind) (page : Option String) (name : String)
    (failure : Failure) :
    (Failure.classified (failure.atBoundary kind page name)).IsOf (failure.kindIn kind) :=
  ⟨_, rfl, failure.kind_atBoundary kind page name⟩

theorem Failure.IsOf.kind_classify {kind : ErrorKind} {failure : Failure}
    (h : failure.IsOf kind) (page : Option String) : (failure.classify page).kind = kind := by
  obtain ⟨e, rfl, he⟩ := h
  exact he

namespace Migration

open Store

variable {σ ρ τ : Type}

/-- A failure at a boundary, told by the failure within it. -/
theorem fails_boundary_isOf {α : Type} {kind : ErrorKind} {page : Option String} {name : String}
    {task : Task σ α} {w w' : σ} {e : Failure} (h : (task.boundary kind page name).Fails w e w') :
    ∃ e', task.Fails w e' w' ∧ e.IsOf (e'.kindIn kind) := by
  obtain ⟨e', h', rfl⟩ := Action.fails_boundary.mp h
  exact ⟨e', h', e'.isOf_atBoundary kind page name⟩

/-! ### One attachment -/

section Attachments

variable (crew : Crew σ ρ τ) (options : Options) (page : List Char)

/-- How reading a stored attachment back may end. -/
inductive ReadBackEnds (stored : Attachment) : σ → Except ErrorKind Files.Bytes → σ → Prop
  | notOpened {w w' : σ} {e : Failure}
      (failed : (crew.targetFiles.openStream page stored).Fails w e w') :
      ReadBackEnds stored w (.error (e.kindIn .storage)) w'
  | notRead {w w₁ w₂ w' : σ} {stream : τ} {e : Failure}
      (opened : (crew.targetFiles.openStream page stored).Gives w stream w₁)
      (failed : (crew.targetFiles.read stream none).Fails w₁ e w₂)
      (closed : (crew.targetFiles.close stream).Gives w₂ () w') :
      ReadBackEnds stored w (.error (e.kindIn .storage)) w'
  | notClosed {w w₁ w₂ w' : σ} {stream : τ} {e : Failure}
      (opened : (crew.targetFiles.openStream page stored).Gives w stream w₁)
      (read : (crew.targetFiles.read stream none).Leaves w₁ w₂)
      (failed : (crew.targetFiles.close stream).Fails w₂ e w') :
      ReadBackEnds stored w (.error (e.kindIn .storage)) w'
  | read {w w₁ w₂ w' : σ} {stream : τ} {bytes : Files.Bytes}
      (opened : (crew.targetFiles.openStream page stored).Gives w stream w₁)
      (read : (crew.targetFiles.read stream none).Gives w₁ bytes w₂)
      (closed : (crew.targetFiles.close stream).Gives w₂ () w') :
      ReadBackEnds stored w (.ok bytes) w'

/-- What is stored for an attachment of the page. -/
abbrev copyOf (attachment : Attachment) : Attachment :=
  ⟨attachment.file, page, latestVersion, attachment.size⟩

/-- What is read back of an attachment of the page that was stored under the version. -/
abbrev storedAs (attachment : Attachment) (version : Option Int) : Attachment :=
  ⟨attachment.file, page, versionOrLatest version, 0⟩

/-- A stream of the attachment was opened, and what it holds was stored. -/
structure Stored (attachment : Attachment) (w : σ) (stream : ρ) (version : Option Int)
    (bytes : Files.Bytes) (w' : σ) : Prop where
  through : ∃ w₁, (crew.sourceFiles.openStream page attachment).Gives w stream w₁ ∧
    (crew.targetFiles.store (copyOf page attachment) (crew.sourceFiles.read stream)).Gives w₁
      (version, bytes) w'

/-- How copying an attachment may end. -/
inductive CopyEnds (attachment : Attachment) : σ → Except ErrorKind Unit → σ → Prop
  | notOpened {w w' : σ} {e : Failure}
      (failed : (crew.sourceFiles.openStream page attachment).Fails w e w') :
      CopyEnds attachment w (.error (e.kindIn .resource)) w'
  | notStored {w w₁ w₂ w' : σ} {stream : ρ} {e : Failure}
      (opened : (crew.sourceFiles.openStream page attachment).Gives w stream w₁)
      (failed : (crew.targetFiles.store (copyOf page attachment)
        (crew.sourceFiles.read stream)).Fails w₁ e w₂)
      (closed : (crew.sourceFiles.close stream).Leaves w₂ w') :
      CopyEnds attachment w (.error (e.kindIn .storage)) w'
  | notClosed {w w₁ w' : σ} {stream : ρ} {version : Option Int} {bytes : Files.Bytes}
      {e : Failure} (stored : Stored crew page attachment w stream version bytes w₁)
      (failed : (crew.sourceFiles.close stream).Fails w₁ e w') :
      CopyEnds attachment w (.error (e.kindIn .resource)) w'
  | unverified {w w₁ w' : σ} {stream : ρ} {version : Option Int} {bytes : Files.Bytes}
      (stored : Stored crew page attachment w stream version bytes w₁)
      (closed : (crew.sourceFiles.close stream).Gives w₁ () w')
      (trusts : options.verifies = false) :
      CopyEnds attachment w (.ok ()) w'
  | notReadBack {w w₁ w₂ w' : σ} {stream : ρ} {version : Option Int} {bytes : Files.Bytes}
      {kind : ErrorKind} (stored : Stored crew page attachment w stream version bytes w₁)
      (closed : (crew.sourceFiles.close stream).Gives w₁ () w₂)
      (verifies : options.verifies = true)
      (failed : ReadBackEnds crew page (storedAs page attachment version) w₂ (.error kind) w') :
      CopyEnds attachment w (.error kind) w'
  | mismatch {w w₁ w₂ w' : σ} {stream : ρ} {version : Option Int} {bytes copy : Files.Bytes}
      (stored : Stored crew page attachment w stream version bytes w₁)
      (closed : (crew.sourceFiles.close stream).Gives w₁ () w₂)
      (verifies : options.verifies = true)
      (readBack : ReadBackEnds crew page (storedAs page attachment version) w₂ (.ok copy) w')
      (differs : Checksum.sha256 copy ≠ Checksum.sha256 bytes) :
      CopyEnds attachment w (.error .storage) w'
  | verified {w w₁ w₂ w' : σ} {stream : ρ} {version : Option Int} {bytes copy : Files.Bytes}
      (stored : Stored crew page attachment w stream version bytes w₁)
      (closed : (crew.sourceFiles.close stream).Gives w₁ () w₂)
      (verifies : options.verifies = true)
      (readBack : ReadBackEnds crew page (storedAs page attachment version) w₂ (.ok copy) w')
      (agrees : Checksum.sha256 copy = Checksum.sha256 bytes) :
      CopyEnds attachment w (.ok ()) w'

variable {crew options page}

theorem readBackEnds_of_gives {stored : Attachment} {w w' : σ} {bytes : Files.Bytes}
    (h : (readBack crew page stored).Gives w bytes w') :
    ReadBackEnds crew page stored w (.ok bytes) w' := by
  simp only [readBack, Action.gives_bind, Action.gives_attempt, Action.gives_ofResult] at h
  obtain ⟨stream, w₁, opened, result, w₂, ⟨hresult, hread⟩, _, w₃, closed, rfl, rfl⟩ := h
  exact .read opened ⟨hresult, hread⟩ closed

theorem readBackEnds_of_fails {stored : Attachment} {w w' : σ} {e : Failure}
    (h : (readBack crew page stored).Fails w e w') :
    ReadBackEnds crew page stored w (.error (e.kindIn .storage)) w' := by
  simp only [readBack, Action.fails_bind, Action.gives_attempt, Action.not_fails_attempt,
    Action.fails_ofResult, false_or] at h
  rcases h with failed | ⟨stream, w₁, opened, result, w₂, ⟨hresult, hread⟩, h⟩
  · exact .notOpened failed
  · rcases h with failed | ⟨_, w₃, closed, rfl, rfl⟩
    · exact .notClosed opened hread failed
    · exact .notRead opened ⟨hresult, hread⟩ closed

theorem not_fails_closeAfterFailure {name file : String} {stream : ρ} {w w' : σ} {e : Failure} :
    ¬ (closeAfterFailure crew options name file stream).Fails w e w' := by
  intro h
  simp only [closeAfterFailure, Action.fails_bind, Action.not_fails_attempt, false_or] at h
  obtain ⟨result, w₁, -, h⟩ := h
  cases result <;> simp [note] at h

theorem leaves_of_closeAfterFailure {name file : String} {stream : ρ} {w w' : σ} {u : Unit}
    (h : (closeAfterFailure crew options name file stream).Gives w u w') :
    (crew.sourceFiles.close stream).Leaves w w' := by
  simp only [closeAfterFailure, Action.gives_bind, Action.gives_attempt] at h
  obtain ⟨result, w₁, ⟨-, closed⟩, h⟩ := h
  cases result with
  | ok _ =>
    obtain ⟨-, rfl⟩ := Action.gives_pure.mp h
    exact closed
  | error _ =>
    obtain rfl := Action.gives_emit.mp h
    exact closed

theorem copyEnds_of_gives {attachment : Attachment} {w w' : σ} {u : Unit}
    (h : (copyAttachment crew options page attachment).Gives w u w') :
    CopyEnds crew options page attachment w (.ok ()) w' := by
  simp only [copyAttachment, Action.gives_bind, Action.gives_boundary, Action.gives_attempt] at h
  obtain ⟨stream, w₁, opened, result, w₂, ⟨hresult, hstore⟩, h⟩ := h
  cases result with
  | error e => simp [Action.gives_bind] at h
  | ok pair =>
    obtain ⟨version, bytes⟩ := pair
    have stored : Stored crew page attachment w stream version bytes w₂ :=
      ⟨w₁, opened, Action.gives_boundary.mp ⟨hresult, hstore⟩⟩
    simp only [Action.gives_bind, Action.gives_boundary] at h
    obtain ⟨_, w₃, closed, h⟩ := h
    by_cases hv : options.verifies = true
    · simp only [hv, if_true, verify, note, Action.gives_bind, Action.gives_boundary,
        Action.gives_emit] at h
      obtain ⟨_, w₄, ⟨copy, w₅, hcopy, h⟩, rfl⟩ := h
      by_cases hsum : Checksum.sha256 copy = Checksum.sha256 bytes
      · simp only [hsum, beq_self_eq_true, if_true, Action.gives_pure] at h
        obtain ⟨-, rfl⟩ := h
        exact .verified stored closed hv (readBackEnds_of_gives hcopy) hsum
      · simp [hsum] at h
    · simp only [hv, Bool.false_eq_true, if_false, note, Action.gives_emit] at h
      subst h
      exact .unverified stored closed (by simpa using hv)

theorem copyEnds_of_fails {attachment : Attachment} {w w' : σ} {e : Failure}
    (h : (copyAttachment crew options page attachment).Fails w e w') :
    ∃ kind, CopyEnds crew options page attachment w (.error kind) w' ∧ e.IsOf kind := by
  simp only [copyAttachment, Action.fails_bind, Action.gives_boundary, Action.gives_attempt,
    Action.not_fails_attempt, false_or] at h
  rcases h with failed | ⟨stream, w₁, opened, result, w₂, ⟨hresult, hstore⟩, h⟩
  · obtain ⟨e', failed, he⟩ := fails_boundary_isOf failed
    exact ⟨_, .notOpened failed, he⟩
  cases result with
  | error e' =>
    obtain ⟨e'', failed, he⟩ := fails_boundary_isOf ⟨hresult, hstore⟩
    -- Whether the stream closes or not, the failure of the store is what is left.
    rcases Action.fails_bind.mp h with h | ⟨_, w₃, closed, h⟩
    · exact absurd h not_fails_closeAfterFailure
    · obtain ⟨rfl, rfl⟩ := Action.fails_fail.mp h
      exact ⟨_, .notStored opened failed (leaves_of_closeAfterFailure closed), he⟩
  | ok pair =>
    obtain ⟨version, bytes⟩ := pair
    have stored : Stored crew page attachment w stream version bytes w₂ :=
      ⟨w₁, opened, Action.gives_boundary.mp ⟨hresult, hstore⟩⟩
    simp only [Action.fails_bind, Action.gives_boundary] at h
    rcases h with failed | ⟨_, w₃, closed, h⟩
    · obtain ⟨e', failed, he⟩ := fails_boundary_isOf failed
      exact ⟨_, .notClosed stored failed, he⟩
    by_cases hv : options.verifies = true
    · simp only [hv, if_true, verify, note, Action.fails_bind, Action.gives_boundary,
        Action.not_fails_emit, and_false, exists_false, or_false] at h
      rcases h with failed | ⟨copy, w₄, hcopy, h⟩
      · obtain ⟨e', failed, he⟩ := fails_boundary_isOf failed
        exact ⟨_, .notReadBack stored closed hv (readBackEnds_of_fails failed), he⟩
      · by_cases hsum : Checksum.sha256 copy = Checksum.sha256 bytes
        · simp [hsum] at h
        · have hne : (Checksum.sha256 copy == Checksum.sha256 bytes) = false := by simpa using hsum
          simp only [hne, Bool.false_eq_true, if_false, Action.fails_fail] at h
          obtain ⟨rfl, rfl⟩ := h
          exact ⟨_, .mismatch stored closed hv (readBackEnds_of_gives hcopy) hsum, _, rfl, rfl⟩
    · simp [hv, note] at h

/-! ### The attachments of a page -/

variable (crew options page) in
/-- How copying attachments one after the other may end: the first failure is the end of it. -/
inductive CopiesEnd : List Attachment → σ → Except ErrorKind Unit → σ → Prop
  | none {w : σ} : CopiesEnd [] w (.ok ()) w
  | failed {attachment : Attachment} {rest : List Attachment} {w w' : σ} {kind : ErrorKind}
      (failed : CopyEnds crew options page attachment w (.error kind) w') :
      CopiesEnd (attachment :: rest) w (.error kind) w'
  | copied {attachment : Attachment} {rest : List Attachment} {w w₁ w' : σ}
      {result : Except ErrorKind Unit}
      (copied : CopyEnds crew options page attachment w (.ok ()) w₁)
      (others : CopiesEnd rest w₁ result w') :
      CopiesEnd (attachment :: rest) w result w'

variable (crew options page) in
/-- How migrating the attachments of a page may end. -/
inductive FilesEnd : σ → Except ErrorKind Nat → σ → Prop
  | notListed {w w' : σ} {e : Failure} (failed : (crew.sourceFiles.list page).Fails w e w') :
      FilesEnd w (.error (e.kindIn .storage)) w'
  | counted {w w' : σ} {attachments : List Attachment}
      (listed : (crew.sourceFiles.list page).Gives w attachments w')
      (nothing : attachments = [] ∨ options.isDry = true) :
      FilesEnd w (.ok attachments.length) w'
  | failed {w w₁ w' : σ} {attachments : List Attachment} {kind : ErrorKind}
      (listed : (crew.sourceFiles.list page).Gives w attachments w₁)
      (real : options.isDry = false)
      (failed : CopiesEnd crew options page attachments w₁ (.error kind) w') :
      FilesEnd w (.error kind) w'
  | copied {w w₁ w' : σ} {attachments : List Attachment}
      (listed : (crew.sourceFiles.list page).Gives w attachments w₁)
      (real : options.isDry = false)
      (copied : CopiesEnd crew options page attachments w₁ (.ok ()) w') :
      FilesEnd w (.ok attachments.length) w'

theorem copiesEnd_of_gives {attachments : List Attachment} {w w' : σ} {u : Unit}
    (h : (copyAll crew options page attachments).Gives w u w') :
    CopiesEnd crew options page attachments w (.ok ()) w' := by
  induction attachments generalizing w with
  | nil =>
    obtain ⟨-, rfl⟩ := Action.gives_pure.mp h
    exact .none
  | cons attachment rest ih =>
    obtain ⟨_, w₁, copied, h⟩ := Action.gives_bind.mp h
    exact .copied (copyEnds_of_gives copied) (ih h)

theorem copiesEnd_of_fails {attachments : List Attachment} {w w' : σ} {e : Failure}
    (h : (copyAll crew options page attachments).Fails w e w') :
    ∃ kind, CopiesEnd crew options page attachments w (.error kind) w' ∧ e.IsOf kind := by
  induction attachments generalizing w with
  | nil => exact absurd h Action.not_fails_pure
  | cons attachment rest ih =>
    rcases Action.fails_bind.mp h with failed | ⟨_, w₁, copied, h⟩
    · obtain ⟨kind, failed, he⟩ := copyEnds_of_fails failed
      exact ⟨kind, .failed failed, he⟩
    · obtain ⟨kind, others, he⟩ := ih h
      exact ⟨kind, .copied (copyEnds_of_gives copied) others, he⟩

theorem filesEnd_of_gives {w w' : σ} {count : Nat}
    (h : (migrateAttachments crew options page).Gives w count w') :
    FilesEnd crew options page w (.ok count) w' := by
  simp only [migrateAttachments, Action.gives_bind, Action.gives_boundary] at h
  obtain ⟨attachments, w₁, listed, h⟩ := h
  by_cases hempty : attachments = []
  · simp only [hempty, List.isEmpty_nil, if_true, Action.gives_pure] at h
    obtain ⟨rfl, rfl⟩ := h
    subst hempty
    exact .counted listed (Or.inl rfl)
  · have hne : attachments.isEmpty = false := by simpa using hempty
    simp only [hne, Bool.false_eq_true, if_false] at h
    by_cases hdry : options.isDry = true
    · simp only [hdry, if_true, note, Action.gives_bind, Action.gives_emit, Action.gives_pure] at h
      obtain ⟨_, w₂, rfl, rfl, rfl⟩ := h
      exact .counted listed (Or.inr hdry)
    · simp only [hdry, Bool.false_eq_true, if_false, note, Action.gives_bind, Action.gives_emit,
        Action.gives_pure] at h
      obtain ⟨_, w₂, rfl, _, w₃, copied, rfl, rfl⟩ := h
      exact .copied listed (by simpa using hdry) (copiesEnd_of_gives copied)

theorem filesEnd_of_fails {w w' : σ} {e : Failure}
    (h : (migrateAttachments crew options page).Fails w e w') :
    ∃ kind, FilesEnd crew options page w (.error kind) w' ∧ e.IsOf kind := by
  simp only [migrateAttachments, Action.fails_bind, Action.gives_boundary] at h
  rcases h with failed | ⟨attachments, w₁, listed, h⟩
  · obtain ⟨e', failed, he⟩ := fails_boundary_isOf failed
    exact ⟨_, .notListed failed, he⟩
  by_cases hempty : attachments = []
  · simp [hempty] at h
  · have hne : attachments.isEmpty = false := by simpa using hempty
    simp only [hne, Bool.false_eq_true, if_false] at h
    by_cases hdry : options.isDry = true
    · simp [hdry, note, Action.fails_bind] at h
    · simp only [hdry, Bool.false_eq_true, if_false, note, Action.fails_bind, Action.gives_emit,
        Action.not_fails_emit, Action.not_fails_pure, false_or, and_false, exists_false,
        or_false] at h
      obtain ⟨_, w₂, rfl, failed⟩ := h
      obtain ⟨kind, failed, he⟩ := copiesEnd_of_fails failed
      exact ⟨kind, .failed listed (by simpa using hdry) failed, he⟩

end Attachments

/-! ### The text of a page -/

section Text

variable (crew : Crew σ ρ τ) (options : Options) (page : PageVersion)

/-- How the hooks may end: each gets what the one before it gave. -/
inductive HooksEnd : List (List Char → Task σ (List Char)) → List Char → σ →
    Except ErrorKind (List Char) → σ → Prop
  | none {text : List Char} {w : σ} : HooksEnd [] text w (.ok text) w
  | failed {hook : List Char → Task σ (List Char)} {rest : List (List Char → Task σ (List Char))}
      {text : List Char} {w w' : σ} {e : Failure} (failed : (hook text).Fails w e w') :
      HooksEnd (hook :: rest) text w (.error (e.kindIn .conversion)) w'
  | passed {hook : List Char → Task σ (List Char)} {rest : List (List Char → Task σ (List Char))}
      {text next : List Char} {w w₁ w' : σ} {result : Except ErrorKind (List Char)}
      (passed : (hook text).Gives w next w₁) (others : HooksEnd rest next w₁ result w') :
      HooksEnd (hook :: rest) text w result w'

/-- How reading, rendering, writing and finishing the text of a page may end. -/
inductive ConversionEnds : σ → Except ErrorKind (List Char) → σ → Prop
  | notRead {w w' : σ} {e : Failure}
      (failed : (crew.source.read page.name page.version).Fails w e w') :
      ConversionEnds w (.error (e.kindIn .storage)) w'
  | notRendered {w w₁ w' : σ} {text : List Char} {e : Failure}
      (read : (crew.source.read page.name page.version).Gives w text w₁)
      (failed : (crew.render (.forRendering page) text).Fails w₁ e w') :
      ConversionEnds w (.error (e.kindIn .conversion)) w'
  | notWritten {w w₁ w₂ w' : σ} {text html : List Char} {e : Failure}
      (read : (crew.source.read page.name page.version).Gives w text w₁)
      (rendered : (crew.render (.forRendering page) text).Gives w₁ html w₂)
      (failed : (crew.write html).Fails w₂ e w') :
      ConversionEnds w (.error (e.kindIn .conversion)) w'
  | finished {w w₁ w₂ w₃ w' : σ} {text html markup : List Char}
      {result : Except ErrorKind (List Char)}
      (read : (crew.source.read page.name page.version).Gives w text w₁)
      (rendered : (crew.render (.forRendering page) text).Gives w₁ html w₂)
      (written : (crew.write html).Gives w₂ markup w₃)
      (finished : HooksEnd crew.hooks markup w₃ result w') :
      ConversionEnds w result w'

/-- How migrating the text of a page may end. -/
inductive TextEnds : σ → Except ErrorKind Unit → σ → Prop
  | notConverted {w w' : σ} {kind : ErrorKind}
      (failed : ConversionEnds crew page w (.error kind) w') : TextEnds w (.error kind) w'
  | unsaved {w w' : σ} {text : List Char}
      (converted : ConversionEnds crew page w (.ok text) w') (dry : options.isDry = true) :
      TextEnds w (.ok ()) w'
  | notSaved {w w₁ w' : σ} {text : List Char} {e : Failure}
      (converted : ConversionEnds crew page w (.ok text) w₁) (real : options.isDry = false)
      (failed : (crew.target.save (.forSaving (unversioned page)) text).Fails w₁ e w') :
      TextEnds w (.error (e.kindIn .storage)) w'
  | saved {w w₁ w' : σ} {text : List Char}
      (converted : ConversionEnds crew page w (.ok text) w₁) (real : options.isDry = false)
      (saved : (crew.target.save (.forSaving (unversioned page)) text).Gives w₁ () w') :
      TextEnds w (.ok ()) w'

variable {crew options page}

theorem hooksEnd_of_gives {hooks : List (List Char → Task σ (List Char))} {text result : List Char}
    {w w' : σ} (h : (applyHooks hooks text).Gives w result w') :
    HooksEnd hooks text w (.ok result) w' := by
  induction hooks generalizing text w with
  | nil =>
    obtain ⟨rfl, rfl⟩ := Action.gives_pure.mp h
    exact .none
  | cons hook rest ih =>
    obtain ⟨next, w₁, passed, h⟩ := Action.gives_bind.mp h
    exact .passed passed (ih h)

theorem hooksEnd_of_fails {hooks : List (List Char → Task σ (List Char))} {text : List Char}
    {w w' : σ} {e : Failure} (h : (applyHooks hooks text).Fails w e w') :
    HooksEnd hooks text w (.error (e.kindIn .conversion)) w' := by
  induction hooks generalizing text w with
  | nil => exact absurd h Action.not_fails_pure
  | cons hook rest ih =>
    rcases Action.fails_bind.mp h with failed | ⟨next, w₁, passed, h⟩
    · exact .failed failed
    · exact .passed passed (ih h)

theorem conversionEnds_of_gives {text written : List Char} {w w' : σ}
    (h : (convertPage crew page).Gives w (text, written) w') :
    ConversionEnds crew page w (.ok written) w' := by
  simp only [convertPage, Action.gives_bind, Action.gives_boundary, Action.gives_pure,
    Prod.mk.injEq] at h
  obtain ⟨_, w₁, read, html, w₂, rendered, _, w₃, written, _, w₄, hooks, ⟨rfl, rfl⟩, rfl⟩ := h
  exact .finished read rendered written (hooksEnd_of_gives hooks)

theorem conversionEnds_of_fails {w w' : σ} {e : Failure}
    (h : (convertPage crew page).Fails w e w') :
    ∃ kind, ConversionEnds crew page w (.error kind) w' ∧ e.IsOf kind := by
  simp only [convertPage, Action.fails_bind, Action.gives_boundary, Action.not_fails_pure,
    and_false, exists_false, or_false] at h
  rcases h with failed | ⟨text, w₁, read, failed | ⟨html, w₂, rendered,
    failed | ⟨markup, w₃, written, failed⟩⟩⟩
  · obtain ⟨e', failed, he⟩ := fails_boundary_isOf failed
    exact ⟨_, .notRead failed, he⟩
  · obtain ⟨e', failed, he⟩ := fails_boundary_isOf failed
    exact ⟨_, .notRendered read failed, he⟩
  · obtain ⟨e', failed, he⟩ := fails_boundary_isOf failed
    exact ⟨_, .notWritten read rendered failed, he⟩
  · obtain ⟨e', failed, he⟩ := fails_boundary_isOf failed
    exact ⟨_, .finished read rendered written (hooksEnd_of_fails failed), he⟩

theorem textEnds_of_gives {text : List Char} {w w' : σ}
    (h : (migrateText crew options page).Gives w text w') :
    TextEnds crew options page w (.ok ()) w' := by
  simp only [migrateText, Action.gives_bind] at h
  obtain ⟨⟨text, written⟩, w₁, converted, h⟩ := h
  have converted := conversionEnds_of_gives converted
  by_cases hdry : options.isDry = true
  · simp only [hdry, if_true, note, Action.gives_bind, Action.gives_emit, Action.gives_pure] at h
    obtain ⟨_, w₂, rfl, rfl, rfl⟩ := h
    exact .unsaved converted hdry
  · simp only [hdry, Bool.false_eq_true, if_false, note, Action.gives_bind, Action.gives_boundary,
      Action.gives_emit, Action.gives_pure] at h
    obtain ⟨_, w₂, saved, _, w₃, rfl, rfl, rfl⟩ := h
    exact .saved converted (by simpa using hdry) saved

theorem textEnds_of_fails {w w' : σ} {e : Failure}
    (h : (migrateText crew options page).Fails w e w') :
    ∃ kind, TextEnds crew options page w (.error kind) w' ∧ e.IsOf kind := by
  rcases Action.fails_bind.mp h with failed | ⟨⟨text, written⟩, w₁, converted, h⟩
  · obtain ⟨kind, failed, he⟩ := conversionEnds_of_fails failed
    exact ⟨kind, .notConverted failed, he⟩
  by_cases hdry : options.isDry = true
  · simp [hdry, note, Action.fails_bind] at h
  · simp only [hdry, Bool.false_eq_true, if_false, note, Action.fails_bind, Action.not_fails_emit,
      Action.not_fails_pure, and_false, exists_false, or_false] at h
    obtain ⟨e', failed, he⟩ := fails_boundary_isOf h
    exact ⟨_, .notSaved (conversionEnds_of_gives converted) (by simpa using hdry) failed, he⟩

end Text

/-! ### Pages -/

/-- How the attempt at a page may end: only a page whose text was migrated comes to its
attachments. -/
inductive PageEnds (crew : Crew σ ρ τ) (options : Options) (page : PageVersion) :
    σ → Except ErrorKind Nat → σ → Prop
  | notMigrated {w w' : σ} {kind : ErrorKind}
      (failed : TextEnds crew options page w (.error kind) w') :
      PageEnds crew options page w (.error kind) w'
  | migrated {w w₁ w' : σ} {result : Except ErrorKind Nat}
      (migrated : TextEnds crew options page w (.ok ()) w₁)
      (files : FilesEnd crew options page.name w₁ result w') :
      PageEnds crew options page w result w'

/-- How the attempts at pages may end: each page is attempted once, in order, in the world that the
attempt before it left. -/
inductive PagesEnd (crew : Crew σ ρ τ) (options : Options) :
    List PageVersion → σ → List (Except ErrorKind Nat) → σ → Prop
  | none {w : σ} : PagesEnd crew options [] w [] w
  | next {page : PageVersion} {rest : List PageVersion} {w w₁ w' : σ}
      {result : Except ErrorKind Nat} {results : List (Except ErrorKind Nat)}
      (first : PageEnds crew options page w result w₁)
      (others : PagesEnd crew options rest w₁ results w') :
      PagesEnd crew options (page :: rest) w (result :: results) w'

theorem PagesEnd.length_eq {crew : Crew σ ρ τ} {options : Options} {pages : List PageVersion}
    {w w' : σ} {results : List (Except ErrorKind Nat)}
    (h : PagesEnd crew options pages w results w') : results.length = pages.length := by
  induction h with
  | none => rfl
  | next _ _ ih => simp [ih]

/-- The outcome tells of the page how the attempt at it ended. -/
def TellsOf (page : PageVersion) (result : Except ErrorKind Nat) (outcome : PageOutcome) : Prop :=
  match result with
  | .ok count => outcome = .migrated (String.ofList page.name) count
  | .error kind => ∃ message, outcome = .failed (String.ofList page.name) (some kind) message

/-- **The migration of a page never fails, and its outcome tells how the attempt ended.** -/
theorem migratePage_ends (plan : Plan σ ρ τ) (page : PageVersion) (w : σ) :
    ∃ outcome w' result, (migratePage plan page).Gives w outcome w' ∧
      PageEnds plan.crew plan.options page w result w' ∧ TellsOf page result outcome := by
  rcases Action.gives_or_fails (migrateAll plan page) w with ⟨count, w', h⟩ | ⟨e, w', h⟩
  · obtain ⟨_, w₁, text, files⟩ := Action.gives_bind.mp h
    refine ⟨.migrated (String.ofList page.name) count, w', .ok count, Action.gives_bind.mpr ⟨.ok count, w', ?_, ?_⟩,
      .migrated (textEnds_of_gives text) (filesEnd_of_gives files), rfl⟩
    · exact Action.gives_attempt.mpr h
    · exact Action.gives_pure.mpr ⟨rfl, rfl⟩
  · have attempted : ∃ kind, PageEnds plan.crew plan.options page w (.error kind) w' ∧
        e.IsOf kind := by
      rcases Action.fails_bind.mp h with failed | ⟨_, w₁, text, failed⟩
      · obtain ⟨kind, failed, he⟩ := textEnds_of_fails failed
        exact ⟨kind, .notMigrated failed, he⟩
      · obtain ⟨kind, failed, he⟩ := filesEnd_of_fails failed
        exact ⟨kind, .migrated (textEnds_of_gives text) failed, he⟩
    obtain ⟨kind, failed, he⟩ := attempted
    refine ⟨.ofError (String.ofList page.name) (e.classify (some (String.ofList page.name))), w',
      .error kind, Action.gives_bind.mpr ⟨.error e, w', ?_, ?_⟩, failed,
      (e.classify (some (String.ofList page.name))).message, ?_⟩
    · exact Action.gives_attempt.mpr h
    · refine Action.gives_bind.mpr ⟨(), w', Action.gives_emit.mpr rfl, ?_⟩
      exact Action.gives_pure.mpr ⟨rfl, rfl⟩
    · rw [PageOutcome.ofError, he.kind_classify]

end Migration

end WikiMigration
