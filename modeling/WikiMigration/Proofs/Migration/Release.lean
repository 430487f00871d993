/-
Which streams the migration of attachments opens, and where it stops.

However listing, opening, storing, closing and reading back turn out, each stream that was opened is
closed exactly once, and before the next attachment is opened.  The first attachment that fails is the
last one that is opened or stored; those before it were stored, each by a call that came to a value, and
no call but those told here is made after that.  What leaves is what the failing call raised; that a
stream cannot be closed never takes the place of what the store failed with.
-/
import WikiMigration.Proofs.Migration.Watched

namespace WikiMigration.Migration

open Store

variable {σ ρ τ : Type}

/-! ### What calls tell of streams and attachments -/

/-- Whether the call opens or closes a stream of the source. -/
def CrewCall.isOfSource : CrewCall σ ρ τ → Bool
  | .opened .. | .closed .. => true
  | _ => false

/-- Whether the call stores an attachment. -/
def CrewCall.isStoring : CrewCall σ ρ τ → Bool
  | .stored .. => true
  | _ => false

/-- The attachment that a call opens. -/
def CrewCall.opening? : CrewCall σ ρ τ → Option Attachment
  | .opened _ attachment _ => some attachment
  | _ => none

/-- The attachment that a call stores. -/
def CrewCall.storing? : CrewCall σ ρ τ → Option Attachment
  | .stored copy _ _ => some copy
  | _ => none

/-- Each stream that is opened is closed once, and nothing else is opened or closed in between. -/
inductive Released : List (CrewCall σ ρ τ) → Prop
  | none : Released []
  | refused {page : List Char} {attachment : Attachment} {e : Failure} {rest : List (CrewCall σ ρ τ)}
      (others : Released rest) : Released (.opened page attachment (.error e) :: rest)
  | closed {page : List Char} {attachment : Attachment} {stream : ρ} {result : Except Failure Unit}
      {rest : List (CrewCall σ ρ τ)} (others : Released rest) :
      Released (.opened page attachment (.ok stream) :: .closed stream result :: rest)

theorem Released.append {front back : List (CrewCall σ ρ τ)} (h : Released front) (h' : Released back) :
    Released (front ++ back) := by
  induction h with
  | none => exact h'
  | refused _ ih => exact .refused ih
  | closed _ ih => exact .closed ih

/-- Each of the attachments was opened and stored, in order, and no call failed. -/
structure EachCopied (page : List Char) (attachments : List Attachment) (calls : List (CrewCall σ ρ τ)) :
    Prop where
  opened : calls.filterMap CrewCall.opening? = attachments
  stored : calls.filterMap CrewCall.storing? = attachments.map (copyOf page)
  succeeded : ∀ call ∈ calls, call.failure? = none

/-- What leaves if a copy is not what was stored. -/
abbrev mismatchOf (page file : List Char) : Failure :=
  .classified ⟨.storage, "Checksum mismatch for attachment '" ++ String.ofList file ++ "' of page '"
    ++ String.ofList page ++ "'", some (String.ofList page)⟩

/-- Why copying an attachment failed. -/
inductive Cause (options : Options) (page : List Char) (attachment : Attachment)
    (calls : List (CrewCall σ ρ τ)) : Failure → Prop
  /-- A call failed; if the store did, it is that call. -/
  | call {call : CrewCall σ ρ τ} {e : Failure} (made : call ∈ calls) (failed : call.failure? = some e)
      (kept : ∀ other ∈ calls, other.isStoring = true → other.failure? ≠ none → other = call) :
      Cause options page attachment calls (call.raised page attachment.file e)
  /-- No call failed, but what was read back is not what was stored. -/
  | mismatch {reader : StreamReader σ} {version : Option Int} {bytes copy : Files.Bytes} {stream : τ}
      (verifies : options.verifies = true) (succeeded : ∀ call ∈ calls, call.failure? = none)
      (stored : .stored (copyOf page attachment) reader (.ok (version, bytes)) ∈ calls)
      (read : .copyRead stream none (.ok copy) ∈ calls)
      (differs : Checksum.sha256 copy ≠ Checksum.sha256 bytes) :
      Cause options page attachment calls (mismatchOf page attachment.file)

/-- The attachment was opened, or was to be; it is the only one, and copying it failed. -/
structure GivenUp (options : Options) (page : List Char) (attachment : Attachment)
    (calls : List (CrewCall σ ρ τ)) (e : Failure) : Prop where
  opened : calls.filterMap CrewCall.opening? = [attachment]
  stored : calls.filterMap CrewCall.storing? <+: [copyOf page attachment]
  cause : Cause options page attachment calls e

theorem EachCopied.none {page : List Char} : EachCopied page [] ([] : List (CrewCall σ ρ τ)) :=
  ⟨rfl, rfl, by simp⟩

theorem EachCopied.append {page : List Char} {attachments others : List Attachment}
    {front back : List (CrewCall σ ρ τ)} (h : EachCopied page attachments front)
    (h' : EachCopied page others back) : EachCopied page (attachments ++ others) (front ++ back) := by
  refine ⟨?_, ?_, ?_⟩
  · rw [List.filterMap_append, h.opened, h'.opened]
  · rw [List.filterMap_append, List.map_append, h.stored, h'.stored]
  · intro call hcall
    rcases List.mem_append.mp hcall with hcall | hcall
    · exact h.succeeded call hcall
    · exact h'.succeeded call hcall

/-- What storing an attachment brings about, and no call undoes, is still so at the end. -/
theorem EachCopied.stays {crew : Crew σ ρ τ} {page : List Char} {attachments : List Attachment}
    {front back : List (CrewCall σ ρ τ)} {w w' : σ} (h : EachCopied page attachments front)
    (hthrough : Through crew w (front ++ back) w') {Holds : Attachment → σ → Prop}
    (hstored : ∀ {attachment reader stored w w'},
      Made crew w w' (.stored (copyOf page attachment) reader (.ok stored)) → Holds attachment w')
    (hkept : ∀ {attachment call w w'}, Made crew w w' call → Holds attachment w → Holds attachment w')
    {attachment : Attachment} (hmem : attachment ∈ attachments) : Holds attachment w' := by
  have hcopy : copyOf page attachment ∈ front.filterMap CrewCall.storing? := by
    rw [h.stored]
    exact List.mem_map_of_mem hmem
  obtain ⟨call, hcall, hstoring⟩ := List.mem_filterMap.mp hcopy
  have hsucceeded := h.succeeded call hcall
  obtain ⟨before, after, rfl⟩ := List.append_of_mem hcall
  rw [List.append_assoc, List.cons_append] at hthrough
  obtain ⟨w₁, -, hthrough⟩ := hthrough.split
  cases hthrough with
  | next made others =>
    cases call with
    | stored copy reader result =>
      obtain rfl := Option.some.inj hstoring
      cases result with
      | ok stored => exact others.keeps (fun hmade => hkept hmade) (hstored made)
      | error e => exact absurd hsucceeded (by simp [CrewCall.failure?])
    | _ => exact absurd hstoring (by simp [CrewCall.storing?])

/-! ### One attachment -/

section Attachment

variable (crew : Crew σ ρ τ) (options : Options) (page : List Char)

/-- The calls that read a stored attachment back, with what comes of it. -/
inductive ReadBackCalls (stored : Attachment) :
    List (CrewCall σ ρ τ) → Except Failure Files.Bytes → Prop
  | notOpened {e : Failure} : ReadBackCalls stored [.copyOpened page stored (.error e)] (.error e)
  | notClosed {stream : τ} {result : Except Failure Files.Bytes} {e : Failure} :
      ReadBackCalls stored [.copyOpened page stored (.ok stream), .copyRead stream none result,
        .copyClosed stream (.error e)] (.error e)
  | closed {stream : τ} {result : Except Failure Files.Bytes} :
      ReadBackCalls stored [.copyOpened page stored (.ok stream), .copyRead stream none result,
        .copyClosed stream (.ok ())] result

/-- The calls that compare a stored attachment with the bytes that were to be stored. -/
inductive VerifyCalls (stored : Attachment) (bytes : Files.Bytes) :
    List (CrewCall σ ρ τ) → Except Failure Unit → Prop
  | notReadBack {calls : List (CrewCall σ ρ τ)} {e : Failure}
      (readBack : ReadBackCalls page stored calls (.error e)) :
      VerifyCalls stored bytes calls (.error (.classified (e.atBoundary .storage
        (some (String.ofList page)) ("Verifying attachment '" ++ String.ofList stored.file ++ "'"))))
  | mismatch {calls : List (CrewCall σ ρ τ)} {copy : Files.Bytes}
      (readBack : ReadBackCalls page stored calls (.ok copy))
      (differs : Checksum.sha256 copy ≠ Checksum.sha256 bytes) :
      VerifyCalls stored bytes calls (.error (mismatchOf page stored.file))
  | agrees {calls : List (CrewCall σ ρ τ)} {copy : Files.Bytes}
      (readBack : ReadBackCalls page stored calls (.ok copy))
      (agrees : Checksum.sha256 copy = Checksum.sha256 bytes) :
      VerifyCalls stored bytes calls (.ok ())

/-- The calls that copy an attachment and compare it, with what comes of it. -/
inductive CopyCalls (attachment : Attachment) : List (CrewCall σ ρ τ) → Except Failure Unit → Prop
  | notOpened {e : Failure} :
      CopyCalls attachment [.opened page attachment (.error e)]
        (.error (CrewCall.raised page attachment.file
          (.opened page attachment (.error e) : CrewCall σ ρ τ) e))
  | notStored {stream : ρ} {closing : Except Failure Unit} {e : Failure} :
      CopyCalls attachment
        [.opened page attachment (.ok stream),
          .stored (copyOf page attachment) (crew.sourceFiles.read stream) (.error e),
          .closed stream closing]
        (.error (CrewCall.raised page attachment.file
          (.stored (copyOf page attachment) (crew.sourceFiles.read stream) (.error e) : CrewCall σ ρ τ) e))
  | notClosed {stream : ρ} {stored : Option Int × Files.Bytes} {e : Failure} :
      CopyCalls attachment
        [.opened page attachment (.ok stream),
          .stored (copyOf page attachment) (crew.sourceFiles.read stream) (.ok stored),
          .closed stream (.error e)]
        (.error (CrewCall.raised page attachment.file (.closed stream (.error e) : CrewCall σ ρ τ) e))
  | trusted {stream : ρ} {stored : Option Int × Files.Bytes} (trusts : options.verifies = false) :
      CopyCalls attachment
        [.opened page attachment (.ok stream),
          .stored (copyOf page attachment) (crew.sourceFiles.read stream) (.ok stored),
          .closed stream (.ok ())] (.ok ())
  | compared {stream : ρ} {version : Option Int} {bytes : Files.Bytes} {calls : List (CrewCall σ ρ τ)}
      {result : Except Failure Unit} (verifies : options.verifies = true)
      (compared : VerifyCalls page (storedAs page attachment version) bytes calls result) :
      CopyCalls attachment
        (.opened page attachment (.ok stream) ::
          .stored (copyOf page attachment) (crew.sourceFiles.read stream) (.ok (version, bytes)) ::
          .closed stream (.ok ()) :: calls) result

variable {crew options page}

theorem tells_readBack (stored : Attachment) :
    Tells crew (ReadBackCalls page stored) (readBack crew.watched page stored)
      (readBack crew page stored) := by
  refine ((tells_copyOpened crew page stored).bind fun stream =>
    (tells_copyRead crew stream none).attempt fun result =>
      (tells_copyClosed crew stream).bind fun _ => tells_ofResult result).mono ?_
  rintro calls result (⟨e, rfl, rfl⟩ | ⟨stream, _, _, rfl, rfl, read, _, _, rfl, rfl, h⟩)
  · exact .notOpened
  rcases h with ⟨e, rfl, rfl⟩ | ⟨_, _, _, rfl, rfl, rfl, rfl⟩
  · exact .notClosed
  · exact .closed

theorem tells_closeAfterFailure (name file : String) (stream : ρ) :
    Tells crew (fun calls result => (∃ closing, calls = [.closed stream closing]) ∧ result = .ok ())
      (closeAfterFailure crew.watched options name file stream)
      (closeAfterFailure crew options name file stream) := by
  refine ((tells_closed crew stream).attempt
    (N := fun _ calls result => calls = [] ∧ result = .ok ()) fun closing => ?_).mono ?_
  · cases closing with
    | ok _ => exact tells_pure ()
    | error e => exact tells_note _ _ _
  rintro calls result ⟨closing, _, _, rfl, rfl, rfl, rfl⟩
  exact ⟨⟨closing, rfl⟩, rfl⟩

theorem tells_verify (stored : Attachment) (bytes : Files.Bytes) :
    Tells crew (VerifyCalls page stored bytes) (verify crew.watched page stored bytes)
      (verify crew page stored bytes) := by
  refine ((tells_readBack stored).step .storage _ _
    (N := fun copy calls result => calls = [] ∧ ∀ front : List (CrewCall σ ρ τ),
      ReadBackCalls page stored front (.ok copy) → VerifyCalls page stored bytes front result)
    fun copy => ?_).mono ?_
  · by_cases hsum : Checksum.sha256 copy = Checksum.sha256 bytes
    · simp only [hsum, beq_self_eq_true, if_true]
      refine (tells_pure ()).mono ?_
      rintro calls result ⟨rfl, rfl⟩
      exact ⟨rfl, fun front h => .agrees h hsum⟩
    · have hne : (Checksum.sha256 copy == Checksum.sha256 bytes) = false := by simpa using hsum
      simp only [hne, Bool.false_eq_true, if_false]
      refine (tells_fail _).mono ?_
      rintro calls result ⟨rfl, rfl⟩
      exact ⟨rfl, fun front h => .mismatch h hsum⟩
  rintro calls result (⟨e, h, rfl⟩ | ⟨copy, front, back, rfl, h, rfl, h'⟩)
  · exact .notReadBack h
  · rw [List.append_nil]
    exact h' front h

/-- **The calls that copy an attachment are one of the sequences of `CopyCalls`.** -/
theorem tells_copyAttachment (attachment : Attachment) :
    Tells crew (CopyCalls crew options page attachment)
      (copyAttachment crew.watched options page attachment)
      (copyAttachment crew options page attachment) := by
  refine ((tells_opened crew page attachment).step .resource _ _ (N := fun stream calls result =>
    CopyCalls crew options page attachment (.opened page attachment (.ok stream) :: calls) result)
    fun stream => ?_).mono ?_
  · refine (((tells_stored crew (copyOf page attachment) stream).boundary .storage _ _).attempt
      (N := fun stored calls result =>
        match stored with
        | .error e => (∃ closing, calls = [.closed stream closing]) ∧ result = .error e
        | .ok pair => CopyCalls crew options page attachment
          (.opened page attachment (.ok stream) ::
            .stored (copyOf page attachment) (crew.sourceFiles.read stream) (.ok pair) :: calls) result)
      fun stored => ?_).mono ?_
    · cases stored with
      | error e =>
        refine ((tells_closeAfterFailure _ _ stream).bind fun _ => tells_fail e).mono ?_
        rintro calls result (⟨_, ⟨-, h⟩, -⟩ | ⟨_, front, back, rfl, ⟨⟨closing, rfl⟩, -⟩, rfl, rfl⟩)
        · exact absurd h (by simp)
        · exact ⟨⟨closing, rfl⟩, rfl⟩
      | ok pair =>
        obtain ⟨version, bytes⟩ := pair
        refine ((tells_closed crew stream).step .resource _ _
          (N := fun _ calls result => (options.verifies = false ∧ calls = [] ∧ result = .ok ()) ∨
            options.verifies = true ∧
              VerifyCalls page (storedAs page attachment version) bytes calls result)
          fun _ => ?_).mono ?_
        · by_cases hv : options.verifies = true
          · simp only [hv, if_true]
            refine ((tells_verify (storedAs page attachment version) bytes).bind fun _ =>
              tells_note _ _ _).mono ?_
            rintro calls result (⟨e, h, rfl⟩ | ⟨_, front, back, rfl, h, rfl, rfl⟩)
            · exact .inr ⟨trivial, h⟩
            · rw [List.append_nil]
              exact .inr ⟨trivial, h⟩
          · simp only [hv, Bool.false_eq_true, if_false]
            refine (tells_note _ _ _).mono ?_
            rintro calls result ⟨rfl, rfl⟩
            exact .inl ⟨by simp, rfl, rfl⟩
        rintro calls result (⟨e, rfl, rfl⟩ | ⟨_, front, back, rfl, rfl, ⟨hv, rfl, rfl⟩ | ⟨hv, h⟩⟩)
        · exact .notClosed
        · exact .trusted hv
        · exact .compared hv h
    rintro calls result ⟨_, front, back, rfl, ⟨pair, rfl, rfl⟩ | ⟨e, rfl, rfl⟩, h⟩
    · exact h
    · obtain ⟨⟨closing, rfl⟩, rfl⟩ := h
      exact .notStored
  · rintro calls result (⟨e, rfl, rfl⟩ | ⟨stream, front, back, rfl, rfl, h⟩)
    · exact .notOpened
    · exact h

/-- What is called to compare a copy neither opens nor stores anything of the source. -/
theorem ReadBackCalls.apart {stored : Attachment} {calls : List (CrewCall σ ρ τ)}
    {result : Except Failure Files.Bytes} (h : ReadBackCalls page stored calls result) :
    calls.filter CrewCall.isOfSource = [] ∧ calls.filterMap CrewCall.opening? = [] ∧
      calls.filterMap CrewCall.storing? = [] ∧ ∀ call ∈ calls, call.isStoring = false := by
  cases h <;> simp [CrewCall.isOfSource, CrewCall.opening?, CrewCall.storing?, CrewCall.isStoring]

/-- A comparison in which no call failed read the whole copy. -/
theorem ReadBackCalls.of_ok {stored : Attachment} {calls : List (CrewCall σ ρ τ)} {copy : Files.Bytes}
    (h : ReadBackCalls page stored calls (.ok copy)) :
    (∀ call ∈ calls, call.failure? = none) ∧
      ∃ stream, .copyRead stream none (.ok copy) ∈ calls := by
  cases h with
  | closed => simp [CrewCall.failure?]

/-- A copy that could not be read back failed in one of the calls. -/
theorem ReadBackCalls.of_error {stored : Attachment} {calls : List (CrewCall σ ρ τ)} {e : Failure}
    (h : ReadBackCalls page stored calls (.error e)) :
    ∃ call ∈ calls, call.failure? = some e ∧ CrewCall.raised page stored.file call e =
      .classified (e.atBoundary .storage (some (String.ofList page))
        ("Verifying attachment '" ++ String.ofList stored.file ++ "'")) := by
  cases h with
  | notOpened => exact ⟨_, List.mem_singleton_self _, rfl, rfl⟩
  | @notClosed stream result _ => exact ⟨.copyClosed stream (.error e), by simp, rfl, rfl⟩
  | @closed stream _ => exact ⟨.copyRead stream none (.error e), by simp, rfl, rfl⟩

theorem VerifyCalls.apart {stored : Attachment} {bytes : Files.Bytes} {calls : List (CrewCall σ ρ τ)}
    {result : Except Failure Unit} (h : VerifyCalls page stored bytes calls result) :
    calls.filter CrewCall.isOfSource = [] ∧ calls.filterMap CrewCall.opening? = [] ∧
      calls.filterMap CrewCall.storing? = [] ∧ ∀ call ∈ calls, call.isStoring = false := by
  cases h with
  | notReadBack h => exact h.apart
  | mismatch h _ => exact h.apart
  | agrees h _ => exact h.apart

/-- **The stream of an attachment that is copied is closed once, whatever happens.** -/
theorem CopyCalls.released {attachment : Attachment} {calls : List (CrewCall σ ρ τ)}
    {result : Except Failure Unit} (h : CopyCalls crew options page attachment calls result) :
    Released (calls.filter CrewCall.isOfSource) := by
  cases h with
  | notOpened => exact .refused .none
  | notStored => exact .closed .none
  | notClosed => exact .closed .none
  | trusted _ => exact .closed .none
  | compared _ h =>
    simp only [List.filter_cons, CrewCall.isOfSource, if_true, Bool.false_eq_true, if_false, h.apart.1]
    exact .closed .none

/-- What the calls that copy an attachment come to: either it was copied, or it is given up. -/
theorem CopyCalls.copied_or_givenUp {attachment : Attachment} {calls : List (CrewCall σ ρ τ)}
    {result : Except Failure Unit} (h : CopyCalls crew options page attachment calls result) :
    (result = .ok () ∧ EachCopied page [attachment] calls) ∨
      ∃ e, result = .error e ∧ GivenUp options page attachment calls e := by
  cases h with
  | notOpened =>
    refine .inr ⟨_, rfl, rfl, List.nil_prefix, .call (List.mem_singleton_self _) rfl ?_⟩
    simp [CrewCall.isStoring]
  | notStored =>
    refine .inr ⟨_, rfl, rfl, List.prefix_rfl, .call (by simp) rfl ?_⟩
    simp [CrewCall.isStoring]
  | notClosed =>
    refine .inr ⟨_, rfl, rfl, List.prefix_rfl, .call (by simp) rfl ?_⟩
    simp [CrewCall.isStoring, CrewCall.failure?]
  | trusted _ =>
    refine .inl ⟨rfl, rfl, rfl, ?_⟩
    simp [CrewCall.failure?]
  | @compared stream version bytes back _ verifies h =>
    obtain ⟨-, hopening, hstoring, hnot⟩ := h.apart
    have hopened : attachment :: back.filterMap CrewCall.opening? = [attachment] := by rw [hopening]
    have hstored : copyOf page attachment :: back.filterMap CrewCall.storing? =
        [copyOf page attachment] := by rw [hstoring]
    -- The calls of the comparison stand behind three calls that came to values.
    cases h with
    | notReadBack h =>
      obtain ⟨call, hmem, hfailed, hraised⟩ := h.of_error
      refine .inr ⟨_, rfl, hopened, hstored ▸ List.prefix_rfl, hraised ▸ .call (by simp [hmem]) hfailed ?_⟩
      rintro other hother hstoring hne
      simp only [List.mem_cons] at hother
      rcases hother with rfl | rfl | rfl | hother
      · exact absurd rfl hne
      · exact absurd rfl hne
      · exact absurd rfl hne
      · exact absurd hstoring (by simp [hnot other hother])
    | mismatch h differs =>
      obtain ⟨hall, copied, hread⟩ := h.of_ok
      refine .inr ⟨_, rfl, hopened, hstored ▸ List.prefix_rfl, .mismatch verifies ?_
        (List.mem_cons_of_mem _ List.mem_cons_self)
        (List.mem_cons_of_mem _ (List.mem_cons_of_mem _ (List.mem_cons_of_mem _ hread))) differs⟩
      simpa [CrewCall.failure?] using hall
    | agrees h _ =>
      refine .inl ⟨rfl, hopened, hstored, ?_⟩
      simpa [CrewCall.failure?] using h.of_ok.1

end Attachment

/-! ### The attachments of a page -/

section Attachments

variable (options : Options) (page : List Char)

/-- What the calls that copy attachments one after the other come to: all of them are copied, or those
before one that is given up. -/
inductive CopiesTold : List Attachment → List (CrewCall σ ρ τ) → Except Failure Unit → Prop
  | copied {attachments : List Attachment} {calls : List (CrewCall σ ρ τ)}
      (copied : EachCopied page attachments calls) : CopiesTold attachments calls (.ok ())
  | abandoned {done rest : List Attachment} {failing : Attachment} {front last : List (CrewCall σ ρ τ)}
      {e : Failure} (before : EachCopied page done front)
      (givenUp : GivenUp options page failing last e) :
      CopiesTold (done ++ failing :: rest) (front ++ last) (.error e)

/-- What the calls that migrate the attachments of a page come to. -/
inductive FilesTold : List (CrewCall σ ρ τ) → Except Failure Nat → Prop
  | notListed {e : Failure} :
      FilesTold [.listed page (.error e)]
        (.error (CrewCall.raised page [] (.listed page (.error e) : CrewCall σ ρ τ) e))
  /-- There is nothing to copy, or nothing is to be copied. -/
  | counted {attachments : List Attachment} (nothing : attachments = [] ∨ options.isDry = true) :
      FilesTold [.listed page (.ok attachments)] (.ok attachments.length)
  | copied {attachments : List Attachment} {calls : List (CrewCall σ ρ τ)} (real : options.isDry = false)
      (copied : EachCopied page attachments calls) :
      FilesTold (.listed page (.ok attachments) :: calls) (.ok attachments.length)
  /-- The attachments before the failing one were copied; those behind it were not opened. -/
  | abandoned {done rest : List Attachment} {failing : Attachment} {front last : List (CrewCall σ ρ τ)}
      {e : Failure} (real : options.isDry = false) (before : EachCopied page done front)
      (givenUp : GivenUp options page failing last e) :
      FilesTold (.listed page (.ok (done ++ failing :: rest)) :: (front ++ last)) (.error e)

variable {options page}

/-- One more attachment that was copied, in front of the others. -/
theorem CopiesTold.cons {attachment : Attachment} {rest : List Attachment}
    {front calls : List (CrewCall σ ρ τ)} {result : Except Failure Unit}
    (h : EachCopied page [attachment] front) (h' : CopiesTold options page rest calls result) :
    CopiesTold options page (attachment :: rest) (front ++ calls) result := by
  cases h' with
  | copied h' => exact .copied (h.append h')
  | @abandoned done rest failing middle last e before givenUp =>
    have hbefore : EachCopied page (attachment :: done) (front ++ middle) := h.append before
    rw [← List.append_assoc]
    exact .abandoned hbefore givenUp

theorem tells_copyAll (crew : Crew σ ρ τ) (attachments : List Attachment) :
    Tells crew
      (fun calls result => Released (calls.filter CrewCall.isOfSource) ∧
        CopiesTold options page attachments calls result)
      (copyAll crew.watched options page attachments) (copyAll crew options page attachments) := by
  induction attachments with
  | nil =>
    refine (tells_pure ()).mono ?_
    rintro calls result ⟨rfl, rfl⟩
    exact ⟨.none, .copied .none⟩
  | cons attachment rest ih =>
    refine ((tells_copyAttachment attachment).bind fun _ => ih).mono ?_
    rintro calls result (⟨e, h, rfl⟩ | ⟨_, front, back, rfl, h, hreleased, htold⟩)
    · refine ⟨h.released, ?_⟩
      rcases h.copied_or_givenUp with ⟨he, -⟩ | ⟨_, he, hgiven⟩
      · exact absurd he (by simp)
      · obtain rfl := Except.error.inj he
        exact .abandoned .none hgiven
    · refine ⟨?_, ?_⟩
      · rw [List.filter_append]
        exact h.released.append hreleased
      · rcases h.copied_or_givenUp with ⟨-, hcopied⟩ | ⟨_, he, -⟩
        · exact .cons hcopied htold
        · exact absurd he (by simp)

end Attachments

/-- **Whatever the calls of the stores come to, every stream is released, and the first attachment that
fails is the last one.**  The migration of a page's attachments asks of the crew what `FilesTold` tells:
each stream of the source that is opened is closed once, before another attachment is opened; what leaves
is what a call of the failing attachment raised, and it is what the store failed with if the store failed;
the calls account for all that happens to the world. -/
theorem migrateAttachments_released (crew : Crew σ ρ τ) (options : Options) (page : List Char) (w : σ) :
    ∃ calls : List (CrewCall σ ρ τ),
      migrateAttachments crew.watched options page (w, []) =
        ⟨(migrateAttachments crew options page w).result,
          ((migrateAttachments crew options page w).world, calls),
          (migrateAttachments crew options page w).output⟩ ∧
      Through crew w calls (migrateAttachments crew options page w).world ∧
      Released (calls.filter CrewCall.isOfSource) ∧
      FilesTold options page calls (migrateAttachments crew options page w).result := by
  have htells : Tells crew
      (fun calls result => Released (calls.filter CrewCall.isOfSource) ∧ FilesTold options page calls result)
      (migrateAttachments crew.watched options page) (migrateAttachments crew options page) := by
    refine ((tells_listed crew page).step .storage _ _ (N := fun attachments calls result =>
      Released (calls.filter CrewCall.isOfSource) ∧
        FilesTold options page (.listed page (.ok attachments) :: calls) result)
      fun attachments => ?_).mono ?_
    · by_cases hempty : attachments = []
      · simp only [hempty, List.isEmpty_nil, if_true]
        refine (tells_pure 0).mono ?_
        rintro calls result ⟨rfl, rfl⟩
        exact ⟨.none, .counted (.inl rfl)⟩
      have hne : attachments.isEmpty = false := by simpa using hempty
      by_cases hdry : options.isDry = true
      · simp only [hne, hdry, Bool.false_eq_true, if_false, if_true]
        refine ((tells_note _ _ _).bind fun _ => tells_pure attachments.length).mono ?_
        rintro calls result (⟨_, ⟨-, h⟩, -⟩ | ⟨_, _, _, rfl, ⟨rfl, -⟩, rfl, rfl⟩)
        · exact absurd h (by simp)
        · exact ⟨.none, .counted (.inr hdry)⟩
      · have hreal : options.isDry = false := by simpa using hdry
        simp only [hne, hreal, Bool.false_eq_true, if_false]
        refine ((tells_note _ _ _).bind fun _ => (tells_copyAll crew attachments).bind fun _ =>
          tells_pure attachments.length).mono ?_
        rintro calls result (⟨_, ⟨-, h⟩, -⟩ | ⟨_, _, back, rfl, ⟨rfl, -⟩, h⟩)
        · exact absurd h (by simp)
        rw [List.nil_append]
        rcases h with ⟨e, ⟨hreleased, htold⟩, rfl⟩ | ⟨_, front, _, rfl, ⟨hreleased, htold⟩, rfl, rfl⟩
        · cases htold with
          | abandoned before givenUp => exact ⟨hreleased, .abandoned hreal before givenUp⟩
        · rw [List.append_nil]
          cases htold with
          | copied copied => exact ⟨hreleased, .copied hreal copied⟩
    · rintro calls result (⟨e, rfl, rfl⟩ | ⟨attachments, _, back, rfl, rfl, hreleased, htold⟩)
      · exact ⟨.none, .notListed⟩
      · exact ⟨hreleased, htold⟩
  simpa using htells w []

end WikiMigration.Migration
