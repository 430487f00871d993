/-
Attachments that are copied from files to files.

Whatever links there are, a copy takes the place of nothing, and what is read back of it is what was
stored, so the checksums never differ.  Where no links stand among the page's attachments, a copy is told
place by place: it is the latest version of its attachment and it stays so, for the other attachments have
directories of their own.  That the source may be the target, or lie within it, makes no difference: what is
new is none of the versions that are still to be copied.

Streams are read at once here; `Store.drains_iff` tells that reading them in chunks comes to the same.
-/
import WikiMigration.Proofs.Migration.Passage
import WikiMigration.Proofs.Migration.Release
import WikiMigration.Proofs.Store.Lasting
import WikiMigration.Proofs.Store.Undisturbed

namespace WikiMigration.Migration

open Text Files Files.Tree Store Action

variable {crew : Crew World Nat Nat} {source target : FileAttachments} {options : Options}
variable {page : List Char} {attachment : Attachment} {w w₁ w₂ w' : World}

/-- The crew keeps attachments in files. -/
structure OverFiles (crew : Crew World Nat Nat) (source target : FileAttachments) : Prop where
  source : crew.sourceFiles = source.interface
  target : crew.targetFiles = target.interface

/-! ### What is raised -/

/-- The failure is that of a copy that is not what was stored. -/
def IsMismatch (e : Failure) : Prop := ∃ page file, e = mismatchOf page file

theorem IsMismatch.front {c : MigrationError} (h : IsMismatch (.classified c)) :
    "Ch".toList <+: c.message.toList := by
  obtain ⟨page, file, heq⟩ := h
  cases heq
  exact prefix_toList_append (prefix_toList_append (prefix_toList_append (prefix_toList_append (by decide) _)
    _) _) _

/-- Two texts that begin differently are not the same one. -/
theorem not_both_fronts {front other all : List Char} (h : front <+: all) (h' : other <+: all)
    (clash : ¬ front <+: other ∧ ¬ other <+: front) : False :=
  (List.prefix_or_prefix_of_prefix h h').elim clash.1 clash.2

/-- No step has a name that begins like the failure of a copy. -/
theorem step_front {σ ρ τ : Type} (call : CrewCall σ ρ τ) (file : List Char) :
    ∃ front, front <+: (call.step file).toList ∧ ¬ front <+: "Ch".toList ∧ ¬ "Ch".toList <+: front := by
  have ofFile : ∀ {front text : String}, front.toList <+: text.toList →
      ¬ front.toList <+: "Ch".toList ∧ ¬ "Ch".toList <+: front.toList →
      ∃ front, front <+: (text ++ String.ofList file ++ "'").toList ∧ ¬ front <+: "Ch".toList ∧
        ¬ "Ch".toList <+: front :=
    fun h clash => ⟨_, prefix_toList_append (prefix_toList_append h _) _, clash⟩
  have plain : ∀ {front text : String}, front.toList <+: text.toList →
      ¬ front.toList <+: "Ch".toList ∧ ¬ "Ch".toList <+: front.toList →
      ∃ front, front <+: text.toList ∧ ¬ front <+: "Ch".toList ∧ ¬ "Ch".toList <+: front :=
    fun h clash => ⟨_, h, clash⟩
  cases call with
  | listed => exact @plain "Li" "Listing attachments" (by decide) (by decide)
  | opened => exact @ofFile "Op" "Opening attachment '" (by decide) (by decide)
  | stored => exact @ofFile "St" "Storing attachment '" (by decide) (by decide)
  | closed => exact @ofFile "Cl" "Closing attachment '" (by decide) (by decide)
  | copyOpened | copyRead | copyClosed =>
    exact @ofFile "Ve" "Verifying attachment '" (by decide) (by decide)
  | read => exact @plain "Re" "Reading page" (by decide) (by decide)
  | rendered => exact @plain "Re" "Rendering" (by decide) (by decide)
  | written => exact @plain "Tr" "Translating" (by decide) (by decide)
  | hooked => exact @plain "Po" "Post-processing" (by decide) (by decide)
  | saved => exact @plain "Sa" "Saving page" (by decide) (by decide)

/-- What a refusal is raised as does not say that checksums differ. -/
theorem not_isMismatch_raised {σ ρ τ : Type} (call : CrewCall σ ρ τ) {file : List Char} {e : Failure}
    (h : IsRefusal e) : ¬ IsMismatch (call.raised page file e) := by
  intro hmismatch
  obtain ⟨front, hstep, clash⟩ := step_front call file
  have raised : ∀ text, ¬ "Ch".toList <+:
      (stepMessage (call.step file) (some (String.ofList page)) text).toList :=
    fun text hfront => not_both_fronts (prefix_toList_append (prefix_toList_append (prefix_toList_append
      (prefix_toList_append hstep _) _) _) _) hfront clash
  cases e with
  | classified c => exact not_both_fronts (h c rfl) hmismatch.front (by decide)
  | system sort text => exact raised text hmismatch.front
  | other sort text => exact raised text hmismatch.front

/-! ### Calls on files -/

/-- The call looks at attachments, and stores none. -/
def CrewCall.isLooking {σ ρ τ : Type} : CrewCall σ ρ τ → Bool
  | .listed .. | .opened .. | .closed .. | .copyOpened .. | .copyRead .. | .copyClosed .. => true
  | _ => false

theorem tree_of_looking {call : CrewCall World Nat Nat} (filed : OverFiles crew source target)
    (made : Made crew w w' call) (looking : call.isLooking = true) : w'.tree = w.tree := by
  have same : w'.disk = w.disk := by
    cases call with
    | listed page result =>
      rw [Made, filed.source, gives_attempt] at made
      exact source.preserves_list page w w' made.2
    | opened page attachment result =>
      rw [Made, filed.source, gives_attempt] at made
      exact source.preserves_openStream page attachment w w' made.2
    | closed stream result =>
      rw [Made, filed.source, gives_attempt] at made
      exact FileAttachments.preserves_close stream w w' made.2
    | copyOpened page stored result =>
      rw [Made, filed.target, gives_attempt] at made
      exact target.preserves_openStream page stored w w' made.2
    | copyRead stream size result =>
      rw [Made, filed.target, gives_attempt] at made
      exact FileAttachments.preserves_read stream size w w' made.2
    | copyClosed stream result =>
      rw [Made, filed.target, gives_attempt] at made
      exact FileAttachments.preserves_close stream w w' made.2
    | _ => cases looking
  exact (disk_eq_iff.mp same).1

theorem tree_of_through {calls : List (CrewCall World Nat Nat)} (filed : OverFiles crew source target)
    (through : Through crew w calls w') (looking : ∀ call ∈ calls, call.isLooking = true) :
    w'.tree = w.tree := by
  induction through with
  | none => rfl
  | next made others ih =>
    exact (ih fun call hcall => looking call (List.mem_cons_of_mem _ hcall)).trans
      (tree_of_looking filed made (looking _ List.mem_cons_self))

theorem Through.made {calls : List (CrewCall World Nat Nat)} {call : CrewCall World Nat Nat}
    (through : Through crew w calls w') (hcall : call ∈ calls) :
    ∃ before after, Made crew before after call := by
  induction through with
  | none => cases hcall
  | next made others ih =>
    rcases List.mem_cons.mp hcall with rfl | hcall
    · exact ⟨_, _, made⟩
    · exact ih hcall

/-- What such a call fails with is a refusal. -/
theorem isRefusal_of_looking {call : CrewCall World Nat Nat} {e : Failure}
    (filed : OverFiles crew source target) (made : Made crew w w' call) (looking : call.isLooking = true)
    (failed : call.failure? = some e) : IsRefusal e := by
  have hresult : ∀ {α : Type} {result : Except Failure α}, failureOf result = some e → result = .error e := by
    intro α result h
    cases result with
    | ok a => cases h
    | error e' => exact congrArg Except.error (Option.some.inj h)
  cases call with
  | listed page result =>
    rw [Made, filed.source, hresult failed, gives_attempt] at made
    exact source.refuses_list page w e w' made
  | opened page attachment result =>
    rw [Made, filed.source, hresult failed, gives_attempt] at made
    exact source.refuses_openStream page attachment w e w' made
  | closed stream result =>
    rw [Made, filed.source, hresult failed, gives_attempt] at made
    exact refuses_change _ w e w' made
  | copyOpened page stored result =>
    rw [Made, filed.target, hresult failed, gives_attempt] at made
    exact target.refuses_openStream page stored w e w' made
  | copyRead stream size result =>
    rw [Made, filed.target, hresult failed, gives_attempt] at made
    exact FileAttachments.refuses_read stream size w e w' made
  | copyClosed stream result =>
    rw [Made, filed.target, hresult failed, gives_attempt] at made
    exact refuses_change _ w e w' made
  | _ => cases looking

theorem ReadBackCalls.looking {stored : Attachment} {calls : List (CrewCall World Nat Nat)}
    {result : Except Failure Bytes} (h : ReadBackCalls page stored calls result) :
    ∀ call ∈ calls, call.isLooking = true := by
  cases h <;> simp [CrewCall.isLooking]

theorem VerifyCalls.looking {stored : Attachment} {bytes : Bytes} {calls : List (CrewCall World Nat Nat)}
    {result : Except Failure Unit} (h : VerifyCalls page stored bytes calls result) :
    ∀ call ∈ calls, call.isLooking = true := by
  cases h with
  | notReadBack h => exact h.looking
  | mismatch h _ => exact h.looking
  | agrees h _ => exact h.looking

/-- **What is read back is what stands in the version's place.** -/
theorem ReadBackCalls.reads {version : Nat} {bytes copy : Bytes} {calls : List (CrewCall World Nat Nat)}
    (h : ReadBackCalls page (storedAs page attachment (some (version : Int))) calls (.ok copy))
    (filed : OverFiles crew source target) (through : Through crew w calls w') (numbered : version ≠ 0)
    (reads : w.tree.read ((target.versions (copyOf page attachment)).child
      (versionName attachment.file version)) = .ok bytes) : copy = bytes := by
  cases h with
  | closed =>
    cases through with
    | next opened others =>
      cases others with
      | next read others =>
        rw [Made, filed.target, gives_attempt] at opened
        rw [Made, filed.target, gives_attempt] at read
        obtain ⟨held, hopens, rfl, rfl⟩ := FileAttachments.openStream_gives opened
        obtain rfl := @FileAttachments.read_gives_all _ _ _ _ held (by simp) read
        have hversion : versionOrLatest (some (version : Int)) = version := by
          simp [versionOrLatest, numbered]
        change Opens w.tree target.directory page attachment.file (versionOrLatest (some (version : Int)))
          copy at hopens
        rw [hversion, opens_iff, reads] at hopens
        exact (Except.ok.inj hopens).symm

/-! ### One attachment -/

/-- How copying an attachment between stores of files goes. -/
inductive CopyGoes (source target : FileAttachments) (page : List Char) (attachment : Attachment)
    (w : World) : Except Failure Unit → World → Prop
  /-- It cannot be opened. -/
  | notOpened {e : Failure} {w' : World} (same : w'.tree = w.tree) (raised : ¬ IsMismatch e) :
      CopyGoes source target page attachment w (.error e) w'
  | notStored {e e' : Failure} {stream : Nat} {w₁ w₂ w' : World} (opened : w₁.tree = w.tree)
      (failed : (target.put (copyOf page attachment) (FileAttachments.read stream)).Fails w₁ e' w₂)
      (closed : w'.tree = w₂.tree) (raised : ¬ IsMismatch e) :
      CopyGoes source target page attachment w (.error e) w'
  /-- What is read back may be refused, but it does not differ. -/
  | stored {result : Except Failure Unit} {stream : Nat} {version : Option Int} {bytes : Bytes}
      {w₁ w₂ w' : World} (opened : (source.openStream page attachment).Gives w stream w₁)
      (stored : (target.put (copyOf page attachment) (FileAttachments.read stream)).Gives w₁
        (version, bytes) w₂)
      (closed : w'.tree = w₂.tree)
      (raised : Ready target w.tree → ∀ e, result = .error e → ¬ IsMismatch e) :
      CopyGoes source target page attachment w result w'

/-- What was opened and stored before the other calls. -/
theorem Through.stored {stream : Nat} {stored : Option Int × Bytes} {calls : List (CrewCall World Nat Nat)}
    (filed : OverFiles crew source target)
    (through : Through crew w (.opened page attachment (.ok stream) ::
      .stored (copyOf page attachment) (crew.sourceFiles.read stream) (.ok stored) :: calls) w') :
    ∃ w₁ w₂, (source.openStream page attachment).Gives w stream w₁ ∧ w₁.tree = w.tree ∧
      (target.put (copyOf page attachment) (FileAttachments.read stream)).Gives w₁ stored w₂ ∧
      Through crew w₂ calls w' := by
  cases through with
  | next opened others =>
    cases others with
    | next stored others =>
      have still := tree_of_looking filed opened rfl
      rw [Made, filed.source, gives_attempt] at opened
      rw [Made, filed.source, filed.target, gives_attempt] at stored
      exact ⟨_, _, opened, still, stored, others⟩

/-- What is read back from a store that is ready for it does not differ. -/
theorem VerifyCalls.not_isMismatch {stream : Nat} {version : Option Int} {bytes : Bytes}
    {calls : List (CrewCall World Nat Nat)} {e : Failure}
    (h : VerifyCalls page (storedAs page attachment version) bytes calls (.error e))
    (filed : OverFiles crew source target) (ready : Ready target w₁.tree)
    (stored : (target.put (copyOf page attachment) (FileAttachments.read stream)).Gives w₁
      (version, bytes) w₂)
    (through : Through crew w₂ (.closed stream (.ok ()) :: calls) w') : ¬ IsMismatch e := by
  intro hmismatch
  cases through with
  | next closing others =>
    cases h with
    | @notReadBack e' readBack =>
      obtain ⟨call, hmem, failed, raised⟩ := readBack.of_error
      obtain ⟨before, after, made⟩ := others.made hmem
      rw [← raised] at hmismatch
      exact not_isMismatch_raised call
        (isRefusal_of_looking filed made (readBack.looking call hmem) failed) hmismatch
    | @mismatch copy readBack differs =>
      obtain ⟨version', rfl, lodged, t, w₄, hread⟩ := lodged_of_put ready (leavesTree_read stream) stored
      have hreads := lodged.reads
      rw [← tree_of_looking filed closing rfl] at hreads
      exact differs (congrArg Checksum.sha256 (readBack.reads filed others lodged.numbered hreads))

theorem copy_goes (filed : OverFiles crew source target) (w : World) :
    CopyGoes source target page attachment w (copyAttachment crew options page attachment w).result
      (copyAttachment crew options page attachment w).world := by
  obtain ⟨calls, -, through, told⟩ := @tells_copyAttachment _ _ _ crew options page attachment w []
  generalize (copyAttachment crew options page attachment w).result = result at told ⊢
  generalize (copyAttachment crew options page attachment w).world = w' at through ⊢
  cases told with
  | notOpened =>
    cases through with
    | next opened others =>
      cases others with
      | none =>
        exact .notOpened (tree_of_looking filed opened rfl)
          (not_isMismatch_raised _ (isRefusal_of_looking filed opened rfl rfl))
  | @notStored stream closing e =>
    cases through with
    | next opened others =>
      cases others with
      | next stored others =>
        have closed := tree_of_through filed others (by simp [CrewCall.isLooking])
        rw [Made, filed.source, filed.target, gives_attempt] at stored
        exact .notStored (tree_of_looking filed opened rfl) stored closed (not_isMismatch_raised _
          (target.refuses_put (FileAttachments.refuses_read stream) _ _ _ stored))
  | @notClosed stream pair e =>
    obtain ⟨w₁, w₂, opened, -, stored, others⟩ := through.stored filed
    have closed := tree_of_through filed others (by simp [CrewCall.isLooking])
    refine .stored opened stored closed fun _ e' he => ?_
    obtain rfl := Except.error.inj he
    cases others with
    | next failed _ => exact not_isMismatch_raised _ (isRefusal_of_looking filed failed rfl rfl)
  | @trusted stream pair _ =>
    obtain ⟨w₁, w₂, opened, -, stored, others⟩ := through.stored filed
    have closed := tree_of_through filed others (by simp [CrewCall.isLooking])
    exact .stored opened stored closed fun _ e he => by cases he
  | @compared stream version bytes calls result _ compared =>
    obtain ⟨w₁, w₂, opened, still, stored, others⟩ := through.stored filed
    have closed := tree_of_through filed others fun call hcall => by
      rcases List.mem_cons.mp hcall with rfl | hcall
      · rfl
      · exact compared.looking call hcall
    refine .stored opened stored closed fun ready e he => ?_
    subst he
    rw [← still] at ready
    exact compared.not_isMismatch filed ready stored others

variable {result : Except Failure Unit} {home there : Location} {bytes : Bytes}

/-- **A copy takes the place of nothing, and is not refused for its checksum.** -/
theorem CopyGoes.stays (h : CopyGoes source target page attachment w result w')
    (ready : Ready target w.tree) : Stays w.tree w'.tree ∧ (result = .ok () → Ready target w'.tree) ∧
      ∀ e, result = .error e → ¬ IsMismatch e := by
  cases h with
  | notOpened same raised =>
    refine ⟨?_, nofun, fun e he => Except.error.inj he ▸ raised⟩
    rw [same]
    exact .refl _
  | notStored opened failed closed raised =>
    rw [← opened] at ready ⊢
    refine ⟨?_, nofun, fun e he => Except.error.inj he ▸ raised⟩
    rw [closed]
    exact (stays_of_put_fails ready (leavesTree_read _) failed).1
  | stored opened stored closed raised =>
    have still := (disk_eq_iff.mp (source.preserves_openStream _ _ _ _ opened.leaves)).1
    have differs := raised ready
    rw [← still] at ready ⊢
    obtain ⟨version, -, lodged, -⟩ := lodged_of_put ready (leavesTree_read _) stored
    rw [closed]
    exact ⟨lodged.stays, fun _ => lodged.ready, differs⟩

/-- Where the path of the target leads nowhere, nothing is copied. -/
theorem CopyGoes.nowhere (h : CopyGoes source target page attachment w result w')
    (ready : Ready target w.tree) (plain : ∀ n ∈ target.directory.names, Name.IsPlain n)
    (nowhere : ∀ place, ¬ w.tree.Leads target.directory place) : w'.tree = w.tree ∧ result ≠ .ok () := by
  cases h with
  | notOpened same raised => exact ⟨same, nofun⟩
  | notStored opened failed closed raised =>
    rw [← opened] at ready nowhere ⊢
    obtain ⟨same, -⟩ := put_nowhere ready (leavesTree_read _) plain nowhere failed.leaves
    exact ⟨closed.trans same, nofun⟩
  | stored opened stored closed raised =>
    have still := (disk_eq_iff.mp (source.preserves_openStream _ _ _ _ opened.leaves)).1
    rw [← still] at ready nowhere
    obtain ⟨-, e, fails⟩ := put_nowhere ready (leavesTree_read _) plain nowhere stored.leaves
    exact absurd fails stored.not_fails

/-- The pages of the target are, or will be, at a place where no links stand among the page's attachments. -/
structure Reaches (target : FileAttachments) (page : List Char) (there : Location) (t : Tree) : Prop extends
    Ready target t where
  leads : t.Leads target.directory there
  free : t.LinkFree (attachmentsPlace there page)

/-- **A copy is told place by place**, and it has the bytes of the version that was opened. -/
theorem CopyGoes.fills (h : CopyGoes source target page attachment w result w')
    (reaches : Reaches target page there w.tree) :
    Fills there page [attachment.file] w.tree w'.tree ∧ (result = .ok () → Reaches target page there w'.tree ∧
      ∃ bytes, Opens w.tree source.directory attachment.page attachment.file attachment.version bytes ∧
        Latest w'.tree (versionsPlace there page attachment.file) attachment.file bytes) := by
  cases h with
  | notOpened same raised => exact ⟨.of_same same, nofun⟩
  | notStored opened failed closed raised =>
    rw [← opened] at reaches ⊢
    rw [closed]
    obtain ⟨growsTo, -⟩ := growsTo_of_put_fails reaches.sound reaches.leads reaches.free
      (reaches.isFresh _) (leavesTree_read _) failed
    exact ⟨fills_of_growsTo growsTo, nofun⟩
  | stored opened stored closed raised =>
    have still := (disk_eq_iff.mp (source.preserves_openStream _ _ _ _ opened.leaves)).1
    have reaches₁ := still.symm ▸ reaches
    obtain ⟨-, deposited, t, w₂, hread⟩ := @deposited_of_fresh _ _ _ _ target (copyOf page attachment) _ _
      reaches₁.sound reaches₁.leads reaches₁.free (reaches₁.isFresh _) (leavesTree_read _) stored
    obtain ⟨version, -, lodged, -⟩ := lodged_of_put reaches₁.toReady (leavesTree_read _) stored
    obtain ⟨held, hopens, rfl, rfl⟩ := FileAttachments.openStream_gives opened
    obtain rfl := @FileAttachments.read_gives_all _ _ _ _ held (by simp [World.setTree]) hread
    rw [closed]
    refine ⟨deposited.fills, fun _ => ⟨⟨lodged.ready, ?_, deposited.free reaches.free⟩, _, hopens,
      deposited.latest⟩⟩
    -- Once there is a version in it, the directory stands.
    exact (reaches.leads.standing_of_keeps deposited.keeps deposited.sound
      (deposited.sound.directory_of_behind (Holding.names_ne_nil _) deposited.directory)).toLeads

/-! ### One after the other -/

/-- How copying attachments one after the other goes. -/
inductive CopiesGo (source target : FileAttachments) (page : List Char) :
    List Attachment → World → Except Failure Unit → World → Prop
  | none {w : World} : CopiesGo source target page [] w (.ok ()) w
  | failed {attachment : Attachment} {rest : List Attachment} {e : Failure} {w w' : World}
      (copy : CopyGoes source target page attachment w (.error e) w') :
      CopiesGo source target page (attachment :: rest) w (.error e) w'
  | copied {attachment : Attachment} {rest : List Attachment} {result : Except Failure Unit} {w w₁ w' : World}
      (copy : CopyGoes source target page attachment w (.ok ()) w₁)
      (others : CopiesGo source target page rest w₁ result w') :
      CopiesGo source target page (attachment :: rest) w result w'

theorem copies_go (filed : OverFiles crew source target) (attachments : List Attachment) (w : World) :
    CopiesGo source target page attachments w (copyAll crew options page attachments w).result
      (copyAll crew options page attachments w).world := by
  induction attachments generalizing w with
  | nil => exact .none
  | cons attachment rest ih =>
    have copy := @copy_goes crew source target options page attachment filed w
    rw [copyAll]
    rcases gives_or_fails (copyAttachment crew options page attachment) w with ⟨_, w₁, gives⟩ | ⟨e, w₁, fails⟩
    · rw [bind_apply_of_gives gives]
      rw [gives.1, gives.2] at copy
      exact .copied copy (ih w₁)
    · rw [bind_apply_of_fails fails]
      rw [fails.1, fails.2] at copy
      exact .failed copy

variable {attachments : List Attachment}

/-- **Whatever is copied, all that stood stands**, and no checksums differ. -/
theorem CopiesGo.stays (h : CopiesGo source target page attachments w result w')
    (ready : Ready target w.tree) : Stays w.tree w'.tree ∧ ∀ e, result = .error e → ¬ IsMismatch e := by
  induction h with
  | none => exact ⟨.refl _, nofun⟩
  | failed copy =>
    obtain ⟨stays, -, raised⟩ := copy.stays ready
    exact ⟨stays, raised⟩
  | copied copy others ih =>
    obtain ⟨stays, next, -⟩ := copy.stays ready
    obtain ⟨stays', raised⟩ := ih (next rfl)
    exact ⟨stays.trans stays', raised⟩

theorem CopiesGo.nowhere (h : CopiesGo source target page attachments w result w')
    (ready : Ready target w.tree) (plain : ∀ n ∈ target.directory.names, Name.IsPlain n)
    (nowhere : ∀ place, ¬ w.tree.Leads target.directory place) :
    w'.tree = w.tree ∧ (result = .ok () → attachments = []) := by
  cases h with
  | none => exact ⟨rfl, fun _ => rfl⟩
  | failed copy => exact ⟨(copy.nowhere ready plain nowhere).1, nofun⟩
  | copied copy others => exact absurd rfl (copy.nowhere ready plain nowhere).2

theorem CopiesGo.fills (h : CopiesGo source target page attachments w result w')
    (reaches : Reaches target page there w.tree) :
    Fills there page (attachments.map Attachment.file) w.tree w'.tree ∧
      (result = .ok () → Reaches target page there w'.tree) := by
  induction h with
  | none => exact ⟨.of_same rfl, fun _ => reaches⟩
  | failed copy => exact ⟨(copy.fills reaches).1.mono (by simp), nofun⟩
  | copied copy others ih =>
    obtain ⟨fills, next⟩ := copy.fills reaches
    obtain ⟨fills', last⟩ := ih (next rfl).1
    exact ⟨(fills.mono (by simp)).trans (fills'.mono fun file hfile => List.mem_cons_of_mem _ hfile), last⟩

/-- **Attachments that are copied one after the other** all have in the target the bytes that they had when
they were opened, and by then versions of the ones before them had been stored and nothing else. -/
theorem CopiesGo.replicates (h : CopiesGo source target page attachments w (.ok ()) w')
    (reaches : Reaches target page there w.tree) (nodup : (attachments.map Attachment.file).Nodup)
    (hall : ∀ a ∈ attachments, a.page = page) :
    ∀ a ∈ attachments, ∃ t earlier bytes, Fills there page earlier w.tree t ∧ t.Sound ∧ a.file ∉ earlier ∧
      Opens t source.directory page a.file a.version bytes ∧
      Latest w'.tree (versionsPlace there page a.file) a.file bytes := by
  generalize hresult : (.ok () : Except Failure Unit) = result at h
  induction h with
  | none => simp
  | failed => cases hresult
  | @copied attachment rest result w w₁ w' copy others ih =>
    obtain ⟨hnew, nodup⟩ := List.nodup_cons.mp nodup
    obtain ⟨fills, next⟩ := copy.fills reaches
    obtain ⟨reaches₁, bytes, opens, latest⟩ := next rfl
    obtain ⟨fills', -⟩ := others.fills reaches₁
    have outside : ¬ versionsPlace there page attachment.file <+: there := fun hfront => by
      have hlength := hfront.length_le
      rw [List.length_append, Holding.names, List.length_cons] at hlength
      omega
    intro a ha
    rcases List.mem_cons.mp ha with rfl | ha
    · -- What is copied later has a directory of its own.
      refine ⟨w.tree, [], bytes, .of_same rfl, reaches.sound, List.not_mem_nil,
        hall a List.mem_cons_self ▸ opens, latest.of_same ?_⟩
      exact fills'.apart (Or.inr hnew) outside
    · obtain ⟨t, earlier, bytes, before, sound, hnot, opens, latest⟩ := ih reaches₁ nodup
        (fun a ha => hall a (List.mem_cons_of_mem _ ha)) hresult a ha
      refine ⟨t, attachment.file :: earlier, bytes, (fills.mono (by simp)).trans (before.mono ?_), sound, ?_,
        opens, latest⟩
      · exact fun file hfile => List.mem_cons_of_mem _ hfile
      · rw [List.mem_cons, not_or]
        exact ⟨fun hsame => hnew (hsame ▸ List.mem_map_of_mem ha), hnot⟩

/-! ### The attachments of a page -/

/-- How migrating the attachments of a page goes. -/
inductive FilesGo (source target : FileAttachments) (page : List Char) (w : World) :
    Except Failure Nat → World → Prop
  | notListed {e : Failure} {w' : World} (same : w'.tree = w.tree) (raised : ¬ IsMismatch e) :
      FilesGo source target page w (.error e) w'
  | copied {found : List Attachment} {result : Except Failure Unit} {w' : World}
      (listed : listAttachments w.tree source.directory page = .ok found)
      (copies : CopiesGo source target page found w result w') :
      FilesGo source target page w (result.map fun _ => found.length) w'

/-- Attachments that are listed are copied. -/
theorem migrateAttachments_listed {found : List Attachment} (sources : crew.sourceFiles = source.interface)
    (real : options.isDry = false) (listed : listAttachments w.tree source.directory page = .ok found) :
    (migrateAttachments crew options page w).result =
        (copyAll crew options page found w).result.map (fun _ => found.length) ∧
      (migrateAttachments crew options page w).world = (copyAll crew options page found w).world := by
  have hlist : crew.sourceFiles.list page = source.list page := by rw [sources]; rfl
  rw [migrateAttachments, hlist,
    bind_apply_of_gives (gives_boundary.mpr ((looks_list source page w found w).mpr ⟨rfl, listed⟩))]
  by_cases hempty : found = []
  · subst hempty
    exact ⟨rfl, rfl⟩
  have hne : found.isEmpty = false := by simpa using hempty
  simp only [hne, real, Bool.false_eq_true, if_false]
  rw [bind_apply_of_gives (show (note options .debug _ : Task World Unit).Gives w () w from ⟨rfl, rfl⟩)]
  rcases gives_or_fails (copyAll crew options page found) w with ⟨_, w₁, gives⟩ | ⟨e, w₁, fails⟩
  · rw [bind_apply_of_gives gives, gives.1, gives.2]
    exact ⟨rfl, rfl⟩
  · rw [bind_apply_of_fails fails, fails.1, fails.2]
    exact ⟨rfl, rfl⟩

theorem files_go (filed : OverFiles crew source target) (real : options.isDry = false) (w : World) :
    FilesGo source target page w (migrateAttachments crew options page w).result
      (migrateAttachments crew options page w).world := by
  rcases gives_or_fails (source.list page) w with ⟨found, w₁, gives⟩ | ⟨e, w₁, fails⟩
  · obtain ⟨rfl, listed⟩ := (looks_list source page w found w₁).mp gives
    obtain ⟨hresult, hworld⟩ := migrateAttachments_listed filed.source real listed
    rw [hresult, hworld]
    exact .copied listed (copies_go filed found _)
  · have hlist : crew.sourceFiles.list page = source.list page := by rw [filed.source]; rfl
    have failed : ((source.list page).boundary .storage (some (String.ofList page))
        "Listing attachments").Fails w
          ((CrewCall.listed page (.error e) : CrewCall World Nat Nat).raised page [] e) w₁ :=
      fails_boundary.mpr ⟨e, fails, rfl⟩
    rw [migrateAttachments, hlist, bind_apply_of_fails failed]
    refine .notListed ?_ (@not_isMismatch_raised _ _ _ _ (.listed page (.error e)) [] e
      (source.refuses_list page _ _ _ fails))
    exact (disk_eq_iff.mp (@FileAttachments.preserves_list _ World.disk source page _ _ fails.leaves)).1

/-- No links stand among the attachments of a page, where the directory of the pages is or will be. -/
def Unlinked (t : Tree) (directory : Path) (page : List Char) : Prop :=
  ∀ place, t.Leads directory place → t.LinkFree (attachmentsPlace place page)

/-- The path leads to a directory, or takes no detours. -/
def Straight (t : Tree) (path : Path) : Prop :=
  (∃ place, t.Leads path place) ∨ ∀ n ∈ path.names, Name.IsPlain n

/-- What the migration of a page's attachments from files to files comes to. -/
structure Replicates (source target : FileAttachments) (page : List Char) (t : Tree)
    (result : Except Failure Nat) (t' : Tree) : Prop where
  counted : ∀ count, result = .ok count →
    ∃ found, listAttachments t source.directory page = .ok found ∧ found.length = count
  agrees : ∀ e, result = .error e → ¬ IsMismatch e
  stays : Stays t t'
  /-- The versions of another page's attachment, in whatever wiki, are left alone, unless the target's pages
  lie among them. -/
  others : Unlinked t target.directory page → Straight t target.directory → ∀ base other file, other ≠ page →
    (∀ there, t.Leads target.directory there → ¬ versionsPlace base other file <+: there) →
    ∀ names, t'.at? (versionsPlace base other file ++ names) = t.at? (versionsPlace base other file ++ names)
  /-- The latest versions in the target have the bytes that those in the source had. -/
  replicated : ListsOwn t source.directory page → Unlinked t target.directory page →
    Straight t target.directory → ∀ count, result = .ok count →
    ∀ found, listAttachments t source.directory page = .ok found → ∀ a ∈ found, ∃ bytes,
      LatestHas t' target.directory page a.file bytes ∧
      (∀ held, LatestHas t source.directory page a.file held → held = bytes) ∧
      (Unlinked t source.directory page → LatestHas t source.directory page a.file bytes)

theorem CopiesGo.others {other file : List Char} {base : Location}
    (h : CopiesGo source target page attachments w result w') (ready : Ready target w.tree)
    (unlinked : Unlinked w.tree target.directory page) (straight : Straight w.tree target.directory)
    (hother : other ≠ page)
    (outside : ∀ there, w.tree.Leads target.directory there → ¬ versionsPlace base other file <+: there)
    (names : List Name) : w'.tree.at? (versionsPlace base other file ++ names) =
      w.tree.at? (versionsPlace base other file ++ names) := by
  by_cases hleads : ∃ there, w.tree.Leads target.directory there
  · obtain ⟨there, leads⟩ := hleads
    have reaches : Reaches target page there w.tree := ⟨ready, leads, unlinked there leads⟩
    exact (h.fills reaches).1.apart (Or.inl hother) (outside there leads) names
  · rw [(h.nowhere ready (straight.resolve_left hleads) fun place leads => hleads ⟨place, leads⟩).1]

theorem CopiesGo.replicated (h : CopiesGo source target page attachments w (.ok ()) w')
    (ready : Ready target w.tree) (named : ListsOwn w.tree source.directory page)
    (unlinked : Unlinked w.tree target.directory page) (straight : Straight w.tree target.directory)
    (listed : listAttachments w.tree source.directory page = .ok attachments)
    (ha : attachment ∈ attachments) :
    ∃ bytes, LatestHas w'.tree target.directory page attachment.file bytes ∧
      (∀ held, LatestHas w.tree source.directory page attachment.file held → held = bytes) ∧
      (Unlinked w.tree source.directory page →
        LatestHas w.tree source.directory page attachment.file bytes) := by
  obtain ⟨there, leads⟩ : ∃ there, w.tree.Leads target.directory there := by
    by_contra hnowhere
    obtain ⟨-, hnone⟩ := h.nowhere ready (straight.resolve_left hnowhere) fun place leads =>
      hnowhere ⟨place, leads⟩
    rw [hnone rfl] at ha
    cases ha
  have reaches : Reaches target page there w.tree := ⟨ready, leads, unlinked there leads⟩
  obtain ⟨nodup, hall⟩ := named.once ready.sound listed
  obtain ⟨-, version, hversion, hlatest⟩ := hall attachment ha
  obtain ⟨t, earlier, bytes, fills, sound, hnot, opens, latest⟩ := h.replicates reaches nodup
    (fun a ha => (hall a ha).1) attachment ha
  have last := (h.fills reaches).2 rfl
  rw [hversion] at opens
  refine ⟨bytes, latest.has last.sound ?_ last.free, ?_, fun unlinked' => ⟨version, hlatest, ?_⟩⟩
  · exact last.leads.standing last.sound
      (last.sound.directory_of_behind (Holding.names_ne_nil _) latest.directory)
  · rintro held ⟨version', hlatest', opens'⟩
    obtain rfl := Option.some.inj (Except.ok.inj (hlatest.symm.trans hlatest'))
    exact Except.ok.inj ((opens_iff.mp (fills.stays.opens opens')).symm.trans (opens_iff.mp opens))
  · obtain ⟨home, stands⟩ : ∃ home, w.tree.Standing source.directory home := by
      rcases listAttachments_eq_ok.mp listed with ⟨-, rfl⟩ | ⟨place, entries, standsAll, -⟩
      · cases ha
      · exact standing_of_locate_child ready.sound standsAll.leads
    exact fills.opens_back ready.sound sound stands (unlinked' home stands.toLeads) hnot opens

/-- **Attachments are copied byte for byte.**  Whatever links there are, what is given is the number of
attachments that were listed, all that stood still stands, and no copy is refused for its checksum.  Where
no links stand among the page's attachments in the target, and those in the source have the names that a
store gives, the latest versions in the target have the bytes that those in the source had, even if both
stores are one; and no attachment of another page is touched but one whose versions the target's pages lie
among. -/
theorem attachments_replicated (filed : OverFiles crew source target) (real : options.isDry = false)
    (ready : Ready target w.tree) :
    Replicates source target page w.tree (migrateAttachments crew options page w).result
      (migrateAttachments crew options page w).world.tree := by
  have goes := @files_go crew source target options page filed real w
  generalize (migrateAttachments crew options page w).result = result at goes ⊢
  generalize (migrateAttachments crew options page w).world = w' at goes ⊢
  cases goes with
  | notListed same raised =>
    rw [same]
    exact ⟨nofun, fun e he => Except.error.inj he ▸ raised, .refl _, fun _ _ _ _ _ _ _ _ => rfl, nofun⟩
  | @copied found result _ listed copies =>
    obtain ⟨stays, raised⟩ := copies.stays ready
    cases result with
    | error e =>
      refine ⟨nofun, fun e' he => ?_, stays,
        fun unlinked straight _ _ _ => copies.others ready unlinked straight, nofun⟩
      exact raised e' (congrArg Except.error (Except.error.inj he))
    | ok =>
      refine ⟨fun count hcount => ⟨found, listed, Except.ok.inj hcount⟩, nofun, stays,
        fun unlinked straight _ _ _ => copies.others ready unlinked straight, ?_⟩
      intro named unlinked straight _ _ found' listed' a ha
      obtain rfl := Except.ok.inj (listed.symm.trans listed')
      exact copies.replicated ready named unlinked straight listed ha

/-! ### Stores that are crossed -/

/-- Those who copy attachments from one store to the other. -/
def copyingCrew (source target : FileAttachments) : Crew World Nat Nat :=
  { fileCrew plainGround [] .wiki with sourceFiles := source.interface, targetFiles := target.interface }

/-- The attachments in some directory. -/
def filesIn (names : List Name) : FileAttachments := ⟨plainEngine .jspwiki ⟨false, names⟩, plainSite.mark⟩

/-- The attachments of the wiki at `/wiki`. -/
def wikiFiles : FileAttachments := filesIn ["wiki".toList]

/-- The attachments of the wiki at `/out`. -/
def outFiles : FileAttachments := filesIn ["out".toList]

theorem isOrdinary_of_head (h : name.head? ≠ some '.') : IsOrdinary mark name := by
  rintro base rfl
  exact h rfl

/-- Where no name begins with a dot, and there are no links, no name is that of a staging file. -/
theorem unmarked_of_entries {t : Tree} (undotted : ∀ e ∈ t.entries, ∀ n ∈ e.1, n.head? ≠ some '.')
    (unlinked : ∀ e ∈ t.entries, isLink e.2 = false) : Unmarked mark t := by
  refine ⟨fun place entry hat n hn => ?_, fun place target hat => ?_⟩
  · refine isOrdinary_of_head (undotted (place, entry) (mem_entries_of_at? ?_ hat) n hn)
    rintro rfl
    cases hn
  · exact absurd hat (by simpa using linkFree_of_entries unlinked place [] target)

theorem twoWikis_ready : Ready outFiles twoWikis.tree where
  sound := twoWikis_outset.sound
  unmarked := unmarked_of_entries (by decide) (by decide)
  way n hn := isOrdinary_of_head (by
    obtain rfl := List.mem_singleton.mp hn
    decide)

theorem twoWikis_replicated :
    Ready outFiles twoWikis.tree ∧
      (migrateAttachments (copyingCrew wikiFiles outFiles) { logger := "files" } "A".toList
        twoWikis).result = .ok 1 ∧
      ∃ bytes, LatestHas (migrateAttachments (copyingCrew wikiFiles outFiles) { logger := "files" } "A".toList
          twoWikis).world.tree outFiles.directory "A".toList "f".toList bytes ∧
        (∀ held, LatestHas twoWikis.tree wikiFiles.directory "A".toList "f".toList held → held = bytes) ∧
        LatestHas twoWikis.tree wikiFiles.directory "A".toList "f".toList bytes := by
  have done : (migrateAttachments (copyingCrew wikiFiles outFiles) { logger := "files" } "A".toList
      twoWikis).result = .ok 1 := by decide +kernel
  have listed : listAttachments twoWikis.tree wikiFiles.directory "A".toList =
      .ok [⟨"f".toList, "A".toList, 1, 1⟩] := by decide +kernel
  have unlinked : ∀ directory, Unlinked twoWikis.tree directory "A".toList :=
    fun _ _ _ => linkFree_of_entries (by decide) _
  have named : ListsOwn twoWikis.tree wikiFiles.directory "A".toList :=
    OwnAttachments.lists twoWikis_canonical.attachments twoWikis_outset.sound twoWikis_outset.source
      (linkFree_of_entries (by decide) _)
  have replicates := @attachments_replicated (copyingCrew wikiFiles outFiles) wikiFiles outFiles
    { logger := "files" } "A".toList twoWikis ⟨rfl, rfl⟩ rfl twoWikis_ready
  obtain ⟨bytes, latest, held, source⟩ := replicates.replicated named (unlinked _) (Or.inr (by decide)) 1
    done _ listed _ List.mem_cons_self
  exact ⟨twoWikis_ready, done, bytes, latest, held, source (unlinked _)⟩

/-- A wiki with a page that has two attachments, and one where the directory of the second attachment is a
link to that of the first. -/
def linkedWikis : World where
  tree := ⟨[(["wiki".toList], .directory),
    (["wiki".toList, "P-att".toList], .directory),
    (["wiki".toList, "P-att".toList, "a-dir".toList], .directory),
    (["wiki".toList, "P-att".toList, "a-dir".toList, "1.bin".toList], .file [1]),
    (["wiki".toList, "P-att".toList, "b-dir".toList], .directory),
    (["wiki".toList, "P-att".toList, "b-dir".toList, "1.bin".toList], .file [2]),
    (["out".toList], .directory),
    (["out".toList, "P-att".toList], .directory),
    (["out".toList, "P-att".toList, "a-dir".toList], .directory),
    (["out".toList, "P-att".toList, "b-dir".toList], .link "a-dir".toList)]⟩

/-- A wiki with two pages, one of which has a name that begins like a version. -/
def nestedWiki : World where
  tree := ⟨[(["wiki".toList], .directory),
    (["wiki".toList, "7.x-att".toList], .directory),
    (["wiki".toList, "7.x-att".toList, "a-dir".toList], .directory),
    (["wiki".toList, "7.x-att".toList, "a-dir".toList, "1.bin".toList], .file [1]),
    (["wiki".toList, "Q-att".toList], .directory),
    (["wiki".toList, "Q-att".toList, "c-dir".toList], .directory),
    (["wiki".toList, "Q-att".toList, "c-dir".toList, "1.bin".toList], .file [3])]⟩

/-- A wiki among the versions of an attachment. -/
def nestedFiles : FileAttachments := filesIn ["wiki".toList, "Q-att".toList, "c-dir".toList]

theorem latestIn_of_names {t : Tree} {path : Path} {place : Location} {names : List Name} {version : Nat}
    (stands : t.Standing path place) (hnames : t.names place = names)
    (hlatest : (names.filterMap versionOf?).max? = some version) : latestIn t path = .ok (some version) := by
  rw [latestIn, versionsIn_of_standing stands, versionsAt, hnames, ← hlatest]
  rfl

theorem linkedWikis_lists : listAttachments linkedWikis.tree wikiFiles.directory "P".toList =
    .ok [⟨"a".toList, "P".toList, 1, 1⟩, ⟨"b".toList, "P".toList, 1, 1⟩] := by
  have hnames : linkedWikis.tree.names ["wiki".toList, "P-att".toList] = ["a-dir".toList, "b-dir".toList] :=
    List.mergeSort_of_pairwise (by decide)
  refine listAttachments_eq_ok.mpr (Or.inr ⟨["wiki".toList, "P-att".toList],
    [[⟨"a".toList, "P".toList, 1, 1⟩], [⟨"b".toList, "P".toList, 1, 1⟩]],
    ⟨by decide +kernel, by decide⟩, ?_, rfl⟩)
  rw [hnames]
  exact .cons (by decide +kernel) (.cons (by decide +kernel) .nil)

/-- What the copies come to in those wikis. -/
def linkedLeft : Tree := ⟨linkedWikis.tree.entries ++
  [(["out".toList, "P-att".toList, "a-dir".toList, "1.bin".toList], .file [1]),
    (["out".toList, "P-att".toList, "a-dir".toList, "2.bin".toList], .file [2])]⟩

theorem linkedWikis_copied : (copyAll (copyingCrew wikiFiles outFiles) { logger := "files" } "P".toList
    [⟨"a".toList, "P".toList, 1, 1⟩, ⟨"b".toList, "P".toList, 1, 1⟩] linkedWikis).result = .ok () ∧
      (copyAll (copyingCrew wikiFiles outFiles) { logger := "files" } "P".toList
        [⟨"a".toList, "P".toList, 1, 1⟩, ⟨"b".toList, "P".toList, 1, 1⟩] linkedWikis).world.tree =
          linkedLeft := by
  decide +kernel

theorem linkedLeft_latest : LatestHas linkedLeft outFiles.directory "P".toList "a".toList [2] := by
  have hnames : linkedLeft.names ["out".toList, "P-att".toList, "a-dir".toList] =
      ["1.bin".toList, "2.bin".toList] := List.mergeSort_of_pairwise (by decide)
  exact ⟨2, latestIn_of_names ⟨by decide +kernel, by decide⟩ hnames (by decide),
    opens_iff.mpr (by decide +kernel)⟩

/-- What the copy comes to in the wiki with two pages. -/
def nestedLeft : Tree := ⟨nestedWiki.tree.entries ++
  [(["wiki".toList, "Q-att".toList, "c-dir".toList, "7.x-att".toList], .directory),
    (["wiki".toList, "Q-att".toList, "c-dir".toList, "7.x-att".toList, "a-dir".toList], .directory),
    (["wiki".toList, "Q-att".toList, "c-dir".toList, "7.x-att".toList, "a-dir".toList, "1.bin".toList],
      .file [1])]⟩

theorem nestedWiki_copied :
    (migrateAttachments (copyingCrew wikiFiles nestedFiles) { logger := "files" } "7.x".toList
      nestedWiki).result = .ok 1 ∧
    (migrateAttachments (copyingCrew wikiFiles nestedFiles) { logger := "files" } "7.x".toList
      nestedWiki).world.tree = nestedLeft := by
  decide +kernel

theorem nestedLeft_lost :
    ¬ ∃ bytes, LatestHas nestedLeft wikiFiles.directory "Q".toList "c".toList bytes := by
  rintro ⟨bytes, version, hlatest, hopens⟩
  have hnames : nestedLeft.names ["wiki".toList, "Q-att".toList, "c-dir".toList] =
      ["1.bin".toList, "7.x-att".toList] := List.mergeSort_of_pairwise (by decide)
  have hversion : latestIn nestedLeft (attachmentVersions wikiFiles.directory "Q".toList "c".toList) =
      .ok (some 7) := latestIn_of_names ⟨by decide +kernel, by decide⟩ hnames (by decide)
  obtain rfl := Option.some.inj (Except.ok.inj (hlatest.symm.trans hversion))
  have hmissing : (nestedLeft.read ((attachmentVersions wikiFiles.directory "Q".toList "c".toList).child
      (versionName "c".toList (7 : Nat)))).isOk = false := by decide +kernel
  rw [opens_iff.mp hopens] at hmissing
  cases hmissing

/-- **A link among the attachments leads one copy to the versions of another, and a directory of pages
among the versions of an attachment is in the way of those.** -/
theorem copies_astray :
    (∃ w', (migrateAttachments (copyingCrew wikiFiles outFiles) { logger := "files" } "P".toList).Gives
        linkedWikis 2 w' ∧
      LatestHas linkedWikis.tree wikiFiles.directory "P".toList "a".toList [1] ∧
      LatestHas w'.tree outFiles.directory "P".toList "a".toList [2]) ∧
    ∃ w', (migrateAttachments (copyingCrew wikiFiles nestedFiles) { logger := "files" } "7.x".toList).Gives
        nestedWiki 1 w' ∧
      LatestHas nestedWiki.tree wikiFiles.directory "Q".toList "c".toList [3] ∧
      ¬ ∃ bytes, LatestHas w'.tree wikiFiles.directory "Q".toList "c".toList bytes := by
  constructor
  · obtain ⟨copied, hleft⟩ := linkedWikis_copied
    obtain ⟨hresult, hworld⟩ := @migrateAttachments_listed (copyingCrew wikiFiles outFiles) wikiFiles
      { logger := "files" } _ _ _ rfl rfl linkedWikis_lists
    refine ⟨_, ⟨by rw [hresult, copied]; rfl, rfl⟩,
      ⟨1, by decide +kernel, opens_iff.mpr (by decide +kernel)⟩, ?_⟩
    rw [hworld, hleft]
    exact linkedLeft_latest
  · obtain ⟨copied, hleft⟩ := nestedWiki_copied
    exact ⟨_, ⟨copied, rfl⟩, ⟨1, by decide +kernel, opens_iff.mpr (by decide +kernel)⟩,
      hleft ▸ nestedLeft_lost⟩

end WikiMigration.Migration
