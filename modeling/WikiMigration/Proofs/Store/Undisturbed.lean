/-
What the stores leave alone, and what they say when they fail.

Looking at attachments changes nothing but the streams, and storing one is nothing to what is remembered of
pages.  Looking at pages changes no file, and a store of pages that fails to give an answer changes nothing
at all; what it remembers is of its own engine.

A failure that a store of attachments has classified says that something cannot be done; every other failure is
one that nobody has classified yet.  So no failure of a store can be taken for one that those who use it raise.
-/
import WikiMigration.Proofs.Store.Session
import WikiMigration.Proofs.Store.Wholeness

namespace WikiMigration.Store

open Files Files.Tree Action

variable {w w' : World} {α κ : Type} {part : World → κ} {page text : List Char}

/-! ### Tasks that leave a part alone -/

theorem preserves_pure (a : α) : (pure a : Task World α).Preserves part := .of_same fun _ => rfl

theorem preserves_fail (e : Failure) : (fail e : Task World α).Preserves part := .of_same fun _ => rfl

theorem preserves_world : (Action.world : Task World World).Preserves part := .of_same fun _ => rfl

theorem preserves_inspect (look : Tree → Result α) : (inspect look).Preserves part :=
  .of_same fun _ => rfl

theorem preserves_log (level : Log.Level) (logger message : String) :
    (log level logger message).Preserves part := .of_same fun _ => rfl

theorem preserves_change {f : World → World} (h : ∀ w, part (f w) = part w) :
    (change f : Task World Unit).Preserves part := .of_same h

theorem preserves_classified {kind : ErrorKind} {message : String → String} {task : Task World α}
    (h : task.Preserves part) : (classified kind (some page) message task).Preserves part :=
  h.mapFailure _

theorem preserves_makeSteps (staged : Option Path) (steps : List FileStep) :
    (makeSteps staged steps).Preserves World.caches := by
  refine .of_same fun w => ?_
  rw [makeSteps]
  split <;> rfl

/-! ### Attachments -/

/-- The files, and what is remembered of pages. -/
def World.disk (w : World) : Tree × List (Engine × PageCache) := (w.tree, w.caches)

theorem disk_eq_iff : w'.disk = w.disk ↔ w'.tree = w.tree ∧ w'.caches = w.caches := by
  rw [World.disk, World.disk, Prod.mk.injEq]

namespace FileAttachments

variable (store : FileAttachments)

theorem preserves_latest (page : List Char) (name : Files.Name) :
    (store.latest page name).Preserves part := by
  refine (preserves_inspect _).bind fun latest => ?_
  cases latest with
  | none => exact (preserves_log _ _ _).bind fun _ => preserves_pure _
  | some version => exact (preserves_inspect _).bind fun _ => preserves_pure _

theorem preserves_list (page : List Char) : (store.list page).Preserves part := by
  refine (preserves_inspect _).bind fun isDirectory => ?_
  split
  · exact preserves_pure _
  · refine (preserves_classified (preserves_inspect _)).bind fun names => .foldlM (fun found name => ?_) _ _
    refine (preserves_inspect _).bind fun isDirectory => ?_
    split
    · exact (store.preserves_latest page name).bind fun _ => preserves_pure _
    · exact preserves_pure _

theorem preserves_openStream (page : List Char) (attachment : Attachment) :
    (store.openStream page attachment).Preserves World.disk :=
  (preserves_inspect _).bind fun _ => (preserves_classified (preserves_inspect _)).bind fun _ =>
    preserves_world.bind fun _ => Preserves.bind (preserves_change fun _ => rfl) fun _ =>
      preserves_pure _

theorem preserves_read (stream : Nat) (size : Option Nat) :
    (FileAttachments.read stream size).Preserves World.disk := by
  refine preserves_world.bind fun world => ?_
  cases (world.streams[stream]?).join with
  | none => exact preserves_fail _
  | some bytes => exact Preserves.bind (preserves_change fun _ => rfl) fun _ => preserves_pure _

theorem preserves_close (stream : Nat) : (FileAttachments.close stream).Preserves World.disk :=
  preserves_change fun _ => rfl

/-- A stream that is opened holds the bytes of the version. -/
theorem openStream_gives {store : FileAttachments} {attachment : Attachment} {stream : Nat}
    (h : (store.openStream page attachment).Gives w stream w') :
    ∃ bytes, Opens w.tree store.directory attachment.page attachment.file attachment.version bytes ∧
      stream = w.streams.length ∧ w' = { w with streams := w.streams ++ [some bytes] } := by
  rw [FileAttachments.openStream, FileAttachments.path] at h
  simp only [gives_bind, gives_inspect, gives_classified, gives_world, gives_change, gives_pure] at h
  obtain ⟨path, _, ⟨hpath, rfl⟩, bytes, _, ⟨hread, rfl⟩, _, _, ⟨rfl, rfl⟩, _, _, rfl, rfl, rfl⟩ := h
  exact ⟨bytes, ⟨path, hpath, hread⟩, rfl, rfl⟩

/-- What is read of a stream as a whole is what it holds. -/
theorem read_gives_all {stream : Nat} {bytes held : Bytes} (hheld : w.streams[stream]? = some (some held))
    (h : (FileAttachments.read stream none).Gives w bytes w') : bytes = held := by
  simp only [FileAttachments.read, gives_bind, gives_world] at h
  obtain ⟨_, _, ⟨rfl, rfl⟩, h⟩ := h
  simp only [hheld, Option.join_some, gives_bind, gives_change, gives_pure, Option.getD_none,
    List.take_length] at h
  obtain ⟨_, _, -, rfl, -⟩ := h
  rfl

end FileAttachments

/-! ### Pages -/

theorem list_fails {store : FilePages} {e : Failure} (hfails : store.list.Fails w e w') : w' = w := by
  rcases fails_bind.mp hfails with h | ⟨cache, w₁, hcache, h⟩
  · exact absurd h not_fails_remembered
  obtain ⟨-, rfl⟩ := gives_remembered.mp hcache
  cases hpages : cache.pages with
  | some pages =>
    rw [hpages] at h
    exact absurd h not_fails_pure
  | none =>
    rw [hpages] at h
    rcases fails_bind.mp h with h | ⟨isDirectory, w₂, hdirectory, h⟩
    · obtain ⟨-, -, -, rfl⟩ := fails_inspect.mp h
      rfl
    obtain ⟨-, rfl⟩ := gives_inspect.mp hdirectory
    split at h
    · exact (fails_fail.mp h).2.symm
    rcases fails_bind.mp h with h | ⟨pages, w₂, hpages, h⟩
    · obtain ⟨-, -, -, rfl⟩ := fails_inspect.mp h
      rfl
    · simp [fails_bind, FilePages.remember] at h

theorem read_fails {store : FilePages} {version : Int} {e : Failure}
    (hfails : (store.read page version).Fails w e w') : w' = w := by
  rcases fails_bind.mp hfails with h | ⟨cache, w₁, hcache, h⟩
  · exact absurd h not_fails_remembered
  obtain ⟨-, rfl⟩ := gives_remembered.mp hcache
  cases htext : cache.texts.lookup (page, version) with
  | some text =>
    rw [htext] at h
    exact absurd h not_fails_pure
  | none =>
    rw [htext] at h
    rcases fails_bind.mp h with h | ⟨file, w₂, hfile, h⟩
    · obtain ⟨-, -, -, rfl⟩ := fails_inspect.mp h
      rfl
    obtain ⟨-, rfl⟩ := gives_inspect.mp hfile
    rcases fails_bind.mp h with h | ⟨bytes, w₂, hbytes, h⟩
    · obtain ⟨e', h⟩ := fails_classified h
      obtain ⟨-, -, -, rfl⟩ := fails_inspect.mp h
      rfl
    obtain ⟨-, rfl⟩ := gives_inspect.mp (gives_classified.mp hbytes)
    cases hdecoded : textOf bytes with
    | error e =>
      rw [hdecoded] at h
      exact (fails_fail.mp h).2.symm
    | ok text =>
      rw [hdecoded] at h
      simp [fails_bind, FilePages.remember] at h

/-- Nothing is forgotten for a save that fails. -/
theorem save_fails_caches {store : FilePages} {e : Failure} (h : (store.save page text).Fails w e w') :
    w'.caches = w.caches := by
  rcases fails_bind.mp h with h | ⟨_, _, hworld, h⟩
  · exact absurd h not_fails_world
  obtain ⟨rfl, rfl⟩ := gives_world.mp hworld
  rcases fails_bind.mp h with h | ⟨_, _, -, h⟩
  · obtain ⟨e', h⟩ := fails_classified h
    exact preserves_makeSteps _ _ _ _ h.leaves
  · simp [fails_bind, FilePages.remember] at h

section Refusal

variable {α β : Type} {w w' : World}

/-- How the message of each failure begins that a store has classified. -/
def refusalFront : List Char := "Cannot ".toList

/-- The failure is not classified, or says that something cannot be done. -/
def IsRefusal (e : Failure) : Prop := ∀ c, e = .classified c → refusalFront <+: c.message.toList

/-- The task fails with refusals only. -/
def Refuses (task : Task World α) : Prop := ∀ w e w', task.Fails w e w' → IsRefusal e

theorem isRefusal_failure (e : FileError) : IsRefusal e.failure := by
  intro c hc
  rw [FileError.failure] at hc
  split at hc <;> cases hc

/-- What begins a text begins whatever is added to it. -/
theorem prefix_toList_append {front : List Char} {text : String} (h : front <+: text.toList) (more : String) :
    front <+: (text ++ more).toList := by
  rw [String.toList_append]
  exact h.trans (List.prefix_append _ _)

theorem refuses_pure (a : α) : Refuses (pure a : Task World α) := fun _ _ _ h => absurd h not_fails_pure

theorem refuses_change (f : World → World) : Refuses (change f : Task World Unit) :=
  fun _ _ _ h => absurd h not_fails_change

theorem refuses_log (level : Log.Level) (logger message : String) : Refuses (log level logger message) :=
  fun _ _ _ h => absurd h not_fails_log

theorem refuses_inspect (look : Tree → Result α) : Refuses (inspect look) := by
  intro w e w' h
  obtain ⟨fault, -, rfl, -⟩ := fails_inspect.mp h
  exact isRefusal_failure fault

theorem refuses_makeSteps (staged : Option Path) (steps : List FileStep) :
    Refuses (makeSteps staged steps) := by
  intro w e w' h
  obtain ⟨fault, t, -, rfl, -⟩ := fails_makeSteps.mp h
  exact isRefusal_failure fault

/-- What follows may rely on what was given. -/
theorem Refuses.bind_gives {task : Task World α} {next : α → Task World β} (h : Refuses task)
    (h' : ∀ w a w₁, task.Gives w a w₁ → Refuses (next a)) : Refuses (task >>= next) := by
  intro w e w' hfails
  rcases fails_bind.mp hfails with hfails | ⟨a, w₁, hgives, hfails⟩
  · exact h _ _ _ hfails
  · exact h' _ _ _ hgives _ _ _ hfails

theorem Refuses.bind {task : Task World α} {next : α → Task World β} (h : Refuses task)
    (h' : ∀ a, Refuses (next a)) : Refuses (task >>= next) := h.bind_gives fun _ a _ _ => h' a

theorem refuses_foldlM {f : β → α → Task World β} (h : ∀ b a, Refuses (f b a)) (xs : List α) (b : β) :
    Refuses (xs.foldlM f b) := by
  induction xs generalizing b with
  | nil => exact refuses_pure b
  | cons x xs ih =>
    rw [List.foldlM_cons]
    exact (h b x).bind ih

theorem Refuses.classified {task : Task World α} (h : Refuses task) (kind : ErrorKind)
    (page : Option (List Char)) {message : String → String}
    (hmessage : ∀ text, refusalFront <+: (message text).toList) :
    Refuses (classified kind page message task) := by
  intro w e w' hfails
  obtain ⟨e', failed, rfl⟩ := fails_mapFailure.mp hfails
  have refusal := h _ _ _ failed
  clear hfails failed
  cases e' with
  | classified c => exact refusal
  | system sort text =>
    rintro c hc
    cases hc
    exact hmessage text
  | other sort text => nofun

namespace FileAttachments

variable (store : FileAttachments)

theorem refuses_list (page : List Char) : Refuses (store.list page) := by
  refine (refuses_inspect _).bind fun isDirectory => ?_
  split
  · exact refuses_pure _
  refine ((refuses_inspect _).classified _ _ fun text => ?_).bind fun names =>
    refuses_foldlM (fun found name => ?_) _ _
  · exact prefix_toList_append (prefix_toList_append (prefix_toList_append (by decide) _) _) _
  · refine (refuses_inspect _).bind fun isDirectory => ?_
    split
    · refine Refuses.bind ?_ fun _ => refuses_pure _
      refine (refuses_inspect _).bind fun latest => ?_
      cases latest with
      | none => exact (refuses_log _ _ _).bind fun _ => refuses_pure _
      | some version => exact (refuses_inspect _).bind fun _ => refuses_pure _
    · exact refuses_pure _

theorem refuses_openStream (page : List Char) (attachment : Attachment) :
    Refuses (store.openStream page attachment) := by
  refine (refuses_inspect _).bind fun path =>
    ((refuses_inspect _).classified _ _ fun text => ?_).bind fun bytes =>
      Refuses.bind (fun _ _ _ h => absurd h not_fails_world) fun world =>
        Refuses.bind (refuses_change _) fun _ => refuses_pure _
  exact prefix_toList_append (prefix_toList_append (prefix_toList_append (by decide) _) _) _

theorem refuses_read (stream : Nat) (size : Option Nat) : Refuses (FileAttachments.read stream size) := by
  refine Refuses.bind (fun _ _ _ h => absurd h not_fails_world) fun world => ?_
  cases (world.streams[stream]?).join with
  | none =>
    intro w e w' h
    obtain ⟨rfl, -⟩ := fails_fail.mp h
    nofun
  | some bytes => exact Refuses.bind (refuses_change _) fun _ => refuses_pure _

theorem refuses_put {attachment : Attachment} {reader : StreamReader World}
    (h : ∀ size, Refuses (reader size)) : Refuses (store.put attachment reader) := by
  refine Refuses.bind (Refuses.classified ?_ _ _ fun text => ?_) fun stored =>
    (refuses_log _ _ _).bind fun _ => refuses_pure _
  · refine (refuses_makeSteps _ _).bind fun _ => (refuses_inspect _).bind fun version =>
      (refuses_makeSteps _ _).bind fun _ => Refuses.bind_gives (fun _ _ _ h => absurd h not_fails_attempt)
        fun w result w₁ hread => ?_
    cases result with
    | ok bytes =>
      exact (refuses_pure _).bind fun _ => (refuses_makeSteps _ _).bind fun _ => refuses_pure _
    | error failure =>
      -- What the stream failed with is what leaves.
      refine Refuses.bind (refuses_change _) fun _ => Refuses.bind ?_ fun _ =>
        (refuses_makeSteps _ _).bind fun _ => refuses_pure _
      intro w₂ e w₃ hfails
      obtain ⟨rfl, -⟩ := fails_fail.mp hfails
      exact h none _ _ _ (gives_attempt.mp hread)
  · exact prefix_toList_append (prefix_toList_append (prefix_toList_append (by decide) _) _) _

end FileAttachments

end Refusal

end WikiMigration.Store
