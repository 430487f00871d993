/-
What steps make of a tree, wherever they are broken off.

Steps are broken off within one of them: those before it are done, and of it there is nothing, or some
of its directories, or the beginning of its piece.  A file that is written piece by piece therefore
holds the beginning of its bytes, and all of them once its steps are done.  The fault that ends steps
breaks them off, too, so whatever is proved of broken steps holds of those that fail.
-/
import WikiMigration.Proofs.Files.Directories
import WikiMigration.Store.World

namespace WikiMigration.Store

open Files Files.Tree

variable {t t₁ t' : Tree}

/-! ### Steps that are done -/

theorem applySteps_append_eq {xs ys : List FileStep} :
    applySteps t (xs ++ ys) = (none, t') ↔
      ∃ t₁, applySteps t xs = (none, t₁) ∧ applySteps t₁ ys = (none, t') := by
  induction xs generalizing t with
  | nil => simp [applySteps]
  | cons step xs ih =>
    rw [List.cons_append, applySteps, applySteps]
    cases step.apply t with
    | mk fault t₁ =>
      cases fault with
      | some e => simp
      | none => exact ih

/-- A fault is one of the first steps, or one of the others behind them. -/
theorem applySteps_append_fault {xs ys : List FileStep} {e : FileError}
    (h : applySteps t (xs ++ ys) = (some e, t')) : applySteps t xs = (some e, t') ∨
      ∃ t₁, applySteps t xs = (none, t₁) ∧ applySteps t₁ ys = (some e, t') := by
  induction xs generalizing t with
  | nil => exact Or.inr ⟨t, rfl, h⟩
  | cons step xs ih =>
    rw [List.cons_append, applySteps] at h
    rw [applySteps]
    cases hstep : step.apply t with
    | mk fault t₁ =>
      rw [hstep] at h
      cases fault with
      | some e' => exact Or.inl h
      | none => exact ih h

theorem applySteps_singleton_eq (t : Tree) (step : FileStep) :
    applySteps t [step] = step.apply t := by
  rw [applySteps]
  cases step.apply t with
  | mk fault t₁ => cases fault <;> rfl

theorem applySteps_singleton {step : FileStep} :
    applySteps t [step] = (none, t') ↔ step.apply t = (none, t') := by
  rw [applySteps_singleton_eq]

theorem ended_eq_none {result : Result Tree} : ended t result = (none, t') ↔ result = .ok t' := by
  cases result <;> simp [ended]

theorem ended_eq_some {result : Result Tree} {e : FileError} :
    ended t result = (some e, t') ↔ result = .error e ∧ t' = t := by
  cases result <;> simp [ended, eq_comm]

/-! ### Steps that are broken off -/

/-- What a step may leave that does not come to its end. -/
inductive FileStep.Partly : FileStep → Tree → Tree → Prop
  | nothing {step : FileStep} {t : Tree} : Partly step t t
  /-- The directories on the way are made as far as one of them. -/
  | directories {path way : Path} {t : Tree} (hway : way.names <+: path.names) :
      Partly (.makeDirectories path) t (t.makeDirectories way).2
  /-- The beginning of the piece is written. -/
  | piece {path : Path} {piece : Bytes} {t t' : Tree} (count : Nat)
      (appends : t.append path (piece.take count) = .ok t') : Partly (.append path piece) t t'

/-- What steps may leave that are broken off within one of them, be it that all stops there or that
the step fails. -/
inductive Breaks : List FileStep → Tree → Tree → Prop
  | within {step : FileStep} {rest : List FileStep} {t t' : Tree} (partly : step.Partly t t') :
      Breaks (step :: rest) t t'
  | behind {step : FileStep} {rest : List FileStep} {t t₁ t' : Tree}
      (applies : step.apply t = (none, t₁)) (breaks : Breaks rest t₁ t') :
      Breaks (step :: rest) t t'

theorem FileStep.partly_of_fault {step : FileStep} {e : FileError}
    (h : step.apply t = (some e, t')) : step.Partly t t' := by
  cases step with
  | makeDirectories path =>
    have hpartly : FileStep.Partly (.makeDirectories path) t (t.makeDirectories path).2 :=
      .directories List.prefix_rfl
    rw [show t.makeDirectories path = (some e, t') from h] at hpartly
    exact hpartly
  | _ =>
    rw [FileStep.apply] at h
    unfold ended at h
    split at h
    · cases h
    · obtain rfl := (Prod.mk.inj h).2
      exact .nothing

/-- A fault breaks steps off. -/
theorem breaks_of_fault {steps : List FileStep} {e : FileError}
    (h : applySteps t steps = (some e, t')) : Breaks steps t t' := by
  induction steps generalizing t with
  | nil => cases h
  | cons step rest ih =>
    rw [applySteps] at h
    cases hstep : step.apply t with
    | mk fault t₁ =>
      rw [hstep] at h
      cases fault with
      | some e' =>
        obtain ⟨-, rfl⟩ := Prod.mk.inj h
        exact .within (FileStep.partly_of_fault hstep)
      | none => exact .behind hstep (ih h)

theorem breaks_append {xs ys : List FileStep} (h : Breaks (xs ++ ys) t t') :
    Breaks xs t t' ∨ ∃ t₁, applySteps t xs = (none, t₁) ∧ Breaks ys t₁ t' := by
  induction xs generalizing t with
  | nil => exact Or.inr ⟨t, rfl, h⟩
  | cons step xs ih =>
    cases h with
    | within partly => exact Or.inl (.within partly)
    | @behind _ _ _ t₁ _ applies breaks =>
      rcases ih breaks with hxs | ⟨t₂, happly, hys⟩
      · exact Or.inl (.behind applies hxs)
      · refine Or.inr ⟨t₂, ?_, hys⟩
        rw [applySteps, applies]
        exact happly

theorem breaks_append_left {xs ys : List FileStep} (h : Breaks xs t t') :
    Breaks (xs ++ ys) t t' := by
  induction h with
  | within partly => exact .within partly
  | behind applies _ ih => exact .behind applies ih

theorem breaks_append_right {xs ys : List FileStep} (happly : applySteps t xs = (none, t₁))
    (h : Breaks ys t₁ t') : Breaks (xs ++ ys) t t' := by
  induction xs generalizing t with
  | nil =>
    obtain rfl : t = t₁ := (Prod.mk.inj happly).2
    exact h
  | cons step xs ih =>
    rw [applySteps] at happly
    cases hstep : step.apply t with
    | mk fault t₂ =>
      rw [hstep] at happly
      cases fault with
      | some e => cases happly
      | none => exact .behind hstep (ih happly)

theorem breaks_singleton {step : FileStep} (h : Breaks [step] t t') : step.Partly t t' := by
  cases h with
  | within partly => exact partly
  | behind _ breaks => cases breaks

theorem not_breaks_nil : ¬ Breaks [] t t' := by
  intro h
  cases h

/-! ### Writing -/

theorem flatten_piecesOf (count : Nat) (bytes : Bytes) (h : bytes.length < count * pieceSize) :
    (piecesOf count bytes).flatten = bytes := by
  induction count generalizing bytes with
  | zero => simp at h
  | succ count ih =>
    rw [piecesOf]
    split
    next hempty =>
      rw [List.isEmpty_iff.mp hempty]
      rfl
    next =>
      by_cases hshort : bytes.length ≤ pieceSize
      · have hnil : bytes.drop pieceSize = [] := List.drop_eq_nil_of_le hshort
        have hnone : ∀ count, (piecesOf count ([] : Bytes)).flatten = [] := by
          intro count
          cases count <;> simp [piecesOf]
        rw [List.flatten_cons, hnil, hnone, List.append_nil, List.take_of_length_le hshort]
      · have hrest : (bytes.drop pieceSize).length < count * pieceSize := by
          rw [List.length_drop]
          rw [Nat.succ_mul] at h
          omega
        rw [List.flatten_cons, ih _ hrest, List.take_append_drop]

theorem flatten_pieces (bytes : Bytes) :
    (piecesOf (bytes.length / pieceSize + 1) bytes).flatten = bytes := by
  refine flatten_piecesOf _ _ ?_
  rw [Nat.mul_comm]
  exact Nat.lt_mul_div_succ _ (by decide)

/-- A file stands where the path leads, or nothing does. -/
structure IsFilePlace (t : Tree) (path : Path) (place : Location) : Prop where
  leads : t.locate path = .ok place
  notDirectory : t.at? place ≠ some .directory
  sound : t.Sound

variable {path : Path} {place : Location}

theorem IsFilePlace.home (h : IsFilePlace t path place) :
    ∃ directory name, place = directory ++ [name] ∧ t.at? directory = some .directory ∧
      Name.CanStand name ∧ ∀ target, t.at? place ≠ some (.link target) := by
  rcases locate_ends h.sound h.leads with hdir | ⟨directory, name, hplace, hd, hname, hlink⟩
  · exact absurd hdir h.notDirectory
  · exact ⟨directory, name, hplace, hd, hname, hlink rfl⟩

theorem IsFilePlace.sound_put (h : IsFilePlace t path place) (bytes : Bytes) :
    (t.put place (.file bytes)).Sound := by
  obtain ⟨directory, name, rfl, hd, hname, -⟩ := h.home
  exact h.sound.put hd hname fun hdir => absurd hdir h.notDirectory

theorem IsFilePlace.at?_put (h : IsFilePlace t path place) (bytes : Bytes) (other : Location) :
    (t.put place (.file bytes)).at? other = if other = place then some (.file bytes)
      else t.at? other := by
  obtain ⟨directory, name, rfl, -⟩ := h.home
  exact at?_put_snoc ..

theorem IsFilePlace.keeps_put (h : IsFilePlace t path place) (bytes : Bytes) :
    t.Keeps (t.put place (.file bytes)) := by
  obtain ⟨directory, name, hplace, hd, hname, hlink⟩ := h.home
  intro other entry hat hfile
  rw [h.at?_put]
  split
  next heq =>
    subst heq
    cases entry with
    | file bytes => exact absurd rfl (hfile bytes)
    | directory => exact absurd hat h.notDirectory
    | link target => exact absurd hat (hlink target)
  next => exact hat

/-- The path leads to the file that was put where it leads. -/
theorem IsFilePlace.put (h : IsFilePlace t path place) (bytes : Bytes) :
    IsFilePlace (t.put place (.file bytes)) path place := by
  have hat : (t.put place (.file bytes)).at? place = some (.file bytes) := by
    rw [h.at?_put, if_pos rfl]
  exact ⟨follow_of_keeps (h.keeps_put bytes) h.leads (by simp [hat]), by simp [hat],
    h.sound_put bytes⟩

theorem IsFilePlace.append (h : IsFilePlace t path place) {old : Bytes}
    (hold : t.at? place = some (.file old)) (bytes : Bytes) :
    t.append path bytes = .ok (t.put place (.file (old ++ bytes))) :=
  append_eq_ok.mpr ⟨place, h.leads, h.notDirectory, by rw [hold]⟩

theorem IsFilePlace.at?_put_self (h : IsFilePlace t path place) (bytes : Bytes) :
    (t.put place (.file bytes)).at? place = some (.file bytes) := by
  rw [h.at?_put, if_pos rfl]

/-- A file that is new changes nothing about directories and links. -/
theorem IsFilePlace.keeps_back (h : IsFilePlace t path place) (bytes : Bytes) :
    (t.put place (.file bytes)).Keeps t := by
  intro other entry hat hfile
  rw [h.at?_put] at hat
  split at hat
  next => exact absurd (Option.some.inj hat).symm (hfile bytes)
  next => exact hat

/-- A file that is new makes no path lead anywhere else. -/
theorem IsFilePlace.locate_of_put (h : IsFilePlace t path place) (hnone : t.at? place = none)
    {bytes : Bytes} {other : Path} {spot : Location}
    (hend : (t.put place (.file bytes)).locate other = .ok spot) : t.locate other = .ok spot := by
  refine follow_of_keeps (h.keeps_back bytes) hend fun target hlink => ?_
  rw [h.at?_put, if_neg]
  · exact hlink
  · rintro rfl
    rw [hnone] at hlink
    cases hlink

/-- A file in a directory stands there under its name, unless a link does. -/
theorem IsFilePlace.eq_child {name : Name} {spot : Location}
    (h : IsFilePlace t (path.child name) spot) (stands : t.Standing path place)
    (hname : Name.IsPlain name) (hlink : ∀ target, t.at? (place ++ [name]) ≠ some (.link target)) :
    spot = place ++ [name] ∧ Name.CanStand name := by
  have hleads := h.leads
  cases hlong : isTooLong name with
  | true =>
    have hlocate : t.locate (path.child name) = .error .nameTooLong :=
      stands.follow_long hname hlong true []
    rw [hlocate] at hleads
    cases hleads
  | false =>
    rw [stands.locate_child ⟨hname, hlong⟩ hlink] at hleads
    exact ⟨(Except.ok.inj hleads).symm, hname, hlong⟩

/-- Pieces that are written one after the other are all at the end of the file. -/
theorem applySteps_pieces (h : IsFilePlace t path place) (old : Bytes) (pieces : List Bytes) :
    applySteps (t.put place (.file old)) (pieces.map (.append path)) =
      (none, t.put place (.file (old ++ pieces.flatten))) := by
  induction pieces generalizing old with
  | nil => simp [applySteps]
  | cons piece rest ih =>
    have happend := (h.put old).append (h.at?_put_self old) piece
    rw [put_put] at happend
    rw [List.map_cons, applySteps, FileStep.apply, happend]
    dsimp only [ended]
    rw [ih, List.flatten_cons, List.append_assoc]

theorem breaks_pieces (h : IsFilePlace t path place) (old : Bytes) {pieces : List Bytes}
    (hbreaks : Breaks (pieces.map (.append path)) (t.put place (.file old)) t') :
    ∃ part, part <+: pieces.flatten ∧ t' = t.put place (.file (old ++ part)) := by
  induction pieces generalizing old with
  | nil => exact absurd hbreaks not_breaks_nil
  | cons piece rest ih =>
    rw [List.map_cons] at hbreaks
    cases hbreaks with
    | within partly =>
      cases partly with
      | nothing => exact ⟨[], List.nil_prefix, by rw [List.append_nil]⟩
      | piece count appends =>
        rw [(h.put old).append (h.at?_put_self old), put_put] at appends
        refine ⟨piece.take count, ?_, (Except.ok.inj appends).symm⟩
        have htake := List.take_prefix count piece
        exact htake.trans (List.prefix_append _ _)
    | behind applies breaks =>
      have happend := (h.put old).append (h.at?_put_self old) piece
      rw [put_put] at happend
      rw [FileStep.apply, ended_eq_none, happend] at applies
      obtain rfl := Except.ok.inj applies
      obtain ⟨part, hpart, rfl⟩ := ih (old ++ piece) breaks
      refine ⟨piece ++ part, ?_, by rw [List.append_assoc]⟩
      rw [List.flatten_cons]
      exact List.prefix_append_right_inj piece |>.mpr hpart

/-- **A file is written as a whole.**  Where its steps are done it holds its bytes. -/
theorem writing_done {bytes : Bytes} (sound : t.Sound)
    (h : applySteps t (writing path bytes) = (none, t')) :
    ∃ place, IsFilePlace t path place ∧ t' = t.put place (.file bytes) := by
  rw [writing, ← List.singleton_append, applySteps_append_eq] at h
  obtain ⟨t₁, hcreate, hfill⟩ := h
  rw [applySteps_singleton, FileStep.apply, ended_eq_none] at hcreate
  obtain ⟨place, hleads, hdir, rfl⟩ := write_eq_ok.mp hcreate
  have hplace : IsFilePlace t path place := ⟨hleads, hdir, sound⟩
  rw [filling, applySteps_pieces hplace, flatten_pieces, List.nil_append] at hfill
  exact ⟨place, hplace, (Prod.mk.inj hfill).2.symm⟩

/-- Only the first step that writes a file can fail, and then there is no file that it could write. -/
theorem writing_fault {bytes : Bytes} {e : FileError} (sound : t.Sound)
    (h : applySteps t (writing path bytes) = (some e, t')) : t' = t ∧ t.write path [] = .error e := by
  rw [writing, ← List.singleton_append] at h
  rcases applySteps_append_fault h with hcreate | ⟨t₁, hcreate, hfill⟩
  · rw [applySteps_singleton_eq, FileStep.apply, ended_eq_some] at hcreate
    exact ⟨hcreate.2, hcreate.1⟩
  · rw [applySteps_singleton, FileStep.apply, ended_eq_none] at hcreate
    obtain ⟨place, hleads, hdir, rfl⟩ := write_eq_ok.mp hcreate
    have hplace : IsFilePlace t path place := ⟨hleads, hdir, sound⟩
    rw [filling, applySteps_pieces hplace] at hfill
    cases hfill

/-- Where the steps that write a file are broken off, it holds the beginning of its bytes, or nothing
is done at all. -/
theorem writing_broken {bytes : Bytes} (sound : t.Sound) (h : Breaks (writing path bytes) t t') :
    t' = t ∨ ∃ place part, IsFilePlace t path place ∧ part <+: bytes ∧
      t' = t.put place (.file part) := by
  rw [writing] at h
  cases h with
  | within partly =>
    cases partly
    exact Or.inl rfl
  | behind applies breaks =>
    rw [FileStep.apply, ended_eq_none] at applies
    obtain ⟨place, hleads, hdir, rfl⟩ := write_eq_ok.mp applies
    have hplace : IsFilePlace t path place := ⟨hleads, hdir, sound⟩
    obtain ⟨part, hpart, rfl⟩ := breaks_pieces hplace [] breaks
    rw [flatten_pieces] at hpart
    exact Or.inr ⟨place, part, hplace, hpart, by rw [List.nil_append]⟩

end WikiMigration.Store
