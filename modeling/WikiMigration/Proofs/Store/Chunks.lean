/-
Streams that are read in chunks.

What is copied, and what is compared with its copy, is read chunk by chunk until a chunk is empty, and every
chunk passes through a meter.  However large the chunks are, what has passed in the end is what was left of
the stream, and the stream is left as if it had been read at once.  So the checksums of two readings differ
only if the bytes do.
-/
import WikiMigration.Checksum.Meter
import WikiMigration.Proofs.Store.Undisturbed

namespace WikiMigration.Checksum.Meter

@[simp] theorem pass_nil (meter : Meter) : meter.pass [] = meter := by simp [pass]

@[simp] theorem pass_pass (meter : Meter) (bytes more : List UInt8) :
    (meter.pass bytes).pass more = meter.pass (bytes ++ more) := by simp [pass]

end WikiMigration.Checksum.Meter

namespace WikiMigration.Store

open Files Action Checksum

variable {stream size : Nat} {held bytes : Bytes} {meter meter' : Meter} {w w' : World}

/-- A stream is read to its end in chunks of a size, through a meter. -/
inductive Drains (reader : StreamReader World) (size : Nat) : Meter → World → Meter → World → Prop
  | ended {meter : Meter} {w w' : World} (last : (reader (some size)).Gives w [] w') :
      Drains reader size meter w meter w'
  | read {meter meter' : Meter} {chunk : Bytes} {w w₁ w' : World}
      (next : (reader (some size)).Gives w chunk w₁) (more : chunk ≠ [])
      (others : Drains reader size (meter.pass chunk) w₁ meter' w') : Drains reader size meter w meter' w'

/-- Some bytes are left of the stream. -/
def World.leave (w : World) (stream : Nat) (left : Bytes) : World :=
  { w with streams := w.streams.set stream (some left) }

@[simp] theorem World.leave_leave (w : World) (stream : Nat) (left left' : Bytes) :
    (w.leave stream left).leave stream left' = w.leave stream left' := by simp [leave]

theorem World.leave_left (w : World) (left : Bytes) (hheld : w.streams[stream]? = some (some held)) :
    (w.leave stream left).streams[stream]? = some (some left) := by
  have hlt : stream < w.streams.length := (List.getElem?_eq_some_iff.mp hheld).1
  simp [leave, hlt]

/-- What a reading gives and leaves of a stream. -/
theorem read_gives_iff {size : Option Nat} : (FileAttachments.read stream size).Gives w bytes w' ↔
    ∃ held, w.streams[stream]? = some (some held) ∧ bytes = held.take (size.getD held.length) ∧
      w' = w.leave stream (held.drop (size.getD held.length)) := by
  simp only [FileAttachments.read, gives_bind, gives_world]
  constructor
  · rintro ⟨_, _, ⟨rfl, rfl⟩, h⟩
    cases hjoin : (w.streams[stream]?).join with
    | none =>
      rw [hjoin] at h
      cases h.1
    | some held =>
      rw [hjoin] at h
      simp only [gives_bind, gives_change, gives_pure] at h
      obtain ⟨_, _, rfl, rfl, rfl⟩ := h
      exact ⟨held, Option.join_eq_some_iff.mp hjoin, rfl, rfl⟩
  · rintro ⟨held, hheld, rfl, rfl⟩
    refine ⟨_, _, ⟨rfl, rfl⟩, ?_⟩
    rw [hheld]
    exact gives_bind.mpr ⟨(), _, gives_change.mpr rfl, gives_pure.mpr ⟨rfl, rfl⟩⟩

/-- All of what is left of a stream is read in chunks. -/
theorem drains_held (positive : 0 < size) (meter : Meter) (hheld : w.streams[stream]? = some (some held)) :
    Drains (FileAttachments.read stream) size meter w (meter.pass held) (w.leave stream []) := by
  induction hlength : held.length using Nat.strong_induction_on generalizing held meter w with
  | _ length ih =>
    subst hlength
    have hread : (FileAttachments.read stream (some size)).Gives w (held.take size)
        (w.leave stream (held.drop size)) := read_gives_iff.mpr ⟨held, hheld, rfl, rfl⟩
    by_cases hnil : held = []
    · subst hnil
      rw [List.take_nil, List.drop_nil] at hread
      rw [Meter.pass_nil]
      exact .ended hread
    · have hpos := List.length_pos_iff.mpr hnil
      have rest := ih (held.drop size).length (by rw [List.length_drop]; omega) (meter.pass (held.take size))
        (w.leave_left (held.drop size) hheld) rfl
      rw [Meter.pass_pass, List.take_append_drop, World.leave_leave] at rest
      exact .read hread (by simp [hnil]; omega) rest

/-- Whatever is read in chunks is all of what was left. -/
theorem Drains.all (positive : 0 < size) (h : Drains (FileAttachments.read stream) size meter w meter' w') :
    ∃ held, w.streams[stream]? = some (some held) ∧ meter' = meter.pass held ∧ w' = w.leave stream [] := by
  induction h with
  | ended last =>
    obtain ⟨held, hheld, hnil, rfl⟩ := read_gives_iff.mp last
    obtain rfl : held = [] := by
      rcases List.take_eq_nil_iff.mp hnil.symm with hzero | hnil
      · exact absurd hzero positive.ne'
      · exact hnil
    exact ⟨[], hheld, (Meter.pass_nil _).symm, by rw [List.drop_nil]⟩
  | read next more others ih =>
    obtain ⟨held, hheld, rfl, rfl⟩ := read_gives_iff.mp next
    obtain ⟨left, hleft, rfl, rfl⟩ := ih
    obtain rfl := Option.some.inj (Option.some.inj ((World.leave_left _ _ hheld).symm.trans hleft))
    refine ⟨held, hheld, ?_, World.leave_leave ..⟩
    rw [Meter.pass_pass, List.take_append_drop]

/-- **A stream that is read in chunks is read as if at once**, and all of it has passed through the meter. -/
theorem drains_iff (positive : 0 < size) : Drains (FileAttachments.read stream) size meter w meter' w' ↔
    ∃ bytes, (FileAttachments.read stream none).Gives w bytes w' ∧ meter' = meter.pass bytes := by
  constructor
  · intro h
    obtain ⟨held, hheld, rfl, rfl⟩ := h.all positive
    exact ⟨held, read_gives_iff.mpr ⟨held, hheld, by simp, by simp⟩, rfl⟩
  · rintro ⟨bytes, hread, rfl⟩
    obtain ⟨held, hheld, rfl, rfl⟩ := read_gives_iff.mp hread
    simpa using drains_held positive meter hheld

end WikiMigration.Store
