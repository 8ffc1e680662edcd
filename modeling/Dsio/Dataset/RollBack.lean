import Dsio.Dataset.StreamMoves

/-!
# A refused fill

`fill_pipeline` takes slots, pushes entries and moves the offset on before its one
submission. When the backend refuses it, the roll-back takes off exactly the entries of
this fill: the older ones, and the slots their reads go to, stay as they were.
-/

namespace Dsio.ShardStream

open Transition

variable {stream after : ShardStream}

/-- What a refused fill leaves. -/
structure Restored (stream after : ShardStream) : Prop where
  pending : after.pending = stream.pending
  free : after.free = stream.free
  nextOffset : after.nextOffset = stream.nextOffset
  /-- A read from before the fill is still in flight, with its entry and its slot. -/
  kept : ∀ request ∈ stream.inFlight, request ∈ after.inFlight ∧ ∃ entry ∈ after.pending,
    entry.done = false ∧ request = after.entryRequest entry ∧
      after.free[entry.slot]? = some false

/-- What was in flight stays in flight. -/
theorem submit_inFlight {request : ReadRequest} (member : request ∈ stream.inFlight)
    (requests : List ReadRequest) : request ∈ (stream.submit requests).inFlight := by
  simp only [inFlight, submit] at member ⊢
  cases found : stream.backend with
  | none => simp [found] at member
  | some backend =>
      simp only [found] at member
      exact List.mem_append_left _ member

/-- A read in flight belongs to a pending entry that waits for it, and has a slot. -/
theorem Sound.exists_entry {disk : Disk} (sound : Sound disk stream) {request : ReadRequest}
    (member : request ∈ stream.inFlight) : ∃ entry ∈ stream.pending, entry.done = false ∧
      request = stream.entryRequest entry ∧ stream.free[entry.slot]? = some false := by
  obtain ⟨entry, waiting, rfl⟩ := List.mem_map.mp (sound.matched.mem_iff.mp member)
  obtain ⟨pending, waits⟩ := List.mem_filter.mp waiting
  have unfinished : entry.done = false := by simpa using waits
  exact ⟨entry, pending, unfinished, rfl, sound.taken entry pending⟩

/-- A submit changes the backend alone. -/
theorem Sound.restored {disk : Disk} (sound : Sound disk stream) (requests : List ReadRequest) :
    Restored stream (stream.submit requests) where
  pending := rfl
  free := rfl
  nextOffset := rfl
  kept := fun _ member => ⟨submit_inFlight member requests, sound.exists_entry member⟩

end Dsio.ShardStream
