import Dsio.Dataset.ShardStream

/-!
# What a fill queues

`fillLoop` appends entries that tile the rest of the window in steps of
`requestLength`, each with a slot of its own that was free, and one request for each.
It stops at the end of the window, without a free slot, or at the guard of its depth.
-/

namespace Dsio.ShardStream

/-- How much of the window the request at `offset` covers. -/
def share (stream : ShardStream) (offset : Nat) : Nat :=
  min (stream.requestLength (stream.windowEnd - offset)) (stream.windowEnd - offset)

/-- The offset of the segment after the one at `offset`. -/
def advance (stream : ShardStream) (offset : Nat) : Nat := offset + stream.share offset

/-- The request `fill_pipeline` makes for an entry. -/
def entryRequest (stream : ShardStream) (entry : Pending) : ReadRequest :=
  ⟨entry.offset,
    stream.bufferSpan entry.slot (stream.requestLength (stream.windowEnd - entry.offset)),
    entry.slot⟩

/-- The offsets of the entries follow each other from `start` to `finish`, all of them
inside the window. -/
def Tiled (advance : Nat → Nat) (windowEnd : Nat) : Nat → List Pending → Nat → Prop
  | start, [], finish => start = finish
  | start, entry :: rest, finish =>
      entry.offset = start ∧ start < windowEnd ∧ Tiled advance windowEnd (advance start) rest finish

/-- An entry where the tiling ends extends it. -/
theorem Tiled.snoc {advance : Nat → Nat} {windowEnd start finish : Nat} {entries : List Pending}
    (tiled : Tiled advance windowEnd start entries finish) {entry : Pending}
    (next : entry.offset = finish) (inside : finish < windowEnd) :
    Tiled advance windowEnd start (entries ++ [entry]) (advance finish) := by
  induction entries generalizing start with
  | nil =>
      cases tiled
      exact ⟨next, inside, rfl⟩
  | cons first rest ih => exact ⟨tiled.1, tiled.2.1, ih tiled.2.2⟩

/-- Two tilings that meet are one. -/
theorem Tiled.append {advance : Nat → Nat} {windowEnd start middle finish : Nat}
    {first second : List Pending} (tiled : Tiled advance windowEnd start first middle)
    (rest : Tiled advance windowEnd middle second finish) :
    Tiled advance windowEnd start (first ++ second) finish := by
  induction first generalizing start with
  | nil =>
      cases tiled
      exact rest
  | cons entry _ ih => exact ⟨tiled.1, tiled.2.1, ih tiled.2.2⟩

/-- Tiles depend on the offsets of the entries only. -/
theorem Tiled.congr {advance : Nat → Nat} {windowEnd start finish : Nat}
    {entries others : List Pending} (tiled : Tiled advance windowEnd start entries finish)
    (same : others.map (·.offset) = entries.map (·.offset)) :
    Tiled advance windowEnd start others finish := by
  induction entries generalizing start others with
  | nil =>
      rw [List.map_nil, List.map_eq_nil_iff] at same
      subst same
      exact tiled
  | cons entry rest ih =>
      obtain ⟨other, more, rfl, offset, tail⟩ := List.map_eq_cons_iff.mp same
      exact ⟨offset.trans tiled.1, tiled.2.1, ih tiled.2.2 tail⟩

/-- The entries of a tiling begin inside the window. -/
theorem Tiled.inside {advance : Nat → Nat} {windowEnd start finish : Nat} {entries : List Pending}
    (tiled : Tiled advance windowEnd start entries finish) :
    ∀ entry ∈ entries, entry.offset < windowEnd := by
  induction entries generalizing start with
  | nil => simp
  | cons first rest ih =>
      intro entry member
      rcases List.mem_cons.mp member with same | later
      · rw [same, tiled.1]
        exact tiled.2.1
      · exact ih tiled.2.2 entry later

/-- A slot that is taken was free. -/
theorem takeFree_eq_some {stream next : ShardStream} {slot : Nat}
    (taken : stream.takeFree = some (slot, next)) :
    stream.free[slot]? = some true ∧ next = { stream with free := stream.free.set slot false } := by
  simp only [takeFree, Option.map_eq_some_iff, Prod.mk.injEq] at taken
  obtain ⟨index, found, rfl, rfl⟩ := taken
  obtain ⟨bound, free, -⟩ := List.findIdx?_eq_some_iff_getElem.mp found
  exact ⟨by rw [List.getElem?_eq_getElem bound]; simpa using free, rfl⟩

/-- Without a free slot none is taken. -/
theorem takeFree_eq_none {stream : ShardStream} (none : stream.takeFree = none) :
    true ∉ stream.free := by
  simp only [takeFree, Option.map_eq_none_iff, List.findIdx?_eq_none_iff] at none
  exact fun member => absurd (none true member) (by simp)

/-- What the loop of `fill_pipeline` does to the stream when it queues `entries`. -/
structure Filled (before after : ShardStream) (entries : List Pending) : Prop where
  frame : after = { before with
    free := after.free
    pending := before.pending ++ entries
    nextOffset := after.nextOffset }
  waiting : ∀ entry ∈ entries, entry.done = false
  tiled : Tiled before.advance before.windowEnd before.nextOffset entries after.nextOffset
  distinct : (entries.map (·.slot)).Nodup
  wereFree : ∀ entry ∈ entries, before.free[entry.slot]? = some true
  areTaken : ∀ entry ∈ entries, after.free[entry.slot]? = some false
  others : ∀ slot ∉ entries.map (·.slot), after.free[slot]? = before.free[slot]?
  slots : after.free.length = before.free.length
  bound : after.pending.length ≤ max before.pending.length before.readDepth

/-- Why the loop ends: the depth is reached, the window is queued, or no slot is free. -/
def Saturated (after : ShardStream) (queued : Nat) : Prop :=
  after.readDepth ≤ after.pending.length + queued ∨ after.windowEnd ≤ after.nextOffset ∨
    true ∉ after.free

/-- Filling changes the slots, the entries and the offset alone. -/
theorem Filled.exists_frame {before after : ShardStream} {entries : List Pending}
    (filled : Filled before after entries) : ∃ free nextOffset, after = { before with
      free, pending := before.pending ++ entries, nextOffset } := ⟨_, _, filled.frame⟩

/-- A fill may queue nothing. -/
theorem filled_refl (stream : ShardStream) : Filled stream stream [] where
  frame := by simp
  waiting := by simp
  tiled := rfl
  distinct := by simp
  wereFree := by simp
  areTaken := by simp
  others := by simp
  slots := rfl
  bound := Nat.le_max_left _ _

/-- One more round of the loop. -/
theorem Filled.enqueue {before after next : ShardStream} {entries : List Pending} {slot : Nat}
    (filled : Filled before after entries) (room : after.pending.length < after.readDepth)
    (inside : after.nextOffset < after.windowEnd) (taken : after.takeFree = some (slot, next)) :
    Filled before (next.enqueue slot).2 (entries ++ [{ offset := after.nextOffset, slot }]) ∧
      (next.enqueue slot).1 = before.entryRequest { offset := after.nextOffset, slot } := by
  obtain ⟨wasFree, rfl⟩ := takeFree_eq_some taken
  obtain ⟨frame, waiting, tiled, distinct, wereFree, areTaken, others, slots, bound⟩ := filled
  obtain ⟨length, -⟩ := List.getElem?_eq_some_iff.mp wasFree
  have unused : slot ∉ entries.map (·.slot) := by
    intro member
    obtain ⟨entry, queued, rfl⟩ := List.mem_map.mp member
    rw [areTaken entry queued] at wasFree
    cases wasFree
  have depth : after.readDepth = before.readDepth := by rw [frame]
  have window : after.windowEnd = before.windowEnd := by rw [frame]
  have advances : after.advance = before.advance := by rw [frame]; rfl
  refine ⟨⟨?_, ?_, ?_, ?_, ?_, ?_, ?_, by simpa [ShardStream.enqueue] using slots, ?_⟩, ?_⟩
  · rw [frame]
    simp only [ShardStream.enqueue, List.append_assoc]
  · simpa [or_imp, forall_and] using waiting
  · rw [← window, ← advances] at tiled ⊢
    exact tiled.snoc rfl inside
  · simp only [List.map_append, List.map_cons, List.map_nil, List.nodup_append]
    refine ⟨distinct, by simp, fun used member other single => ?_⟩
    rw [List.mem_singleton.mp single]
    rintro rfl
    exact unused member
  · simp only [List.mem_append, List.mem_singleton]
    rintro entry (queued | rfl)
    · exact wereFree entry queued
    · rwa [← others slot unused]
  · simp only [ShardStream.enqueue, List.mem_append, List.mem_singleton, List.getElem?_set]
    rintro entry (queued | rfl)
    · have apart : slot ≠ entry.slot := fun same =>
        unused (List.mem_map.mpr ⟨entry, queued, same.symm⟩)
      rw [if_neg apart]
      exact areTaken entry queued
    · simp [length]
  · simp only [ShardStream.enqueue, List.map_append, List.mem_append, not_or, List.map_cons,
      List.map_nil, List.mem_singleton, List.getElem?_set]
    rintro other ⟨old, apart⟩
    rw [if_neg (fun same => apart same.symm)]
    exact others other old
  · simp only [ShardStream.enqueue, List.length_append, List.length_singleton]
    omega
  · rw [frame]
    rfl

/-- The specification of the loop. -/
theorem fillLoop_spec {before stream : ShardStream} {entries : List Pending} (rounds : Nat)
    (filled : Filled before stream entries) (enough : before.readDepth ≤ rounds + entries.length) :
    ∃ (after : ShardStream) (queued : List Pending),
      fillLoop rounds stream (entries.map before.entryRequest) =
        (after, queued.map before.entryRequest) ∧
      Filled before after queued ∧ Saturated after queued.length := by
  have depth : stream.readDepth = before.readDepth := by rw [filled.frame]
  induction rounds generalizing stream entries with
  | zero =>
      exact ⟨stream, entries, rfl, filled, .inl (by omega)⟩
  | succ rounds ih =>
      rw [fillLoop]
      split
      · next guard =>
        rw [List.length_map] at guard
        split
        · next none => exact ⟨stream, entries, rfl, filled, .inr (.inr (takeFree_eq_none none))⟩
        · next slot next taken =>
          obtain ⟨more, request⟩ := filled.enqueue (by omega) guard.2 taken
          obtain ⟨after, queued, same, spec⟩ := ih more
            (by rw [List.length_append, List.length_singleton]; omega) (by rw [more.frame])
          rw [request]
          exact ⟨after, queued, by simpa using same, spec⟩
      · next stops =>
        rw [List.length_map] at stops
        refine ⟨stream, entries, rfl, filled, ?_⟩
        simp only [Saturated]
        omega

/-- `fill_pipeline` as a whole: what it queues, and what it does with a refusal. -/
theorem fillPipeline_spec (submission : Submission) (stream : ShardStream) :
    ∃ (filled : ShardStream) (entries : List Pending),
      Filled stream filled entries ∧ Saturated filled entries.length ∧
      fillLoop stream.readDepth stream [] = (filled, entries.map stream.entryRequest) ∧
      (entries = [] ∧ stream.fillPipeline submission = (.ok (), filled) ∨
        entries ≠ [] ∧ submission = .accepted ∧
          stream.fillPipeline submission =
            (.ok (), filled.submit (entries.map stream.entryRequest)) ∨
        ∃ error queued, entries ≠ [] ∧ submission = .refused error queued ∧
          stream.fillPipeline submission = (.error error,
            { rollBack^[entries.length]
                (filled.submit ((entries.map stream.entryRequest).take queued)) with
              nextOffset := stream.nextOffset })) := by
  obtain ⟨filled, entries, loop, spec, saturated⟩ :=
    fillLoop_spec stream.readDepth (filled_refl stream) (by simp)
  rw [List.map_nil] at loop
  refine ⟨filled, entries, spec, saturated, loop, ?_⟩
  simp only [fillPipeline, loop, List.map_eq_nil_iff, List.length_map]
  by_cases none : entries = []
  · exact .inl ⟨none, by rw [if_pos none]⟩
  · simp only [if_neg none]
    cases submission with
    | accepted => exact .inr (.inl ⟨none, rfl, rfl⟩)
    | refused error queued => exact .inr (.inr ⟨error, queued, none, rfl, rfl⟩)

/-- Rolling back takes the queued entries off again and frees their slots. -/
theorem rollBack_iterate (stream : ShardStream) (kept entries : List Pending)
    (pending : stream.pending = kept ++ entries) :
    ∃ free, rollBack^[entries.length] stream = { stream with free, pending := kept } ∧
      ∀ slot, free[slot]? = if slot ∈ entries.map (·.slot)
        then (stream.free[slot]?).map fun _ => true else stream.free[slot]? := by
  induction entries generalizing kept with
  | nil =>
      rw [List.append_nil] at pending
      exact ⟨stream.free, by rw [← pending]; rfl, by simp⟩
  | cons entry entries ih =>
      obtain ⟨free, undone, frees⟩ := ih (kept ++ [entry]) (by simp [pending])
      refine ⟨free.set entry.slot true, ?_, fun slot => ?_⟩
      · rw [List.length_cons, Function.iterate_succ_apply', undone]
        simp [rollBack, release]
      · by_cases own : entry.slot = slot
        · subst own
          rw [List.getElem?_set_self', frees]
          split
          · cases stream.free[entry.slot]? <;> simp
          · cases stream.free[entry.slot]? <;> simp
        · rw [List.getElem?_set_ne own, frees]
          simp [Ne.symm own]

/-- A roll-back undoes a fill, up to the requests that reached the backend. -/
theorem Filled.rollBack {stream filled : ShardStream} {entries : List Pending}
    (fill : Filled stream filled entries) (requests : List ReadRequest) :
    { rollBack^[entries.length] (filled.submit requests) with
      nextOffset := stream.nextOffset } = stream.submit requests := by
  have pending : (filled.submit requests).pending = stream.pending ++ entries := by
    rw [fill.frame]
    rfl
  obtain ⟨free, undone, frees⟩ := rollBack_iterate _ _ _ pending
  have restored : free = stream.free := by
    refine List.ext_getElem? fun slot => ?_
    rw [frees]
    split
    · next member =>
      obtain ⟨entry, queued, rfl⟩ := List.mem_map.mp member
      have taken : (filled.submit requests).free[entry.slot]? = some false :=
        fill.areTaken entry queued
      rw [taken, fill.wereFree entry queued]
      rfl
    · next other => exact fill.others slot other
  obtain ⟨after, nextOffset, rfl⟩ := fill.exists_frame
  rw [undone, restored]
  rfl

end Dsio.ShardStream
