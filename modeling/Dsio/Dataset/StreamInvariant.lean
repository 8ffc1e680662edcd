import Mathlib.Data.List.Nodup
import Mathlib.Data.List.Perm.Basic
import Dsio.Dataset.Filling
import Dsio.Dataset.Reading

/-!
# The invariant of the stream

`Sound` is what every operation of an undisturbed stream keeps: the slots of the
pending entries are distinct and taken, the entries tile the window from the front
entry to the next offset, the requests in flight are exactly those of the entries not
yet done, and a shard never closes without a free slot left. After an error the stream
is only ever destroyed, and `Safe` is what is left to keep then.
-/

namespace Dsio.ShardStream

open Transition

/-- Where the part of the window that has not been consumed begins. -/
def position (stream : ShardStream) : Nat :=
  ((stream.pending.head?).map (·.offset)).getD stream.nextOffset

/-- A whole number of blocks after the start of the shard. -/
def OnGrid (stream : ShardStream) (offset : Nat) : Prop :=
  ∃ count, offset = (stream.shardAt stream.next).offset + count * stream.block

/-- What holds of the open shard. -/
structure Opened (disk : Disk) (stream : ShardStream) : Prop where
  more : stream.next < stream.order.length
  backend : ∃ backend, stream.backend = some backend ∧
    backend.options.queueDepth = stream.readDepth
  buffers : stream.buffers.length = stream.readDepth
  path : stream.file.path = (stream.shardAt stream.next).path
  block : stream.block = disk.alignment stream.file.path
  segment : stream.segment = segmentOf stream.options stream.block
  windowEnd : stream.windowEnd = (stream.shardAt stream.next).end
  tiled : Tiled stream.advance stream.windowEnd stream.position stream.pending stream.nextOffset
  grid : stream.nextOffset < stream.windowEnd → stream.OnGrid stream.nextOffset

structure Sound (disk : Disk) (stream : ShardStream) : Prop where
  depth : 0 < stream.readDepth
  bound : stream.pending.length ≤ stream.readDepth
  slots : stream.free.length = stream.buffers.length
  addresses : (stream.buffers.map (·.address)).Nodup
  sized : ∀ buffer ∈ stream.buffers, buffer.size = roundUp stream.segment stream.block
  taken : ∀ entry ∈ stream.pending, stream.free[entry.slot]? = some false
  distinct : (stream.pending.map (·.slot)).Nodup
  spare : stream.pending = [] → stream.buffers ≠ [] → true ∈ stream.free
  matched : stream.inFlight.Perm
    ((stream.pending.filter fun entry => !entry.done).map stream.entryRequest)
  closed : stream.isOpen = false → stream.backend = none ∧ stream.pending = []
  opened : stream.isOpen = true → Opened disk stream

/-- Every request in flight has a live buffer of its own, which nothing copies from. -/
structure Safe (stream : ShardStream) : Prop where
  allocated : ∀ request ∈ stream.inFlight,
    ∃ buffer ∈ stream.buffers, buffer.address = request.dst.address
  exclusive : (stream.inFlight.map fun request => request.dst.address).Nodup
  uncopied : ∀ entry ∈ stream.pending, entry.done = true → ∀ request ∈ stream.inFlight,
    request.dst.address ≠ (stream.bufferSpan entry.slot 0).address

/-- What holds at the points of a call. -/
def Config.Sound (disk : Disk) (config : Config) : Prop :=
  match config.point with
  | .loop _ _ | .returned (.ok _) => ShardStream.Sound disk config.stream
  | .await _ _ => ShardStream.Sound disk config.stream ∧ config.stream.pending ≠ []
  | .returned (.error _) => Safe config.stream

variable {disk : Disk} {stream : ShardStream}

/-! ## Request lengths -/

/-- Requests are whole blocks. -/
theorem block_dvd_requestLength (stream : ShardStream) (remaining : Nat) :
    stream.block ∣ stream.requestLength remaining := by
  simp only [requestLength]
  split
  · exact Nat.dvd_refl _
  · exact Nat.dvd_sub_mod _

/-- Requests are not empty. -/
theorem requestLength_pos (positive : 0 < stream.block) (remaining : Nat) :
    0 < stream.requestLength remaining := by
  simp only [requestLength]
  split <;> omega

/-- Each request brings the queue forward. -/
theorem lt_advance (positive : 0 < stream.block) {offset : Nat}
    (inside : offset < stream.windowEnd) : offset < stream.advance offset := by
  have length := requestLength_pos positive (stream.windowEnd - offset)
  simp only [advance, share]
  omega

/-- The queue stays inside the window. -/
theorem advance_le {offset : Nat} (inside : offset ≤ stream.windowEnd) :
    stream.advance offset ≤ stream.windowEnd := by
  simp only [advance, share]
  omega

/-- A segment that does not end the window is a whole request. -/
theorem advance_eq {offset : Nat} (inside : stream.advance offset < stream.windowEnd) :
    stream.advance offset = offset + stream.requestLength (stream.windowEnd - offset) := by
  simp only [advance, share] at inside ⊢
  omega

/-- Inside the window the queue stays on the grid of blocks. -/
theorem OnGrid.advance {offset : Nat} (onGrid : stream.OnGrid offset)
    (inside : stream.advance offset < stream.windowEnd) :
    stream.OnGrid (stream.advance offset) := by
  obtain ⟨count, same⟩ := onGrid
  obtain ⟨blocks, length⟩ := block_dvd_requestLength stream (stream.windowEnd - offset)
  refine ⟨count + blocks, ?_⟩
  rw [advance_eq inside, length, same, Nat.add_mul, Nat.mul_comm stream.block, Nat.add_assoc]

/-- All tiles begin on the grid when the first does, and so does the space after them. -/
theorem Tiled.grid {start finish : Nat} {entries : List Pending}
    (tiled : Tiled stream.advance stream.windowEnd start entries finish)
    (onGrid : start < stream.windowEnd → stream.OnGrid start) :
    (∀ entry ∈ entries, stream.OnGrid entry.offset) ∧
      (finish < stream.windowEnd → stream.OnGrid finish) := by
  induction entries generalizing start with
  | nil =>
      cases tiled
      exact ⟨by simp, onGrid⟩
  | cons first rest ih =>
      obtain ⟨offset, inside, more⟩ := tiled
      obtain ⟨later, last⟩ := ih more fun below => (onGrid inside).advance below
      exact ⟨by simpa [offset, onGrid inside] using later, last⟩

/-- The front of a tiling is where it starts. -/
theorem Tiled.front {advance : Nat → Nat} {windowEnd start finish : Nat} {entries : List Pending}
    (tiled : Tiled advance windowEnd start entries finish) :
    ((entries.head?).map (·.offset)).getD finish = start := by
  cases entries with
  | nil => exact tiled.symm
  | cons entry rest => exact tiled.1

/-- Only an open shard has pending entries. -/
theorem Sound.isOpen (sound : Sound disk stream) (some : stream.pending ≠ []) :
    stream.isOpen = true := by
  by_contra closed
  exact some (sound.closed (by simpa using closed)).2

/-! ## Buffers -/

/-- Two slots with one address are one slot. -/
theorem Sound.slot_inj (sound : Sound disk stream) {first second : Nat}
    (firstBound : first < stream.buffers.length) (secondBound : second < stream.buffers.length)
    (same : (stream.bufferSpan first 0).address = (stream.bufferSpan second 0).address) :
    first = second := by
  have firstLive : first < (stream.buffers.map (·.address)).length := by simpa using firstBound
  have secondLive : second < (stream.buffers.map (·.address)).length := by simpa using secondBound
  have equal : (stream.buffers.map (·.address))[first] =
      (stream.buffers.map (·.address))[second] := by
    simpa [bufferSpan, bufferAt, List.getElem?_eq_getElem firstBound,
      List.getElem?_eq_getElem secondBound] using same
  exact sound.addresses.getElem_inj_iff.mp equal

/-- The slot of an entry has a buffer. -/
theorem Sound.slot_lt (sound : Sound disk stream) {entry : Pending}
    (member : entry ∈ stream.pending) : entry.slot < stream.buffers.length := by
  obtain ⟨bound, -⟩ := List.getElem?_eq_some_iff.mp (sound.taken entry member)
  rw [← sound.slots]
  exact bound

/-- A request in flight is that of an entry still waiting. -/
theorem Sound.mem_inFlight (sound : Sound disk stream) {request : ReadRequest}
    (member : request ∈ stream.inFlight) :
    ∃ entry ∈ stream.pending, entry.done = false ∧ stream.entryRequest entry = request := by
  obtain ⟨entry, waiting, same⟩ := List.mem_map.mp (sound.matched.mem_iff.mp member)
  obtain ⟨pending, done⟩ := List.mem_filter.mp waiting
  exact ⟨entry, pending, by simpa using done, same⟩

/-- A sound stream is safe. -/
theorem Sound.safe (sound : Sound disk stream) : Safe stream where
  allocated := by
    intro request member
    obtain ⟨entry, pending, -, rfl⟩ := sound.mem_inFlight member
    have bound := sound.slot_lt pending
    exact ⟨stream.buffers[entry.slot], List.getElem_mem bound, by
      simp [entryRequest, bufferSpan, bufferAt, List.getElem?_eq_getElem bound]⟩
  exclusive := by
    rw [(sound.matched.map _).nodup_iff, List.map_map]
    have slots := List.Nodup.of_map _ (sound.distinct)
    refine List.Nodup.map_on ?_ (slots.filter _)
    intro first firstMember second secondMember same
    have firstPending := List.mem_of_mem_filter firstMember
    have secondPending := List.mem_of_mem_filter secondMember
    exact List.inj_on_of_nodup_map sound.distinct firstPending secondPending
      (sound.slot_inj (sound.slot_lt firstPending) (sound.slot_lt secondPending) same)
  uncopied := by
    intro entry pending done request member same
    obtain ⟨waiting, waitingPending, undone, rfl⟩ := sound.mem_inFlight member
    have slots : waiting.slot = entry.slot :=
      sound.slot_inj (sound.slot_lt waitingPending) (sound.slot_lt pending) same
    have entries := List.inj_on_of_nodup_map sound.distinct waitingPending pending slots
    rw [entries, done] at undone
    cases undone

/-- Fewer requests in flight and fewer entries are still safe. -/
theorem Safe.mono {after : ShardStream} (safe : Safe stream)
    (fewer : after.inFlight.Sublist stream.inFlight)
    (entries : ∀ entry ∈ after.pending, entry.done = true →
      ∃ old ∈ stream.pending, old.done = true ∧ old.slot = entry.slot)
    (buffers : after.buffers.map (·.address) = stream.buffers.map (·.address)) : Safe after where
  allocated := by
    intro request member
    obtain ⟨buffer, live, same⟩ := safe.allocated request (fewer.subset member)
    have address : request.dst.address ∈ after.buffers.map (·.address) :=
      buffers ▸ List.mem_map.mpr ⟨buffer, live, same⟩
    exact List.mem_map.mp address
  exclusive := safe.exclusive.sublist (fewer.map _)
  uncopied := by
    intro entry pending done request member
    obtain ⟨old, oldPending, oldDone, slot⟩ := entries entry pending done
    have apart := safe.uncopied old oldPending oldDone request (fewer.subset member)
    have address : (after.buffers[entry.slot]?).map (·.address) =
        (stream.buffers[entry.slot]?).map (·.address) := by
      rw [← List.getElem?_map, ← List.getElem?_map, buffers]
    rw [slot] at apart
    simp only [bufferSpan, bufferAt] at apart ⊢
    cases new : after.buffers[entry.slot]? <;> cases before : stream.buffers[entry.slot]? <;>
      simp_all

/-! ## Opening and closing -/

/-- What closing a shard resets. -/
theorem closeShard_eq (stream : ShardStream) : stream.closeShard = { stream with
    backend := none
    pending := []
    file := {}
    isOpen := false
    next := stream.next + 1 } := rfl

/-- A new stream is sound. -/
theorem sound_construct (disk : Disk) (shards : ShardSet) (order : List Nat)
    (options : BatchOptions) : Sound disk (construct shards order options) where
  depth := by simp only [construct]; omega
  bound := Nat.zero_le _
  slots := rfl
  addresses := by simp [construct]
  sized := by simp [construct]
  taken := by simp [construct]
  distinct := by simp [construct]
  spare := by simp [construct]
  matched := .refl _
  closed := fun _ => ⟨rfl, rfl⟩
  opened := by simp [construct]

/-- The carry is no concern of the pipeline. -/
theorem Sound.carry (sound : Sound disk stream) (carry : List Byte) (carrySize : Nat) :
    Sound disk { stream with carry, carrySize } := by
  obtain ⟨depth, bound, slots, addresses, sized, taken, distinct, spare, matched, closed,
    opened⟩ := sound
  refine ⟨depth, bound, slots, addresses, sized, taken, distinct, spare, matched, closed,
    fun isOpen => ?_⟩
  obtain ⟨more, backend, buffers, path, block, segment, windowEnd, tiled, grid⟩ := opened isOpen
  exact ⟨more, backend, buffers, path, block, segment, windowEnd, tiled, grid⟩

/-- Flushing the carry changes nothing else. -/
theorem flushCarry_frame (size : Nat) (stream : ShardStream) :
    ∃ carry carrySize, (stream.flushCarry size).2 = { stream with carry, carrySize } := by
  simp only [flushCarry]
  split
  · exact ⟨stream.carry, stream.carrySize, rfl⟩
  · exact ⟨_, _, rfl⟩

/-- Handing out the carry keeps the stream sound. -/
theorem Sound.flushCarry (sound : Sound disk stream) (size : Nat) :
    Sound disk (stream.flushCarry size).2 := by
  obtain ⟨carry, carrySize, same⟩ := flushCarry_frame size stream
  rw [same]
  exact sound.carry carry carrySize

/-- Closing a shard keeps the stream sound. -/
theorem Sound.closeShard (sound : Sound disk stream) (spare : true ∈ stream.free) :
    Sound disk stream.closeShard where
  depth := sound.depth
  bound := Nat.zero_le _
  slots := sound.slots
  addresses := sound.addresses
  sized := sound.sized
  taken := by simp [closeShard_eq]
  distinct := by simp [closeShard_eq]
  spare := fun _ _ => spare
  matched := .refl _
  closed := fun _ => ⟨rfl, rfl⟩
  opened := by simp [closeShard_eq]

/-- What `prepare_buffers` provides, whether it kept the buffers or replaced them. -/
structure Prepared (before after : ShardStream) (block segment : Nat) : Prop where
  frame : after = { before with
    buffers := after.buffers
    free := after.free
    block
    segment }
  buffers : after.buffers.length = before.readDepth
  slots : after.free.length = after.buffers.length
  addresses : (after.buffers.map (·.address)).Nodup
  sized : ∀ buffer ∈ after.buffers, buffer.size = roundUp segment block
  spare : true ∈ after.free

/-- The buffers are kept, allocated anew, or the allocation fails. -/
theorem Sound.prepareBuffers {environment : Environment} {opening : Opening}
    (sound : Sound disk stream) (closed : stream.isOpen = false)
    (allowed : Opens environment stream opening) (block segment : Nat) :
    (∃ error message, opening.allocated = .error message ∧
        stream.prepareBuffers opening.allocated block segment = (.error error, stream)) ∨
      ∃ after, stream.prepareBuffers opening.allocated block segment = (.ok (), after) ∧
        Prepared stream after block segment := by
  simp only [ShardStream.prepareBuffers]
  split
  · next reused =>
    obtain ⟨some, rfl, rfl, length⟩ := reused
    exact .inr ⟨stream, rfl, rfl, length, sound.slots, sound.addresses, sound.sized,
      sound.spare (sound.closed closed).2 some⟩
  · cases allocated : opening.allocated with
    | error message => exact .inl ⟨_, message, rfl, rfl⟩
    | ok addresses =>
        obtain ⟨length, distinct, -⟩ := allowed.fresh addresses allocated
        refine .inr ⟨_, rfl, rfl, ?_, ?_, ?_, ?_, ?_⟩
        · simpa using length
        · simpa using length.symm
        · simpa [Function.comp_def] using distinct
        · simp
        · simpa using Nat.pos_iff_ne_zero.mp sound.depth

/-- What opening the next shard leaves alone and where it starts. -/
def Begun (before after : ShardStream) : Prop :=
  after = { before with
    file := after.file
    backend := after.backend
    buffers := after.buffers
    free := after.free
    block := after.block
    segment := after.segment
    windowEnd := (before.shardAt before.next).end
    nextOffset := (before.shardAt before.next).offset
    isOpen := true }

/-- A shard that opens is in order, and one that does not leaves no backend. -/
theorem Sound.openShard {environment : Environment} {opening : Opening}
    (sound : Sound environment.disk stream) (closed : stream.isOpen = false)
    (more : stream.next < stream.order.length) (allowed : Opens environment stream opening) :
    (∃ error after, stream.openShard opening = (.error error, after) ∧ after.backend = none ∧
        environment.fails) ∨
      ∃ after, stream.openShard opening = (.ok (), after) ∧ Sound environment.disk after ∧
        Begun stream after := by
  obtain ⟨backend, pending⟩ := sound.closed closed
  simp only [ShardStream.openShard]
  cases opened : opening.file with
  | error error => exact .inl ⟨error, stream, rfl, backend, allowed.failure.resolve_right
      fun ⟨⟨_, ok⟩, _⟩ => by simp [opened] at ok⟩
  | ok file =>
      obtain ⟨path, alignment⟩ := allowed.path file opened
      dsimp only
      rcases sound.prepareBuffers closed allowed file.alignment
        (segmentOf stream.options file.alignment) with
        ⟨error, message, failed, same⟩ | ⟨after, same, prepared⟩
      · rw [same]
        exact .inl ⟨error, stream, rfl, backend, allowed.failure.resolve_right
          fun ⟨_, ⟨_, ok⟩, _⟩ => by simp [failed] at ok⟩
      · rw [same]
        obtain ⟨buffers, free, rfl⟩ : ∃ buffers free, after = { stream with
            buffers, free, block := file.alignment
            segment := segmentOf stream.options file.alignment } := ⟨_, _, prepared.frame⟩
        cases backendOpened : opening.backend with
        | error error => exact .inl ⟨error, _, rfl, backend, allowed.failure.resolve_right
            fun ⟨_, _, ok⟩ => by simp [backendOpened] at ok⟩
        | ok _ =>
            refine .inr ⟨_, rfl, ?_, rfl⟩
            refine ⟨sound.depth, ?_, prepared.slots, prepared.addresses, prepared.sized, ?_, ?_,
              fun _ _ => prepared.spare, ?_, by simp, fun _ => ?_⟩
            · simp [pending]
            · simp [pending]
            · simp [pending]
            · simp [inFlight, pending]
            · exact ⟨more, ⟨_, rfl, rfl⟩, prepared.buffers, path, alignment, rfl, rfl,
                by simp [pending, position, Tiled], fun _ => ⟨0, by simp [shardAt]⟩⟩

/-! ## Filling -/

@[simp] theorem submit_nil (stream : ShardStream) : stream.submit [] = stream := by
  obtain ⟨_, _, _, _, _, _, backend⟩ := stream
  cases backend <;> simp [submit]

/-- What is submitted is in flight behind what was. -/
theorem inFlight_submit (isBackend : stream.backend ≠ none) (requests : List ReadRequest) :
    (stream.submit requests).inFlight = stream.inFlight ++ requests := by
  cases backend : stream.backend with
  | none => exact absurd backend isBackend
  | some _ => simp [inFlight, submit, backend]

/-- The entries a fill adds tile on from those already pending. -/
theorem Sound.fill_tiled {filled : ShardStream} {entries : List Pending}
    (sound : Sound disk stream) (isOpen : stream.isOpen = true)
    (fill : Filled stream filled entries) :
    Tiled stream.advance stream.windowEnd stream.position filled.pending filled.nextOffset ∧
      filled.position = stream.position := by
  have tiled := (sound.opened isOpen).tiled.append fill.tiled
  have pending : filled.pending = stream.pending ++ entries := by rw [fill.frame]
  rw [← pending] at tiled
  exact ⟨tiled, tiled.front⟩

/-- A fill keeps the invariant once its requests are handed over. -/
theorem Sound.fill {filled : ShardStream} {entries : List Pending} (sound : Sound disk stream)
    (isOpen : stream.isOpen = true) (fill : Filled stream filled entries) :
    Sound disk (filled.submit (entries.map stream.entryRequest)) := by
  obtain ⟨more, ⟨backend, found, queueDepth⟩, buffers, path, block, segment, windowEnd, tiled,
    grid⟩ := sound.opened isOpen
  obtain ⟨wholeTiled, front⟩ := sound.fill_tiled isOpen fill
  obtain ⟨frame, waiting, tiles, distinct, wereFree, areTaken, others, length, bound⟩ := fill
  obtain ⟨free, nextOffset, rfl⟩ : ∃ free nextOffset, filled = { stream with
      free, pending := stream.pending ++ entries, nextOffset } := ⟨_, _, frame⟩
  refine ⟨sound.depth, ?_, ?_, sound.addresses, sound.sized, ?_, ?_, ?_, ?_, ?_, fun _ => ?_⟩
  · have before := sound.bound
    simp only [submit] at bound ⊢
    omega
  · exact length.trans sound.slots
  · simp only [submit, List.mem_append]
    rintro entry (old | queued)
    · by_cases reused : entry.slot ∈ entries.map (·.slot)
      · obtain ⟨other, member, slot⟩ := List.mem_map.mp reused
        exact slot ▸ areTaken other member
      · exact (others _ reused).trans (sound.taken entry old)
    · exact areTaken entry queued
  · simp only [submit, List.map_append, List.nodup_append]
    refine ⟨sound.distinct, distinct, ?_⟩
    rintro slot old other queued rfl
    obtain ⟨entry, pending, rfl⟩ := List.mem_map.mp old
    obtain ⟨fresh, member, same⟩ := List.mem_map.mp queued
    have free := wereFree fresh member
    rw [same, sound.taken entry pending] at free
    cases free
  · intro empty live
    simp only [submit, List.append_eq_nil_iff] at empty
    obtain ⟨slot, bound, spare⟩ := List.mem_iff_getElem.mp (sound.spare empty.1 live)
    refine List.mem_of_getElem? (i := slot) ?_
    exact (others slot (by simp [empty.2])).trans (List.getElem?_eq_some_iff.mpr ⟨bound, spare⟩)
  · have undone : entries.filter (fun entry => !entry.done) = entries :=
      List.filter_eq_self.mpr fun entry member => by simp [waiting entry member]
    rw [inFlight_submit (by simp [found])]
    simp only [submit, List.filter_append, undone, List.map_append]
    exact sound.matched.append_right _
  · intro closed
    have open' : stream.isOpen = false := closed
    rw [isOpen] at open'
    cases open'
  · have samePosition : (submit (entries.map stream.entryRequest) { stream with
        free, pending := stream.pending ++ entries, nextOffset }).position = stream.position :=
      front
    refine ⟨more, ⟨_, congrArg (Option.map _) found, queueDepth⟩, buffers, path, block, segment,
      windowEnd, ?_, (tiles.grid grid).2⟩
    rw [samePosition]
    exact wholeTiled

/-- With nothing pending there is a free slot, so a fill that queues nothing has reached
the end of the window. -/
theorem Sound.exhausted {filled : ShardStream} {entries : List Pending}
    (sound : Sound disk stream) (isOpen : stream.isOpen = true)
    (fill : Filled stream filled entries) (saturated : Saturated filled entries.length)
    (empty : filled.pending = []) :
    stream.pending = [] ∧ entries = [] ∧ filled = stream ∧
      stream.windowEnd ≤ stream.nextOffset ∧ true ∈ stream.free := by
  have opened := sound.opened isOpen
  obtain ⟨frame, waiting, tiles, distinct, wereFree, areTaken, others, length, bound⟩ := fill
  obtain ⟨free, nextOffset, rfl⟩ : ∃ free nextOffset, filled = { stream with
      free, pending := stream.pending ++ entries, nextOffset } := ⟨_, _, frame⟩
  obtain ⟨none, rfl⟩ := List.append_eq_nil_iff.mp empty
  have live : stream.buffers ≠ [] := by
    have length := opened.buffers
    have depth := sound.depth
    intro nothing
    simp only [nothing, List.length_nil] at length
    omega
  have spare := sound.spare none live
  cases tiles
  have sameFree : free = stream.free :=
    List.ext_getElem? fun slot => others slot (by simp)
  subst sameFree
  refine ⟨none, rfl, by simp, ?_, spare⟩
  rcases saturated with full | ended | blocked
  · have depth := sound.depth
    simp only [none, List.append_nil, List.length_nil] at full
    omega
  · exact ended
  · exact absurd spare blocked

/-! ## Reaping -/

/-- A completion takes its request out and writes its data to its buffer. -/
theorem complete_eq {index : Nat} {request : ReadRequest}
    (found : stream.inFlight[index]? = some request) (data : List Byte) :
    stream.complete index data = { stream with
      backend := stream.backend.map fun backend =>
        { backend with inFlight := backend.inFlight.eraseIdx index }
      buffers := stream.buffers.map (AlignedBuffer.receive request.dst.address data) } := by
  simp only [complete, found]

/-- A completed request is no longer in flight. -/
theorem inFlight_complete {index : Nat} {request : ReadRequest}
    (found : stream.inFlight[index]? = some request) (data : List Byte) :
    (stream.complete index data).inFlight = stream.inFlight.eraseIdx index := by
  rw [complete_eq found]
  cases backend : stream.backend with
  | none => simp [inFlight, backend]
  | some _ => simp [inFlight, backend]

/-- Writing to buffers moves none of them. -/
theorem bufferSpan_receive (stream : ShardStream) (address : Nat) (data : List Byte)
    (slot length : Nat) :
    bufferSpan { stream with buffers := stream.buffers.map (AlignedBuffer.receive address data) }
      slot length = stream.bufferSpan slot length := by
  simp only [bufferSpan, bufferAt, List.getElem?_map]
  cases stream.buffers[slot]? <;> simp

/-- The entry of a slot is found when no entry before it has that slot. -/
theorem findIdx?_slot {before after : List Pending} {entry : Pending} {token : Nat}
    (slot : entry.slot = token) (apart : ∀ other ∈ before, other.slot ≠ token) :
    (before ++ entry :: after).findIdx? (fun candidate => candidate.slot = token) =
      some before.length := by
  rw [List.findIdx?_append, List.findIdx?_eq_none_iff.mpr (by simpa using apart)]
  simp [List.findIdx?_cons, slot]

/-- Modifying at the length of the front changes the element behind it. -/
theorem modify_length_append {α : Type} (f : α → α) (before after : List α) (entry : α) :
    (before ++ entry :: after).modify before.length f = before ++ f entry :: after := by
  induction before with
  | nil => rfl
  | cons first rest ih => simp [ih]

/-- A completion is that of exactly one waiting entry, which it finishes unless it
reports an error. -/
theorem Sound.awaitOne {index : Nat} {request : ReadRequest} {completion : Completion}
    (sound : Sound disk stream) (found : stream.inFlight[index]? = some request)
    (token : completion.token = request.token) (data : List Byte) :
    ∃ (before : List Pending) (entry : Pending) (after : List Pending),
      stream.pending = before ++ entry :: after ∧ entry.done = false ∧
      stream.entryRequest entry = request ∧
      stream.awaitOne (.completed index completion data) =
        if completion.error ≠ 0 then
          (.error ⟨"dsio::for_each_batch: read failed with errno " ++ toString completion.error,
            some completion.error⟩, stream.complete index data)
        else (.ok (), { stream.complete index data with
          pending := before ++ finishEntry stream.windowEnd completion entry :: after }) := by
  obtain ⟨entry, member, waiting, same⟩ :=
    sound.mem_inFlight (List.mem_of_getElem? found)
  obtain ⟨before, after, split⟩ := List.append_of_mem member
  have slot : entry.slot = completion.token := by rw [token, ← same]; rfl
  have apart : ∀ other ∈ before, other.slot ≠ completion.token := by
    intro other old equal
    have distinct := sound.distinct
    rw [split, List.map_append, List.nodup_append] at distinct
    exact distinct.2.2 _ (List.mem_map.mpr ⟨other, old, rfl⟩) _ (by simp) (equal.trans slot.symm)
  have marked : (stream.complete index data).markDone completion =
      some { stream.complete index data with
        pending := before ++ finishEntry stream.windowEnd completion entry :: after } := by
    simp only [complete_eq found, markDone, split, findIdx?_slot slot apart, Option.map_some,
      modify_length_append]
  exact ⟨before, entry, after, split, waiting, same, by simp only [ShardStream.awaitOne, marked]⟩

/-- Finishing an entry keeps the invariant. -/
theorem Sound.finished {index : Nat} {request : ReadRequest} {before after : List Pending}
    {entry : Pending} (sound : Sound disk stream)
    (found : stream.inFlight[index]? = some request)
    (split : stream.pending = before ++ entry :: after) (waiting : entry.done = false)
    (same : stream.entryRequest entry = request) (completion : Completion) (data : List Byte) :
    Sound disk { stream.complete index data with
      pending := before ++ finishEntry stream.windowEnd completion entry :: after } := by
  have inFlightAfter := inFlight_complete found data
  have slots : (before ++ finishEntry stream.windowEnd completion entry :: after).map (·.slot) =
      stream.pending.map (·.slot) := by simp [split, finishEntry]
  have offsets : (before ++ finishEntry stream.windowEnd completion entry :: after).map (·.offset) =
      stream.pending.map (·.offset) := by simp [split, finishEntry]
  have requests : entryRequest { stream.complete index data with
      pending := before ++ finishEntry stream.windowEnd completion entry :: after } =
      stream.entryRequest := by
    funext other
    simp only [complete_eq found, entryRequest]
    exact congrArg (ReadRequest.mk other.offset · other.slot) (bufferSpan_receive ..)
  have matched := sound.matched
  obtain ⟨bound, atIndex⟩ := List.getElem?_eq_some_iff.mp found
  rw [complete_eq found] at inFlightAfter requests ⊢
  refine ⟨sound.depth, ?_, ?_, ?_, ?_, ?_, ?_, ?_, ?_, ?_, fun isOpen => ?_⟩
  · have bound := sound.bound
    rw [split] at bound
    simpa using bound
  · simpa using sound.slots
  · simpa [Function.comp_def] using sound.addresses
  · simpa using sound.sized
  · intro other member
    have slot : other.slot ∈ stream.pending.map (·.slot) :=
      slots ▸ List.mem_map.mpr ⟨other, member, rfl⟩
    obtain ⟨old, pending, equal⟩ := List.mem_map.mp slot
    exact equal ▸ sound.taken old pending
  · rw [slots]
    exact sound.distinct
  · simp
  · rw [requests]
    refine List.Perm.trans (.of_eq inFlightAfter) ?_
    -- both sides lose the request of the finished entry
    have whole : (request :: stream.inFlight.eraseIdx index).Perm (request ::
        ((before ++ finishEntry stream.windowEnd completion entry :: after).filter
          fun entry => !entry.done).map stream.entryRequest) := by
      refine (List.Perm.trans ?_ matched).trans ?_
      · rw [← atIndex]
        exact List.getElem_cons_eraseIdx_perm bound
      · rw [split]
        simp only [List.filter_append, List.filter_cons, waiting, finishEntry, Bool.not_false,
          Bool.not_true, if_true, Bool.false_eq_true, if_false, List.map_append, List.map_cons,
          same]
        exact List.perm_middle
    exact whole.cons_inv
  · intro closed
    have none := (sound.closed closed).2
    simp [split] at none
  · obtain ⟨more, ⟨backend, some, queueDepth⟩, buffers, path, block, segment, windowEnd, tiled,
      grid⟩ := sound.opened isOpen
    have retiled := tiled.congr offsets
    refine ⟨more, ⟨_, congrArg (Option.map _) some, queueDepth⟩, by simpa using buffers, path,
      block, segment, windowEnd, ?_, grid⟩
    have front : position { stream with
        pending := before ++ finishEntry stream.windowEnd completion entry :: after } =
        stream.position := retiled.front
    exact front ▸ retiled

/-! ## Consuming -/

/-- Consuming an entry frees its slot and may carry bytes; the rest stays. -/
theorem takeFront_frame (stream : ShardStream) (entry : Pending) (room : Nat) :
    ∃ carry carrySize, (stream.takeFront entry room).2.2 = { stream with
      free := stream.free.set entry.slot true, pending := stream.pending.tail, carry,
      carrySize } := by
  simp only [takeFront, release]
  split
  · exact ⟨_, _, rfl⟩
  · exact ⟨_, _, rfl⟩

/-- Past the front entry, the window goes on at the segment after it. -/
theorem Opened.position_taken {entry : Pending} {rest : List Pending}
    (opened : Opened disk stream) (pending : stream.pending = entry :: rest) (free : List Bool)
    (carry : List Byte) (carrySize : Nat) :
    position { stream with free, pending := rest, carry, carrySize } =
      stream.advance stream.position := by
  have tiled := opened.tiled
  rw [pending] at tiled
  exact tiled.2.2.front

/-- Consuming the front entry keeps the invariant and leaves its slot free. -/
theorem Sound.takeFront {entry : Pending} {rest : List Pending} (sound : Sound disk stream)
    (pending : stream.pending = entry :: rest) (done : entry.done = true) (room : Nat) :
    Sound disk (stream.takeFront entry room).2.2 ∧
      true ∈ (stream.takeFront entry room).2.2.free := by
  obtain ⟨carry, carrySize, same⟩ := stream.takeFront_frame entry room
  rw [same, pending, List.tail_cons]
  have kept : Sound disk { stream with
      free := stream.free.set entry.slot true, pending := rest } := by
    have taken := sound.taken
    have distinct := sound.distinct
    have matched := sound.matched
    rw [pending] at taken distinct matched
    have apart := (List.nodup_cons.mp distinct).1
    refine ⟨sound.depth, ?_, ?_, sound.addresses, sound.sized, ?_, (List.nodup_cons.mp distinct).2,
      ?_, ?_, ?_, fun isOpen => ?_⟩
    · have bound := sound.bound
      rw [pending, List.length_cons] at bound
      exact Nat.le_of_succ_le bound
    · simpa using sound.slots
    · intro other member
      have different : entry.slot ≠ other.slot := fun same =>
        apart (List.mem_map.mpr ⟨other, member, same.symm⟩)
      rw [List.getElem?_set_ne different]
      exact taken other (List.mem_cons_of_mem _ member)
    · intro _ _
      obtain ⟨bound, -⟩ := List.getElem?_eq_some_iff.mp (taken entry List.mem_cons_self)
      exact List.mem_of_getElem? (List.getElem?_set_self bound)
    · simp only [List.filter_cons, done, Bool.not_true, Bool.false_eq_true, if_false] at matched
      exact matched
    · intro closed
      have none := (sound.closed closed).2
      rw [pending] at none
      cases none
    · obtain ⟨more, backend, buffers, path, block, segment, windowEnd, tiled, grid⟩ :=
        sound.opened isOpen
      rw [pending] at tiled
      have front : position { stream with
          free := stream.free.set entry.slot true, pending := rest } =
          stream.advance stream.position := tiled.2.2.front
      exact ⟨more, backend, buffers, path, block, segment, windowEnd, front ▸ tiled.2.2, grid⟩
  refine ⟨kept.carry carry carrySize, ?_⟩
  obtain ⟨bound, -⟩ := List.getElem?_eq_some_iff.mp
    (sound.taken entry (pending ▸ List.mem_cons_self))
  exact List.mem_of_getElem? (List.getElem?_set_self bound)

end Dsio.ShardStream
