import Dsio.Dataset.BackedSafety

/-!
# What a call holds

The batches, the buffers of the segments and the carried bytes are the memory that a call of
`for_each_batch` reads through. However the reads complete and whatever fails, there is no
more of it than the options say, and the worker gets no further ahead of the callback than
there are batches to go round.
-/

namespace Dsio

open Transition Window

namespace ShardStream

variable {environment : Environment} {stream start : ShardStream} {options : BatchOptions}

/-- What `open_shard` takes the segment size from is at most this. -/
def segmentLimit (options : BatchOptions) : Nat :=
  if options.segmentBytes = 0 then 256 * 1024 else options.segmentBytes

/-- No block size makes segments larger than the limit. -/
theorem segmentOf_le (options : BatchOptions) (block : Nat) :
    segmentOf options block ≤ segmentLimit options := by
  simp only [segmentOf, segmentLimit]
  split <;> omega

/-- There is a buffer of at most a segment for each slot, and what is done or carried came out
of one of them. -/
structure Compact (options : BatchOptions) (stream : ShardStream) : Prop where
  limits : stream.options = options
  depth : stream.readDepth = max options.readDepth 1
  count : stream.buffers.length ≤ stream.readDepth
  sizes : ∀ buffer ∈ stream.buffers, buffer.size ≤ segmentLimit options
  entries : ∀ entry ∈ stream.pending, entry.done = true → entry.bytes ≤ segmentLimit options
  carry : stream.carry.length ≤ segmentLimit options

/-- A new stream has no buffers. -/
theorem compact_construct (shards : ShardSet) (order : List Nat) (options : BatchOptions) :
    Compact options (construct shards order options) :=
  ⟨rfl, rfl, by simp [construct], by simp [construct], by simp [construct], by simp [construct]⟩

/-- Buffers are kept, or there are new ones for the slots. -/
theorem Compact.prepareBuffers (compact : Compact options stream) {opening : Opening}
    (allowed : Opens environment stream opening) {block : Nat} (positive : 0 < block) :
    Compact options
      (stream.prepareBuffers opening.allocated block (segmentOf stream.options block)).2 := by
  simp only [ShardStream.prepareBuffers]
  split
  · exact compact
  · cases allocated : opening.allocated with
    | error message => exact compact
    | ok addresses =>
        have length := (allowed.fresh addresses allocated).1
        refine { compact with count := by simp [length], sizes := fun buffer member => ?_ }
        obtain ⟨address, -, rfl⟩ := List.mem_map.mp member
        show roundUp (segmentOf stream.options block) block ≤ segmentLimit options
        rw [roundUp_of_dvd positive (block_dvd_segmentOf stream.options block), compact.limits]
        exact segmentOf_le options block

/-- Opening a shard allocates buffers within the bounds. -/
theorem Compact.openShard (compact : Compact options stream) {opening : Opening}
    (allowed : Opens environment stream opening) :
    Compact options (stream.openShard opening).2 := by
  simp only [ShardStream.openShard]
  cases opened : opening.file with
  | error error => exact compact
  | ok file =>
      have positive : 0 < file.alignment :=
        (allowed.path file opened).2 ▸ environment.disk.aligned file.path
      have prepared := compact.prepareBuffers allowed positive
      dsimp only
      generalize stream.prepareBuffers opening.allocated file.alignment
        (segmentOf stream.options file.alignment) = result at prepared ⊢
      obtain ⟨outcome, after⟩ := result
      cases outcome with
      | error => exact prepared
      | ok =>
          cases opening.backend with
          | error => exact prepared
          | ok => exact { prepared with }

/-- Closing a shard keeps the buffers. -/
theorem Compact.closeShard (compact : Compact options stream) : Compact options stream.closeShard :=
  { compact with entries := by simp [closeShard_eq] }

/-- Handing out the carry keeps its vector. -/
theorem length_carry_flushCarry (size : Nat) (stream : ShardStream) :
    (stream.flushCarry size).2.carry.length = stream.carry.length := by
  simp only [flushCarry]
  split
  · rfl
  · dsimp only
    split
    · simp only [List.length_append, List.length_drop, List.length_take]
      omega
    · rfl

/-- Carried bytes are moved to the front of their vector, which stays as long as it was. -/
theorem compact_startRead (size : Nat) (stream : ShardStream) :
    Compact options (startRead size stream).stream ↔ Compact options stream := by
  have length := length_carry_flushCarry size stream
  obtain ⟨carry, carrySize, same⟩ := flushCarry_frame size stream
  simp only [startRead, same] at length ⊢
  exact ⟨fun compact => { compact with carry := length ▸ compact.carry },
    fun compact => { compact with carry := length ▸ compact.carry }⟩

/-- What a fill queues is not done, and a refusal takes it off again. -/
theorem Compact.fill (compact : Compact options stream) (submission : Submission) :
    Compact options (stream.fillPipeline submission).2 := by
  obtain ⟨filled, entries, fill, -, -, handed⟩ := fillPipeline_spec submission stream
  have queued (requests : List ReadRequest) : Compact options (filled.submit requests) := by
    rw [fill.frame]
    refine { compact with entries := fun entry member done => ?_ }
    rcases List.mem_append.mp member with old | new
    · exact compact.entries entry old done
    · exact absurd done (by simp [fill.waiting entry new])
  rcases handed with ⟨-, same⟩ | ⟨-, -, same⟩ | ⟨error, queuedCount, -, -, same⟩
  · rw [same]
    exact submit_nil filled ▸ queued []
  · rw [same]
    exact queued _
  · rw [same, fill.rollBack]
    exact { compact with }

/-- Filling the pipeline allocates nothing. -/
theorem Compact.afterFill (compact : Compact options stream) (size : Nat) (out : List Byte)
    (outcome : Outcome Unit) : Compact options (afterFill size out (outcome, stream)).stream := by
  cases outcome with
  | error => exact compact
  | ok =>
      simp only [ShardStream.afterFill]
      split
      · exact compact.closeShard
      · exact compact

/-- The data of a read goes to a buffer that is there. -/
theorem Compact.complete (compact : Compact options stream) {index : Nat} {request : ReadRequest}
    (found : stream.inFlight[index]? = some request) (data : List Byte) :
    Compact options (stream.complete index data) := by
  rw [complete_eq found]
  refine { compact with
    count := by simpa using compact.count
    sizes := fun buffer member => ?_ }
  obtain ⟨old, oldMember, rfl⟩ := List.mem_map.mp member
  exact AlignedBuffer.receive_size _ _ old ▸ compact.sizes old oldMember

/-- A completion counts no more than a segment. -/
theorem Compact.finished (compact : Compact options stream) {index : Nat} {request : ReadRequest}
    (found : stream.inFlight[index]? = some request) {before after : List Pending} {entry : Pending}
    (split : stream.pending = before ++ entry :: after) {completion : Completion}
    (bounded : completion.bytes ≤ segmentLimit options) (data : List Byte) :
    Compact options { stream.complete index data with
      pending := before ++ finishEntry stream.windowEnd completion entry :: after } := by
  refine { compact.complete found data with entries := fun other member done => ?_ }
  rcases List.mem_append.mp member with old | new
  · exact compact.entries other (split ▸ List.mem_append_left _ old) done
  · rcases List.mem_cons.mp new with rfl | old
    · exact Nat.le_trans (Nat.min_le_left ..) bounded
    · exact compact.entries other
        (split ▸ List.mem_append_right _ (List.mem_cons_of_mem _ old)) done

/-- What does not fit in the batch was in one entry. -/
theorem Compact.takeFront (compact : Compact options stream) {entry : Pending}
    (bounded : entry.bytes ≤ segmentLimit options) (room : Nat) :
    Compact options (stream.takeFront entry room).2.2 := by
  have carried := compact.carry
  have length : (stream.takeFront entry room).2.2.carry.length ≤ segmentLimit options := by
    simp only [ShardStream.takeFront, release]
    split
    · simp only [storeCarry, copyN, List.length_append, List.takeD_length, List.length_drop]
      omega
    · exact carried
  obtain ⟨carry, carrySize, same⟩ := stream.takeFront_frame entry room
  rw [same] at length ⊢
  exact { compact with
    entries := fun other member => compact.entries other (List.mem_of_mem_tail member)
    carry := length }

/-- The carry stays below a segment. -/
theorem Compact.afterTake (compact : Compact options stream) (entry : Pending) (size left : Nat)
    (out copied : List Byte) :
    Compact options (afterTake entry size out (copied, left, stream)).stream := by
  simp only [ShardStream.afterTake]
  split
  · exact compact
  · split
    · exact compact.closeShard
    · exact compact

/-- No step of a call takes more memory, as long as no read reports more than was asked
for. -/
theorem compact_of_step {before after : Config} (compact : Compact options before.stream)
    (sound : before.Sound environment.disk) (stems : before.Stems start)
    (fits : BlocksFit environment.disk start)
    (bounded : ∀ requested available bytes,
      environment.reports requested available bytes → bytes ≤ requested)
    (transition : Step environment before after) : Compact options after.stream := by
  cases transition with
  | finish => exact compact
  | @openShard stream size out room closed more opening allowed =>
      have opened := Compact.openShard compact allowed
      generalize stream.openShard opening = result at opened ⊢
      obtain ⟨outcome, after⟩ := result
      cases outcome <;> exact opened
  | @fill stream size out room isOpen submission allowed =>
      have filled := Compact.fill compact submission
      generalize stream.fillPipeline submission = result at filled ⊢
      obtain ⟨outcome, after⟩ := result
      exact filled.afterFill size out outcome
  | @reap stream size out entry front waits reaped allowed =>
      cases reaped with
      | failed => exact compact
      | nothing => exact compact
      | completed index completion data =>
          obtain ⟨request, found, token, -, reports⟩ := allowed
          obtain ⟨before, finished, after, split, waiting, asked, same⟩ :=
            sound.1.awaitOne found token data
          have isOpen := ShardStream.Sound.isOpen sound.1
            (List.ne_nil_of_mem (List.mem_of_mem_head? front))
          have segment := (ShardStream.Sound.opened sound.1 isOpen).segment
          have holds := block_le_segment sound.1 stems fits isOpen
          rw [same]
          split
          · exact Compact.complete compact found data
          · refine Compact.finished compact found split ?_ data
            calc completion.bytes
                ≤ request.dst.size := by
                  rcases reports with ⟨-, reports⟩ | ⟨-, nothing, -⟩
                  · exact bounded _ _ _ reports
                  · exact nothing ▸ Nat.zero_le _
              _ ≤ stream.segment := asked ▸ requestLength_le_segment holds _
              _ ≤ segmentLimit options := segment ▸ compact.limits ▸ segmentOf_le ..
  | @take stream size out entry front done =>
      have taken := Compact.takeFront compact
        (compact.entries entry (List.mem_of_mem_head? front) done) (size - out.length)
      generalize stream.takeFront entry (size - out.length) = result at taken ⊢
      obtain ⟨copied, left, after⟩ := result
      exact taken.afterTake entry size left out copied

/-- No sequence of calls does either. -/
theorem Visits.compact {config : Config} (visits : Visits environment start config)
    (initially : Compact options start) (sound : Sound environment.disk start)
    (fits : BlocksFit environment.disk start)
    (bounded : ∀ requested available bytes,
      environment.reports requested available bytes → bytes ≤ requested) :
    Compact options config.stream := by
  let Good (config : Config) : Prop :=
    config.Sound environment.disk ∧ config.Stems start ∧ Compact options config.stream
  have good : Good config := by
    refine visits.preserves (fun stream => ShardStream.Sound environment.disk stream ∧
        Stems start stream ∧ Compact options stream) Good
      ⟨sound, ⟨rfl, rfl, rfl⟩, initially⟩ (fun all => ?_) (fun good transition => ?_)
      (fun good => ⟨good.1, good.2.1, good.2.2⟩)
    · exact ⟨all.1.startRead _, all.2.1.startRead _, (compact_startRead ..).mpr all.2.2⟩
    · obtain ⟨sound, stems, compact⟩ := good
      exact ⟨sound.step transition, (move_of_step sound transition).stems stems,
        compact_of_step compact sound stems fits bounded transition⟩
  exact good.2.2

end ShardStream

/-! ## Batches -/

namespace Pipeline

variable {Stream : Type}

/-- No step makes a batch. -/
theorem length_buffers_step {read : Stream → ReadResult → Stream → Prop}
    {callback : Nat → CallbackResult} {before after : State Stream}
    (transition : Step read callback before after) :
    after.buffers.length ≤ before.buffers.length := by
  cases transition with
  | worker moves => exact (workerMove_of_step moves).buffers_perm.length_eq.le
  | read point =>
      rw [State.buffers, State.buffers, Worker.afterRead_batch?, point]
      exact Nat.le_refl _
  | consumer moves =>
      have move := consumerMove_of_step moves
      by_cases kept : after.consumer.unwound = false
      · exact (move.buffers_perm kept).length_eq.le
      · cases move with
        | throws point | freeClosed point =>
            simp [State.buffers, point, Consumer.batch?]
        | closesFree point | closesReady point | rethrows point | joins point =>
            simp [State.buffers, point, Consumer.batch?]
        | receives | proceeds | stops | drained | takesError | takesNone =>
            exact absurd rfl kept
        | @givesBack batch keepGoing free point sent =>
            cases keepGoing <;> exact absurd rfl kept

/-- The batches stay the `prefetch + 1` of the set-up. -/
theorem length_buffers {read : Stream → ReadResult → Stream → Prop}
    {callback : Nat → CallbackResult} {prefetch : Nat} {stream : Stream} {state : State Stream}
    (run : Reaches (Step read callback) (start prefetch stream) state) :
    state.buffers.length ≤ prefetch + 1 :=
  run.preserves (fun within transition => Nat.le_trans (length_buffers_step transition) within)
    (by simp [start, State.buffers, Worker.batch?, Consumer.batch?])

end Pipeline

/-! ## A call -/

namespace ForEachBatch

open Pipeline Interleaved
open ShardStream (Compact HoldsBlock construct segmentLimit twoFiles)

variable {environment : Environment} {options : BatchOptions} {callback : Nat → CallbackResult}

section

variable {implementation : Implementation}
variable {opens : Int → BackendOptions → Outcome implementation.Backend → Prop}
variable {suits : ReadRequest → Prop}
variable {contract : implementation.Contract opens environment.fails suits}

/-- The bytes a call reads through: its batches, the buffers of the stream, and the vector of
carried bytes. -/
def footprint (options : BatchOptions)
    (interleaved : Interleaved (Backed implementation) (Backed.Config implementation)) : Nat :=
  interleaved.state.buffers.length * options.batchBytes +
    ((interleaved.stream Backed.Config.backed).stream.buffers.map AlignedBuffer.size).sum +
    (interleaved.stream Backed.Config.backed).stream.carry.length

/-- Both levels have the same channels and threads. -/
theorem Agrees.state {concrete ideal} (agrees : Agrees contract concrete ideal) :
    ∃ stream, ideal.state = concrete.state.over stream := by
  cases agrees with
  | idle | reading => exact ⟨_, rfl⟩

/-- The buffers of a compact stream and what it carries, over a running backend too. -/
theorem held_le {taken : List Completion} {backed : Backed implementation}
    {stream : ShardStream} (refines : Backed.Refines contract taken backed stream)
    (compact : Compact options stream) :
    (backed.stream.buffers.map AlignedBuffer.size).sum + backed.stream.carry.length ≤
      (max options.readDepth 1 + 1) * segmentLimit options := by
  have sizes : backed.stream.buffers.map AlignedBuffer.size =
      stream.buffers.map AlignedBuffer.size := by
    have extents := congrArg (List.map Prod.snd) refines.buffers
    simpa [List.map_map, Function.comp_def, AlignedBuffer.extent] using extents
  have carry : backed.stream.carry = stream.carry := by
    rw [refines.frame]
    rfl
  have summed : (stream.buffers.map AlignedBuffer.size).sum ≤
      (stream.buffers.map AlignedBuffer.size).length * segmentLimit options := by
    refine List.sum_le_card_nsmul _ _ fun size member => ?_
    obtain ⟨buffer, live, rfl⟩ := List.mem_map.mp member
    exact compact.sizes buffer live
  rw [List.length_map] at summed
  rw [sizes, carry, Nat.add_one_mul]
  refine Nat.add_le_add (Nat.le_trans summed (Nat.mul_le_mul_right _ ?_)) compact.carry
  exact compact.depth ▸ compact.count

end

namespace Interleaved

variable {shuffle : Nat → List Nat → List Nat} {shards : ShardSet} {first : State ShardStream}

/-- A call over the backends of the library holds `prefetch + 1` batches and, for the stream,
`read_depth + 1` segments at most, wherever it gets to. -/
theorem memory_stays_bounded {strerror : Nat → String} {short : Prop}
    (shuffles : ∀ seed order, (shuffle seed order).Perm order)
    (begins : begin shuffle shards options = .ok first)
    (blocks : ∀ shard ∈ shards, HoldsBlock options (environment.disk.alignment shard.path))
    (narrow : options.segmentBytes < 2 ^ 32)
    (bounded : ∀ requested available bytes,
      environment.reports requested available bytes → bytes ≤ requested) {interleaved}
    (run : Reaches (Step (libraryReader strerror short environment options) callback)
      (overBackends _ first) interleaved) :
    footprint options interleaved ≤ (options.prefetch + 1) * options.batchBytes +
      (options.readDepth + 1) * segmentLimit options := by
  obtain ⟨ideal, reached, agrees, kept⟩ := joint_of_reaches shuffles begins blocks narrow run
  have permutes : (streamOrder shuffle shards options).Perm (List.range shards.length) :=
    streamOrder_perm shuffles
  obtain ⟨-, -, depth, rfl⟩ := begin_eq_ok begins
  have compact : Compact options (ideal.stream ShardStream.Config.stream) :=
    kept.stream_holds (fun _ visits => visits.compact (ShardStream.compact_construct ..)
      (ShardStream.sound_construct ..) (ShardStream.blocksFit_construct permutes blocks) bounded)
      fun size stream => (ShardStream.compact_startRead size stream).mp
  obtain ⟨atomic, within, rfl, -⟩ := Interleaved.simulates.reaches (within_idle ..) reached
  obtain ⟨stream, same⟩ := agrees.state
  have batches : interleaved.state.buffers.length ≤ options.prefetch + 1 := by
    have length := Pipeline.length_buffers within
    rwa [same] at length
  obtain ⟨taken, refines⟩ := agrees.refines
  have held := held_le refines compact
  rw [Nat.max_eq_left depth] at held
  rw [footprint, Nat.add_assoc]
  exact Nat.add_le_add (Nat.mul_le_mul_right _ batches) held

/-- A call is within its memory once the first request is in flight. -/
theorem twoShards_footprint : ∃ interleaved,
    Reaches (Step (libraryReader toString False (honest twoFiles) inPairs) fun _ => .proceed)
      (overBackends _ (start 2 (construct twoShards [0, 1] inPairs))) interleaved ∧
    footprint inPairs interleaved ≤ 3 * 2 + 3 * 2 := by
  obtain ⟨interleaved, run, -⟩ := twoShards_queued
  have shuffles : ∀ (seed : Nat) (order : List Nat), order.Perm order := fun _ order => .refl order
  have bounded : ∀ requested available bytes,
      fullReads requested available bytes → bytes ≤ requested :=
    fun requested available bytes full => Nat.le_trans (Nat.le_of_eq full) (Nat.min_le_left ..)
  exact ⟨interleaved, run, memory_stays_bounded shuffles rfl twoShards_fit.2 (by decide) bounded
    run⟩

/-- However far the worker is, no more batches have been read than the callback has been given
and `prefetch + 1`, the one being read among them; while the callback runs, than `prefetch`. -/
theorem reads_ahead_bounded {strerror : Nat → String} {short : Prop}
    (shuffles : ∀ seed order, (shuffle seed order).Perm order)
    (begins : begin shuffle shards options = .ok first)
    (blocks : ∀ shard ∈ shards, HoldsBlock options (environment.disk.alignment shard.path))
    (narrow : options.segmentBytes < 2 ^ 32) {interleaved}
    (run : Reaches (Step (libraryReader strerror short environment options) callback)
      (overBackends _ first) interleaved) :
    interleaved.state.log.length + interleaved.state.worker.inRead ≤
        interleaved.state.delivered.length + options.prefetch + 1 ∧
      ∀ call batch, interleaved.state.consumer = .calling call batch →
        interleaved.state.log.length + interleaved.state.worker.inRead ≤
          interleaved.state.delivered.length + options.prefetch := by
  obtain ⟨ideal, reached, agrees, -⟩ := joint_of_reaches shuffles begins blocks narrow run
  obtain ⟨-, -, -, rfl⟩ := begin_eq_ok begins
  obtain ⟨atomic, within, rfl, -⟩ := Interleaved.simulates.reaches (within_idle ..) reached
  obtain ⟨stream, same⟩ := agrees.state
  have budget : Budget options.prefetch (interleaved.state.over stream) :=
    same ▸ within.preserves (fun budget transition => budget.step transition)
      (budget_start options.prefetch _)
  simp only [Budget, State.over] at budget
  refine ⟨by omega, fun call batch calling => ?_⟩
  simp only [calling, Consumer.batch?, Option.toList_some, List.length_singleton] at budget
  omega

/-- Nothing has been delivered yet, and a batch is being read. -/
theorem twoShards_ahead : ∃ interleaved,
    Reaches (Step (libraryReader toString False (honest twoFiles) inPairs) fun _ => .proceed)
      (overBackends _ (start 2 (construct twoShards [0, 1] inPairs))) interleaved ∧
    interleaved.state.log.length + interleaved.state.worker.inRead ≤
      interleaved.state.delivered.length + 2 + 1 := by
  obtain ⟨interleaved, run, -⟩ := twoShards_queued
  have shuffles : ∀ (seed : Nat) (order : List Nat), order.Perm order := fun _ order => .refl order
  exact ⟨interleaved, run,
    (reads_ahead_bounded shuffles rfl twoShards_fit.2 (by decide) run).1⟩

end Interleaved

end ForEachBatch

end Dsio
