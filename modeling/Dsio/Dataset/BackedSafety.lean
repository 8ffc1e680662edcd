import Dsio.Dataset.BackedRuns

/-!
# Where reads write

The reads of a backend go on while the stream is in use, after a read that failed, and
until the backend is destroyed. Whatever fails, each of them writes to a live buffer with
room for it, which no entry is copied from.
-/

namespace Dsio

open Transition Window

namespace ShardStream

variable {environment : Environment} {disk : Disk} {stream start : ShardStream}

/-! ## Requests in flight -/

/-- What holds of every request that a fill submits, by the file that is open and the extents
of the buffers. -/
structure Carries (disk : Disk) (start : ShardStream)
    (holds : ShardStream → ReadRequest → Prop) : Prop where
  planned {stream request} (sound : Sound disk stream) (stems : Stems start stream)
    (isOpen : stream.isOpen = true) (member : request ∈ stream.planned) : holds stream request
  frame {stream after request} (file : after.file = stream.file)
    (buffers : after.buffers.map AlignedBuffer.extent = stream.buffers.map AlignedBuffer.extent)
    (before : holds stream request) : holds after request

/-- It holds of all requests in flight. -/
def Flying (holds : ShardStream → ReadRequest → Prop) (stream : ShardStream) : Prop :=
  ∀ request ∈ stream.inFlight, holds stream request

variable {holds : ShardStream → ReadRequest → Prop}

/-- With nothing in flight there is nothing to hold. -/
theorem flying_of_nil (none : stream.inFlight = []) : Flying holds stream := by
  intro request member
  simp [none] at member

/-- Without a backend nothing is in flight. -/
theorem flying_of_no_backend (none : stream.backend = none) : Flying holds stream :=
  flying_of_nil (by simp [inFlight, none])

/-- Fewer requests over the same memory. -/
theorem Flying.mono {after : ShardStream} (flying : Flying holds stream)
    (carries : Carries disk start holds) (fewer : after.inFlight ⊆ stream.inFlight)
    (file : after.file = stream.file)
    (buffers : after.buffers.map AlignedBuffer.extent = stream.buffers.map AlignedBuffer.extent) :
    Flying holds after :=
  fun request member => carries.frame file buffers (flying request (fewer member))

/-- What a fill leaves in flight was there or is planned, also when its submission is refused
half way. -/
theorem Flying.fill {size : Nat} {out : List Byte} (flying : Flying holds stream)
    (carries : Carries disk start holds) (sound : Sound disk stream) (stems : Stems start stream)
    (isOpen : stream.isOpen = true) (submission : Submission) :
    Flying holds (afterFill size out (stream.fillPipeline submission)).stream := by
  obtain ⟨backend, found, -⟩ := (sound.opened isOpen).backend
  have isBackend : stream.backend ≠ none := by simp [found]
  obtain ⟨filled, entries, fill, -, loop, handed⟩ := fillPipeline_spec submission stream
  have planned : entries.map stream.entryRequest ⊆ stream.planned := by
    rw [ShardStream.planned, loop]
    exact List.Subset.refl _
  have submitted (after : ShardStream) (requests : List ReadRequest)
      (inFlight : after.inFlight = stream.inFlight ++ requests)
      (asked : requests ⊆ stream.planned) (file : after.file = stream.file)
      (buffers : after.buffers = stream.buffers) : Flying holds after := by
    intro request member
    refine carries.frame file (buffers ▸ rfl) ?_
    rcases List.mem_append.mp (inFlight ▸ member) with old | new
    · exact flying request old
    · exact carries.planned sound stems isOpen (asked new)
  have closes (after : ShardStream) (flies : Flying holds after) :
      Flying holds (afterFill size out (.ok (), after)).stream := by
    simp only [afterFill]
    split
    · exact flying_of_no_backend rfl
    · exact flies
  rcases handed with ⟨rfl, same⟩ | ⟨-, -, same⟩ | ⟨error, queued, -, -, same⟩
  · rw [same]
    refine closes _ (submitted _ [] ?_ (List.nil_subset _) ?_ ?_) <;> rw [fill.frame]
    exact (List.append_nil _).symm
  · rw [same]
    refine closes _ (submitted _ _ ?_ planned ?_ ?_) <;> rw [fill.frame]
    · exact inFlight_submit isBackend _
    · rfl
    · rfl
  · rw [same, fill.rollBack]
    exact submitted _ _ (inFlight_submit isBackend _)
      (List.Subset.trans (List.take_subset ..) planned) rfl rfl

/-- A reap takes a request off. -/
theorem Flying.awaitOne (flying : Flying holds stream) (carries : Carries disk start holds)
    (reaped : Reaped) : Flying holds (stream.awaitOne reaped).2 := by
  cases reaped with
  | failed | nothing => exact flying
  | completed index completion data =>
      have completed : Flying holds (stream.complete index data) := by
        cases found : stream.inFlight[index]? with
        | none => simpa only [complete, found] using flying
        | some request =>
            refine flying.mono carries ?_ (by rw [complete_eq found]) ?_
            · rw [inFlight_complete found]
              exact List.eraseIdx_subset
            · rw [complete_eq found]
              exact map_extent_receive ..
      simp only [ShardStream.awaitOne]
      cases marked : (stream.complete index data).markDone completion with
      | none => exact completed
      | some after =>
          simp only [markDone, Option.map_eq_some_iff] at marked
          obtain ⟨_, -, rfl⟩ := marked
          dsimp only
          split
          · exact completed
          · exact completed.mono carries (List.Subset.refl _) rfl rfl

/-- Every request in flight was planned for the shard that is open, whatever has failed. -/
theorem Flying.step {before after : Config} (flying : Flying holds before.stream)
    (carries : Carries environment.disk start holds) (sound : before.Sound environment.disk)
    (stems : before.Stems start) (transition : Step environment before after) :
    Flying holds after.stream := by
  cases transition with
  | finish => exact flying
  | openShard room closed more opening allowed =>
      rcases Sound.openShard sound closed more allowed with
        ⟨error, after, same, none, -⟩ | ⟨after, same, soundAfter, begun⟩
      · rw [same]
        exact flying_of_no_backend none
      · have pending : after.pending = [] := by
          rw [begun]
          exact (Sound.closed sound closed).2
        have matched := soundAfter.matched
        rw [pending, List.filter_nil, List.map_nil, List.perm_nil] at matched
        rw [same]
        exact flying_of_nil matched
  | fill room isOpen submission => exact Flying.fill flying carries sound stems isOpen submission
  | @reap stream size out entry front waits reaped allowed =>
      have left := Flying.awaitOne flying carries reaped
      generalize stream.awaitOne reaped = result at left ⊢
      obtain ⟨outcome, after⟩ := result
      cases outcome <;> exact left
  | @take stream size out entry front done =>
      have taken : Flying holds (stream.takeFront entry (size - out.length)).2.2 := by
        obtain ⟨carry, carrySize, same⟩ := stream.takeFront_frame entry (size - out.length)
        rw [same]
        exact Flying.mono flying carries (List.Subset.refl _) rfl rfl
      generalize stream.takeFront entry (size - out.length) = result at taken ⊢
      obtain ⟨copied, left, after⟩ := result
      simp only [afterTake]
      split
      · exact taken
      · split
        · exact flying_of_no_backend rfl
        · exact taken

/-- It holds of all requests in flight wherever a call on the stream gets to, also after an
error. -/
theorem Visits.flying {config : Config} (visits : Visits environment start config)
    (sound : Sound environment.disk start) (carries : Carries environment.disk start holds)
    (initially : Flying holds start) : Flying holds config.stream := by
  let Good (config : Config) : Prop :=
    config.Sound environment.disk ∧ config.Stems start ∧ Flying holds config.stream
  have good : Good config := by
    refine visits.preserves (fun stream => ShardStream.Sound environment.disk stream ∧
        Stems start stream ∧ Flying holds stream) Good
      ⟨sound, ⟨rfl, rfl, rfl⟩, initially⟩ (fun all => ?_) (fun good transition => ?_) id
    · next size stream =>
      refine ⟨all.1.startRead size, all.2.1.startRead size, ?_⟩
      obtain ⟨carry, carrySize, same⟩ := flushCarry_frame size stream
      simp only [startRead, same]
      exact all.2.2.mono carries (List.Subset.refl _) rfl rfl
    · obtain ⟨sound, stems, flying⟩ := good
      exact ⟨sound.step transition, (move_of_step sound transition).stems stems,
        flying.step carries sound stems transition⟩
  exact good.2.2

/-- Where a read of the stream could start, it is at the place of the stream. -/
theorem flying_startRead {size : Nat} (carries : Carries disk start holds)
    (flying : Flying holds (startRead size stream).stream) : Flying holds stream := by
  obtain ⟨carry, carrySize, same⟩ := flushCarry_frame size stream
  simp only [startRead, same] at flying
  exact flying.mono carries (List.Subset.refl _) rfl rfl

/-! ## Room -/

/-- Where segments hold a block, every request a fill plans is well formed. -/
theorem Sound.wellFormed (sound : Sound disk stream) (stems : Stems start stream)
    (fits : BlocksFit disk start) (isOpen : stream.isOpen = true) {request : ReadRequest}
    (member : request ∈ stream.planned) : WellFormed stream request := by
  have opened := sound.opened isOpen
  have positive : 0 < stream.block := opened.block ▸ disk.aligned _
  have segment := block_le_segment sound stems fits isOpen
  rw [opened.segment] at segment
  exact (sound.wellFormed_iff isOpen member).mpr ((block_le_segmentOf_iff positive).mp segment)

end ShardStream

/-! ## Over a running backend -/

namespace Backed

variable {implementation : Implementation} {environment : Environment}
variable {opens : Int → BackendOptions → Outcome implementation.Backend → Prop}
variable {suits : ReadRequest → Prop}
variable {contract : implementation.Contract opens environment.fails suits}
variable {taken : List Completion} {stream concrete : ShardStream}
variable {backend after : implementation.Backend} {kernel : Kernel} {dst : Span} {data : List Byte}

/-- What waits to be read is in flight. -/
theorem Refines.waiting_subset (refines : Refines contract taken ⟨concrete, some backend⟩ stream) :
    ∃ done, stream.inFlight.Perm (contract.waiting backend ++ done) := by
  have backends := refines.backends
  dsimp only at backends
  generalize ideal : stream.backend = idealBackend at backends
  cases backends with
  | opened _ _ books => exact ⟨_, by simpa only [ShardStream.inFlight, ideal] using books.inFlight⟩

/-- The next read to be done is that of a request in flight, and those after it are of
others. -/
theorem Refines.served (refines : Refines contract taken ⟨concrete, some backend⟩ stream)
    (safe : ShardStream.Safe stream) (nonzero : kernel.Nonzero)
    (serves : implementation.serves kernel backend dst data after) :
    contract.Holds after ∧ ∃ request ∈ stream.inFlight, request.dst = dst ∧
      (∃ answer, data = dataOf answer ∧ kernel request.offset request.dst.size answer) ∧
      ∀ other ∈ contract.waiting after, other.dst.address ≠ dst.address := by
  obtain ⟨holds, -, -, served⟩ := contract.served nonzero refines.holds serves
  obtain ⟨request, answer, rfl, rfl, answers, waits, -⟩ := served.read
  obtain ⟨done, flying⟩ := refines.waiting_subset
  have split : stream.inFlight.Perm (request :: (contract.waiting after ++ done)) :=
    flying.trans (waits.append_right _)
  have apart := (split.map fun request => request.dst.address).nodup_iff.mp safe.exclusive
  rw [List.map_cons, List.nodup_cons] at apart
  refine ⟨holds, request, split.mem_iff.mpr List.mem_cons_self, rfl, ⟨answer, rfl, answers⟩,
    fun other waiting same => apart.1 ?_⟩
  exact List.mem_map.mpr ⟨other, List.mem_append_left _ waiting, same⟩

end Backed

namespace ForEachBatch

open Pipeline Interleaved
open ShardStream (construct HoldsBlock twoFiles)

variable {environment : Environment} {options : BatchOptions} {callback : Nat → CallbackResult}
variable {initial : ShardStream} {prefetch : Nat}

/-- What holds of every request that is queued holds of every read in flight. -/
theorem Interleaved.Kept.flying {interleaved : Interleaved ShardStream ShardStream.Config}
    {holds : ShardStream → ReadRequest → Prop}
    (kept : Kept environment options callback initial prefetch interleaved)
    (sound : ShardStream.Sound environment.disk initial)
    (carries : ShardStream.Carries environment.disk initial holds)
    (initially : ShardStream.Flying holds initial) :
    ShardStream.Flying holds (interleaved.stream ShardStream.Config.stream) :=
  kept.stream_holds (fun _ visits => visits.flying sound carries initially)
    fun _ _ => ShardStream.flying_startRead carries

/-- The stream is safe in every state of the threads. -/
theorem Interleaved.Kept.safe {interleaved : Interleaved ShardStream ShardStream.Config}
    (kept : Kept environment options callback initial prefetch interleaved)
    (sound : ShardStream.Sound environment.disk initial) :
    ShardStream.Safe (interleaved.stream ShardStream.Config.stream) := by
  obtain ⟨state, call⟩ := interleaved
  cases call with
  | some config => exact (kept.sound_call sound rfl).safe
  | none => exact kept.steady.tracks.safe sound

variable {implementation : Implementation}
variable {opens : Int → BackendOptions → Outcome implementation.Backend → Prop}
variable {suits : ReadRequest → Prop}
variable {contract : implementation.Contract opens environment.fails suits}

/-- At every point of a call the running backend is that of the stream. -/
theorem Agrees.refines {concrete ideal} (agrees : Agrees contract concrete ideal) :
    ∃ taken, Backed.Refines contract taken (concrete.stream Backed.Config.backed)
      (ideal.stream ShardStream.Config.stream) := by
  cases agrees with
  | idle refines => exact ⟨_, refines⟩
  | reading matched =>
      cases matched with
      | loop refines | await refines | returned refines => exact ⟨_, refines⟩
      | reaping refines => exact ⟨_, refines⟩

namespace Interleaved

variable {shuffle : Nat → List Nat → List Nat} {shards : ShardSet} {disk : Disk}
variable {first : State ShardStream}

/-- The first shard opens, without a ring. -/
def firstOpening : ShardStream.Opening :=
  ⟨.ok ⟨3, "a", twoFiles.alignment "a"⟩, .ok [0, 2], .ok ()⟩

def firstOpened : ShardStream := ((construct twoShards [0, 1] inPairs).openShard firstOpening).2

def firstFilled : ShardStream × List ReadRequest :=
  ShardStream.fillLoop firstOpened.readDepth firstOpened []

def firstThreads : ThreadBackend := { fd := 3, depth := 2 }

def firstQueued : ThreadBackend := (firstThreads.submit firstFilled.2).2

/-- The threads have been handed the first request. -/
theorem twoShards_queued : ∃ interleaved,
    Reaches (Step (libraryReader toString False (honest twoFiles) inPairs) fun _ => .proceed)
      (overBackends _ (start 2 (construct twoShards [0, 1] inPairs))) interleaved ∧
    interleaved.stream Backed.Config.backed = ⟨firstFilled.1, some (Sum.inr firstQueued)⟩ := by
  let library := backendOf toString True False
  let before : Backed library := ⟨construct twoShards [0, 1] inPairs, none⟩
  let opened : Backed library := ⟨firstOpened, some (Sum.inr firstThreads)⟩
  let queued : Backed library := ⟨firstFilled.1, some (Sum.inr firstQueued)⟩
  have allowed : ShardStream.Opens (honest twoFiles) before.stream firstOpening :=
    ShardStream.opens_of_calls rfl rfl rfl (by decide) (by simp [before, construct])
  have threads : BackendOpens toString 3 (Backed.backendOptions before.stream)
      (.ok (Sum.inr firstThreads)) := ⟨⟨true, fun _ => .error 38⟩, .constructed, rfl⟩
  have opens : @Backed.Step library (honest twoFiles) (BackendOpens toString)
      (Backed.startRead 2 before) ⟨opened, .loop 2 []⟩ :=
    .openShard (by decide) rfl (by decide) firstOpening (.ok (Sum.inr firstThreads)) allowed rfl
      fun file same => by cases same; exact threads
  have submits : @Backed.Step library (honest twoFiles) (BackendOpens toString)
      ⟨opened, .loop 2 []⟩ ⟨queued, .await 2 []⟩ :=
    @Backed.Step.submit library _ _ firstOpened 2 [] (Sum.inr firstThreads) firstFilled.1
      firstFilled.2 (.ok ()) (Sum.inr firstQueued) (by decide) rfl rfl (by decide) rfl
  have takes : Step (libraryReader toString False (honest twoFiles) inPairs)
      (fun _ => .proceed) (overBackends _ (start 2 (construct twoShards [0, 1] inPairs))) _ :=
    .worker rfl
  have enters := (Relation.ReflTransGen.single takes).tail (.enter rfl)
  exact ⟨_, (enters.tail (.read opens)).tail (.read submits), rfl⟩

end Interleaved

end ForEachBatch

end Dsio
