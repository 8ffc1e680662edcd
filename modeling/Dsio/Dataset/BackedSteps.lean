import Dsio.Dataset.BackedRefinement

/-!
# Steps over the running backend

Each step of the thread that reads is a step of the stream of `Dsio.Dataset.Reading`, or it
is a part of a `reap`. Steps of the threads or the kernel under it are none.
-/

namespace Dsio

open Transition Window

namespace ShardStream

variable {stream : ShardStream} {buffers : List AlignedBuffer} {backend : Option Dsio.Backend}

/-! ## Opening a shard -/

/-- What `prepare_buffers` leaves alone. -/
theorem prepareBuffers_frame (allocated : Except String (List Nat)) (block segment : Nat)
    (stream : ShardStream) :
    ∃ buffers free size length, (stream.prepareBuffers allocated block segment).2 =
      { stream with buffers, free, block := size, segment := length } := by
  by_cases reused : stream.buffers ≠ [] ∧ stream.block = block ∧ stream.segment = segment ∧
      stream.buffers.length = stream.readDepth
  · simp only [prepareBuffers, if_pos reused]
    exact ⟨_, _, _, _, rfl⟩
  · simp only [prepareBuffers, if_neg reused]
    cases allocated with
    | error message => exact ⟨_, _, _, _, rfl⟩
    | ok addresses => exact ⟨_, _, _, _, rfl⟩

/-- Buffers are reused in both or replaced by the same. -/
theorem prepareBuffers_onto (same : buffers.map AlignedBuffer.extent =
    stream.buffers.map AlignedBuffer.extent) (allocated : Except String (List Nat))
    (block segment : Nat) :
    ∃ others, (stream.onto buffers backend).prepareBuffers allocated block segment =
        ((stream.prepareBuffers allocated block segment).1,
          (stream.prepareBuffers allocated block segment).2.onto others backend) ∧
      others.map AlignedBuffer.extent =
        (stream.prepareBuffers allocated block segment).2.buffers.map AlignedBuffer.extent := by
  have length : buffers.length = stream.buffers.length := by
    simpa using congrArg List.length same
  have empty : buffers = [] ↔ stream.buffers = [] := by
    rw [← List.length_eq_zero_iff, ← List.length_eq_zero_iff, length]
  have reuse : ((stream.onto buffers backend).buffers ≠ [] ∧
        (stream.onto buffers backend).block = block ∧
        (stream.onto buffers backend).segment = segment ∧
        (stream.onto buffers backend).buffers.length = (stream.onto buffers backend).readDepth) ↔
      (stream.buffers ≠ [] ∧ stream.block = block ∧ stream.segment = segment ∧
        stream.buffers.length = stream.readDepth) := by
    simp only [onto, ne_eq, empty, length]
  by_cases reused : stream.buffers ≠ [] ∧ stream.block = block ∧ stream.segment = segment ∧
      stream.buffers.length = stream.readDepth
  · simp only [prepareBuffers, if_pos reused, if_pos (reuse.mpr reused)]
    exact ⟨buffers, rfl, same⟩
  · simp only [prepareBuffers, if_neg reused, if_neg (mt reuse.mp reused)]
    cases allocated with
    | error message => exact ⟨buffers, rfl, same⟩
    | ok addresses => exact ⟨_, rfl, rfl⟩

/-- A shard is opened alike over both backends. -/
theorem openShard_onto (same : buffers.map AlignedBuffer.extent =
    stream.buffers.map AlignedBuffer.extent) (opening : Opening) :
    ∃ others other, (stream.onto buffers backend).openShard opening =
        ((stream.openShard opening).1, (stream.openShard opening).2.onto others other) ∧
      others.map AlignedBuffer.extent =
        (stream.openShard opening).2.buffers.map AlignedBuffer.extent := by
  cases file : opening.file with
  | error error =>
      simp only [openShard, file]
      exact ⟨buffers, backend, rfl, same⟩
  | ok file' =>
      obtain ⟨others, prepared, extents⟩ := @prepareBuffers_onto _ _ backend same
        opening.allocated file'.alignment (segmentOf stream.options file'.alignment)
      have options : (stream.onto buffers backend).options = stream.options := rfl
      simp only [openShard, file, options, prepared]
      generalize stream.prepareBuffers opening.allocated file'.alignment
        (segmentOf stream.options file'.alignment) = result at extents ⊢
      obtain ⟨outcome, prepared⟩ := result
      cases outcome with
      | error error => exact ⟨others, backend, rfl, extents⟩
      | ok =>
          cases opening.backend with
          | error error => exact ⟨others, backend, rfl, extents⟩
          | ok => exact ⟨others, _, rfl, extents⟩

/-- A shard that opens has a backend with nothing in flight. -/
theorem openShard_backend (opening : Opening) :
    (stream.openShard opening).2.pending = stream.pending ∧
      ((∃ error, (stream.openShard opening).1 = .error error ∧
          (stream.openShard opening).2.backend = stream.backend) ∨
        (stream.openShard opening).1 = .ok () ∧ ∃ file, opening.file = .ok file ∧
          opening.backend = .ok () ∧ (stream.openShard opening).2.backend =
            some { fd := file.fd, options := Backed.backendOptions stream }) := by
  obtain ⟨file, allocated, opened⟩ := opening
  cases file with
  | error error => exact ⟨rfl, .inl ⟨error, rfl, rfl⟩⟩
  | ok file =>
      obtain ⟨buffers, free, size, length, frame⟩ := prepareBuffers_frame allocated
        file.alignment (segmentOf stream.options file.alignment) stream
      cases prepared : stream.prepareBuffers allocated file.alignment
          (segmentOf stream.options file.alignment) with
      | mk outcome after =>
          rw [prepared] at frame
          cases frame
          simp only [openShard, prepared]
          cases outcome with
          | error error => exact ⟨rfl, .inl ⟨error, rfl, rfl⟩⟩
          | ok =>
              cases opened with
              | error error => exact ⟨rfl, .inl ⟨error, rfl, rfl⟩⟩
              | ok => exact ⟨rfl, .inr ⟨rfl, file, rfl, rfl, rfl⟩⟩

end ShardStream

namespace Backed

variable {implementation : Implementation} {environment : Environment}
variable {opens : Int → BackendOptions → Outcome implementation.Backend → Prop}
variable {suits : ReadRequest → Prop}
variable {contract : implementation.Contract opens environment.fails suits}
variable {taken : List Completion} {backed : Backed implementation} {stream : ShardStream}

/-- Both streams have the same entries. -/
theorem Refines.pending_eq (refines : Refines contract taken backed stream) :
    backed.stream.pending = stream.pending := by
  rw [refines.frame]
  rfl

/-- Both streams are open or neither is. -/
theorem Refines.isOpen_eq (refines : Refines contract taken backed stream) :
    backed.stream.isOpen = stream.isOpen := by
  rw [refines.frame]
  rfl

/-- Both are at the same shard. -/
theorem Refines.next_eq (refines : Refines contract taken backed stream) :
    backed.stream.next = stream.next ∧ backed.stream.order = stream.order := by
  rw [refines.frame]
  exact ⟨rfl, rfl⟩

/-- The same files and addresses are allowed for both. -/
theorem Refines.allows {opening : ShardStream.Opening}
    (refines : Refines contract taken backed stream)
    (allowed : ShardStream.Opens environment backed.stream opening) :
    ShardStream.Opens environment stream opening where
  path := by
    have path := allowed.path
    rw [refines.frame] at path
    exact path
  fresh := by
    intro addresses same
    obtain ⟨length, distinct, fresh⟩ := allowed.fresh addresses same
    rw [refines.frame] at length
    refine ⟨length, distinct, fun buffer member => ?_⟩
    have address : buffer.address ∈ backed.stream.buffers.map (·.address) :=
      refines.addresses ▸ List.mem_map.mpr ⟨buffer, member, rfl⟩
    obtain ⟨other, live, same⟩ := List.mem_map.mp address
    exact same ▸ fresh other live
  failure := allowed.failure

/-- A shard opens in both or in neither, and its backend starts with nothing to do. -/
theorem Refines.openShard {opening : ShardStream.Opening} {opened : Outcome implementation.Backend}
    (refines : Refines contract [] backed stream) (none : stream.backend = none)
    (empty : stream.pending = [])
    (outcome : opening.backend = opened.map fun _ => ())
    (created : ∀ file, opening.file = .ok file →
      opens file.fd (backendOptions backed.stream) opened) :
    (∃ error, (backed.stream.openShard opening).1 = .error error ∧
        (stream.openShard opening).1 = .error error ∧
        Refines contract [] { backed with stream := (backed.stream.openShard opening).2 }
          (stream.openShard opening).2) ∨
      (backed.stream.openShard opening).1 = .ok () ∧ (stream.openShard opening).1 = .ok () ∧
        Refines contract [] ⟨(backed.stream.openShard opening).2, opened.toOption⟩
          (stream.openShard opening).2 := by
  obtain ⟨others, other, same, extents⟩ :=
    @ShardStream.openShard_onto _ _ backed.stream.backend refines.buffers opening
  rw [← refines.frame] at same
  have options : backendOptions backed.stream = backendOptions stream := by
    rw [refines.frame]
    rfl
  have backends := refines.backends
  rw [none] at backends
  obtain ⟨pending, ⟨error, failed, unchanged⟩ | ⟨ok, file, isFile, isOpened, fresh⟩⟩ :=
    stream.openShard_backend opening
  · refine .inl ⟨error, by rw [same, failed], failed, ?_, ?_, ?_, ?_⟩
    · rw [same]
      rfl
    · rw [same]
      exact extents
    · simp [pending, empty]
    · rw [unchanged, none]
      generalize backed.backend = held at backends
      cases backends
      exact .closed
  · rw [isOpened] at outcome
    cases opened with
    | error error => cases outcome
    | ok backend =>
        obtain ⟨holds, depth, waiting, finished⟩ := contract.opened (created file isFile)
        refine .inr ⟨by rw [same, ok], ok, ?_, ?_, ?_, ?_⟩
        · rw [same]
          rfl
        · rw [same]
          exact extents
        · simp [pending, empty]
        · rw [fresh]
          refine @Represents.opened _ _ _ _ _ _ _ _ _ _ [] holds (depth.trans ?_) ⟨?_, ?_, by simp⟩
          · rw [options]
          · simp [waiting]
          · simp [finished]

/-- The points of the two streams. -/
inductive Matches (contract : implementation.Contract opens environment.fails suits) :
    Config implementation → ShardStream.Config → Prop where
  | loop {backed stream size out} (refines : Refines contract [] backed stream) :
      Matches contract ⟨backed, .loop size out⟩ ⟨stream, .loop size out⟩
  | await {backed stream size out} (refines : Refines contract [] backed stream) :
      Matches contract ⟨backed, .await size out⟩ ⟨stream, .await size out⟩
  | reaping {concrete backend stream size out entry call}
      (refines : Refines contract (contract.taken call) ⟨concrete, some backend⟩ stream)
      (reaping : contract.Reaping backend call) (front : stream.pending.head? = some entry)
      (waits : entry.done = false) :
      Matches contract ⟨⟨concrete, some backend⟩, .reaping size out call⟩
        ⟨stream, .await size out⟩
  | returned {backed stream got} (refines : Refines contract [] backed stream) :
      Matches contract ⟨backed, .returned got⟩ ⟨stream, .returned got⟩

/-- A call begins alike over both backends. -/
theorem Refines.startRead (refines : Refines contract [] backed stream) (size : Nat) :
    Matches contract (startRead size backed) (ShardStream.startRead size stream) := by
  obtain ⟨same, flushed⟩ := refines.flushCarry size
  rw [Backed.startRead, ShardStream.startRead, same]
  exact .loop flushed

/-- A fill is followed alike over both backends. -/
theorem Refines.afterFill (refines : Refines contract [] backed stream) (size : Nat)
    (out : List Byte) :
    Matches contract (afterFill size out backed)
      (ShardStream.afterFill size out (.ok (), stream)) := by
  simp only [Backed.afterFill, ShardStream.afterFill, refines.pending_eq]
  split
  · exact .loop (Refines.closeShard backed refines)
  · exact .await refines

/-- An opened shard is followed alike over both backends. -/
theorem Refines.afterOpen {opening : ShardStream.Opening}
    {opened : Outcome implementation.Backend} (refines : Refines contract [] backed stream)
    (none : stream.backend = none) (empty : stream.pending = [])
    (outcome : opening.backend = opened.map fun _ => ())
    (created : ∀ file, opening.file = .ok file →
      opens file.fd (backendOptions backed.stream) opened) (size : Nat) (out : List Byte) :
    Matches contract (afterOpen size out backed opened (backed.stream.openShard opening))
      (ShardStream.afterOpen size out (stream.openShard opening)) := by
  have both := refines.openShard none empty outcome created
  generalize backed.stream.openShard opening = concrete at both ⊢
  generalize stream.openShard opening = ideal at both ⊢
  obtain ⟨result, after⟩ := concrete
  obtain ⟨idealResult, idealAfter⟩ := ideal
  rcases both with ⟨error, rfl, rfl, kept⟩ | ⟨rfl, rfl, kept⟩
  · exact .returned kept
  · exact .loop kept

/-- A fill that queues nothing submits nothing. -/
theorem Refines.afterNothing {filled : ShardStream} (refines : Refines contract [] backed stream)
    (fill : ShardStream.fillLoop backed.stream.readDepth backed.stream [] = (filled, []))
    (size : Nat) (out : List Byte) :
    Matches contract (Backed.afterFill size out { backed with stream := filled })
      (ShardStream.afterFill size out (stream.fillPipeline .accepted)) := by
  obtain ⟨ideal, entries, loop, -, spec, same⟩ := refines.fill fill
  have nothing : stream.fillPipeline .accepted = (.ok (), ideal) := by
    simp only [ShardStream.fillPipeline, loop, if_true]
  rw [nothing]
  exact (refines.filled spec same).afterFill size out

/-- A fill without requests fits. -/
theorem Refines.fits_nothing {filled : ShardStream} (refines : Refines contract [] backed stream)
    (sound : ShardStream.Sound environment.disk stream) (isOpen : stream.isOpen = true)
    (fill : ShardStream.fillLoop backed.stream.readDepth backed.stream [] = (filled, [])) :
    stream.Fits := by
  obtain ⟨ideal, entries, loop, requests, spec, -⟩ := refines.fill fill
  obtain rfl := List.map_eq_nil_iff.mp requests.symm
  exact sound.fits isOpen spec loop

/-- The front entry is taken alike over both backends. -/
theorem Refines.afterTake {entry : Pending} (refines : Refines contract [] backed stream)
    (front : stream.pending.head? = some entry) (done : entry.done = true) (size : Nat)
    (out : List Byte) :
    Matches contract
      (afterTake entry size out backed.backend
        (backed.stream.takeFront entry (size - out.length)))
      (ShardStream.afterTake entry size out (stream.takeFront entry (size - out.length))) := by
  obtain ⟨carry, carrySize, frame⟩ := stream.takeFront_frame entry (size - out.length)
  have entries : ∀ other ∈ (stream.takeFront entry (size - out.length)).2.2.pending,
      other.done = true → other ∈ stream.pending := by
    intro other member _
    rw [frame] at member
    exact List.mem_of_mem_tail member
  have taken := refines.onto (by rw [frame]) (by rw [frame]) (by rw [frame]) entries
  rw [refines.takeFront front done]
  simp only [Backed.afterTake, ShardStream.afterTake]
  split
  · exact .returned taken
  · split
    · exact .loop (Refines.closeShard _ taken)
    · exact .loop taken

/-- What the fill submits is accepted or refused in both. -/
theorem Refines.afterSubmit {concrete filled : ShardStream}
    {backend after : implementation.Backend} {requests : List ReadRequest} {got : Outcome Unit}
    (refines : Refines contract [] ⟨concrete, some backend⟩ stream)
    (sound : ShardStream.Sound environment.disk stream)
    (suited : ∀ request ∈ stream.planned, suits request) (isOpen : stream.isOpen = true)
    (fill : ShardStream.fillLoop concrete.readDepth concrete [] = (filled, requests))
    (queues : requests ≠ []) (submits : implementation.submits backend requests got after)
    (size : Nat) (out : List Byte) :
    ∃ submission, ShardStream.Submits environment stream submission ∧
      Matches contract (afterSubmit size out concrete filled requests.length after got)
        (ShardStream.afterFill size out (stream.fillPipeline submission)) := by
  obtain ⟨ideal, entries, loop, rfl, spec, same⟩ := refines.fill fill
  have fits := sound.fits isOpen spec loop
  have planned : stream.planned = entries.map stream.entryRequest := by
    rw [ShardStream.planned, loop]
  rw [planned] at suited
  have room := fits
  simp only [ShardStream.Fits, planned] at room
  have backends := refines.backends
  dsimp only at backends
  generalize isBackend : stream.backend = idealBackend at backends
  cases backends with
  | @opened _ idealBackend done holds depth books =>
      cases got with
      | ok =>
          obtain ⟨-, holdsAfter, depthAfter, waiting, finished⟩ :=
            contract.accepted holds suited submits
          refine ⟨.accepted, fits, ?_⟩
          have accepted : stream.fillPipeline .accepted =
              (.ok (), ideal.submit (entries.map stream.entryRequest)) := by
            simp only [ShardStream.fillPipeline, loop, if_neg queues]
          rw [accepted]
          exact ((refines.filled spec same).submit holdsAfter depthAfter waiting
            finished).afterFill size out
      | error error =>
          obtain ⟨reason, holdsAfter, depthAfter, finished, queued, waiting⟩ :=
            contract.refused holds suited submits
          have fails : environment.fails := by
            refine reason.resolve_right fun full => ?_
            have bound := room idealBackend isBackend
            have flying := books.inFlight.length_eq
            have reported := books.finished.length_eq
            simp only [List.length_append, List.length_map, List.nil_append] at flying reported
            rw [depth] at full
            omega
          refine ⟨.refused error queued, .inl fails, ?_⟩
          have refused : stream.fillPipeline (.refused error queued) = (.error error,
              stream.submit ((entries.map stream.entryRequest).take queued)) := by
            simp only [ShardStream.fillPipeline, loop, if_neg queues, List.length_map]
            rw [spec.rollBack]
          obtain ⟨_, others, concreteLoop, concreteSpec, -⟩ := ShardStream.fillLoop_spec
            concrete.readDepth (ShardStream.filled_refl concrete) (by simp)
          rw [List.map_nil, fill] at concreteLoop
          obtain ⟨rfl, sameRequests⟩ := Prod.mk.inj concreteLoop
          have count : (entries.map stream.entryRequest).length = others.length := by
            rw [sameRequests, List.length_map]
          rw [refused, Backed.afterSubmit, count, rolledBack concreteSpec]
          exact .returned (refines.submit holdsAfter depthAfter waiting finished)

/-- A reap ends in both the same way. -/
theorem Refines.afterReap {concrete : ShardStream} {backend : implementation.Backend}
    {call : implementation.Call} {got : Outcome (List Completion)}
    (refines : Refines contract (contract.taken call) ⟨concrete, some backend⟩ stream)
    (reaping : contract.Reaping backend call) (sound : ShardStream.Sound environment.disk stream)
    (ends : implementation.ends call = some got) (size : Nat) (out : List Byte) :
    ∃ reaped, ShardStream.Reaps environment stream reaped ∧
      Matches contract (afterReap size out (some backend) (awaitReaped got concrete))
        (ShardStream.afterReap size out (stream.awaitOne reaped)) := by
  cases got with
  | error error =>
      obtain ⟨fails, nothing⟩ := contract.failed reaping ends
      rw [nothing] at refines
      exact ⟨.failed error, fails, .returned refines⟩
  | ok completions =>
      have backends := refines.backends
      dsimp only at backends
      generalize isBackend : stream.backend = idealBackend at backends
      cases backends with
      | @opened _ idealBackend done holds depth books =>
          obtain ⟨rfl, atMost, nothing⟩ := contract.reported holds reaping ends
          cases taken : contract.taken call with
          | nil =>
              rw [taken] at refines
              obtain ⟨waiting, finished⟩ := nothing taken
              have flying := books.inFlight.length_eq
              have reported := books.finished.length_eq
              simp only [taken, waiting, finished, List.length_append, List.length_map,
                List.length_nil] at flying reported
              have empty : stream.inFlight = [] := by
                simp only [ShardStream.inFlight, isBackend]
                exact List.eq_nil_of_length_eq_zero (by omega)
              exact ⟨.nothing, empty, .returned refines⟩
          | cons completion more =>
              rw [taken] at refines atMost
              have none : more = [] := by
                refine List.eq_nil_of_length_eq_zero ?_
                rw [List.length_cons] at atMost
                omega
              subst none
              obtain ⟨index, data, reaps, same, kept⟩ := refines.reported sound
              refine ⟨.completed index completion data, reaps, ?_⟩
              generalize awaitReaped (.ok [completion]) concrete = awaited at same kept ⊢
              generalize stream.awaitOne (.completed index completion data) = ideal at same kept ⊢
              obtain ⟨outcome, after⟩ := awaited
              obtain ⟨idealOutcome, idealAfter⟩ := ideal
              cases same
              cases outcome with
              | error error => exact .returned kept
              | ok => exact .await kept

/-- The backend keeps its contract. -/
theorem Refines.holds {concrete : ShardStream} {backend : implementation.Backend}
    (refines : Refines contract taken ⟨concrete, some backend⟩ stream) :
    contract.Holds backend := by
  have backends := refines.backends
  dsimp only at backends
  generalize stream.backend = idealBackend at backends
  cases backends with
  | opened holds => exact holds

/-- A step of a reap takes completions that wait to be reported. -/
theorem Refines.move {concrete : ShardStream} {backend after : implementation.Backend}
    {call next : implementation.Call}
    (refines : Refines contract (contract.taken call) ⟨concrete, some backend⟩ stream)
    (reaping : contract.Reaping backend call)
    (moves : implementation.moves backend call after next) :
    contract.Reaping after next ∧
      Refines contract (contract.taken next) ⟨concrete, some after⟩ stream := by
  obtain ⟨frame, buffers, copied, backends⟩ := refines
  dsimp only at frame buffers copied backends
  generalize isBackend : stream.backend = idealBackend at backends
  cases backends with
  | @opened _ idealBackend done holds depth books =>
      obtain ⟨holdsAfter, reapingAfter, sameDepth, waiting, taken⟩ :=
        contract.moved holds reaping moves
      refine ⟨reapingAfter, frame, buffers, copied, ?_⟩
      obtain ⟨flying, finished, read⟩ := books
      rw [isBackend]
      exact .opened holdsAfter (sameDepth.trans depth)
        ⟨waiting ▸ flying, taken.trans finished, read⟩

/-- The reads under the stream leave its point alone. -/
theorem Matches.serve {before after : Backed implementation} {point : Point implementation.Call}
    {ideal : ShardStream.Config} (matched : Matches contract ⟨before, point⟩ ideal)
    (safe : ShardStream.Safe ideal.stream) (serves : Serves environment before after) :
    Matches contract ⟨after, point⟩ ideal := by
  cases matched with
  | loop refines => exact .loop (refines.serve safe serves)
  | await refines => exact .await (refines.serve safe serves)
  | returned refines => exact .returned (refines.serve safe serves)
  | reaping refines reaping front waits =>
      have kept := refines.serve safe serves
      have holds := refines.holds
      cases serves with
      | serve serves =>
          obtain ⟨-, -, keeps, -⟩ := contract.served (nonzero_kernel environment _) holds serves
          exact .reaping kept (keeps _ reaping) front waits

/-- The steps that the stream does not see: into a reap, on in it, and under it. -/
inductive Hidden (environment : Environment) : Config implementation → Config implementation → Prop
    where
  | reap {stream backend size out} :
      Hidden environment ⟨⟨stream, some backend⟩, .await size out⟩
        ⟨⟨stream, some backend⟩, .reaping size out (implementation.begins 1 1 backend)⟩
  | move {stream backend size out call after next}
      (moves : implementation.moves backend call after next) :
      Hidden environment ⟨⟨stream, some backend⟩, .reaping size out call⟩
        ⟨⟨stream, some after⟩, .reaping size out next⟩
  | serve {before after point} (serves : Serves environment before after) :
      Hidden environment ⟨before, point⟩ ⟨after, point⟩

/-- Every other step over the running backend is a step of the stream it refines. -/
theorem Matches.step {before after : Config implementation} {ideal : ShardStream.Config}
    (matched : Matches contract before ideal) (sound : ideal.Sound environment.disk)
    (suited : ∀ stream size out, ideal = ⟨stream, .loop size out⟩ → stream.isOpen = true →
      ∀ request ∈ stream.planned, suits request)
    (transition : Step environment opens before after) :
    (Hidden environment before after ∧ Matches contract after ideal) ∨
      ∃ next, ShardStream.Step environment ideal next ∧ Matches contract after next := by
  cases transition with
  | finish ends =>
      cases matched with
      | loop refines =>
          rw [refines.isOpen_eq, refines.next_eq.1, refines.next_eq.2] at ends
          exact .inr ⟨_, .finish ends, .returned refines⟩
  | openShard room closed more opening opened allowed outcome created =>
      cases matched with
      | loop refines =>
          rw [refines.isOpen_eq] at closed
          rw [refines.next_eq.1, refines.next_eq.2] at more
          obtain ⟨none, empty⟩ := ShardStream.Sound.closed sound closed
          refine .inr ⟨_, .openShard room closed more opening (refines.allows allowed), ?_⟩
          exact refines.afterOpen none empty outcome created _ _
  | filled room isOpen fill =>
      cases matched with
      | loop refines =>
          rw [refines.isOpen_eq] at isOpen
          exact .inr ⟨_, .fill room isOpen .accepted (refines.fits_nothing sound isOpen fill),
            refines.afterNothing fill _ _⟩
  | submit room isOpen fill queues submits =>
      cases matched with
      | loop refines =>
          rw [refines.isOpen_eq] at isOpen
          obtain ⟨submission, allowed, after⟩ :=
            refines.afterSubmit sound (suited _ _ _ rfl isOpen) isOpen fill queues submits _ _
          exact .inr ⟨_, .fill room isOpen submission allowed, after⟩
  | reap front waits =>
      cases matched with
      | await refines =>
          rw [refines.pending_eq] at front
          obtain ⟨reaping, nothing⟩ := contract.begun refines.holds
          exact .inl ⟨.reap, .reaping (nothing ▸ refines) reaping front waits⟩
  | move moves =>
      cases matched with
      | reaping refines reaping front waits =>
          obtain ⟨reaping, moved⟩ := refines.move reaping moves
          exact .inl ⟨.move moves, .reaping moved reaping front waits⟩
  | reaped ends =>
      cases matched with
      | reaping refines reaping front waits =>
          obtain ⟨reaped, allowed, after⟩ := refines.afterReap reaping sound.1 ends _ _
          exact .inr ⟨_, .reap front waits reaped allowed, after⟩
  | take front done =>
      cases matched with
      | await refines =>
          rw [refines.pending_eq] at front
          exact .inr ⟨_, .take front done, refines.afterTake front done _ _⟩
  | serve serves => exact .inl ⟨.serve serves, matched.serve sound.safe serves⟩

end Backed

end Dsio
