import Dsio.Dataset.BackedLoop
import Dsio.Dataset.BackedProgress

/-!
# Calls over the backends of the library

What `open_backend` gives is an io_uring or a thread backend, one for each shard. The
pipeline over them delivers what the pipeline over the stream alone delivers, and every
schedule of it returns.
-/

namespace Dsio.ForEachBatch

open Transition Window Pipeline Interleaved
open ShardStream (construct HoldsBlock twoFiles)

section

variable {implementation : Implementation} {environment : Environment}
variable {opens : Int → BackendOptions → Outcome implementation.Backend → Prop}
variable {suits : ReadRequest → Prop}
variable {contract : implementation.Contract opens environment.fails suits}
variable {prompt : contract.Prompt}
variable {options : BatchOptions} {callback : Nat → CallbackResult}
variable {initial : ShardStream} {prefetch : Nat}

/-- The call over the running backend and the one it refines, which keeps its invariants. -/
structure Joint (contract : implementation.Contract opens environment.fails suits)
    (options : BatchOptions) (callback : Nat → CallbackResult) (initial : ShardStream)
    (prefetch : Nat)
    (concrete : Interleaved (Backed implementation) (Backed.Config implementation))
    (ideal : Interleaved ShardStream ShardStream.Config) : Prop where
  agrees : Agrees contract concrete ideal
  kept : Kept environment options callback initial prefetch ideal

/-- A step over the backends is a step over the account, or none. -/
theorem Joint.step {before after ideal}
    (joint : Joint contract options callback initial prefetch before ideal)
    (sound : ShardStream.Sound environment.disk initial)
    (suited : Suited environment suits initial)
    (transition : Interleaved.Step (backedReader environment options opens) callback before after) :
    (Hidden environment before after ∧
        Joint contract options callback initial prefetch after ideal) ∨
      ∃ next, Interleaved.Step (reader environment options) callback ideal next ∧
        Joint contract options callback initial prefetch after next := by
  obtain ⟨agrees, kept⟩ := joint
  rcases agrees.step kept sound suited transition with ⟨hidden, agrees⟩ | ⟨next, moves, agrees⟩
  · exact .inl ⟨hidden, agrees, kept⟩
  · exact .inr ⟨next, moves, agrees, kept.step moves⟩

/-- The account simulates the backends. -/
theorem Joint.simulates (sound : ShardStream.Sound environment.disk initial)
    (suited : Suited environment suits initial) :
    Simulates (Interleaved.Step (backedReader environment options opens) callback)
      (Interleaved.Step (reader environment options) callback)
      (Joint contract options callback initial prefetch) := by
  intro before after ideal joint transition
  exact (joint.step sound suited transition).imp_left And.right

/-! ## Every schedule returns -/

/-- A worker that goes on reading has a backend able to read every request. -/
def Interleaved.Ready (prompt : contract.Prompt)
    (interleaved : Interleaved (Backed implementation) (Backed.Config implementation)) : Prop :=
  match interleaved.call with
  | some config => config.Ready prompt
  | none => mayRead interleaved.state.worker = true →
      Backed.Ready prompt interleaved.state.stream

/-- A worker that goes on has read no error. -/
theorem mayRead_afterRead {batch : Batch} {got : Outcome (List Byte)}
    (reads : mayRead (afterRead batch (.outcome got)) = true) (error : Error) :
    got ≠ .error error := by
  rintro rfl
  cases reads

/-- The backend stays ready for the next call. -/
theorem Interleaved.Ready.step {before after} (ready : Interleaved.Ready prompt before)
    (transition : Interleaved.Step (backedReader environment options opens) callback before after) :
    Interleaved.Ready prompt after := by
  cases transition with
  | worker moves =>
      obtain ⟨stream, reads⟩ := worker_frame moves
      intro reading
      dsimp only
      rw [stream]
      exact ready (reads reading)
  | @consumer _ _ call moves =>
      obtain ⟨worker, stream⟩ := consumer_frame moves
      cases call with
      | none =>
          intro reading
          dsimp only at reading ⊢
          rw [stream]
          exact ready (worker ▸ reading)
      | some config => exact ready
  | enter point => exact fun _ => ready (by rw [point]; rfl)
  | read moves => exact Backed.Config.Ready.step ready moves
  | leave point leaves =>
      obtain ⟨got, rfl, rfl⟩ := leaves
      intro reading
      refine ready fun error same => ?_
      exact mayRead_afterRead reading error (Backed.Point.returned.inj same)
  | idle serves => exact fun reading => (ready reading).serve serves

/-- The steps left until the call sees one. -/
def backedRank (prompt : contract.Prompt)
    (interleaved : Interleaved (Backed implementation) (Backed.Config implementation)) :
    ℕ ×ₗ ℕ ×ₗ ℕ :=
  match interleaved.call with
  | some config => Backed.rank prompt config
  | none => toLex (Backed.unread contract interleaved.state.stream, toLex (0, 0))

/-- A step the account does not see brings a completion nearer. -/
theorem Agrees.rank_lt {before after ideal} (agrees : Agrees contract before ideal)
    (ready : Interleaved.Ready prompt before) (hidden : Hidden environment before after) :
    backedRank prompt after < backedRank prompt before := by
  cases hidden with
  | reading hidden =>
      cases agrees with
      | reading matched => exact matched.rank_lt ready hidden
  | idle serves =>
      cases agrees with
      | idle refines =>
          rw [backedRank, backedRank, Prod.Lex.toLex_lt_toLex]
          exact .inl (refines.unread_lt serves)

/-- Where the account can go on, so can the backends. -/
theorem Agrees.progress {concrete ideal next} (agrees : Agrees contract concrete ideal)
    (ready : Interleaved.Ready prompt concrete)
    (kept : Kept environment options callback initial prefetch ideal)
    (sound : ShardStream.Sound environment.disk initial)
    (full : environment.reports = fullReads) (openable : Backed.Openable opens)
    (transition : Interleaved.Step (reader environment options) callback ideal next) :
    ∃ after, Interleaved.Step (backedReader environment options opens) callback concrete after := by
  cases agrees with
  | @idle state stream refines =>
      cases transition with
      | worker moves =>
          rw [workerStep_over, Option.map_eq_some_iff] at moves
          obtain ⟨after, moves, -⟩ := moves
          exact ⟨_, .worker moves⟩
      | consumer moves =>
          rw [consumerStep_over, Option.map_eq_some_iff] at moves
          obtain ⟨after, moves, -⟩ := moves
          exact ⟨_, .consumer moves⟩
      | enter point => exact ⟨_, .enter point⟩
      | idle idles => exact idles.elim
  | @reading state stream config ideal matched =>
      obtain ⟨⟨batch, point⟩, -⟩ := kept.within.2 _ rfl
      by_cases returned : ∃ got, config.point = .returned got
      · obtain ⟨got, same⟩ := returned
        obtain ⟨backed, place⟩ := config
        cases same
        exact ⟨_, .leave point ⟨got, rfl, rfl⟩⟩
      · obtain ⟨after, moves⟩ := matched.progress ready (kept.sound_call sound rfl) full openable
          (not_exists.mp returned)
        exact ⟨_, .read moves⟩

/-- What is inevitable for the call over the stream is inevitable over a backend that keeps
its contract and gets on. -/
theorem inevitable_over {goal : Interleaved ShardStream ShardStream.Config → Prop}
    (prompt : contract.Prompt) (sound : ShardStream.Sound environment.disk initial)
    (suited : Suited environment suits initial) (full : environment.reports = fullReads)
    (openable : Backed.Openable opens) {concrete ideal}
    (joint : Joint contract options callback initial prefetch concrete ideal)
    (ready : Interleaved.Ready prompt concrete)
    (inevitable : Inevitable (Interleaved.Step (reader environment options) callback) goal ideal)
    (onward : ∀ {ideal}, Kept environment options callback initial prefetch ideal → ¬ goal ideal →
      ∃ next, Interleaved.Step (reader environment options) callback ideal next) :
    Inevitable (Interleaved.Step (backedReader environment options opens) callback)
      (fun concrete => ∃ ideal, (Joint contract options callback initial prefetch concrete ideal ∧
        Interleaved.Ready prompt concrete) ∧ goal ideal) concrete := by
  refine Inevitable.of_simulation wellFounded_lt (backedRank prompt) ?_ ?_ inevitable
    ⟨joint, ready⟩
  · rintro before after image ⟨joint, ready⟩ - transition
    rcases joint.step sound suited transition with ⟨hidden, same⟩ | ⟨next, moves, joint⟩
    · exact .inl ⟨⟨same, ready.step transition⟩, joint.agrees.rank_lt ready hidden⟩
    · exact .inr ⟨next, moves, joint, ready.step transition⟩
  · rintro state image ⟨joint, ready⟩ unfinished
    obtain ⟨next, moves⟩ := onward joint.kept unfinished
    exact joint.agrees.progress ready joint.kept sound full openable moves

end

/-! ## What `open_backend` gives -/

namespace Interleaved

variable {environment : Environment} {shuffle : Nat → List Nat → List Nat} {shards : ShardSet}
variable {options : BatchOptions} {callback : Nat → CallbackResult}
variable {first : State ShardStream}

/-- `stream.read(batch.bytes)` over what `open_backend` gives for each shard. -/
abbrev libraryReader (strerror : Nat → String) (short : Prop) (environment : Environment)
    (options : BatchOptions) : Reader (Backed (backendOf strerror environment.fails short))
      (Backed.Config (backendOf strerror environment.fails short)) :=
  backedReader environment options (BackendOpens strerror)

/-- A call that has just begun has no backend yet. -/
def overBackends (implementation : Implementation) (first : State ShardStream) :
    Interleaved (Backed implementation) (Backed.Config implementation) :=
  ⟨first.over ⟨first.stream, none⟩, none⟩

/-- `open_backend` always gives something. -/
theorem openable_backend (strerror : Nat → String) (fails short : Prop) :
    @Backed.Openable (backendOf strerror fails short) (BackendOpens strerror) := by
  intro fd options positive
  refine ⟨.inl { fd, depth := options.queueDepth }, ⟨true, fun _ => .ok ()⟩, .constructed, ?_⟩
  simp [openBackend, openUringBackend, Nat.pos_iff_ne_zero.mp positive]

/-- Segments that an `unsigned` can hold make requests that an entry of the ring can hold. -/
theorem suited_construct {order : List Nat}
    (permutes : order.Perm (List.range shards.length))
    (blocks : ∀ shard ∈ shards, HoldsBlock options (environment.disk.alignment shard.path))
    (narrow : options.segmentBytes < 2 ^ 32) :
    Suited environment (fun request => UringBackend.Narrow request ∧ True)
      (construct shards order options) := by
  intro stream size out visits isOpen request member
  have sound : ShardStream.Sound environment.disk stream :=
    visits.sound (ShardStream.sound_construct ..)
  have stems : ShardStream.Stems (construct shards order options) stream :=
    visits.stems (ShardStream.sound_construct ..)
  have holds := ShardStream.block_le_segment sound stems
    (ShardStream.blocksFit_construct permutes blocks) isOpen
  obtain ⟨filled, entries, loop, -⟩ :=
    ShardStream.fillLoop_spec stream.readDepth (ShardStream.filled_refl stream) (by simp)
  rw [List.map_nil] at loop
  simp only [ShardStream.planned, loop] at member
  obtain ⟨entry, -, rfl⟩ := List.mem_map.mp member
  have bounded : stream.segment ≤ max options.segmentBytes (256 * 1024) := by
    have same : stream.options = options := stems.options
    rw [(sound.opened isOpen).segment, ShardStream.segmentOf, same]
    split <;> omega
  have length := ShardStream.requestLength_le_segment holds (stream.windowEnd - entry.offset)
  refine ⟨?_, trivial⟩
  show stream.requestLength (stream.windowEnd - entry.offset) < 2 ^ 32
  omega

/-- Both levels agree when the worker starts. -/
theorem joint_start {strerror : Nat → String} {short : Prop}
    (begins : begin shuffle shards options = .ok first) (callback : Nat → CallbackResult) :
    Joint (backendContract strerror environment.fails short) options callback first.stream
      options.prefetch (overBackends _ first) ⟨first, none⟩ := by
  obtain ⟨-, -, -, rfl⟩ := begin_eq_ok begins
  exact ⟨.idle ⟨rfl, rfl, by simp [start, construct], .closed⟩, within_idle .., steady_start ..⟩

/-- Both levels agree in every state. -/
theorem joint_of_reaches {strerror : Nat → String} {short : Prop}
    (shuffles : ∀ seed order, (shuffle seed order).Perm order)
    (begins : begin shuffle shards options = .ok first)
    (blocks : ∀ shard ∈ shards, HoldsBlock options (environment.disk.alignment shard.path))
    (narrow : options.segmentBytes < 2 ^ 32) {interleaved}
    (run : Reaches (Step (libraryReader strerror short environment options) callback)
      (overBackends _ first) interleaved) :
    ∃ ideal, Reaches (Step (reader environment options) callback) ⟨first, none⟩ ideal ∧
      Joint (backendContract strerror environment.fails short) options callback first.stream
        options.prefetch interleaved ideal := by
  have joint := @joint_start environment _ _ _ _ strerror short begins callback
  have permutes : (streamOrder shuffle shards options).Perm (List.range shards.length) :=
    streamOrder_perm shuffles
  obtain ⟨-, -, -, rfl⟩ := begin_eq_ok begins
  have simulates := @Joint.simulates _ _ _ _ (backendContract strerror environment.fails short)
    options callback (construct shards (streamOrder shuffle shards options) options)
    options.prefetch (ShardStream.sound_construct ..) (suited_construct permutes blocks narrow)
  exact simulates.reaches joint run

/-- Over the backends of the library, the two threads get nowhere that they do not get over
the stream alone, whatever the system calls give. -/
theorem reaches_of_backed {strerror : Nat → String} {short : Prop}
    (shuffles : ∀ seed order, (shuffle seed order).Perm order)
    (begins : begin shuffle shards options = .ok first)
    (blocks : ∀ shard ∈ shards, HoldsBlock options (environment.disk.alignment shard.path))
    (narrow : options.segmentBytes < 2 ^ 32) {state call}
    (run : Reaches (Step (libraryReader strerror short environment options) callback)
      (overBackends _ first) ⟨state, call⟩) :
    ∃ stream, Reaches (ForEachBatch.Step environment options callback) first
      (state.over stream) := by
  obtain ⟨ideal, reached, agrees, kept⟩ := joint_of_reaches shuffles begins blocks narrow run
  obtain ⟨atomic, within, same, -⟩ := Interleaved.simulates.reaches (within_idle ..) reached
  cases agrees with
  | idle | reading => exact ⟨_, same ▸ within⟩

/-- Every schedule over the backends of the library is done at some time. -/
theorem inevitably_done_backed (strerror : Nat → String)
    (shuffles : ∀ seed order, (shuffle seed order).Perm order)
    (begins : begin shuffle shards options = .ok first)
    (noOverflow : ∀ shard ∈ shards, shard.NoOverflow)
    (blocks : ∀ shard ∈ shards, HoldsBlock options (environment.disk.alignment shard.path))
    (narrow : options.segmentBytes < 2 ^ 32) (full : environment.reports = fullReads)
    (callback : Nat → CallbackResult) :
    Inevitable (Step (libraryReader strerror False environment options) callback)
      (fun interleaved => ∃ ideal,
        Agrees (backendContract strerror environment.fails False) interleaved ideal ∧
        Done environment callback (batchesOf environment.disk shuffle shards options) ideal)
      (overBackends _ first) := by
  have joint := @joint_start environment _ _ _ _ strerror False begins callback
  have permutes : (streamOrder shuffle shards options).Perm (List.range shards.length) :=
    streamOrder_perm shuffles
  have done := inevitably_done shuffles begins noOverflow blocks full callback
  obtain ⟨positive, some, -, rfl⟩ := begin_eq_ok begins
  have initially := ShardStream.between_construct environment.disk shards
    (streamOrder shuffle shards options) options
  have fits : ShardStream.BlocksFit environment.disk _ :=
    ShardStream.blocksFit_construct permutes blocks
  rw [← chunks_unread shuffles noOverflow] at done ⊢
  refine (inevitable_over (backendPrompt strerror environment.fails) initially.sound
    (suited_construct permutes blocks narrow) full
    (openable_backend strerror environment.fails False) joint
    (fun _ => Backed.ready_closed _ _) done ?_).weaken trivial (fun _ _ => trivial) ?_
  · intro ideal kept unfinished
    refine kept.progress some initially.sound full fun result returned => unfinished ?_
    exact kept.done initially full fits positive returned
  · rintro concrete - ⟨ideal, ⟨joint, -⟩, done⟩
    exact ⟨ideal, joint.agrees, done⟩

/-- A run in which the callback is given all the batches. -/
theorem twoShards_backed : ∃ state call,
    Reaches (Step (libraryReader toString False (reliable twoFiles) inPairs) fun _ => .proceed)
      (overBackends _ (start 2 (construct twoShards [0, 1] inPairs))) ⟨state, call⟩ ∧
    state.delivered = [[1, 2], [3, 4], [5]] ∧ ∃ stream,
      Reaches (ForEachBatch.Step (reliable twoFiles) inPairs fun _ => .proceed)
        (start 2 (construct twoShards [0, 1] inPairs)) (state.over stream) := by
  have shuffles : ∀ (seed : Nat) (order : List Nat), order.Perm order := fun _ order => .refl order
  obtain ⟨⟨state, call⟩, run, ideal, agrees, done⟩ :=
    (@inevitably_done_backed (reliable twoFiles) _ _ inPairs _ toString shuffles rfl
      twoShards_fit.1 twoShards_fit.2 (by decide) rfl fun _ => .proceed).exists_reaches
  refine ⟨state, call, run, ?_, reaches_of_backed shuffles rfl twoShards_fit.2 (by decide) run⟩
  obtain ⟨result, returned⟩ := done.returned
  have looped := done.looped id result returned
  rw [handOut_of_proceed fun _ _ => rfl] at looped
  obtain ⟨delivered, -⟩ := Prod.mk.inj looped
  cases agrees with
  | idle => exact delivered.symm
  | reading => exact delivered.symm

/-- Over the backends of the library, as long as `io_uring_submit` takes all entries:
whatever else fails, once the channels are set up, every schedule returns with the worker
done, and if nothing fails it has done what the loop over the batches does. -/
theorem every_backed_schedule_returns (strerror : Nat → String)
    (shuffles : ∀ seed order, (shuffle seed order).Perm order)
    (begins : begin shuffle shards options = .ok first)
    (noOverflow : ∀ shard ∈ shards, shard.NoOverflow)
    (blocks : ∀ shard ∈ shards, HoldsBlock options (environment.disk.alignment shard.path))
    (narrow : options.segmentBytes < 2 ^ 32) (full : environment.reports = fullReads)
    (callback : Nat → CallbackResult) :
    Inevitable (Step (libraryReader strerror False environment options) callback)
      (fun interleaved => ∃ result, interleaved.state.consumer = .returned result ∧
        interleaved.call = none ∧
        (∃ held ending, interleaved.state.worker = .finished held ending) ∧
        interleaved.state.delivered <+:
          (handOut callback (batchesOf environment.disk shuffle shards options)).1 ∧
        (¬ environment.fails → (interleaved.state.delivered, result) =
          handOut callback (batchesOf environment.disk shuffle shards options)))
      (overBackends _ first) := by
  refine (inevitably_done_backed strerror shuffles begins noOverflow blocks narrow full
    callback).weaken trivial (fun _ _ => trivial) ?_
  rintro concrete - ⟨ideal, agrees, done⟩
  obtain ⟨result, returned⟩ := done.returned
  cases agrees with
  | idle => exact ⟨result, returned, rfl, done.finished, done.given,
      fun noFailure => (done.looped noFailure result returned).symm⟩
  | reading => cases done.idle

/-- A callback that throws at its second batch. -/
theorem twoShards_backed_returns :
    Inevitable (Step (libraryReader toString False (honest twoFiles) inPairs) fun call =>
        if call = 1 then .throws else .proceed)
      (fun interleaved => ∃ result, interleaved.state.consumer = .returned result ∧
        interleaved.call = none ∧ interleaved.state.delivered <+: [[1, 2], [3, 4]])
      (overBackends _ (start 2 (construct twoShards [0, 1] inPairs))) := by
  refine (@every_backed_schedule_returns (honest twoFiles) (fun _ order => order) _ inPairs _
    toString (fun _ order => .refl order) rfl twoShards_fit.1 twoShards_fit.2 (by decide) rfl
    _).weaken trivial (fun _ _ => trivial) ?_
  rintro interleaved - ⟨result, returned, idle, -, given, -⟩
  exact ⟨result, returned, idle, given⟩

end Interleaved

end Dsio.ForEachBatch
