import Dsio.Dataset.Abandoned
import Dsio.Dataset.ForEachBatch
import Dsio.Library.Run

/-!
# How long the buffers live

While the worker reads, and when a shard is closed, every read in flight has a live
buffer that nothing else uses. When `for_each_batch` destroys the stream, `buffers_` is
destroyed before `backend_`, which is declared before it, so the buffers outlive the
reads exactly when none is in flight by then. `Abandons` are the steps with which the
worker reads for the last time and leaves some.
-/

namespace Dsio.ShardStream

open Transition

variable {stream : ShardStream}

/-- Taking an entry keeps a stream safe. -/
theorem Safe.takeFront (safe : Safe stream) (entry : Pending) (room : Nat) :
    Safe (stream.takeFront entry room).2.2 := by
  obtain ⟨carry, carrySize, same⟩ := stream.takeFront_frame entry room
  rw [same]
  exact safe.mono (List.Sublist.refl _)
    (fun other member done => ⟨other, List.mem_of_mem_tail member, done, rfl⟩) rfl

/-- A stream is safe at every point of a call. -/
theorem Config.Sound.safe {disk : Disk} {config : Config} (sound : config.Sound disk) :
    Safe config.stream := by
  obtain ⟨stream, point⟩ := config
  cases point with
  | loop => exact ShardStream.Sound.safe sound
  | await => exact sound.1.safe
  | returned got =>
      cases got with
      | ok => exact ShardStream.Sound.safe sound
      | error => exact sound

end Dsio.ShardStream

namespace Dsio.ForEachBatch

open Transition Pipeline ShardStream

variable {shuffle : Nat → List Nat → List Nat} {shards : ShardSet} {options : BatchOptions}
variable {environment : Environment} {callback : Nat → CallbackResult}
variable {first state : State ShardStream}

/-- A step after which the worker reads no more, although segment reads are in flight: a call
of `read` fails and leaves some, or a channel throws because the consumer has stopped or its
callback has thrown, and the stream has read ahead. -/
inductive Abandons (environment : Environment) (options : BatchOptions) :
    State ShardStream → State ShardStream → Prop where
  | failed {before batch config error stream} (point : before.worker = .reading batch)
      (reached : Reaches (ShardStream.Step environment)
        (startRead options.batchBytes before.stream) config)
      (leaves : LeavesReads config ⟨stream, .returned (.error error)⟩) :
      Abandons environment options before { before with
        stream
        worker := afterRead batch (.outcome (.error error))
        log := before.log ++ [.outcome (.error error)] }
  | stopped {before after held} (moves : workerStep before = some after)
      (stops : after.worker = .finished held .stopped) (waits : before.stream.Waits) :
      Abandons environment options before after

/-- What holds of every state of a call. -/
structure Traced (environment : Environment) (options : BatchOptions) (initial : ShardStream)
    (state : State ShardStream) : Prop where
  tracks : Tracks environment options initial state
  inv : Inv options.prefetch state

/-- A worker that reads no more has left nothing in flight. -/
def Quiet (state : State ShardStream) : Prop :=
  mayRead state.worker = false → state.stream.inFlight = []

variable {initial : ShardStream} {before after : State ShardStream}

/-- Every step keeps what holds of a state. -/
theorem Traced.step (traced : Traced environment options initial before)
    (transition : Step environment options callback before after) :
    Traced environment options initial after :=
  ⟨traced.tracks.step transition, traced.inv.step transition⟩

/-- Where the worker may still read, the stream is as its calls left it. -/
theorem Traced.sound (traced : Traced environment options initial state)
    (sound : Sound environment.disk initial) (reads : mayRead state.worker = true) :
    Sound environment.disk state.stream := by
  obtain ⟨sizes, outs, calls⟩ := traced.tracks.calls_of_mayRead reads
  exact calls.sound sound

/-- A step that is none of those leaves nothing in flight behind the worker. -/
theorem Traced.quiet (traced : Traced environment options initial before)
    (sound : Sound environment.disk initial) (positive : 0 < options.batchBytes)
    (quiet : Quiet before) (transition : Step environment options callback before after)
    (keeps : ¬ Abandons environment options before after) : Quiet after := by
  intro ended
  cases transition with
  | consumer moves => cases consumerMove_of_step moves <;> exact quiet ended
  | worker moves =>
      have stopped (reads : mayRead before.worker = true) {held : Option Batch}
          (stops : after.worker = .finished held .stopped) : before.stream.inFlight = [] := by
        by_contra some
        exact keeps (.stopped moves stops
          ((traced.sound sound reads).inFlight_ne_nil_iff.mp some))
      cases workerMove_of_step moves with
      | takes | sends => cases ended
      | freeClosed point => exact stopped (by simp [point, mayRead]) rfl
      | readyClosed point => exact stopped (by simp [point, mayRead]) rfl
      | setsError point | closes point => exact quiet (by simp [point, mayRead])
  | @read batch result stream point got =>
      have soundly := traced.sound sound (by simp [point, mayRead])
      cases result with
      | thrown => exact got.elim
      | outcome outcome =>
          cases outcome with
          | error error =>
              by_contra busy
              obtain ⟨config, reached, leaves⟩ := (got.inFlight_ne_nil_iff soundly).mp busy
              exact keeps (.failed point reached leaves)
          | ok out =>
              by_cases empty : out = []
              · subst empty
                exact got.inFlight_eq_nil positive soundly
              · simp [afterRead, empty, mayRead] at ended

/-- Nothing follows the return of a call. -/
theorem Traced.last (traced : Traced environment options initial before) {result : Result}
    (returned : before.consumer = .returned result) :
    ¬ Step environment options callback before after := by
  obtain ⟨held, ending, finished⟩ := traced.inv.joined result returned
  intro transition
  cases transition with
  | worker moves => simp [workerStep, finished] at moves
  | read point => simp [finished] at point
  | consumer moves => simp [consumerStep, returned] at moves

/-- The options of the one-block stream. -/
def oneBlockOptions : BatchOptions := { readDepth := 1, segmentBytes := 4096 }

def oneBlockShards : ShardSet := [{ path := "shard", length := 4096 }]

/-- The only segment read of the stream is in flight. -/
def oneBlockQueued : ShardStream := ((oneBlockOpen 4096).fillPipeline .accepted).2

/-- The read of the block is queued. -/
theorem oneBlock_queues : Reaches (ShardStream.Step (honest emptyFiles))
    (startRead oneBlockOptions.batchBytes (oneBlock 4096))
    ⟨oneBlockQueued, .await oneBlockOptions.batchBytes []⟩ := by
  have room : 0 < oneBlockOptions.batchBytes := by decide
  have fills : ShardStream.Step (honest emptyFiles)
      ⟨oneBlockOpen 4096, .loop oneBlockOptions.batchBytes []⟩
      ⟨oneBlockQueued, .await oneBlockOptions.batchBytes []⟩ := by
    refine .fill room rfl .accepted ?_
    rintro backend ⟨⟩
    decide
  exact (Relation.ReflTransGen.single (oneBlock_opens 4096 room rfl)).tail fills

/-- The block of the file was read: it has no bytes. -/
def oneBlockRead : ShardStream := (oneBlockQueued.awaitOne (.completed 0 ⟨0, 0, 0⟩ [])).2

def oneBlockClosed : ShardStream := (oneBlockRead.takeFront ⟨0, 0, 0, true⟩ 4194304).2.2.closeShard

/-- The stream ends with the file. -/
theorem oneBlock_ends : readBatch (honest emptyFiles) oneBlockOptions (oneBlock 4096)
    (.outcome (.ok [])) oneBlockClosed := by
  have reads : ShardStream.Step (honest emptyFiles)
      ⟨oneBlockQueued, .await oneBlockOptions.batchBytes []⟩
      ⟨oneBlockRead, .await oneBlockOptions.batchBytes []⟩ :=
    .reap rfl rfl (.completed 0 ⟨0, 0, 0⟩ []) ⟨⟨0, ⟨0, 4096⟩, 0⟩, rfl, rfl, rfl, .inl ⟨rfl, rfl⟩⟩
  have front : oneBlockRead.pending.head? = some ⟨0, 0, 0, true⟩ := rfl
  have closes : ShardStream.Step (honest emptyFiles)
      ⟨oneBlockRead, .await oneBlockOptions.batchBytes []⟩
      ⟨oneBlockClosed, .loop oneBlockOptions.batchBytes []⟩ := .take front rfl
  have finishes : ShardStream.Step (honest emptyFiles)
      ⟨oneBlockClosed, .loop oneBlockOptions.batchBytes []⟩
      ⟨oneBlockClosed, .returned (.ok [])⟩ := .finish (.inr ⟨rfl, by decide⟩)
  exact ((oneBlock_queues.tail reads).tail closes).tail finishes

end Dsio.ForEachBatch
