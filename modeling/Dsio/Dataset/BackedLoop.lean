import Dsio.Dataset.BackedSteps
import Dsio.Dataset.Epochs

/-!
# `for_each_batch` over the running backends

The worker, the consumer and the reads of the backend, one step at a time in any order. What
comes of it is what comes of the pipeline of `Dsio.Dataset.ForEachBatch`, whichever backend
`open_backend` gave for each of the shards.
-/

namespace Dsio

open Transition Window

namespace Pipeline

variable {Stream Other : Type}

/-- The same threads over another stream. -/
def State.over (stream : Other) (state : State Stream) : State Other :=
  { state with stream }

/-- The worker's step does not look at the stream. -/
theorem workerStep_over (stream : Other) (state : State Stream) :
    workerStep (state.over stream) = (workerStep state).map (State.over stream) := by
  obtain ⟨_, free, ready, error, worker, consumer, log, delivered⟩ := state
  cases worker with
  | recvFree =>
      simp only [workerStep, State.over]
      cases free.recv <;> rfl
  | sendReady batch =>
      simp only [workerStep, State.over]
      cases ready.send batch <;> rfl
  | reading | settingError | closingReady | finished => rfl

/-- The consumer's step does not look at the stream. -/
theorem consumerStep_over (callback : Nat → CallbackResult) (stream : Other)
    (state : State Stream) :
    consumerStep callback (state.over stream) =
      (consumerStep callback state).map (State.over stream) := by
  obtain ⟨_, free, ready, error, worker, consumer, log, delivered⟩ := state
  cases consumer with
  | recvReady =>
      simp only [consumerStep, State.over]
      cases ready.recv <;> rfl
  | calling call batch =>
      simp only [consumerStep, State.over]
      cases callback call <;> rfl
  | sendFree batch keepGoing =>
      simp only [consumerStep, State.over]
      cases free.send batch <;> rfl
  | closingFree | returned => rfl
  | closingReady exit => cases exit <;> rfl
  | takingError =>
      simp only [consumerStep, State.over]
      cases error <;> rfl
  | joining result =>
      simp only [consumerStep, State.over]
      cases worker <;> rfl

/-- Only a read changes the stream, and a worker that stops reading does not go back to it. -/
theorem worker_frame {before after : State Stream} (moves : workerStep before = some after) :
    after.stream = before.stream ∧
      (ForEachBatch.mayRead after.worker = true → ForEachBatch.mayRead before.worker = true) := by
  cases workerMove_of_step moves with
  | takes point | freeClosed point | setsError point | closes point | sends point
  | readyClosed point => exact ⟨rfl, by rw [point]; simp [ForEachBatch.mayRead]⟩

end Pipeline

namespace ForEachBatch

open Pipeline Interleaved

variable {implementation : Implementation} {environment : Environment}
variable {opens : Int → BackendOptions → Outcome implementation.Backend → Prop}
variable {suits : ReadRequest → Prop}
variable {contract : implementation.Contract opens environment.fails suits}
variable {options : BatchOptions} {callback : Nat → CallbackResult}
variable {initial : ShardStream} {prefetch : Nat}

/-- `stream.read(batch.bytes)` over the running backend, whose reads go on between two calls. -/
def backedReader (environment : Environment) (options : BatchOptions)
    (opens : Int → BackendOptions → Outcome implementation.Backend → Prop) :
    Reader (Backed implementation) (Backed.Config implementation) where
  enter := Backed.startRead options.batchBytes
  Step := Backed.Step environment opens
  Leaves := fun config result backed =>
    ∃ got, result = .outcome got ∧ config = ⟨backed, .returned got⟩
  Idles := Backed.Serves environment

/-- The same call over the running backend and over the one the stream sees. -/
inductive Agrees (contract : implementation.Contract opens environment.fails suits) :
    Interleaved (Backed implementation) (Backed.Config implementation) →
      Interleaved ShardStream ShardStream.Config → Prop where
  | idle {state stream} (refines : Backed.Refines contract [] state.stream stream) :
      Agrees contract ⟨state, none⟩ ⟨state.over stream, none⟩
  | reading {state stream config ideal} (matched : Backed.Matches contract config ideal) :
      Agrees contract ⟨state, some config⟩ ⟨state.over stream, some ideal⟩

/-- The backend can take whatever the stream submits. -/
def Suited (environment : Environment) (suits : ReadRequest → Prop) (initial : ShardStream) :
    Prop :=
  ∀ stream size out, ShardStream.Visits environment initial ⟨stream, .loop size out⟩ →
    stream.isOpen = true → ∀ request ∈ stream.planned, suits request

variable {concrete after : Interleaved (Backed implementation) (Backed.Config implementation)}
variable {ideal : Interleaved ShardStream ShardStream.Config}

/-- A call in progress is at a point of some call of `read`. -/
theorem Interleaved.Kept.visits
    (kept : Kept environment options callback initial prefetch ideal)
    {config : ShardStream.Config} (busy : ideal.call = some config) :
    ShardStream.Visits environment initial config := by
  obtain ⟨⟨batch, reading⟩, run⟩ := kept.within.2 config busy
  obtain ⟨sizes, outs, calls⟩ := kept.steady.tracks.calls_of_mayRead (by rw [reading]; rfl)
  exact ⟨sizes, outs, _, _, calls, run⟩

/-- What holds wherever a call on the stream gets to, and does not depend on the carried bytes
having been moved, holds of the stream at every point. -/
theorem Interleaved.Kept.stream_holds {holds : ShardStream → Prop}
    (kept : Kept environment options callback initial prefetch ideal)
    (visited : ∀ config, ShardStream.Visits environment initial config → holds config.stream)
    (flushed : ∀ size stream, holds (ShardStream.startRead size stream).stream → holds stream) :
    holds (ideal.stream ShardStream.Config.stream) := by
  obtain ⟨state, call⟩ := ideal
  cases call with
  | some config => exact visited config (kept.visits rfl)
  | none =>
      cases kept.steady.tracks with
      | reading outs _ calls => exact flushed 0 state.stream (visited _ ⟨_, _, _, _, calls, .refl⟩)
      | failed outs stream error _ calls reads =>
          exact visited ⟨state.stream, .returned (.error error)⟩ ⟨_, _, _, _, calls, reads⟩

/-- The steps that the call does not see. -/
inductive Hidden (environment : Environment) :
    Interleaved (Backed implementation) (Backed.Config implementation) →
      Interleaved (Backed implementation) (Backed.Config implementation) → Prop where
  | reading {state before after} (hidden : Backed.Hidden environment before after) :
      Hidden environment ⟨state, some before⟩ ⟨state, some after⟩
  | idle {state stream} (serves : Backed.Serves environment state.stream stream) :
      Hidden environment ⟨state, none⟩ ⟨{ state with stream }, none⟩

/-- Every other step over the running backend is a step of the call over the one the stream
sees. -/
theorem Agrees.step (agrees : Agrees contract concrete ideal)
    (kept : Kept environment options callback initial prefetch ideal)
    (sound : ShardStream.Sound environment.disk initial)
    (suited : Suited environment suits initial)
    (transition : Interleaved.Step (backedReader environment options opens) callback
      concrete after) :
    (Hidden environment concrete after ∧ Agrees contract after ideal) ∨
      ∃ next, Interleaved.Step (reader environment options) callback ideal next ∧
        Agrees contract after next := by
  cases transition with
  | @worker state after moves =>
      cases agrees with
      | @idle _ stream refines =>
          have lifted : workerStep (state.over stream) = some (after.over stream) := by
            rw [workerStep_over, moves]
            rfl
          rw [← (worker_frame moves).1] at refines
          exact .inr ⟨_, .worker lifted, .idle refines⟩
  | @consumer state after call moves =>
      have lifted (stream : ShardStream) :
          consumerStep callback (state.over stream) = some (after.over stream) := by
        rw [consumerStep_over, moves]
        rfl
      cases agrees with
      | idle refines =>
          rw [← (consumer_frame moves).2] at refines
          exact .inr ⟨_, .consumer (lifted _), .idle refines⟩
      | reading matched => exact .inr ⟨_, .consumer (lifted _), .reading matched⟩
  | enter point =>
      cases agrees with
      | idle refines =>
          exact .inr ⟨_, .enter point, .reading (refines.startRead options.batchBytes)⟩
  | read moves =>
      cases agrees with
      | @reading state stream _ ideal matched =>
          have visits := kept.visits rfl
          rcases matched.step (kept.sound_call sound rfl)
            (fun stream size out same => suited stream size out (same ▸ visits)) moves with
            ⟨hidden, matched⟩ | ⟨next, transition, matched⟩
          · exact .inl ⟨.reading hidden, .reading matched⟩
          · exact .inr ⟨_, .read transition, .reading matched⟩
  | leave point leaves =>
      cases agrees with
      | reading matched =>
          obtain ⟨got, rfl, rfl⟩ := leaves
          cases matched with
          | returned refines =>
              exact .inr ⟨_, .leave point ⟨got, rfl, rfl⟩, .idle refines⟩
  | idle serves =>
      cases agrees with
      | @idle state stream refines =>
          have safe := kept.steady.tracks.safe sound
          have served := refines.serve safe serves
          exact .inl ⟨.idle serves, .idle served⟩

end ForEachBatch

end Dsio
