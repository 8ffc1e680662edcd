import Dsio.Dataset.Contents
import Dsio.Dataset.PipelineSafety

/-!
# `for_each_batch`

The prefetch pipeline over the shard stream: the options are checked, the order is
shuffled when there is a seed, and the worker's reads are whole calls of
`ShardStream::read`. `Tracks` connects the two: the log of the pipeline is what a
sequence of calls on the stream returned, up to the error that ended it.
-/

namespace Dsio

open Transition

/-- The checks `for_each_batch` makes first. -/
def BatchOptions.check (options : BatchOptions) : Outcome Unit :=
  if options.batchBytes = 0 then
    .error ⟨"dsio::for_each_batch: batch_bytes must be > 0", none⟩
  else if options.prefetch = 0 then
    .error ⟨"dsio::for_each_batch: prefetch must be at least 1", none⟩
  else if options.readDepth = 0 then
    .error ⟨"dsio::for_each_batch: read_depth must be at least 1", none⟩
  else .ok ()

namespace ForEachBatch

open Pipeline ShardStream

/-- Shard order, or what `fp::Rng` makes of it with the seed. -/
def streamOrder (shuffle : Nat → List Nat → List Nat) (shards : ShardSet)
    (options : BatchOptions) : List Nat :=
  if options.seed = 0 then List.range shards.length
  else shuffle options.seed (List.range shards.length)

/-- The state in which both threads start, if the options are accepted and the set-up of the
channels gets to its end (where `prefetch + 1` does not wrap). -/
def begin (shuffle : Nat → List Nat → List Nat) (shards : ShardSet) (options : BatchOptions) :
    Outcome (State ShardStream) :=
  match options.check with
  | .error error => .error error
  | .ok () =>
      .ok (start options.prefetch (construct shards (streamOrder shuffle shards options) options))

/-- `stream.read(batch.bytes)`: every batch has `batch_bytes` bytes. -/
def readBatch (environment : Environment) (options : BatchOptions) (stream : ShardStream) :
    ReadResult → ShardStream → Prop
  | .outcome got, after => Reads environment options.batchBytes stream got after
  | .thrown _, _ => False

/-- A step of a call of `for_each_batch`. -/
abbrev Step (environment : Environment) (options : BatchOptions)
    (callback : Nat → CallbackResult) : State ShardStream → State ShardStream → Prop :=
  Pipeline.Step (readBatch environment options) callback

variable {shuffle : Nat → List Nat → List Nat} {shards : ShardSet} {options : BatchOptions}
variable {environment : Environment} {callback : Nat → CallbackResult}
variable {first state : State ShardStream}

/-- What the guards let through. -/
theorem begin_eq_ok (begins : begin shuffle shards options = .ok first) :
    0 < options.batchBytes ∧ 0 < options.prefetch ∧ 0 < options.readDepth ∧
      first = start options.prefetch
        (construct shards (streamOrder shuffle shards options) options) := by
  simp only [begin, BatchOptions.check] at begins
  split at begins
  · cases begins
  · next accepted =>
    split at accepted
    · cases accepted
    · split at accepted
      · cases accepted
      · split at accepted
        · cases accepted
        · cases begins
          exact ⟨by omega, by omega, by omega, rfl⟩

/-- The stream has every shard once. -/
theorem streamOrder_perm (shuffles : ∀ seed order, (shuffle seed order).Perm order) :
    (streamOrder shuffle shards options).Perm (List.range shards.length) := by
  simp only [streamOrder]
  split
  · exact .refl _
  · exact shuffles _ _

/-! ## The log -/

/-- The worker may still read. -/
def mayRead : Worker → Bool
  | .recvFree | .reading _ | .sendReady _ => true
  | _ => false

/-- What the worker logged for calls that returned bytes. -/
def logOf (outs : List (List Byte)) : List ReadResult := outs.map fun out => .outcome (.ok out)

/-- The log is a sequence of calls on the stream, the last of which may have failed. -/
inductive Tracks (environment : Environment) (options : BatchOptions) (initial : ShardStream)
    (state : State ShardStream) : Prop where
  | reading (outs : List (List Byte)) (log : state.log = logOf outs)
      (calls : Calls environment initial (List.replicate outs.length options.batchBytes) outs
        state.stream)
  | failed (outs : List (List Byte)) (stream : ShardStream) (error : Error)
      (log : state.log = logOf outs ++ [.outcome (.error error)])
      (calls : Calls environment initial (List.replicate outs.length options.batchBytes) outs
        stream)
      (reads : Reads environment options.batchBytes stream (.error error) state.stream)
      (ended : mayRead state.worker = false)

/-- Every step continues the calls of `read`. -/
theorem Tracks.step {initial : ShardStream} {before after : State ShardStream}
    (tracks : Tracks environment options initial before)
    (transition : Step environment options callback before after) :
    Tracks environment options initial after := by
  cases transition with
  | worker moves =>
      cases workerMove_of_step moves with
      | takes point | freeClosed point | setsError point | closes point | sends point
      | readyClosed point =>
          cases tracks with
          | reading outs log calls => exact .reading outs log calls
          | failed outs stream error log calls reads ended =>
              simp only [point, mayRead] at ended
              first | exact .failed outs stream error log calls reads rfl | cases ended
  | consumer moves =>
      cases consumerMove_of_step moves <;> exact
        match tracks with
        | .reading outs log calls => .reading outs log calls
        | .failed outs stream error log calls reads ended =>
            .failed outs stream error log calls reads ended
  | @read batch result stream point got =>
      cases tracks with
      | failed _ _ _ _ _ _ ended => simp [point, mayRead] at ended
      | reading outs log calls =>
          cases result with
          | thrown => exact got.elim
          | outcome got' =>
              cases got' with
              | ok out =>
                  refine .reading (outs ++ [out]) (by simp [log, logOf]) ?_
                  rw [List.length_append, List.length_singleton, List.replicate_succ']
                  exact calls.call got
              | error error =>
                  exact .failed outs before.stream error (by simp [log]) calls got rfl

/-- The log is that of successive calls of `read`. -/
theorem Tracks.of_reaches (begins : begin shuffle shards options = .ok first)
    (run : Reaches (Step environment options callback) first state) :
    Tracks environment options
      (construct shards (streamOrder shuffle shards options) options) state := by
  obtain ⟨-, -, -, rfl⟩ := begin_eq_ok begins
  exact run.preserves Tracks.step (.reading [] rfl .none)

/-- The worker reads from a stream no call on which has failed. -/
theorem Tracks.calls_of_mayRead {initial : ShardStream}
    (tracks : Tracks environment options initial state) (reads : mayRead state.worker = true) :
    ∃ sizes outs, Calls environment initial sizes outs state.stream := by
  cases tracks with
  | reading outs _ calls => exact ⟨_, outs, calls⟩
  | failed _ _ _ _ _ _ ended => simp [ended] at reads

/-- The stream stays safe, also after the read that failed. -/
theorem Tracks.safe {initial : ShardStream} (tracks : Tracks environment options initial state)
    (sound : Sound environment.disk initial) : Safe state.stream := by
  cases tracks with
  | reading _ _ calls => exact (calls.sound sound).safe
  | failed _ stream error _ calls reads =>
      have config : Config.Sound environment.disk ⟨state.stream, .returned (.error error)⟩ :=
        Config.Sound.of_reaches ((calls.sound sound).startRead _) reads
      exact config

end ForEachBatch

end Dsio
