import Dsio.Dataset.Batches
import Dsio.Dataset.PipelineEndings
import Dsio.Library.Chunks
import Dsio.Library.Simulation

/-!
# Reads take time

In `Pipeline.Step` a call of `stream.read` is one step of the worker. Here it is as many
as the stream makes system calls, with those of the consumer in between. Nothing more is
reached that way, and every schedule gets to the end.
-/

namespace Dsio.ForEachBatch

open Transition Window Pipeline ShardStream

/-- How a stream is read: a read is entered, goes on in steps, and leaves a result and the
stream. What is under the stream may go on between two reads as well. -/
structure Reader (Stream Config : Type) where
  enter : Stream → Config
  Step : Config → Config → Prop
  Leaves : Config → ReadResult → Stream → Prop
  Idles : Stream → Stream → Prop

/-- A call of `for_each_batch`, with the read the worker is in. -/
structure Interleaved (Stream Config : Type) where
  state : State Stream
  call : Option Config := none

namespace Interleaved

/-- The stream as it is now. -/
def stream {Stream Config : Type} (streamOf : Config → Stream)
    (interleaved : Interleaved Stream Config) : Stream :=
  match interleaved.call with
  | some config => streamOf config
  | none => interleaved.state.stream

inductive Step {Stream Config : Type} (reader : Reader Stream Config)
    (callback : Nat → CallbackResult) :
    Interleaved Stream Config → Interleaved Stream Config → Prop where
  | worker {state after} (moves : workerStep state = some after) :
      Step reader callback ⟨state, none⟩ ⟨after, none⟩
  | consumer {state after call} (moves : consumerStep callback state = some after) :
      Step reader callback ⟨state, call⟩ ⟨after, call⟩
  | enter {state batch} (point : state.worker = .reading batch) :
      Step reader callback ⟨state, none⟩ ⟨state, some (reader.enter state.stream)⟩
  | read {state before after} (moves : reader.Step before after) :
      Step reader callback ⟨state, some before⟩ ⟨state, some after⟩
  | leave {state batch config result stream} (point : state.worker = .reading batch)
      (leaves : reader.Leaves config result stream) :
      Step reader callback ⟨state, some config⟩
        ⟨{ state with
            stream
            worker := afterRead batch result
            log := state.log ++ [result] }, none⟩
  | idle {state stream} (idles : reader.Idles state.stream stream) :
      Step reader callback ⟨state, none⟩ ⟨{ state with stream }, none⟩

variable {environment : Environment} {options : BatchOptions}
variable {callback : Nat → CallbackResult}

/-- `stream.read(batch.bytes)`, one system call a step. -/
def reader (environment : Environment) (options : BatchOptions) : Reader ShardStream Config where
  enter := startRead options.batchBytes
  Step := ShardStream.Step environment
  Leaves := fun config result stream =>
    ∃ got, result = .outcome got ∧ config = ⟨stream, .returned got⟩
  Idles := fun _ _ => False

/-- The worker is in a read of the stream as the pipeline last knew it. -/
def Within (environment : Environment) (options : BatchOptions)
    (interleaved : Interleaved ShardStream Config) (state : State ShardStream) : Prop :=
  interleaved.state = state ∧ ∀ config, interleaved.call = some config →
    (∃ batch, state.worker = .reading batch) ∧
      Reaches (ShardStream.Step environment) (startRead options.batchBytes state.stream) config

/-- Outside of `read` both levels are in the same state. -/
theorem within_idle (environment : Environment) (options : BatchOptions)
    (state : State ShardStream) : Within environment options ⟨state, none⟩ state :=
  ⟨rfl, fun _ call => by cases call⟩

/-- The consumer leaves the worker and its stream alone. -/
theorem consumer_frame {Stream : Type} {before after : State Stream}
    (moves : consumerStep callback before = some after) :
    after.worker = before.worker ∧ after.stream = before.stream := by
  cases consumerMove_of_step moves with
  | receives | drained | proceeds | stops | throws | givesBack | freeClosed | closesFree
  | closesReady | rethrows | takesError | takesNone | joins => exact ⟨rfl, rfl⟩

/-- A read is one step of the pipeline, the one it returns in. -/
theorem simulates : Simulates (Step (reader environment options) callback)
    (ForEachBatch.Step environment options callback) (Within environment options) := by
  rintro ⟨state, call⟩ after image ⟨rfl, within⟩ transition
  cases transition with
  | worker moves => exact .inr ⟨_, .worker moves, within_idle ..⟩
  | consumer moves =>
      obtain ⟨worker, stream⟩ := consumer_frame moves
      refine .inr ⟨_, .consumer moves, rfl, fun config busy => ?_⟩
      rw [worker, stream]
      exact within config busy
  | enter point =>
      refine .inl ⟨rfl, fun config busy => ?_⟩
      cases busy
      exact ⟨⟨_, point⟩, .refl⟩
  | read moves =>
      obtain ⟨reading, run⟩ := within _ rfl
      refine .inl ⟨rfl, fun config busy => ?_⟩
      cases busy
      exact ⟨reading, run.tail moves⟩
  | @leave _ _ config result stream point leaves =>
      obtain ⟨got, rfl, rfl⟩ := leaves
      have read : readBatch environment options state.stream (.outcome got) stream :=
        (within _ rfl).2
      exact .inr ⟨_, .read point read, within_idle ..⟩
  | idle idles => exact idles.elim

/-- A read runs to its end while the consumer waits. -/
theorem reaches_read {state : State ShardStream} {batch : Batch}
    (point : state.worker = .reading batch) {stream : ShardStream} {got : Outcome (List Byte)}
    (reads : Reads environment options.batchBytes state.stream got stream) :
    Reaches (Step (reader environment options) callback) ⟨state, none⟩
      ⟨{ state with
          stream
          worker := afterRead batch (.outcome got)
          log := state.log ++ [.outcome got] }, none⟩ := by
  have inside {config : Config}
      (run : Reaches (ShardStream.Step environment) (startRead options.batchBytes state.stream)
        config) : Reaches (Step (reader environment options) callback)
      ⟨state, some (startRead options.batchBytes state.stream)⟩ ⟨state, some config⟩ := by
    induction run with
    | refl => exact .refl
    | tail _ moves ih => exact ih.tail (.read moves)
  exact ((inside reads).head (.enter point)).tail (.leave point ⟨got, rfl, rfl⟩)

/-- Every atomic schedule is a fine one. -/
theorem reaches_of_atomic {first state : State ShardStream}
    (run : Reaches (ForEachBatch.Step environment options callback) first state) :
    Reaches (Step (reader environment options) callback) ⟨first, none⟩ ⟨state, none⟩ := by
  induction run with
  | refl => exact .refl
  | tail _ transition ih =>
      refine ih.trans ?_
      cases transition with
      | worker moves => exact .single (.worker moves)
      | consumer moves => exact .single (.consumer moves)
      | @read batch result stream point got =>
          cases result with
          | outcome got' => exact reaches_read point got
          | thrown => exact got.elim

/-- What the two threads share and hand to the callback is the same whether the reads are
single steps or the consumer runs between their system calls. -/
theorem reads_are_atomic (environment : Environment) (options : BatchOptions)
    (callback : Nat → CallbackResult) (first state : State ShardStream) :
    (∃ call, Reaches (Step (reader environment options) callback) ⟨first, none⟩ ⟨state, call⟩) ↔
      Reaches (ForEachBatch.Step environment options callback) first state := by
  constructor
  · rintro ⟨call, run⟩
    obtain ⟨last, reached, same, -⟩ := simulates.reaches (within_idle ..) run
    cases same
    exact reached
  · exact fun run => ⟨none, reaches_of_atomic run⟩

/-! ## Invariants -/

variable {shuffle : Nat → List Nat → List Nat} {shards : ShardSet} {initial : ShardStream}
variable {prefetch : Nat}

/-- A consumer that left its loop without an exception ran out of batches, or was told to
stop at the last one. -/
def Left (callback : Nat → CallbackResult) (state : State ShardStream) : Prop :=
  state.consumer.exited = true → state.consumer.unwound = false →
    (∀ call < state.delivered.length, callback call = .proceed) ∨
      ∃ call, call + 1 = state.delivered.length ∧ callback call = .stop

/-- A step of the consumer keeps the count of its calls. -/
theorem Left.consumer {before after : State ShardStream} (left : Left callback before)
    (calls : Pipeline.Calls callback before) (move : ConsumerMove callback before after) :
    Left callback after := by
  intro exited kept
  cases move with
  | receives | proceeds | stops => cases exited
  | throws | freeClosed | rethrows => cases kept
  | drained point => exact .inl (calls.looping (.inl point))
  | @givesBack batch keepGoing free point sent =>
      cases keepGoing with
      | true => cases exited
      | false => exact .inr (calls.stopping batch point)
  | @closesFree exit point =>
      cases exit with
      | loopEnded => exact left (by rw [point]; rfl) (by rw [point]; rfl)
      | unwinding => cases kept
  | closesReady point | takesError point | takesNone point =>
      exact left (by rw [point]; rfl) (by rw [point]; rfl)
  | @joins result held ending point finished =>
      refine left (by rw [point]; rfl) ?_
      cases result with
      | ok | err => rw [point]; rfl
      | rethrown => cases kept

/-- Every step keeps the count of the callback's calls. -/
theorem Left.step {before after : State ShardStream} (left : Left callback before)
    (calls : Pipeline.Calls callback before)
    (transition : ForEachBatch.Step environment options callback before after) :
    Left callback after := by
  cases transition with
  | worker moves => cases workerMove_of_step moves <;> exact left
  | read => exact left
  | consumer moves => exact left.consumer calls (consumerMove_of_step moves)

/-- The invariants of the pipeline over the stream. -/
structure Steady (environment : Environment) (options : BatchOptions)
    (callback : Nat → CallbackResult) (initial : ShardStream) (prefetch : Nat)
    (state : State ShardStream) : Prop where
  tracks : Tracks environment options initial state
  inv : Inv prefetch state
  calls : Pipeline.Calls callback state
  left : Left callback state

/-- The invariant holds when the worker starts. -/
theorem steady_start (environment : Environment) (options : BatchOptions)
    (callback : Nat → CallbackResult) (initial : ShardStream) (prefetch : Nat) :
    Steady environment options callback initial prefetch (start prefetch initial) where
  tracks := .reading [] rfl .none
  inv := inv_start prefetch initial
  calls := calls_start prefetch initial
  left := fun exited => by cases exited

/-- Every atomic step keeps the invariant. -/
theorem Steady.step {before after : State ShardStream}
    (steady : Steady environment options callback initial prefetch before)
    (transition : ForEachBatch.Step environment options callback before after) :
    Steady environment options callback initial prefetch after where
  tracks := steady.tracks.step transition
  inv := steady.inv.step transition
  calls := steady.calls.step steady.inv transition
  left := steady.left.step steady.calls transition

/-- The reads of the worker only return. -/
theorem Steady.not_hung {state : State ShardStream}
    (steady : Steady environment options callback initial prefetch state) : ¬ Hung state := by
  rintro ⟨⟨held, exception, finished⟩, -⟩
  have explains := steady.inv.explains
  rw [finished] at explains
  obtain ⟨-, goods, -, log⟩ := explains
  have thrown : ReadResult.thrown exception ∈ state.log := by simp [log]
  cases steady.tracks with
  | reading outs logged => simp [logged, logOf] at thrown
  | failed outs stream error logged => simp [logged, logOf] at thrown

/-- What the worker has read is the beginning of the stream in chunks. -/
theorem Steady.isPrefix_chunks {state : State ShardStream}
    (steady : Steady environment options callback initial prefetch state)
    (initially : Between environment.disk initial initial)
    (full : environment.reports = fullReads) (fits : BlocksFit environment.disk initial)
    (positive : 0 < options.batchBytes) :
    batches state.log <+: chunks options.batchBytes (initial.unread environment.disk) :=
  (steady.tracks.pieces initially full fits positive).isPrefix_chunks positive

/-- There are no more reads than chunks and the one that ends them. -/
theorem Steady.log_le {state : State ShardStream}
    (steady : Steady environment options callback initial prefetch state)
    (initially : Between environment.disk initial initial)
    (full : environment.reports = fullReads) (fits : BlocksFit environment.disk initial)
    (positive : 0 < options.batchBytes) :
    state.log.length ≤
      (chunks options.batchBytes (initial.unread environment.disk)).length + 1 := by
  have front := (steady.isPrefix_chunks initially full fits positive).length_le
  have dropped := steady.inv.allBatches_dropLast.length_batches
  have inside : batches state.log.dropLast <+: batches state.log :=
    (List.dropLast_prefix state.log).filterMap _
  have shorter := inside.length_le
  rw [dropped, List.length_dropLast] at shorter
  omega

/-! ## Every schedule returns -/

/-- The steps left of the read in progress, which an error ends at once. -/
def callRank : Option Config → ℕ ×ₗ ℕ ×ₗ ℕ ×ₗ ℕ
  | none => toLex (2, toLex (0, toLex (0, 0)))
  | some ⟨_, .returned (.error _)⟩ => toLex (0, toLex (0, toLex (0, 0)))
  | some config => toLex (1, ShardStream.rank config)

/-- A step that does not end in an error would be one without failures too. -/
theorem move_cases {before after : Config} (move : Move environment before after) :
    (∃ error, after.point = .returned (.error error)) ∨
      Move { environment with fails := False } before after := by
  cases move with
  | fail => exact .inl ⟨_, rfl⟩
  | finish ends => exact .inr (.finish ends)
  | opened room closed more begun sound => exact .inr (.opened room closed more begun sound)
  | exhausted room isOpen empty ended spare =>
      exact .inr (.exhausted room isOpen empty ended spare)
  | filled room isOpen filled pending => exact .inr (.filled room isOpen filled pending)
  | reaped front waits split waiting found reports read =>
      exact .inr (.reaped front waits split waiting found reports read)
  | taken pending done => exact .inr (.taken pending done)

/-- A running call ranks by its configuration. -/
theorem callRank_of_running {config : Config}
    (running : ∀ error, config.point ≠ .returned (.error error)) :
    callRank (some config) = toLex (1, ShardStream.rank config) := by
  obtain ⟨stream, point⟩ := config
  cases point with
  | loop | await => rfl
  | returned got =>
      cases got with
      | ok => rfl
      | error error => exact absurd rfl (running error)

/-- Every step of a call brings its return nearer. -/
theorem callRank_lt {before after : Config} (sound : before.Sound environment.disk)
    (transition : ShardStream.Step environment before after) :
    callRank (some after) < callRank (some before) := by
  have running : ∀ error, before.point ≠ .returned (.error error) := by
    intro error
    cases transition <;> simp
  rw [callRank_of_running running]
  rcases move_cases (move_of_step sound transition) with ⟨error, failed⟩ | move
  · obtain ⟨stream, point⟩ := after
    cases failed
    simp [callRank, Prod.Lex.toLex_lt_toLex]
  · by_cases going : ∃ error, after.point = .returned (.error error)
    · obtain ⟨error, failed⟩ := going
      obtain ⟨stream, point⟩ := after
      cases failed
      simp [callRank, Prod.Lex.toLex_lt_toLex]
    · rw [callRank_of_running (not_exists.mp going)]
      have less := @ShardStream.rank_lt { environment with fails := False } _ _ sound id move
      simpa [Prod.Lex.toLex_lt_toLex] using less

/-- A call in progress ranks below none. -/
theorem callRank_lt_none (config : Config) : callRank (some config) < callRank none := by
  obtain ⟨stream, point⟩ := config
  cases point with
  | loop | await => simp [callRank, Prod.Lex.toLex_lt_toLex]
  | returned got => cases got <;> simp [callRank, Prod.Lex.toLex_lt_toLex]

/-- The steps left of the two threads, and within one of the worker's reads. -/
def rank (limit : Nat) (interleaved : Interleaved ShardStream Config) : ℕ ×ₗ ℕ ×ₗ ℕ ×ₗ ℕ ×ₗ ℕ :=
  toLex (Pipeline.rank limit interleaved.state, callRank interleaved.call)

/-- The invariant of an interleaved call. -/
structure Kept (environment : Environment) (options : BatchOptions)
    (callback : Nat → CallbackResult) (initial : ShardStream) (prefetch : Nat)
    (interleaved : Interleaved ShardStream Config) : Prop where
  within : Within environment options interleaved interleaved.state
  steady : Steady environment options callback initial prefetch interleaved.state

variable {before after interleaved : Interleaved ShardStream Config}

/-- Every fine step keeps the invariant. -/
theorem Kept.step (kept : Kept environment options callback initial prefetch before)
    (transition : Step (reader environment options) callback before after) :
    Kept environment options callback initial prefetch after := by
  rcases simulates kept.within transition with ⟨same, within⟩ | ⟨next, moves, same, within⟩
  · exact ⟨⟨rfl, same ▸ within⟩, same ▸ kept.steady⟩
  · exact ⟨⟨rfl, same ▸ within⟩, same ▸ kept.steady.step moves⟩

/-- The stream is sound inside a call of `read`. -/
theorem Kept.sound_call (kept : Kept environment options callback initial prefetch interleaved)
    (sound : Sound environment.disk initial) {config : Config}
    (busy : interleaved.call = some config) : config.Sound environment.disk := by
  obtain ⟨⟨batch, reading⟩, run⟩ := kept.within.2 config busy
  obtain ⟨sizes, outs, calls⟩ := kept.steady.tracks.calls_of_mayRead (by rw [reading]; rfl)
  exact Config.Sound.of_reaches ((calls.sound sound).startRead _) run

/-- Until the call has returned there is a step. -/
theorem Kept.progress (kept : Kept environment options callback initial prefetch interleaved)
    (positive : 0 < prefetch) (sound : Sound environment.disk initial)
    (full : environment.reports = fullReads)
    (running : ∀ result, interleaved.state.consumer ≠ .returned result) :
    ∃ next, Step (reader environment options) callback interleaved next := by
  -- where the pipeline would read, the read in progress can go on
  have total : ∀ stream : ShardStream, ∃ (_ : ReadResult) (_ : ShardStream), True :=
    fun stream => ⟨.outcome (.ok []), stream, trivial⟩
  obtain ⟨next, transition⟩ := @Pipeline.Inv.progress _ _ (fun _ _ _ => True) callback _
    kept.steady.inv positive total running kept.steady.not_hung
  obtain ⟨state, call⟩ := interleaved
  cases transition with
  | worker moves =>
      cases call with
      | none => exact ⟨_, .worker moves⟩
      | some config =>
          obtain ⟨⟨batch, reading⟩, -⟩ := kept.within.2 config rfl
          dsimp only at reading
          simp [workerStep, reading] at moves
  | consumer moves => exact ⟨_, .consumer moves⟩
  | read point =>
      cases call with
      | none => exact ⟨_, .enter point⟩
      | some config =>
          have soundCall := kept.sound_call sound rfl
          obtain ⟨stream, place⟩ := config
          cases place with
          | returned got => exact ⟨_, .leave point ⟨got, rfl, rfl⟩⟩
          | loop | await =>
              obtain ⟨later, moves⟩ :=
                soundCall.progress full (by rintro ⟨out, same⟩; cases same) (by simp)
              exact ⟨_, .read moves⟩

/-- The pipeline's rank comes first, then that of the call. -/
theorem rank_lt_iff {limit : Nat} : rank limit after < rank limit before ↔
    Pipeline.rank limit after.state < Pipeline.rank limit before.state ∨
    Pipeline.rank limit after.state = Pipeline.rank limit before.state ∧
      callRank after.call < callRank before.call := by
  simp only [rank, Prod.Lex.toLex_lt_toLex]

/-- Every fine step brings the end of the call nearer. -/
theorem Kept.rank_lt {limit : Nat}
    (kept : Kept environment options callback initial prefetch before)
    (sound : Sound environment.disk initial)
    (transition : Step (reader environment options) callback before after)
    (reads : after.state.log.length ≤ limit) (calls : after.state.delivered.length ≤ limit) :
    rank limit after < rank limit before := by
  rw [rank_lt_iff]
  cases transition with
  | worker moves =>
      have atomic : ForEachBatch.Step environment options callback _ _ := .worker moves
      exact .inl (rank_lt_of_step atomic reads calls)
  | consumer moves =>
      have atomic : ForEachBatch.Step environment options callback _ _ := .consumer moves
      exact .inl (rank_lt_of_step atomic reads calls)
  | enter point => exact .inr ⟨rfl, callRank_lt_none _⟩
  | read moves => exact .inr ⟨rfl, callRank_lt (kept.sound_call sound rfl) moves⟩
  | @leave _ _ config result stream point leaves =>
      obtain ⟨got, rfl, rfl⟩ := leaves
      have atomic : ForEachBatch.Step environment options callback _ _ :=
        @Pipeline.Step.read _ _ _ _ _ (.outcome got) _ point (kept.within.2 _ rfl).2
      exact .inl (rank_lt_of_step atomic reads calls)
  | idle idles => exact idles.elim

/-- Whatever fails, and whatever the callback does, every schedule gets to the return of the
call. -/
theorem inevitable (positive : 0 < options.batchBytes) (some : 0 < prefetch)
    (initially : Between environment.disk initial initial)
    (full : environment.reports = fullReads) (fits : BlocksFit environment.disk initial)
    (callback : Nat → CallbackResult) :
    Inevitable (Step (reader environment options) callback)
      (fun interleaved => ∃ result, interleaved.state.consumer = .returned result)
      ⟨start prefetch initial, none⟩ := by
  have begun : Kept environment options callback initial prefetch
      ⟨start prefetch initial, none⟩ := ⟨within_idle .., steady_start ..⟩
  refine .ofRank wellFounded_lt
    (rank ((chunks options.batchBytes (initial.unread environment.disk)).length + 1)) Kept.step
    (fun interleaved kept running => ?_) (fun kept _ transition => ?_) begun
  · exact kept.progress some initially.sound full (not_exists.mp running)
  · have next := (kept.step transition).steady
    have reads := next.log_le initially full fits positive
    have called := next.inv.called.length_le
    have front := (next.isPrefix_chunks initially full fits positive).length_le
    exact kept.rank_lt initially.sound transition reads (by omega)

end Interleaved

end Dsio.ForEachBatch
