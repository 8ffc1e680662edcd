import Dsio.Dataset.PipelineInvariant

/-!
# Progress and termination of the pipeline

Whenever one thread is blocked the other can move, except in `Hung`: the worker
died inside `stream.read` without closing `ready` and the consumer waits for a
batch. `rank` decreases with every step while the reads and the callbacks left
are bounded, so a run that cannot hang ends.
-/

namespace Dsio.Pipeline

variable {Stream : Type}

/-- A step of the worker's thread, `stream.read` included. -/
inductive WorkerStep (read : Stream → ReadResult → Stream → Prop) (before : State Stream) :
    State Stream → Prop where
  | moves {after} (moves : workerStep before = some after) : WorkerStep read before after
  | read {batch result stream} (point : before.worker = .reading batch)
      (got : read before.stream result stream) :
      WorkerStep read before
        { before with stream, worker := afterRead batch result, log := before.log ++ [result] }

/-- A step of the worker is a step. -/
theorem WorkerStep.step {read : Stream → ReadResult → Stream → Prop}
    {callback : Nat → CallbackResult} {before after : State Stream}
    (step : WorkerStep read before after) : Step read callback before after := by
  cases step with
  | moves moves => exact .worker moves
  | read point got => exact .read point got

/-- The task has ended in an exception out of `stream.read` and `ready` is still
open, while the consumer waits in `ready.recv()`. -/
structure Hung (state : State Stream) : Prop where
  worker : ∃ held exception, state.worker = .finished held (.threw exception)
  consumer : state.consumer = .recvReady
  nothing : state.ready.items = []
  stillOpen : state.ready.closed = false

/-- A worker that is not blocked can move. -/
theorem worker_moves_of_ne_none {read : Stream → ReadResult → Stream → Prop} {state : State Stream}
    (some : workerStep state ≠ none) : ∃ after, WorkerStep read state after := by
  obtain ⟨after, moves⟩ := Option.ne_none_iff_exists'.mp some
  exact ⟨after, .moves moves⟩

/-- While the consumer waits for a batch, the worker can move. -/
theorem Inv.worker_moves_of_recvReady {prefetch : Nat} {read : Stream → ReadResult → Stream → Prop}
    {state : State Stream} (inv : Inv prefetch state) (positive : 0 < prefetch)
    (total : ∀ stream, ∃ result next, read stream result next)
    (consumer : state.consumer = .recvReady) (stillOpen : state.ready.closed = false)
    (nothing : state.ready.items = []) (alive : ¬ Hung state) :
    ∃ after, WorkerStep read state after := by
  have freeCapacity := inv.freeCapacity
  have readyCapacity := inv.readyCapacity
  cases worker : state.worker with
  | reading batch =>
      obtain ⟨result, next, got⟩ := total state.stream
      exact ⟨_, .read worker got⟩
  | recvFree =>
      -- the channels hold every buffer, so `free` holds one
      refine worker_moves_of_ne_none fun stuck => ?_
      have count := inv.length_buffers (by simp [consumer, Consumer.unwound])
      simp only [workerStep, worker] at stuck
      split at stuck
      · next blocked =>
        have empty := (Channel.recv_eq_blocked_iff.mp blocked).2
        simp [empty, nothing, worker, consumer, Worker.batch?, Consumer.batch?] at count
      · cases stuck
      · cases stuck
  | settingError | closingReady => exact worker_moves_of_ne_none (by simp [workerStep, worker])
  | sendReady batch =>
      refine worker_moves_of_ne_none fun stuck => ?_
      simp only [workerStep, worker] at stuck
      split at stuck
      · next blocked =>
        have full := (Channel.send_eq_blocked_iff.mp blocked).2
        rw [nothing, List.length_nil] at full
        omega
      · cases stuck
      · cases stuck
  | finished held ending =>
      cases ending with
      | returned =>
          have closed := inv.readyClosed
          simp [stillOpen, worker, Worker.closedReady] at closed
      | stopped =>
          have closed := inv.stopped held worker
          simp [consumer, Consumer.closedFree] at closed
      | threw exception =>
          exact absurd ⟨⟨held, exception, worker⟩, consumer, nothing, stillOpen⟩ alive

/-- While the consumer joins, the worker can move: both channels are closed. -/
theorem Inv.worker_moves_of_joining {prefetch : Nat} {read : Stream → ReadResult → Stream → Prop}
    {state : State Stream} (inv : Inv prefetch state)
    (total : ∀ stream, ∃ result next, read stream result next) {result : Result}
    (consumer : state.consumer = .joining result)
    (unfinished : ∀ held ending, state.worker ≠ .finished held ending) :
    ∃ after, WorkerStep read state after := by
  have freeClosed : state.free.closed = true := by
    simp [inv.freeClosed, consumer, Consumer.closedFree]
  have readyClosed : state.ready.closed = true := by
    simp [inv.readyClosed, consumer, Consumer.closedReady]
  cases worker : state.worker with
  | reading batch =>
      obtain ⟨result, next, got⟩ := total state.stream
      exact ⟨_, .read worker got⟩
  | recvFree =>
      refine worker_moves_of_ne_none fun stuck => ?_
      simp only [workerStep, worker] at stuck
      split at stuck
      · next blocked =>
        have stillOpen := (Channel.recv_eq_blocked_iff.mp blocked).1
        rw [freeClosed] at stillOpen
        cases stillOpen
      · cases stuck
      · cases stuck
  | settingError | closingReady => exact worker_moves_of_ne_none (by simp [workerStep, worker])
  | sendReady batch =>
      refine worker_moves_of_ne_none ?_
      simp [workerStep, worker, Channel.send_eq_thrown_iff.mpr readyClosed]
  | finished held ending => exact absurd worker (unfinished held ending)

/-- When the consumer is blocked and the run has not hung, the worker can move. -/
theorem Inv.worker_moves {prefetch : Nat} {read : Stream → ReadResult → Stream → Prop}
    {callback : Nat → CallbackResult} {state : State Stream} (inv : Inv prefetch state)
    (positive : 0 < prefetch) (total : ∀ stream, ∃ result next, read stream result next)
    (running : ∀ result, state.consumer ≠ .returned result)
    (blocked : consumerStep callback state = none) (alive : ¬ Hung state) :
    ∃ after, WorkerStep read state after := by
  cases consumer : state.consumer with
  | recvReady =>
      have waiting : state.ready.recv = .blocked := by
        simp only [consumerStep, consumer] at blocked
        split at blocked
        · assumption
        · cases blocked
        · cases blocked
      obtain ⟨stillOpen, nothing⟩ := Channel.recv_eq_blocked_iff.mp waiting
      exact inv.worker_moves_of_recvReady positive total consumer stillOpen nothing alive
  | joining result =>
      refine inv.worker_moves_of_joining total consumer fun held ending worker => ?_
      simp [consumerStep, consumer, worker] at blocked
  | sendFree batch keepGoing =>
      have room := inv.sendFree_room consumer
      simp only [consumerStep, consumer] at blocked
      split at blocked
      · contradiction
      · cases blocked
      · cases blocked
  | returned result => exact absurd consumer (running result)
  | calling call batch =>
      simp only [consumerStep, consumer] at blocked
      split at blocked <;> cases blocked
  | closingFree exit => simp [consumerStep, consumer] at blocked
  | closingReady exit => cases exit <;> simp [consumerStep, consumer] at blocked
  | takingError =>
      simp only [consumerStep, consumer] at blocked
      split at blocked <;> cases blocked

/-- When the worker is blocked before its task has ended, the consumer can move. -/
theorem Inv.consumer_moves {prefetch : Nat} {read : Stream → ReadResult → Stream → Prop}
    {callback : Nat → CallbackResult} {state : State Stream} (inv : Inv prefetch state)
    (positive : 0 < prefetch) (total : ∀ stream, ∃ result next, read stream result next)
    (unfinished : ∀ held ending, state.worker ≠ .finished held ending)
    (blocked : ¬ ∃ after, WorkerStep read state after) :
    ∃ after, consumerStep callback state = some after := by
  apply Option.ne_none_iff_exists'.mp
  intro waiting
  refine blocked (inv.worker_moves positive total ?_ waiting ?_)
  · intro result returned
    obtain ⟨held, ending, finished⟩ := inv.joined result returned
    exact unfinished held ending finished
  · rintro ⟨⟨held, exception, finished⟩, -⟩
    exact unfinished held _ finished

/-- A run that has not returned and has not hung goes on. -/
theorem Inv.progress {prefetch : Nat} {read : Stream → ReadResult → Stream → Prop}
    {callback : Nat → CallbackResult} {state : State Stream} (inv : Inv prefetch state)
    (positive : 0 < prefetch) (total : ∀ stream, ∃ result next, read stream result next)
    (running : ∀ result, state.consumer ≠ .returned result) (alive : ¬ Hung state) :
    ∃ after, Step read callback state after := by
  cases moves : consumerStep callback state with
  | some after => exact ⟨after, .consumer moves⟩
  | none =>
      obtain ⟨after, step⟩ := inv.worker_moves positive total running moves alive
      exact ⟨after, step.step⟩

/-! ## Termination -/

/-- The steps the worker has left before its next read. -/
def Worker.rank : Worker → Nat
  | .sendReady _ => 3
  | .recvFree => 2
  | .settingError _ _ => 2
  | .reading _ => 1
  | .closingReady _ => 1
  | .finished _ _ => 0

/-- The steps the consumer has left before its next batch. -/
def Consumer.rank : Consumer → Nat
  | .calling _ _ => 7
  | .sendFree _ _ => 6
  | .recvReady => 5
  | .closingFree _ => 4
  | .closingReady _ => 3
  | .takingError => 2
  | .joining _ => 1
  | .returned _ => 0

/-- The steps left when at most `limit` reads and `limit` callbacks can happen. -/
def rank (limit : Nat) (state : State Stream) : Nat :=
  3 * (limit - state.log.length) + state.worker.rank +
    (3 * (limit - state.delivered.length) + state.consumer.rank)

/-- Little is left of a round after its read. -/
theorem Worker.afterRead_rank (batch : Batch) (result : ReadResult) :
    (afterRead batch result).rank ≤ 3 := by
  cases result with
  | outcome got =>
      cases got with
      | error error => simp [afterRead, Worker.rank]
      | ok bytes => by_cases empty : bytes = [] <;> simp [afterRead, empty, Worker.rank]
  | thrown exception => simp [afterRead, Worker.rank]

/-- Every step brings the end of the call nearer. -/
theorem rank_lt_of_step {limit : Nat} {read : Stream → ReadResult → Stream → Prop}
    {callback : Nat → CallbackResult} {before after : State Stream}
    (transition : Step read callback before after) (reads : after.log.length ≤ limit)
    (calls : after.delivered.length ≤ limit) : rank limit after < rank limit before := by
  unfold rank
  cases transition with
  | worker moves =>
      cases workerMove_of_step moves with
      | takes point | freeClosed point | setsError point | closes point | sends point
      | readyClosed point =>
          simp only [point, Worker.rank]
          omega
  | @read batch result stream point got =>
      have bounded := Worker.afterRead_rank batch result
      simp only [List.length_append, List.length_singleton] at reads
      simp only [point, Worker.rank, List.length_append, List.length_singleton]
      refine Nat.add_lt_add_right (Nat.lt_of_le_of_lt (Nat.add_le_add_left bounded _) ?_) _
      omega
  | consumer moves =>
      cases consumerMove_of_step moves with
      | receives point =>
          simp only [List.length_append, List.length_singleton] at calls
          simp only [point, Consumer.rank, List.length_append, List.length_singleton]
          omega
      | @givesBack batch keepGoing free point sent =>
          cases keepGoing <;> simp [point, Consumer.rank]
      | drained point | proceeds point | stops point | throws point | freeClosed point
      | closesFree point | closesReady point | rethrows point | takesError point | takesNone point
      | joins point =>
          simp only [point, Consumer.rank]
          omega

/-! ## Streams given by a sequence of results -/

/-- The invariants of a run over a sequence of read results. -/
structure Follows (prefetch : Nat) (sequence : Nat → ReadResult) (state : State Nat) : Prop where
  inv : Inv prefetch state
  budget : Budget prefetch state
  log : state.log = (List.range state.stream).map sequence

/-- Nothing of the sequence has been read. -/
theorem follows_start (prefetch : Nat) (sequence : Nat → ReadResult) :
    Follows prefetch sequence (start prefetch 0) :=
  ⟨inv_start prefetch 0, budget_start prefetch 0, rfl⟩

/-- Every step reads on along the sequence. -/
theorem Follows.step {prefetch : Nat} {sequence : Nat → ReadResult}
    {callback : Nat → CallbackResult} {before after : State Nat}
    (follows : Follows prefetch sequence before)
    (transition : Step (results sequence) callback before after) :
    Follows prefetch sequence after := by
  refine ⟨follows.inv.step transition, follows.budget.step transition, ?_⟩
  have log := follows.log
  cases transition with
  | worker moves => cases workerMove_of_step moves <;> exact log
  | read point got =>
      obtain ⟨rfl, rfl⟩ := got
      rw [log, List.range_succ, List.map_append, List.map_singleton]
  | consumer moves => cases consumerMove_of_step moves <;> exact log

/-- The log is a front of the sequence. -/
theorem Follows.of_reaches {prefetch : Nat} {sequence : Nat → ReadResult}
    {callback : Nat → CallbackResult} {state : State Nat}
    (run : Transition.Reaches (Step (results sequence) callback) (start prefetch 0) state) :
    Follows prefetch sequence state :=
  run.preserves Follows.step (follows_start prefetch sequence)

/-- A sequence has a result for every read. -/
theorem results_total (sequence : Nat → ReadResult) (stream : Nat) :
    ∃ result next, results sequence stream result next := ⟨_, _, rfl, rfl⟩

/-- A read that yields no batch is the last one. -/
theorem Follows.log_le {prefetch last : Nat} {sequence : Nat → ReadResult} {state : State Nat}
    (follows : Follows prefetch sequence state) (ends : (sequence last).batch? = none) :
    state.log.length ≤ last + 1 := by
  by_contra beyond
  have log := follows.log
  have reads : state.log.length = state.stream := by simp [log]
  have member : sequence last ∈ state.log.dropLast := by
    rw [log, List.dropLast_eq_take, List.mem_take_iff_getElem]
    exact ⟨last, by simp; omega, by simp⟩
  have some := follows.inv.allBatches_dropLast _ member
  rw [ends] at some
  cases some

/-- There are no more batches than reads. -/
theorem length_batches_le (log : List ReadResult) : (batches log).length ≤ log.length :=
  List.length_filterMap_le _ _

/-- No more is delivered than was read before the end. -/
theorem Follows.delivered_le {prefetch last : Nat} {sequence : Nat → ReadResult}
    {state : State Nat} (follows : Follows prefetch sequence state)
    (ends : (sequence last).batch? = none) : state.delivered.length ≤ last + 1 :=
  follows.inv.called.length_le.trans
    ((length_batches_le _).trans (follows.log_le ends))

/-- The log of an ended run is the sequence up to its first result that is no batch. -/
theorem Follows.log_eq {prefetch : Nat} {sequence : Nat → ReadResult} {state : State Nat}
    (follows : Follows prefetch sequence state) {goods : List ReadResult} {result : ReadResult}
    (log : state.log = goods ++ [result]) :
    goods = (List.range goods.length).map sequence ∧ sequence goods.length = result := by
  have reads : state.stream = goods.length + 1 := by
    simpa [log] using (congrArg List.length follows.log).symm
  have split := follows.log
  rw [log, reads, List.range_succ, List.map_append, List.map_singleton] at split
  obtain ⟨before, last⟩ := List.append_inj' split rfl
  exact ⟨before, (List.singleton_inj.mp last).symm⟩

/-- A stream that only returns outcomes cannot hang the run. -/
theorem Follows.not_hung {prefetch : Nat} {reads : Nat → Outcome (List Byte)} {state : State Nat}
    (follows : Follows prefetch (fun index => .outcome (reads index)) state) : ¬ Hung state := by
  rintro ⟨⟨held, exception, finished⟩, -⟩
  have explains := follows.inv.explains
  rw [finished] at explains
  obtain ⟨-, goods, -, log⟩ := explains
  cases (follows.log_eq log).2

/-- Under every schedule a run over an ending sequence returns or hangs. -/
theorem inevitable_end {prefetch last : Nat} {sequence : Nat → ReadResult}
    (callback : Nat → CallbackResult) (positive : 0 < prefetch)
    (ends : (sequence last).batch? = none) :
    Transition.Inevitable (Step (results sequence) callback)
      (fun state => (∃ result, state.consumer = .returned result) ∨ Hung state)
      (start prefetch 0) := by
  refine .ofRank wellFounded_lt (rank (last + 1)) Follows.step ?_ ?_
    (follows_start prefetch sequence)
  · intro state follows unfinished
    rw [not_or, not_exists] at unfinished
    exact follows.inv.progress positive (results_total sequence) unfinished.1 unfinished.2
  · intro before after follows _ transition
    have next := follows.step transition
    exact rank_lt_of_step transition (next.log_le ends) (next.delivered_le ends)

end Dsio.Pipeline
