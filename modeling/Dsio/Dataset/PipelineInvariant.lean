import Dsio.Dataset.Pipeline
import Mathlib.Data.List.Perm.Basic

/-!
# What holds at every interleaving of the pipeline

`WorkerMove` and `ConsumerMove` say once what a step of either thread does.
`Inv` is the joint invariant: who has closed which channel, how the worker's
point explains the log, where each buffer is, and which batches are on their way
to the callback. `budget` bounds how far the worker can have read ahead, also
after the consumer has stopped.
-/

namespace Dsio.Pipeline

variable {Stream : Type}

/-- The steps of the worker's task outside `stream.read`. -/
inductive WorkerMove (before : State Stream) : State Stream → Prop where
  | takes {batch free} (point : before.worker = .recvFree)
      (received : before.free.Received free batch) :
      WorkerMove before { before with free, worker := .reading batch }
  | freeClosed (point : before.worker = .recvFree) (closed : before.free.closed = true) :
      WorkerMove before { before with worker := .finished none .stopped }
  | setsError {batch error} (point : before.worker = .settingError batch error) :
      WorkerMove before
        { before with error := setError before.error error, worker := .closingReady batch }
  | closes {batch} (point : before.worker = .closingReady batch) :
      WorkerMove before
        { before with ready := before.ready.close, worker := .finished (some batch) .returned }
  | sends {batch ready} (point : before.worker = .sendReady batch)
      (sent : before.ready.Sent ready batch) :
      WorkerMove before { before with ready, worker := .recvFree }
  | readyClosed {batch} (point : before.worker = .sendReady batch)
      (closed : before.ready.closed = true) :
      WorkerMove before { before with worker := .finished (some batch) .stopped }

/-- What a step of the worker can do. -/
theorem workerMove_of_step {before after : State Stream} (moves : workerStep before = some after) :
    WorkerMove before after := by
  unfold workerStep at moves
  split at moves
  · next point =>
    split at moves
    · cases moves
    · next thrown =>
      cases moves
      exact .freeClosed point (Channel.recv_eq_thrown_iff.mp thrown).1
    · next received =>
      cases moves
      exact .takes point (Channel.received_of_recv received)
  · cases moves
  · next point =>
    cases moves
    exact .setsError point
  · next point =>
    cases moves
    exact .closes point
  · next point =>
    split at moves
    · cases moves
    · next thrown =>
      cases moves
      exact .readyClosed point (Channel.send_eq_thrown_iff.mp thrown)
    · next sent =>
      cases moves
      exact .sends point (Channel.sent_of_send sent)
  · cases moves

/-- The steps of the consumer. -/
inductive ConsumerMove (callback : Nat → CallbackResult) (before : State Stream) :
    State Stream → Prop where
  | receives {batch ready} (point : before.consumer = .recvReady)
      (received : before.ready.Received ready batch) :
      ConsumerMove callback before
        { before with
          ready
          consumer := .calling before.delivered.length batch
          delivered := before.delivered ++ [batch.bytes] }
  | drained (point : before.consumer = .recvReady) (closed : before.ready.closed = true)
      (nothing : before.ready.items = []) :
      ConsumerMove callback before { before with consumer := .closingFree .loopEnded }
  | proceeds {call batch} (point : before.consumer = .calling call batch)
      (result : callback call = .proceed) :
      ConsumerMove callback before { before with consumer := .sendFree batch true }
  | stops {call batch} (point : before.consumer = .calling call batch)
      (result : callback call = .stop) :
      ConsumerMove callback before { before with consumer := .sendFree batch false }
  | throws {call batch} (point : before.consumer = .calling call batch)
      (result : callback call = .throws) :
      ConsumerMove callback before { before with consumer := .closingFree .unwinding }
  | givesBack {batch keepGoing free} (point : before.consumer = .sendFree batch keepGoing)
      (sent : before.free.Sent free batch) :
      ConsumerMove callback before
        { before with
          free, consumer := if keepGoing then .recvReady else .closingFree .loopEnded }
  | freeClosed {batch keepGoing} (point : before.consumer = .sendFree batch keepGoing)
      (closed : before.free.closed = true) :
      ConsumerMove callback before { before with consumer := .closingFree .unwinding }
  | closesFree {exit} (point : before.consumer = .closingFree exit) :
      ConsumerMove callback before
        { before with free := before.free.close, consumer := .closingReady exit }
  | closesReady (point : before.consumer = .closingReady .loopEnded) :
      ConsumerMove callback before
        { before with ready := before.ready.close, consumer := .takingError }
  | rethrows (point : before.consumer = .closingReady .unwinding) :
      ConsumerMove callback before
        { before with ready := before.ready.close, consumer := .joining .rethrown }
  | takesError {error} (point : before.consumer = .takingError) (set : before.error = some error) :
      ConsumerMove callback before { before with consumer := .joining (.err error) }
  | takesNone (point : before.consumer = .takingError) (unset : before.error = none) :
      ConsumerMove callback before { before with consumer := .joining .ok }
  | joins {result held ending} (point : before.consumer = .joining result)
      (finished : before.worker = .finished held ending) :
      ConsumerMove callback before { before with consumer := .returned result }

/-- What a step of the consumer can do. -/
theorem consumerMove_of_step {callback : Nat → CallbackResult} {before after : State Stream}
    (moves : consumerStep callback before = some after) :
    ConsumerMove callback before after := by
  unfold consumerStep at moves
  split at moves
  · next point =>
    split at moves
    · cases moves
    · next thrown =>
      cases moves
      have closed := Channel.recv_eq_thrown_iff.mp thrown
      exact .drained point closed.1 closed.2
    · next received =>
      cases moves
      exact .receives point (Channel.received_of_recv received)
  · next point =>
    split at moves
    · next result =>
      cases moves
      exact .proceeds point result
    · next result =>
      cases moves
      exact .stops point result
    · next result =>
      cases moves
      exact .throws point result
  · next point =>
    split at moves
    · cases moves
    · next thrown =>
      cases moves
      exact .freeClosed point (Channel.send_eq_thrown_iff.mp thrown)
    · next sent =>
      cases moves
      exact .givesBack point (Channel.sent_of_send sent)
  · next point =>
    cases moves
    exact .closesFree point
  · next point =>
    cases moves
    exact .closesReady point
  · next point =>
    cases moves
    exact .rethrows point
  · next point =>
    split at moves
    · next set =>
      cases moves
      exact .takesError point set
    · next unset =>
      cases moves
      exact .takesNone point unset
  · next point =>
    split at moves
    · next finished =>
      cases moves
      exact .joins point finished
    · cases moves
  · cases moves

/-! ## The log and the worker's point -/

/-- The batch a read produced, if it produced one. -/
def ReadResult.batch? : ReadResult → Option (List Byte)
  | .outcome (.ok bytes) => if bytes = [] then none else some bytes
  | _ => none

/-- The non-empty batches of a log, in order. -/
def batches (log : List ReadResult) : List (List Byte) := log.filterMap ReadResult.batch?

/-- Every read so far produced a batch. -/
def AllBatches (log : List ReadResult) : Prop := ∀ result ∈ log, result.batch?.isSome

@[simp] theorem batches_append (left right : List ReadResult) :
    batches (left ++ right) = batches left ++ batches right := List.filterMap_append

@[simp] theorem batches_singleton_ok {bytes : List Byte} (filled : bytes ≠ []) :
    batches [.outcome (.ok bytes)] = [bytes] := by
  simp [batches, ReadResult.batch?, filled]

@[simp] theorem batches_singleton_end : batches [.outcome (.ok [])] = [] := rfl

@[simp] theorem batches_singleton_error (error : Error) :
    batches [.outcome (.error error)] = [] := rfl

@[simp] theorem batches_singleton_thrown (exception : Exception) :
    batches [.thrown exception] = [] := rfl

/-- One more read with bytes gives one more batch. -/
theorem AllBatches.append {log : List ReadResult} (all : AllBatches log) {bytes : List Byte}
    (filled : bytes ≠ []) : AllBatches (log ++ [.outcome (.ok bytes)]) := by
  intro result member
  rcases List.mem_append.mp member with old | new
  · exact all result old
  · rw [List.mem_singleton.mp new]
    simp [ReadResult.batch?, filled]

/-- A log of batches is its batches. -/
theorem AllBatches.map_batches {log : List ReadResult} (all : AllBatches log) :
    (batches log).map (fun bytes => .outcome (.ok bytes)) = log := by
  induction log with
  | nil => rfl
  | cons result rest ih =>
      have head : result.batch?.isSome := all result List.mem_cons_self
      have tail := ih fun other member => all other (List.mem_cons_of_mem _ member)
      have shape : ∃ bytes, result.batch? = some bytes ∧ result = .outcome (.ok bytes) := by
        unfold ReadResult.batch? at head ⊢
        split at head
        · split at head
          · cases head
          · next filled => exact ⟨_, if_neg filled, rfl⟩
        · cases head
      obtain ⟨bytes, found, rfl⟩ := shape
      simpa [batches, List.filterMap_cons, found] using tail

/-- Each read of such a log gave a batch. -/
theorem AllBatches.length_batches {log : List ReadResult} (all : AllBatches log) :
    (batches log).length = log.length := by
  simpa using congrArg List.length all.map_batches

/-- The log of a stream that ended or failed, with the error the worker shared. -/
inductive Ended : List ReadResult → Option Error → Prop where
  | endOfStream {log} (all : AllBatches log) : Ended (log ++ [.outcome (.ok [])]) none
  | failed {log error} (all : AllBatches log) :
      Ended (log ++ [.outcome (.error error)]) (some error)

/-- The log of an ended stream is batches up to the read that ended it. -/
theorem Ended.split {log : List ReadResult} {failure : Option Error} (ended : Ended log failure) :
    ∃ goods got, AllBatches goods ∧ log = goods ++ [.outcome got] ∧
      (ReadResult.outcome got).batch? = none ∧
      (got = .ok [] ∧ failure = none ∨ ∃ error, got = .error error ∧ failure = some error) := by
  cases ended with
  | endOfStream all => exact ⟨_, _, all, rfl, rfl, .inl ⟨rfl, rfl⟩⟩
  | failed all => exact ⟨_, _, all, rfl, rfl, .inr ⟨_, rfl, rfl⟩⟩

/-- The shared error is the one the log ends with. -/
theorem Ended.error_iff {log : List ReadResult} {failure : Option Error}
    (ended : Ended log failure) (error : Error) :
    failure = some error ↔ .outcome (.error error) ∈ log := by
  have good {goods : List ReadResult} (all : AllBatches goods) :
      ReadResult.outcome (.error error) ∉ goods := by
    intro member
    simpa [ReadResult.batch?] using all _ member
  cases ended with
  | endOfStream all => simp [good all]
  | failed all => simp [good all, eq_comm]

/-- How the worker's point explains the log and the shared error. -/
def Worker.Explains : Worker → List ReadResult → Option Error → Prop
  | .recvFree, log, error => AllBatches log ∧ error = none
  | .reading _, log, error => AllBatches log ∧ error = none
  | .settingError _ failure, log, error =>
      error = none ∧ ∃ before, AllBatches before ∧ log = before ++ [.outcome (.error failure)]
  | .closingReady _, log, error => Ended log error
  | .sendReady _, log, error => AllBatches log ∧ error = none
  | .finished _ .returned, log, error => Ended log error
  | .finished _ .stopped, log, error => AllBatches log ∧ error = none
  | .finished _ (.threw exception), log, error =>
      error = none ∧ ∃ before, AllBatches before ∧ log = before ++ [.thrown exception]

/-- The batch the worker's frame owns. -/
def Worker.batch? : Worker → Option Batch
  | .recvFree => none
  | .reading batch => some batch
  | .settingError batch _ => some batch
  | .closingReady batch => some batch
  | .sendReady batch => some batch
  | .finished held _ => held

/-- What the worker has read and not yet sent. -/
def Worker.unsent : Worker → List (List Byte)
  | .sendReady batch => [batch.bytes]
  | _ => []

/-- The worker has closed `ready`. -/
def Worker.closedReady : Worker → Bool
  | .finished _ .returned => true
  | _ => false

/-- `ready` was closed by a worker that returned. -/
theorem Worker.closedReady_iff {worker : Worker} :
    worker.closedReady = true ↔ ∃ held, worker = .finished held .returned := by
  cases worker with
  | finished held ending => cases ending <;> simp [Worker.closedReady]
  | recvFree | reading | settingError | closingReady | sendReady => simp [Worker.closedReady]

/-- The worker is inside `stream.read`. -/
def Worker.inRead : Worker → Nat
  | .reading _ => 1
  | _ => 0

/-- The batch the consumer's frame owns. -/
def Consumer.batch? : Consumer → Option Batch
  | .calling _ batch => some batch
  | .sendFree batch _ => some batch
  | _ => none

/-- The consumer has closed `free`. -/
def Consumer.closedFree : Consumer → Bool
  | .closingReady _ | .takingError | .joining _ | .returned _ => true
  | _ => false

/-- The consumer has closed `ready`. -/
def Consumer.closedReady : Consumer → Bool
  | .takingError | .joining _ | .returned _ => true
  | _ => false

/-- The consumer closes `free` first. -/
theorem Consumer.closedFree_of_closedReady {consumer : Consumer}
    (closed : consumer.closedReady = true) : consumer.closedFree = true := by
  cases consumer <;> first | rfl | cases closed

/-- The consumer has left its loop. -/
def Consumer.exited : Consumer → Bool
  | .recvReady | .calling _ _ | .sendFree _ _ => false
  | _ => true

/-- An exception is on its way out of `for_each_batch`. -/
def Consumer.unwound : Consumer → Bool
  | .closingFree .unwinding | .closingReady .unwinding => true
  | .joining .rethrown | .returned .rethrown => true
  | _ => false

/-- The buffers in their four places: both channels, the worker and the consumer. -/
def State.buffers (state : State Stream) : List Nat :=
  state.free.items.map Batch.buffer ++ state.ready.items.map Batch.buffer ++
    state.worker.batch?.toList.map Batch.buffer ++ state.consumer.batch?.toList.map Batch.buffer

/-- What the worker has read and the callback has not been called with. -/
def State.inTransit (state : State Stream) : List (List Byte) :=
  state.ready.items.map Batch.bytes ++ state.worker.unsent

/-- The joint invariant of `free`, `ready`, the shared error and both threads. -/
structure Inv (prefetch : Nat) (state : State Stream) : Prop where
  freeCapacity : state.free.capacity = prefetch + 1
  readyCapacity : state.ready.capacity = prefetch
  explains : state.worker.Explains state.log state.error
  freeClosed : state.free.closed = state.consumer.closedFree
  readyClosed : state.ready.closed = (state.consumer.closedReady || state.worker.closedReady)
  stopped : ∀ held, state.worker = .finished held .stopped → state.consumer.closedFree = true
  /-- Until an exception destroys the consumer's batch, no buffer is lost. -/
  partition : state.consumer.unwound = false →
    state.buffers.Perm (List.range (prefetch + 1))
  /-- Until the consumer closes `ready`, no batch is lost. -/
  flow : state.consumer.closedReady = false →
    state.delivered ++ state.inTransit = batches state.log
  called : state.delivered <+: batches state.log
  current : ∀ call batch, state.consumer = .calling call batch →
    call + 1 = state.delivered.length
  joined : ∀ result, state.consumer = .returned result →
    ∃ held ending, state.worker = .finished held ending

/-- The invariant holds when the worker starts. -/
theorem inv_start (prefetch : Nat) (stream : Stream) : Inv prefetch (start prefetch stream) where
  freeCapacity := rfl
  readyCapacity := rfl
  explains := ⟨by simp [AllBatches, start], rfl⟩
  freeClosed := rfl
  readyClosed := rfl
  stopped := by simp [start]
  partition := by simp [start, State.buffers, Worker.batch?, Consumer.batch?, Function.comp_def]
  flow := by simp [start, State.inTransit, Worker.unsent, batches]
  called := List.nil_prefix
  current := by simp [start]
  joined := by simp [start]

/-- A step of the worker outside `stream.read` only moves buffers around. -/
theorem WorkerMove.buffers_perm {before after : State Stream} (move : WorkerMove before after) :
    after.buffers.Perm before.buffers := by
  rw [List.perm_iff_count]
  intro buffer
  cases move with
  | takes point received =>
      simp [State.buffers, point, received.items, Worker.batch?, List.count_cons]
      omega
  | sends point sent =>
      simp [State.buffers, point, sent.items, Worker.batch?]
  | freeClosed point | setsError point | closes point | readyClosed point =>
      simp [State.buffers, point, Worker.batch?]

/-- A read keeps its batch. -/
theorem Worker.afterRead_batch? (batch : Batch) (result : ReadResult) :
    (afterRead batch result).batch?.toList.map Batch.buffer = [batch.buffer] := by
  cases result with
  | outcome got =>
      cases got with
      | error error => rfl
      | ok bytes => by_cases empty : bytes = [] <;> simp [afterRead, empty, Worker.batch?]
  | thrown exception => rfl

/-- The consumer's steps move buffers around until an exception unwinds its frame. -/
theorem ConsumerMove.buffers_perm {callback : Nat → CallbackResult} {before after : State Stream}
    (move : ConsumerMove callback before after) (kept : after.consumer.unwound = false) :
    after.buffers.Perm before.buffers := by
  rw [List.perm_iff_count]
  intro buffer
  cases move with
  | receives point received =>
      simp [State.buffers, point, received.items, Consumer.batch?, List.count_cons]
      omega
  | @givesBack batch keepGoing free point sent =>
      cases keepGoing <;>
        simp [State.buffers, point, sent.items, Consumer.batch?, List.count_cons] <;> omega
  | throws | freeClosed => simp [Consumer.unwound] at kept
  | drained point | proceeds point | stops point | closesFree point | closesReady point
  | rethrows point | takesError point | takesNone point | joins point =>
      simp [State.buffers, point, Consumer.batch?]

/-- Before the consumer closes `ready`, only a worker that has finished has. -/
theorem Inv.ready_open {prefetch : Nat} {state : State Stream} (inv : Inv prefetch state)
    (consumer : state.consumer.closedReady = false) (worker : state.worker.closedReady = false) :
    state.ready.closed = false := by
  rw [inv.readyClosed, consumer, worker]
  rfl

/-- A step of the worker keeps the invariant. -/
theorem Inv.worker {prefetch : Nat} {before after : State Stream} (inv : Inv prefetch before)
    (move : WorkerMove before after) : Inv prefetch after where
  freeCapacity := by
    cases move with
    | takes _ received => exact received.capacity.trans inv.freeCapacity
    | _ => exact inv.freeCapacity
  readyCapacity := by
    cases move with
    | sends _ sent => exact sent.capacity.trans inv.readyCapacity
    | _ => exact inv.readyCapacity
  explains := by
    have explains := inv.explains
    cases move with
    | takes point | sends point | freeClosed point | closes point | readyClosed point =>
        rw [point] at explains
        exact explains
    | setsError point =>
        rw [point] at explains
        obtain ⟨unset, goods, all, log⟩ := explains
        simp only [unset, log, setError]
        exact .failed all
  freeClosed := by
    cases move with
    | takes _ received => exact received.closed.trans inv.freeClosed
    | _ => exact inv.freeClosed
  readyClosed := by
    have closed := inv.readyClosed
    cases move with
    | takes point | freeClosed point | setsError point | readyClosed point =>
        simpa [point, Worker.closedReady] using closed
    | closes point => simp [Worker.closedReady]
    | sends point sent =>
        simpa [point, Worker.closedReady, sent.closed, sent.wasOpen] using closed
  stopped := by
    intro held finished
    cases move with
    | freeClosed _ closed => exact inv.freeClosed.symm.trans closed
    | @readyClosed batch point closed =>
        -- only the consumer can have closed `ready` under a worker still sending
        have byConsumer := inv.readyClosed
        simp only [point, closed, Worker.closedReady, Bool.or_false] at byConsumer
        exact Consumer.closedFree_of_closedReady byConsumer.symm
    | takes | setsError | closes | sends => cases finished
  partition := by
    intro kept
    have same : after.consumer = before.consumer := by cases move <;> rfl
    exact move.buffers_perm.trans (inv.partition (same ▸ kept))
  flow := by
    intro consumerOpen
    have flow : before.consumer.closedReady = false → _ := inv.flow
    cases move with
    | takes point | freeClosed point | setsError point | closes point =>
        simpa [State.inTransit, point, Worker.unsent] using flow consumerOpen
    | sends point sent =>
        simpa [State.inTransit, point, Worker.unsent, sent.items] using flow consumerOpen
    | readyClosed point closed =>
        have stillOpen := inv.ready_open consumerOpen (by simp [point, Worker.closedReady])
        rw [closed] at stillOpen
        cases stillOpen
  called := by cases move <;> exact inv.called
  current := by cases move <;> exact inv.current
  joined := by
    intro result returned
    cases move with
    | takes point | freeClosed point | setsError point | closes point | sends point
    | readyClosed point =>
        obtain ⟨held, ending, finished⟩ := inv.joined result returned
        rw [point] at finished
        cases finished

/-- The worker's point after a read agrees with the log. -/
theorem Worker.afterRead_explains {log : List ReadResult} (all : AllBatches log) (batch : Batch)
    (result : ReadResult) : (afterRead batch result).Explains (log ++ [result]) none := by
  cases result with
  | outcome got =>
      cases got with
      | error error => exact ⟨rfl, log, all, rfl⟩
      | ok bytes =>
          by_cases empty : bytes = []
          · simp only [afterRead, empty, if_true]
            exact .endOfStream all
          · simp only [afterRead, empty, if_false]
            exact ⟨all.append empty, rfl⟩
  | thrown exception => exact ⟨rfl, log, all, rfl⟩

/-- What a read gave is yet to be sent. -/
theorem Worker.afterRead_unsent (batch : Batch) (result : ReadResult) :
    (afterRead batch result).unsent = batches [result] := by
  cases result with
  | outcome got =>
      cases got with
      | error error => rfl
      | ok bytes => by_cases empty : bytes = [] <;> simp [afterRead, empty, Worker.unsent]
  | thrown exception => rfl

/-- A read closes nothing. -/
theorem Worker.afterRead_open (batch : Batch) (result : ReadResult) :
    (afterRead batch result).closedReady = false ∧
      ∀ held, afterRead batch result ≠ .finished held .stopped := by
  cases result with
  | outcome got =>
      cases got with
      | error error => simp [afterRead, Worker.closedReady]
      | ok bytes => by_cases empty : bytes = [] <;> simp [afterRead, empty, Worker.closedReady]
  | thrown exception => simp [afterRead, Worker.closedReady]

/-- A read of the stream keeps the invariant. -/
theorem Inv.read {prefetch : Nat} {before : State Stream} (inv : Inv prefetch before)
    {batch : Batch} (point : before.worker = .reading batch) (result : ReadResult)
    (stream : Stream) :
    Inv prefetch { before with
      stream, worker := afterRead batch result, log := before.log ++ [result] } where
  freeCapacity := inv.freeCapacity
  readyCapacity := inv.readyCapacity
  explains := by
    have explains := inv.explains
    rw [point] at explains
    simpa [explains.2] using Worker.afterRead_explains explains.1 batch result
  freeClosed := inv.freeClosed
  readyClosed := by
    have closed := inv.readyClosed
    have reading : (Worker.reading batch).closedReady = false := rfl
    rw [point, reading] at closed
    rw [(Worker.afterRead_open batch result).1]
    exact closed
  stopped := fun held finished => absurd finished ((Worker.afterRead_open batch result).2 held)
  partition := by
    intro kept
    have partition := inv.partition kept
    rw [State.buffers, point] at partition
    rw [State.buffers, Worker.afterRead_batch?]
    exact partition
  flow := by
    intro consumerOpen
    have flow := inv.flow consumerOpen
    simp only [State.inTransit, point, Worker.unsent, List.append_nil] at flow
    simp only [State.inTransit, Worker.afterRead_unsent, batches_append, ← flow, List.append_assoc]
  called := by
    rw [batches_append]
    exact inv.called.trans (List.prefix_append _ _)
  current := inv.current
  joined := by
    intro result returned
    obtain ⟨held, ending, finished⟩ := inv.joined result returned
    rw [point] at finished
    cases finished

/-- A step of the consumer keeps the invariant. -/
theorem Inv.consumer {prefetch : Nat} {callback : Nat → CallbackResult}
    {before after : State Stream} (inv : Inv prefetch before)
    (move : ConsumerMove callback before after) : Inv prefetch after where
  freeCapacity := by
    cases move with
    | givesBack _ sent => exact sent.capacity.trans inv.freeCapacity
    | _ => exact inv.freeCapacity
  readyCapacity := by
    cases move with
    | receives _ received => exact received.capacity.trans inv.readyCapacity
    | _ => exact inv.readyCapacity
  explains := by cases move <;> exact inv.explains
  freeClosed := by
    have closed := inv.freeClosed
    cases move with
    | @givesBack batch keepGoing free point sent =>
        cases keepGoing <;> simpa [Consumer.closedFree] using sent.closed
    | receives point | drained point | proceeds point | stops point | throws point
    | freeClosed point | closesReady point | rethrows point | takesError point | takesNone point
    | joins point => simpa [point, Consumer.closedFree] using closed
    | closesFree point => simp [Consumer.closedFree]
  readyClosed := by
    have closed := inv.readyClosed
    cases move with
    | receives point received =>
        simpa [point, Consumer.closedReady, received.closed] using closed
    | @givesBack batch keepGoing free point sent =>
        cases keepGoing <;> simpa [point, Consumer.closedReady] using closed
    | drained point | proceeds point | stops point | throws point | freeClosed point
    | closesFree point | takesError point | takesNone point | joins point =>
        simpa [point, Consumer.closedReady] using closed
    | closesReady point | rethrows point => simp [Consumer.closedReady]
  stopped := by
    intro held finished
    cases move with
    | receives point | drained point | proceeds point | stops point | throws point
    | freeClosed point | givesBack point =>
        have impossible := inv.stopped held finished
        simp [point, Consumer.closedFree] at impossible
    | closesFree | closesReady | rethrows | takesError | takesNone | joins => rfl
  partition := by
    intro kept
    refine (move.buffers_perm kept).trans (inv.partition ?_)
    cases move with
    | @closesFree exit point => cases exit <;> simp_all [Consumer.unwound]
    | @joins result held ending point => cases result <;> simp_all [Consumer.unwound]
    | receives point | drained point | proceeds point | stops point | throws point
    | freeClosed point | givesBack point | closesReady point | rethrows point | takesError point
    | takesNone point => simp_all [Consumer.unwound]
  flow := by
    intro consumerOpen
    have flow : before.consumer.closedReady = false → _ := inv.flow
    cases move with
    | receives point received =>
        have flow := flow (by simp [point, Consumer.closedReady])
        simpa [State.inTransit, received.items] using flow
    | drained point | proceeds point | stops point | throws point | freeClosed point
    | givesBack point | closesFree point =>
        exact flow (by simp [point, Consumer.closedReady])
    | closesReady | rethrows | takesError | takesNone | joins => cases consumerOpen
  called := by
    cases move with
    | receives point received =>
        have flow := inv.flow (by simp [point, Consumer.closedReady])
        simp only [State.inTransit, received.items] at flow
        exact ⟨_, by simpa using flow⟩
    | _ => exact inv.called
  current := by
    intro call batch calling
    cases move with
    | receives => cases calling; simp
    | @givesBack batch keepGoing free point sent => cases keepGoing <;> cases calling
    | _ => cases calling
  joined := by
    intro result returned
    cases move with
    | joins point finished => exact ⟨_, _, finished⟩
    | @givesBack batch keepGoing free point sent => cases keepGoing <;> cases returned
    | _ => cases returned

/-- Every interleaving keeps the invariant. -/
theorem Inv.step {prefetch : Nat} {read : Stream → ReadResult → Stream → Prop}
    {callback : Nat → CallbackResult} {before after : State Stream} (inv : Inv prefetch before)
    (transition : Step read callback before after) : Inv prefetch after := by
  cases transition with
  | worker moves => exact inv.worker (workerMove_of_step moves)
  | read point => exact inv.read point _ _
  | consumer moves => exact inv.consumer (consumerMove_of_step moves)

/-- The invariant holds in every state of a call. -/
theorem Inv.of_reaches {prefetch : Nat} {read : Stream → ReadResult → Stream → Prop}
    {callback : Nat → CallbackResult} {stream : Stream} {state : State Stream}
    (run : Transition.Reaches (Step read callback) (start prefetch stream) state) :
    Inv prefetch state :=
  run.preserves Inv.step (inv_start prefetch stream)

/-- The partition, counted. -/
theorem Inv.length_buffers {prefetch : Nat} {state : State Stream} (inv : Inv prefetch state)
    (kept : state.consumer.unwound = false) :
    state.free.items.length + state.ready.items.length + state.worker.batch?.toList.length +
      state.consumer.batch?.toList.length = prefetch + 1 := by
  simpa [State.buffers, Nat.add_assoc] using (inv.partition kept).length_eq

/-- Giving a batch back never blocks: the consumer's own batch is the room. -/
theorem Inv.sendFree_room {prefetch : Nat} {state : State Stream} (inv : Inv prefetch state)
    {batch : Batch} {keepGoing : Bool} (point : state.consumer = .sendFree batch keepGoing) :
    state.free.send batch ≠ .blocked := by
  intro blocked
  have full := (Channel.send_eq_blocked_iff.mp blocked).2
  have count := inv.length_buffers (by simp [point, Consumer.unwound])
  simp only [point, Consumer.batch?, Option.toList_some, List.length_singleton] at count
  have capacity := inv.freeCapacity
  omega

/-- The buffer the callback looks at is not the one being filled. -/
theorem Inv.reading_ne_calling {prefetch : Nat} {state : State Stream} (inv : Inv prefetch state)
    {filled shown : Batch} {call : Nat} (reading : state.worker = .reading filled)
    (calling : state.consumer = .calling call shown) : filled.buffer ≠ shown.buffer := by
  have distinct : state.buffers.Nodup :=
    (inv.partition (by simp [calling, Consumer.unwound])).nodup_iff.mpr List.nodup_range
  intro same
  simp [State.buffers, reading, calling, Worker.batch?, Consumer.batch?, same,
    List.nodup_append] at distinct

/-- A consumer that finds `ready` closed and drained has been handed every batch of a worker
that is done. -/
theorem Inv.drained {prefetch : Nat} {state : State Stream} (inv : Inv prefetch state)
    (point : state.consumer = .recvReady) (closed : state.ready.closed = true)
    (nothing : state.ready.items = []) :
    (∃ held, state.worker = .finished held .returned) ∧ state.delivered = batches state.log := by
  have byWorker := inv.readyClosed
  simp only [point, closed, Consumer.closedReady, Bool.false_or] at byWorker
  obtain ⟨held, finished⟩ := Worker.closedReady_iff.mp byWorker.symm
  have flow := inv.flow (by simp [point, Consumer.closedReady])
  simp only [State.inTransit, nothing, finished, Worker.unsent, List.map_nil,
    List.append_nil] at flow
  exact ⟨⟨held, finished⟩, flow⟩

/-- Only the last read can have ended the stream. -/
theorem Inv.allBatches_dropLast {prefetch : Nat} {state : State Stream} (inv : Inv prefetch state) :
    AllBatches state.log.dropLast := by
  have explains := inv.explains
  have whole : AllBatches state.log → AllBatches state.log.dropLast :=
    fun all result member => all result (List.dropLast_subset _ member)
  have ended : ∀ {log error}, Ended log error → AllBatches log.dropLast := by
    intro log error ended
    cases ended with
    | endOfStream all | failed all => simpa using all
  cases worker : state.worker with
  | recvFree | reading | sendReady =>
      rw [worker] at explains
      exact whole explains.1
  | settingError =>
      rw [worker] at explains
      obtain ⟨-, goods, all, log⟩ := explains
      simpa [log] using all
  | closingReady =>
      rw [worker] at explains
      exact ended explains
  | finished held ending =>
      rw [worker] at explains
      cases ending with
      | returned => exact ended explains
      | stopped => exact whole explains.1
      | threw =>
          obtain ⟨-, goods, all, log⟩ := explains
          simpa [log] using all

/-- How far the worker can have read ahead: each read takes a buffer, and there
are `prefetch + 1` and those the consumer has given back. -/
def Budget (prefetch : Nat) (state : State Stream) : Prop :=
  state.log.length + state.free.items.length + state.worker.inRead +
    state.consumer.batch?.toList.length ≤ state.delivered.length + prefetch + 1

/-- Nothing is read ahead when the worker starts. -/
theorem budget_start (prefetch : Nat) (stream : Stream) :
    Budget prefetch (start prefetch stream) := by
  simp [Budget, start, Worker.inRead, Consumer.batch?]

/-- The worker is out of `read` after a read. -/
theorem Worker.afterRead_inRead (batch : Batch) (result : ReadResult) :
    (afterRead batch result).inRead = 0 := by
  cases result with
  | outcome got =>
      cases got with
      | error error => rfl
      | ok bytes => by_cases empty : bytes = [] <;> simp [afterRead, empty, Worker.inRead]
  | thrown exception => rfl

/-- Every step stays within the batches there are. -/
theorem Budget.step {prefetch : Nat} {read : Stream → ReadResult → Stream → Prop}
    {callback : Nat → CallbackResult} {before after : State Stream}
    (budget : Budget prefetch before) (transition : Step read callback before after) :
    Budget prefetch after := by
  unfold Budget at budget ⊢
  cases transition with
  | worker moves =>
      cases workerMove_of_step moves with
      | takes point received =>
          simp only [point, received.items, Worker.inRead, List.length_cons] at budget ⊢
          omega
      | freeClosed point | setsError point | closes point | sends point | readyClosed point =>
          simpa [point, Worker.inRead] using budget
  | read point =>
      rw [Worker.afterRead_inRead]
      simp only [point, Worker.inRead, List.length_append, List.length_singleton] at budget ⊢
      omega
  | consumer moves =>
      cases consumerMove_of_step moves with
      | receives point =>
          simp [point, Consumer.batch?] at budget ⊢
          omega
      | @givesBack batch keepGoing free point sent =>
          cases keepGoing <;> simp [point, sent.items, Consumer.batch?] at budget ⊢ <;> omega
      | drained point | proceeds point | stops point | throws point | freeClosed point
      | closesFree point | closesReady point | rethrows point | takesError point | takesNone point
      | joins point =>
          simp only [point, Consumer.batch?, Option.toList_some, Option.toList_none,
            List.length_singleton, List.length_nil, Channel.close_items] at budget ⊢
          omega

end Dsio.Pipeline
