import Dsio.Library.Channel
import Dsio.Library.Transition
import Dsio.Outcome

/-!
# The prefetch pipeline of `for_each_batch`

One worker fills batch buffers from the stream while the consumer hands them to
the callback. The two share the channels `free` and `ready` and a `SharedError`.
Each thread is a step function over its program points; a point is a place where
the other thread can run in between. `Step` interleaves the two and takes what
`stream.read` does from a relation, so the pipeline is stated for every stream.

`start` is what the set-up of the channels comes to where `prefetch + 1` does not
wrap; `PipelineSetup` has its steps.
-/

namespace Dsio.Pipeline

/-- `struct Batch`: which of the allocated vectors it holds, and the first `size`
bytes of that vector. -/
structure Batch where
  buffer : Nat
  bytes : List Byte := []
deriving DecidableEq, Repr

/-- What one call of `stream.read(batch.bytes)` does. -/
inductive ReadResult where
  | outcome (got : Outcome (List Byte))
  | thrown (exception : Exception)
deriving DecidableEq

/-- What one call of the callback does. -/
inductive CallbackResult where
  | proceed
  | stop
  | throws
deriving DecidableEq, Repr

/-- How the worker's task ended. -/
inductive Ending where
  /-- After `ready.close()`, at the end of the stream or after an error. -/
  | returned
  /-- A channel threw and the catch clause took it: the consumer stopped. -/
  | stopped
  /-- `stream.read` threw. The catch clause takes a `runtime_error` too; anything
  else is stored in the task's future. -/
  | threw (exception : Exception)
deriving DecidableEq, Repr

/-- Program points of the worker's task. `finished` keeps the batch its frame
still owned, which is destroyed with the frame. -/
inductive Worker where
  | recvFree
  | reading (batch : Batch)
  | settingError (batch : Batch) (error : Error)
  | closingReady (batch : Batch)
  | sendReady (batch : Batch)
  | finished (held : Option Batch) (ending : Ending)
deriving DecidableEq

/-- Why the consumer leaves its loop. -/
inductive Exit where
  | loopEnded
  | unwinding
deriving DecidableEq, Repr

/-- How `for_each_batch` ends. -/
inductive Result where
  | ok
  | err (error : Error)
  | rethrown
deriving DecidableEq, Repr

/-- Program points of the consumer, the thread that called `for_each_batch`. -/
inductive Consumer where
  | recvReady
  | calling (call : Nat) (batch : Batch)
  | sendFree (batch : Batch) (keepGoing : Bool)
  | closingFree (exit : Exit)
  | closingReady (exit : Exit)
  | takingError
  | joining (result : Result)
  | returned (result : Result)
deriving DecidableEq

/-- The state the two threads share. `log` and `delivered` are history: the
results of `stream.read` so far, and the spans the callback was called with. -/
structure State (Stream : Type) where
  stream : Stream
  free : Channel Batch
  ready : Channel Batch
  error : Option Error
  worker : Worker
  consumer : Consumer
  log : List ReadResult
  delivered : List (List Byte)

section Model

variable {Stream : Type}

/-- Both threads at their first statements, with every batch free. -/
def start (prefetch : Nat) (stream : Stream) : State Stream where
  stream := stream
  free := ⟨prefetch + 1, (List.range (prefetch + 1)).map fun buffer => { buffer }, false, by simp⟩
  ready := .empty prefetch
  error := none
  worker := .recvFree
  consumer := .recvReady
  log := []
  delivered := []

/-- `SharedError::set` keeps the first error. -/
def setError (current : Option Error) (error : Error) : Option Error :=
  match current with
  | none => some error
  | some first => some first

/-- Where the task goes once `stream.read` has returned or thrown. -/
def afterRead (batch : Batch) : ReadResult → Worker
  | .outcome (.error error) => .settingError batch error
  | .outcome (.ok bytes) =>
      if bytes = [] then .closingReady batch else .sendReady { batch with bytes }
  | .thrown exception => .finished (some batch) (.threw exception)

/-- One step of the worker's task, outside `stream.read`. -/
def workerStep (state : State Stream) : Option (State Stream) :=
  match state.worker with
  | .recvFree =>
      match state.free.recv with
      | .blocked => none
      | .thrown => some { state with worker := .finished none .stopped }
      | .done (batch, free) => some { state with free, worker := .reading batch }
  | .reading _ => none
  | .settingError batch error =>
      some { state with error := setError state.error error, worker := .closingReady batch }
  | .closingReady batch =>
      some { state with ready := state.ready.close, worker := .finished (some batch) .returned }
  | .sendReady batch =>
      match state.ready.send batch with
      | .blocked => none
      | .thrown => some { state with worker := .finished (some batch) .stopped }
      | .done ready => some { state with ready, worker := .recvFree }
  | .finished _ _ => none

/-- One step of the consumer; the callback is given by what each call does. -/
def consumerStep (callback : Nat → CallbackResult) (state : State Stream) : Option (State Stream) :=
  match state.consumer with
  | .recvReady =>
      match state.ready.recv with
      | .blocked => none
      | .thrown => some { state with consumer := .closingFree .loopEnded }
      | .done (batch, ready) =>
          some { state with
            ready
            consumer := .calling state.delivered.length batch
            delivered := state.delivered ++ [batch.bytes] }
  | .calling call batch =>
      match callback call with
      | .proceed => some { state with consumer := .sendFree batch true }
      | .stop => some { state with consumer := .sendFree batch false }
      | .throws => some { state with consumer := .closingFree .unwinding }
  | .sendFree batch keepGoing =>
      match state.free.send batch with
      | .blocked => none
      | .thrown => some { state with consumer := .closingFree .unwinding }
      | .done free =>
          some { state with
            free
            consumer := if keepGoing then .recvReady else .closingFree .loopEnded }
  | .closingFree exit =>
      some { state with free := state.free.close, consumer := .closingReady exit }
  | .closingReady .loopEnded =>
      some { state with ready := state.ready.close, consumer := .takingError }
  | .closingReady .unwinding =>
      some { state with ready := state.ready.close, consumer := .joining .rethrown }
  | .takingError =>
      match state.error with
      | some error => some { state with consumer := .joining (.err error) }
      | none => some { state with consumer := .joining .ok }
  | .joining result =>
      -- the pool's destructor waits for the task
      match state.worker with
      | .finished _ _ => some { state with consumer := .returned result }
      | _ => none
  | .returned _ => none

/-- The interleavings: a step of either thread, or a whole call of `stream.read`
by the worker. -/
inductive Step (read : Stream → ReadResult → Stream → Prop) (callback : Nat → CallbackResult) :
    State Stream → State Stream → Prop where
  | worker {before after} (moves : workerStep before = some after) :
      Step read callback before after
  | read {before batch result stream} (point : before.worker = .reading batch)
      (got : read before.stream result stream) :
      Step read callback before
        { before with stream, worker := afterRead batch result, log := before.log ++ [result] }
  | consumer {before after} (moves : consumerStep callback before = some after) :
      Step read callback before after

/-- A stream given by what its successive reads do. -/
def results (results : Nat → ReadResult) : Nat → ReadResult → Nat → Prop :=
  fun index result next => result = results index ∧ next = index + 1

/-- A stream given by the outcomes of its successive reads, none of which throws. -/
def outcomes (outcomes : Nat → Outcome (List Byte)) : Nat → ReadResult → Nat → Prop :=
  results fun index => .outcome (outcomes index)

end Model

end Dsio.Pipeline
