import Dsio.Backend
import Dsio.Library.Transition

/-!
# The thread-pool backend

`ThreadBackend::reap` waits for its oldest futures and then drains the front of
the deque while it is ready. The pool finishes futures in any order and at any
moment, also between two checks of the drain.
-/

namespace Dsio

/-- A `std::future<Completion>` of a request handed to the pool. -/
structure Future where
  request : ReadRequest
  result : Option Completion := none
deriving DecidableEq, Repr

structure ThreadBackend where
  fd : Int
  depth : Nat
  pending : List Future := []
deriving DecidableEq, Repr

namespace ThreadBackend

def inFlight (backend : ThreadBackend) : Nat := backend.pending.length

/-- Hands every request to the pool, or none. -/
def submit (backend : ThreadBackend) (requests : List ReadRequest) :
    Outcome Unit × ThreadBackend :=
  if backend.pending.length + requests.length > backend.depth then
    (.error ⟨"dsio::ThreadBackend::submit: queue full", some eagain⟩, backend)
  else
    (.ok (), { backend with
      pending := backend.pending ++ requests.map fun request => { request } })

/-- Program points of `reap`, with the completions moved into `out` so far. -/
inductive Point where
  /-- At `pending_[i].wait()`, for the oldest `min` futures. -/
  | waiting (index : Nat)
  | draining (out : List Completion)
  | returned (out : List Completion)
deriving DecidableEq, Repr

structure Reaping where
  backend : ThreadBackend
  point : Point
deriving DecidableEq, Repr

/-- `reap(out, min)` with `out.size() = size`, after its two clamps of `min`. -/
def clamp (backend : ThreadBackend) (size min : Nat) : Nat :=
  Min.min (Min.min min size) backend.pending.length

/-- One step of the calling thread; a wait on an unfinished future blocks. -/
def reapStep (size min : Nat) (state : Reaping) : Option Reaping :=
  match state.point with
  | .waiting index =>
      if index < min then
        match state.backend.pending[index]? with
        | some { result := some _, .. } => some { state with point := .waiting (index + 1) }
        | _ => none
      else some { state with point := .draining [] }
  | .draining out =>
      if out.length < size then
        match state.backend.pending with
        | { result := some completion, .. } :: pending =>
            some ⟨{ state.backend with pending }, .draining (out ++ [completion])⟩
        | _ => some { state with point := .returned out }
      else some { state with point := .returned out }
  | .returned _ => none

/-- A worker of the pool finishes one request with what `read_once` returned. -/
def finish (index : Nat) (bytes error : Nat) (pending : List Future) : List Future :=
  pending.modify index fun future =>
    { future with result := some ⟨future.request.token, bytes, error⟩ }

/-- The steps of a `reap`: the caller's, and those of the pool under it. -/
inductive Step (size min : Nat) (before : Reaping) : Reaping → Prop where
  | caller {after} (moves : reapStep size min before = some after) : Step size min before after
  | pool {index future} (bytes error : Nat) (found : before.backend.pending[index]? = some future)
      (running : future.result = none) :
      Step size min before { before with
        backend := { before.backend with
          pending := finish index bytes error before.backend.pending } }

end ThreadBackend

end Dsio
