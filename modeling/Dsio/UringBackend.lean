import Mathlib.Algebra.Order.Ring.Nat
import Dsio.Backend
import Dsio.Library.Transition

/-!
# The io_uring backend

The ring holds the requests the kernel is executing and the completions it has
posted. `UringBackend::reap` waits for completions one at a time and then takes
what is posted without blocking. The kernel completes requests in any order and
at any moment.
-/

namespace Dsio

/-- A submission queue entry prepared by `io_uring_prep_read`: the length is an
`unsigned`. -/
structure Sqe where
  fd : Int
  dst : Span
  length : Nat
  offset : Nat
  userData : Nat
deriving DecidableEq, Repr

/-- A completion queue entry: `res` is a byte count or a negative errno. -/
structure Cqe where
  userData : Nat
  res : Int
deriving DecidableEq, Repr

structure Ring where
  prepared : List Sqe := []
  executing : List Sqe := []
  posted : List Cqe := []
deriving DecidableEq, Repr

structure UringBackend where
  fd : Int
  depth : Nat
  inFlight : Nat := 0
  ring : Ring := {}
deriving DecidableEq, Repr

namespace UringBackend

def toCompletion (cqe : Cqe) : Completion :=
  if cqe.res < 0 then { token := cqe.userData, error := (-cqe.res).toNat }
  else { token := cqe.userData, bytes := cqe.res.toNat }

/-- `ring_error`, with `strerror` as the text of an errno. -/
def ringError (strerror : Nat → String) (operation : String) (code : Nat) : Error :=
  ⟨"dsio::UringBackend::" ++ operation ++ ": " ++ strerror code, some code⟩

/-! ## Submitting -/

/-- The entry `io_uring_prep_read` and `io_uring_sqe_set_data64` leave. -/
def sqeOf (fd : Int) (request : ReadRequest) : Sqe where
  fd := fd
  dst := request.dst
  length := request.dst.size % 2 ^ 32
  offset := request.offset
  userData := request.token

/-- Prepares one entry and counts it. -/
def prepare (backend : UringBackend) (request : ReadRequest) : UringBackend :=
  { backend with
    inFlight := backend.inFlight + 1
    ring := { backend.ring with prepared := backend.ring.prepared ++ [sqeOf backend.fd request] } }

/-- `io_uring_submit` hands the oldest prepared entries to the kernel. -/
def flush (backend : UringBackend) (accepted : Nat) : UringBackend :=
  { backend with ring := { backend.ring with
      prepared := backend.ring.prepared.drop accepted
      executing := backend.ring.executing ++ backend.ring.prepared.take accepted } }

/-- What the ring answers while one entry is being prepared: `io_uring_get_sqe`
gives one, or it gives none, the flush returns an errno or a count, and the second
try may succeed. -/
inductive SqeAnswer where
  | available
  | full (flushed : Except Nat Nat) (retried : Bool)

/-- The loop over the requests. -/
def prepareAll (strerror : Nat → String) (answers : Nat → SqeAnswer) :
    Nat → List ReadRequest → UringBackend → Outcome Unit × UringBackend
  | _, [], backend => (.ok (), backend)
  | index, request :: rest, backend =>
      match answers index with
      | .available => prepareAll strerror answers (index + 1) rest (backend.prepare request)
      | .full (.error code) _ => (.error (ringError strerror "io_uring_submit" code), backend)
      | .full (.ok accepted) false =>
          (.error ⟨"dsio::UringBackend::submit: submission queue full", none⟩,
            backend.flush accepted)
      | .full (.ok accepted) true =>
          prepareAll strerror answers (index + 1) rest ((backend.flush accepted).prepare request)

def submit (strerror : Nat → String) (answers : Nat → SqeAnswer) (submitted : Except Nat Nat)
    (backend : UringBackend) (requests : List ReadRequest) : Outcome Unit × UringBackend :=
  if backend.inFlight + requests.length > backend.depth then
    (.error ⟨"dsio::UringBackend::submit: queue full", some eagain⟩, backend)
  else
    match prepareAll strerror answers 0 requests backend with
    | (.error error, prepared) => (.error error, prepared)
    | (.ok (), prepared) =>
        match submitted with
        | .error code => (.error (ringError strerror "io_uring_submit" code), prepared)
        | .ok accepted => (.ok (), prepared.flush accepted)

/-! ## Reaping -/

/-- Program points of `reap`, with the completions moved into `out` so far. -/
inductive Point where
  /-- At the head of the waiting loop. -/
  | waiting (out : List Completion)
  | returned (out : List Completion)
  | failed (error : Error)
deriving DecidableEq, Repr

structure Reaping where
  backend : UringBackend
  point : Point
deriving DecidableEq, Repr

/-- `while (count < min && count < in_flight_)`. -/
def waits (min : Nat) (backend : UringBackend) (out : List Completion) : Bool :=
  out.length < min && out.length < backend.inFlight

/-- One round of the waiting loop; `io_uring_wait_cqe` blocks while nothing is posted. -/
def waitCqe (backend : UringBackend) (out : List Completion) : Option Reaping :=
  match backend.ring.posted with
  | cqe :: posted =>
      some ⟨{ backend with
        inFlight := backend.inFlight - 1, ring := { backend.ring with posted } },
        .waiting (out ++ [toCompletion cqe])⟩
  | [] => none

/-- How many posted completions the drain takes: `io_uring_peek_batch_cqe` gives at
most what fits in `out`, and at most 64. -/
def drainCount (size : Nat) (backend : UringBackend) (out : List Completion) : Nat :=
  Min.min backend.ring.posted.length (Min.min (size - out.length) 64)

/-- The drain after the waiting loop. -/
def drain (size : Nat) (backend : UringBackend) (out : List Completion) : Reaping :=
  let ready := drainCount size backend out
  ⟨{ backend with
      inFlight := backend.inFlight - ready
      ring := { backend.ring with posted := backend.ring.posted.drop ready } },
    .returned (out ++ (backend.ring.posted.take ready).map toCompletion)⟩

/-- One step of the calling thread, while no ring call fails. -/
def reapStep (size min : Nat) (state : Reaping) : Option Reaping :=
  match state.point with
  | .waiting out =>
      if waits min state.backend out then waitCqe state.backend out
      else some (drain size state.backend out)
  | .returned _ | .failed _ => none

/-- The kernel completes one of the requests it is executing. -/
def complete (index : Nat) (entry : Sqe) (res : Int) (ring : Ring) : Ring :=
  { ring with
    executing := ring.executing.eraseIdx index
    posted := ring.posted ++ [⟨entry.userData, res⟩] }

/-- The steps of a `reap`: the caller's, those of the kernel under it, and a wait
that fails with one of the errnos in `failures`. -/
inductive Step (strerror : Nat → String) (failures : Nat → Prop) (size min : Nat)
    (before : Reaping) : Reaping → Prop where
  | caller {after} (moves : reapStep size min before = some after) :
      Step strerror failures size min before after
  | kernel {index entry} (res : Int) (found : before.backend.ring.executing[index]? = some entry) :
      Step strerror failures size min before { before with
        backend := { before.backend with ring := complete index entry res before.backend.ring } }
  | failedWait {out code} (point : before.point = .waiting out)
      (loops : waits min before.backend out = true) (fails : failures code) :
      Step strerror failures size min before
        { before with point := .failed (ringError strerror "io_uring_wait_cqe" code) }

end UringBackend

end Dsio
