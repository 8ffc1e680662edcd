import Dsio.FileReading
import Dsio.ThreadBackend
import Dsio.UringBackend

/-!
# A backend in service

`Backend` is a base class: a caller submits requests to it and reaps completions, and
the reads are done meanwhile. An `Implementation` says what that does to the backend;
`Service` adds what the caller has to go by, and what the reads have written. The two
classes of the library are `ThreadBackend.implementation` and
`UringBackend.implementation`.
-/

namespace Dsio

/-- The data a read leaves in its buffer. -/
def dataOf : Except Nat (List Byte) → List Byte
  | .ok data => data
  | .error _ => []

/-- A subclass of `Backend`, with the state of a `reap` in progress. -/
structure Implementation where
  Backend : Type
  Call : Type
  submits : Backend → List ReadRequest → Outcome Unit → Backend → Prop
  /-- `reap(out, min)` with `out.size() = size`. -/
  begins : Nat → Nat → Backend → Call
  /-- A step of the thread that called `reap`. -/
  moves : Backend → Call → Backend → Call → Prop
  ends : Call → Option (Outcome (List Completion))
  /-- A read is done, and has left data in the buffer of its request. -/
  serves : Kernel → Backend → Span → List Byte → Backend → Prop

/-- A backend, the `reap` in progress if there is one, the requests of the submits that
returned ok, the completions of the reaps that returned ok, and the data written. -/
structure Service (implementation : Implementation) where
  backend : implementation.Backend
  call : Option implementation.Call := none
  accepted : List ReadRequest := []
  reported : List Completion := []
  written : List (Span × List Byte) := []

namespace Service

variable {implementation : Implementation}

/-- The requests of a submit, if it returned ok. -/
def acceptedOf (requests : List ReadRequest) : Outcome Unit → List ReadRequest
  | .ok () => requests
  | .error _ => []

/-- The completions of a reap, if it returned ok. -/
def reportedOf : Outcome (List Completion) → List Completion
  | .ok completions => completions
  | .error _ => []

/-- The calls of the caller, one after the other, and the reads under them. -/
inductive Step (kernel : Kernel) (before : Service implementation) :
    Service implementation → Prop where
  | submit {requests got backend} (idle : before.call = none)
      (submits : implementation.submits before.backend requests got backend) :
      Step kernel before { before with
        backend, accepted := before.accepted ++ acceptedOf requests got }
  | reap (idle : before.call = none) (size min : Nat) :
      Step kernel before { before with
        call := some (implementation.begins size min before.backend) }
  | move {call backend next} (busy : before.call = some call)
      (moves : implementation.moves before.backend call backend next) :
      Step kernel before { before with backend, call := some next }
  | finish {call got} (busy : before.call = some call)
      (ends : implementation.ends call = some got) :
      Step kernel before { before with
        call := none, reported := before.reported ++ reportedOf got }
  | serve {dst data backend}
      (serves : implementation.serves kernel before.backend dst data backend) :
      Step kernel before { before with backend, written := before.written ++ [(dst, data)] }

end Service

namespace ThreadBackend

/-- `read_once`, by what successive calls of `pread` give: it is called again while a
signal interrupts it. -/
def readOnce (request : ReadRequest) : List (Except Nat Nat) → Option Completion
  | [] => none
  | .error errno :: more =>
      if errno = eintr then readOnce request more
      else some { token := request.token, error := errno }
  | .ok got :: _ => some { token := request.token, bytes := got }

/-- A `reap` in progress, with the size of `out` and the clamped `min`. -/
structure Call where
  size : Nat
  min : Nat
  point : Point
deriving DecidableEq, Repr

/-- A worker has run `read_once` for one of the requests, after any number of
interruptions. -/
inductive Serves (kernel : Kernel) (backend : ThreadBackend) :
    Span → List Byte → ThreadBackend → Prop where
  | read {index : Nat} {future : Future} {answer : Except Nat (List Byte)}
      {completion : Completion} (found : backend.pending[index]? = some future)
      (running : future.result = none) (interruptions : Nat)
      (answers : kernel future.request.offset future.request.dst.size answer)
      (once : readOnce future.request (List.replicate interruptions (.error eintr) ++
        [answer.map List.length]) = some completion) :
      Serves kernel backend future.request.dst (dataOf answer) { backend with
        pending := finish index completion.bytes completion.error backend.pending }

abbrev implementation : Implementation where
  Backend := ThreadBackend
  Call := Call
  submits := fun backend requests got after => backend.submit requests = (got, after)
  begins := fun size min backend => ⟨size, clamp backend size min, .waiting 0⟩
  moves := fun backend call after next => ∃ point,
    reapStep call.size call.min ⟨backend, call.point⟩ = some ⟨after, point⟩ ∧
      next = { call with point }
  ends := fun call =>
    match call.point with
    | .returned out => some (.ok out)
    | .waiting _ | .draining _ => none
  serves := Serves

end ThreadBackend

namespace UringBackend

/-- A `reap` in progress, with the size of `out` and the clamped `min`. -/
structure Call where
  size : Nat
  min : Nat
  point : Point
deriving DecidableEq, Repr

/-- What the kernel posts for a read: a byte count or a negative errno. -/
def resOf : Except Nat (List Byte) → Int
  | .ok data => data.length
  | .error errno => -errno

/-- The kernel has completed one of the entries it was handed. -/
inductive Serves (kernel : Kernel) (backend : UringBackend) :
    Span → List Byte → UringBackend → Prop where
  | read {index : Nat} {entry : Sqe} {answer : Except Nat (List Byte)}
      (found : backend.ring.executing[index]? = some entry)
      (answers : kernel entry.offset entry.length answer) :
      Serves kernel backend entry.dst (dataOf answer) { backend with
        ring := complete index entry (resOf answer) backend.ring }

/-- A step of the caller, where the wait for a completion may fail. -/
inductive Moves (strerror : Nat → String) (backend : UringBackend) (call : Call) :
    UringBackend → Call → Prop where
  | caller {after point}
      (moves : reapStep call.size call.min ⟨backend, call.point⟩ = some ⟨after, point⟩) :
      Moves strerror backend call after { call with point }
  | failedWait {out code} (point : call.point = .waiting out)
      (loops : waits call.min backend out = true) :
      Moves strerror backend call backend
        { call with point := .failed (ringError strerror "io_uring_wait_cqe" code) }

abbrev implementation (strerror : Nat → String) : Implementation where
  Backend := UringBackend
  Call := Call
  submits := fun backend requests got after =>
    ∃ answers submitted, submit strerror answers submitted backend requests = (got, after)
  begins := fun size min _ => ⟨size, Min.min min size, .waiting []⟩
  moves := Moves strerror
  ends := fun call =>
    match call.point with
    | .returned out => some (.ok out)
    | .failed error => some (.error error)
    | .waiting _ => none
  serves := Serves

end UringBackend

end Dsio
