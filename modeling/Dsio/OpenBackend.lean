import Dsio.Service
import Dsio.UringSubmitting

/-!
# Opening a backend

`open_backend` gives the io_uring backend when a ring can be set up and the thread
backend otherwise. Its caller holds a `std::unique_ptr<Backend>`: an instance of either
class, whose members `Implementation.either` dispatches to.
-/

namespace Dsio

/-! ## The factories -/

/-- How constructing the thread backend and its pool ends. -/
inductive Construction where
  | constructed
  /-- `std::bad_alloc`. -/
  | outOfMemory
  /-- `std::system_error`, of a thread that cannot be started. -/
  | failed (what : String)
deriving DecidableEq, Repr

def openThreadBackend (construction : Construction) (fd : Int) (options : BackendOptions) :
    Outcome ThreadBackend :=
  if options.queueDepth = 0 then
    .error ⟨"dsio::open_thread_backend: queue depth must be > 0", none⟩
  else
    match construction with
    | .constructed => .ok { fd, depth := options.queueDepth }
    | .outOfMemory => .error ⟨"dsio::open_thread_backend: allocation failed", none⟩
    | .failed what => .error ⟨"dsio::open_thread_backend: " ++ what, none⟩

/-- What the system gives `open_uring_backend`: whether the object is allocated, and what
`io_uring_queue_init` returns for a number of entries. -/
structure RingSetup where
  allocated : Bool
  queueInit : Nat → Except Nat Unit

def openUringBackend (strerror : Nat → String) (setup : RingSetup) (fd : Int)
    (options : BackendOptions) : Outcome UringBackend :=
  if options.queueDepth = 0 then
    .error ⟨"dsio::open_uring_backend: queue depth must be > 0", none⟩
  else if setup.allocated = false then
    .error ⟨"dsio::open_uring_backend: allocation failed", none⟩
  else
    -- the number of entries is an `unsigned`
    match setup.queueInit (options.queueDepth % 2 ^ 32) with
    | .error code =>
        .error ⟨"dsio::open_uring_backend: io_uring_queue_init: " ++ strerror code, some code⟩
    | .ok () => .ok { fd, depth := options.queueDepth }

/-- `open_backend`, with what the system gives both factories. -/
def openBackend (strerror : Nat → String) (setup : RingSetup) (construction : Construction)
    (fd : Int) (options : BackendOptions) : Outcome (UringBackend ⊕ ThreadBackend) :=
  match openUringBackend strerror setup fd options with
  | .ok uring => .ok (.inl uring)
  | .error _ => (openThreadBackend construction fd options).map .inr

/-- A thread backend has the depth asked for. -/
theorem openThreadBackend_eq_ok {construction : Construction} {fd : Int}
    {options : BackendOptions} {backend : ThreadBackend}
    (opened : openThreadBackend construction fd options = .ok backend) :
    backend = { fd, depth := options.queueDepth } := by
  simp only [openThreadBackend] at opened
  split at opened
  · cases opened
  · split at opened
    · cases opened
      rfl
    · cases opened
    · cases opened

/-- A ring has the depth asked for. -/
theorem openUringBackend_eq_ok {strerror : Nat → String} {setup : RingSetup} {fd : Int}
    {options : BackendOptions} {backend : UringBackend}
    (opened : openUringBackend strerror setup fd options = .ok backend) :
    backend = { fd, depth := options.queueDepth } := by
  simp only [openUringBackend] at opened
  split at opened
  · cases opened
  · split at opened
    · cases opened
    · split at opened
      · cases opened
      · cases opened
        rfl

/-- A backend that was opened is one that its class opened. -/
theorem openBackend_eq_ok {strerror : Nat → String} {setup : RingSetup}
    {construction : Construction} {fd : Int} {options : BackendOptions}
    {backend : UringBackend ⊕ ThreadBackend}
    (opened : openBackend strerror setup construction fd options = .ok backend) :
    (∃ uring, backend = .inl uring ∧ openUringBackend strerror setup fd options = .ok uring) ∨
      ∃ thread, backend = .inr thread ∧
        openThreadBackend construction fd options = .ok thread := by
  simp only [openBackend] at opened
  split at opened
  · next uring ok =>
    cases opened
    exact .inl ⟨uring, rfl, ok⟩
  · cases thread : openThreadBackend construction fd options with
    | error error =>
        rw [thread] at opened
        cases opened
    | ok backend =>
        rw [thread] at opened
        cases opened
        exact .inr ⟨backend, rfl, rfl⟩

/-! ## A backend of either class -/

/-- The virtual members, on an object that is of one class or the other. -/
abbrev Implementation.either (first second : Implementation) : Implementation where
  Backend := first.Backend ⊕ second.Backend
  Call := first.Call ⊕ second.Call
  submits := fun backend requests got after =>
    match backend, after with
    | .inl backend, .inl after => first.submits backend requests got after
    | .inr backend, .inr after => second.submits backend requests got after
    | _, _ => False
  begins := fun size min backend => backend.map (first.begins size min) (second.begins size min)
  moves := fun backend call after next =>
    match backend, call, after, next with
    | .inl backend, .inl call, .inl after, .inl next => first.moves backend call after next
    | .inr backend, .inr call, .inr after, .inr next => second.moves backend call after next
    | _, _, _, _ => False
  ends := fun call => call.elim first.ends second.ends
  serves := fun kernel backend dst data after =>
    match backend, after with
    | .inl backend, .inl after => first.serves kernel backend dst data after
    | .inr backend, .inr after => second.serves kernel backend dst data after
    | _, _ => False

/-! ## Rings that fail less -/

namespace UringBackend

/-- No call of the ring fails while these requests are submitted. -/
def Succeeds (answers : Nat → SqeAnswer) (submitted : Except Nat Nat)
    (requests : List ReadRequest) : Prop :=
  (∀ index < requests.length, (answers index).gives = true) ∧
    ∃ accepted, submitted = .ok accepted

/-- The io_uring backend where ring calls fail only if `fails`, and an `io_uring_submit`
leaves entries behind only if `short`. -/
abbrev restricted (strerror : Nat → String) (fails short : Prop) : Implementation :=
  { implementation strerror with
    submits := fun backend requests got after =>
      ∃ answers submitted, submit strerror answers submitted backend requests = (got, after) ∧
        (fails ∨ Succeeds answers submitted requests) ∧
        (short ∨ ¬ FallsShort answers submitted backend requests)
    moves := fun backend call after next =>
      Moves strerror backend call after next ∧
        (fails ∨ ∀ error, next.point ≠ .failed error) }

end UringBackend

end Dsio
