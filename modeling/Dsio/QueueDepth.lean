import Dsio.BackendLaws

/-!
# The queue depth

`queue_depth` bounds what a backend may have in flight. However its caller submits and
reaps, and whichever of its calls of the system fail, `in_flight` counts what the backend
holds and stays within the depth it was opened with.
-/

namespace Dsio

open Transition

namespace UringBackend

variable {strerror : Nat → String} {kernel : Kernel} {limit : Nat} {before after : UringBackend}

/-- The count is right, and within the depth. -/
structure Bounded (limit : Nat) (backend : UringBackend) : Prop where
  depth : backend.depth = limit
  accounted : Accounted backend
  bound : backend.inFlight ≤ limit

/-- A submit prepares no more than there is room for, wherever it fails. -/
theorem Bounded.submit {answers : Nat → SqeAnswer} {submitted : Except Nat Nat}
    {requests : List ReadRequest} {got : Outcome Unit} (bounded : Bounded limit before)
    (same : submit strerror answers submitted before requests = (got, after)) :
    Bounded limit after := by
  obtain ⟨rfl, accounted, bound⟩ := bounded
  have accountedAfter := accounted.submit strerror answers submitted requests
  rw [same] at accountedAfter
  rcases submit_spec strerror answers submitted before requests with
    ⟨middle, accepted, outcome, prepared, room, -⟩ | ⟨error, _, first, outcome, prepared, late, -⟩
  · rw [outcome] at same
    cases same
    refine ⟨prepared.depth, accountedAfter, ?_⟩
    have counted : (middle.flush accepted).inFlight = before.inFlight + requests.length :=
      prepared.inFlight
    omega
  · rw [outcome] at same
    cases same
    obtain ⟨-, done, taken⟩ := submit_error outcome
    have counted := taken.inFlight
    have some := prepared.inFlight
    have fewer := List.length_take_le' done requests
    refine ⟨prepared.depth, accountedAfter, ?_⟩
    by_cases none : first = []
    · rw [none, List.length_nil] at some
      omega
    · have room := (late.mpr none).1
      omega

/-- A step of `reap` keeps the depth. -/
theorem reapStep_depth {size min : Nat} {before after : Reaping}
    (moves : reapStep size min before = some after) :
    after.backend.depth = before.backend.depth := by
  obtain ⟨backend, point⟩ := before
  cases point with
  | waiting out =>
      simp only [reapStep, waitCqe] at moves
      split at moves
      · split at moves
        · cases moves
          rfl
        · cases moves
      · cases moves
        rfl
  | returned | failed => simp [reapStep] at moves

/-- A reap takes from what is in flight. -/
theorem Bounded.move {call next : Call} (bounded : Bounded limit before)
    (moves : Moves strerror before call after next) : Bounded limit after := by
  obtain ⟨rfl, accounted, bound⟩ := bounded
  cases moves with
  | failedWait => exact ⟨rfl, accounted, bound⟩
  | @caller after point moves =>
      have stepped : Step strerror (fun _ => False) call.size call.min ⟨before, call.point⟩
          ⟨after, point⟩ := .caller moves
      have accountedAfter : Accounted after := Accounted.step accounted stepped
      have fewer : after.ring.posted.length ≤ before.ring.posted.length ∧
          after.queued = before.queued := by
        obtain ⟨queued, ⟨count, -, posted⟩ | ⟨out, error, -, same, rfl⟩⟩ :=
          move_cases (@Moves.caller strerror _ _ _ _ moves)
        · exact ⟨by simp [posted], queued⟩
        · exact ⟨Nat.le_refl _, rfl⟩
      have lengths := congrArg List.length fewer.2
      simp only [queued, List.length_append, Accounted] at lengths accounted accountedAfter
      exact ⟨reapStep_depth moves, accountedAfter, by omega⟩

theorem Bounded.serve {dst : Span} {data : List Byte} (bounded : Bounded limit before)
    (serves : Serves kernel before dst data after) : Bounded limit after := by
  cases serves with
  | read found => exact ⟨bounded.depth, bounded.accounted.complete _ found, bounded.bound⟩

end UringBackend

namespace ThreadBackend

variable {kernel : Kernel} {limit : Nat} {before after : ThreadBackend}

structure Bounded (limit : Nat) (backend : ThreadBackend) : Prop where
  depth : backend.depth = limit
  bound : backend.inFlight ≤ limit

/-- A submit stays within the depth or is refused. -/
theorem Bounded.submit {requests : List ReadRequest} {got : Outcome Unit}
    (bounded : Bounded limit before) (same : before.submit requests = (got, after)) :
    Bounded limit after := by
  obtain ⟨rfl, bound⟩ := bounded
  rcases submit_cases same with ⟨_, -, rfl, -⟩ | ⟨-, room, rfl⟩
  · exact ⟨rfl, bound⟩
  · exact ⟨rfl, by simpa [inFlight] using room⟩

/-- A step of a call adds nothing. -/
theorem Bounded.move {call next : Call} (bounded : Bounded limit before)
    (moves : implementation.moves before call after next) : Bounded limit after := by
  obtain ⟨rfl, bound⟩ := bounded
  simp only [inFlight] at bound
  have same : after.depth = before.depth := by
    obtain ⟨point, moves, -⟩ := moves
    exact reapStep_depth moves
  refine ⟨same, ?_⟩
  rcases move_cases moves with ⟨pending, -⟩ | ⟨future, completion, pending, -⟩
  · rw [inFlight, pending]
    exact bound
  · rw [pending, List.length_cons] at bound
    rw [inFlight]
    omega

theorem Bounded.serve {dst : Span} {data : List Byte} (bounded : Bounded limit before)
    (serves : Serves kernel before dst data after) : Bounded limit after := by
  cases serves with
  | read => exact ⟨bounded.depth, by simpa [inFlight, finish] using bounded.bound⟩

end ThreadBackend

/-! ## Either class -/

namespace Service

/-- A backend of either class, whose calls of the system may all fail. -/
abbrev Library (strerror : Nat → String) : Implementation :=
  (UringBackend.implementation strerror).either ThreadBackend.implementation

variable {strerror : Nat → String} {kernel : Kernel} {limit : Nat}

/-- `in_flight()`. -/
def inFlight (service : Service (Library strerror)) : Nat :=
  service.backend.elim UringBackend.inFlight ThreadBackend.inFlight

/-- The entries of the ring not seen yet, or the futures not taken. -/
def held (service : Service (Library strerror)) : Nat :=
  service.backend.elim
    (fun uring =>
      uring.ring.prepared.length + uring.ring.executing.length + uring.ring.posted.length)
    fun threads => threads.pending.length

def Bounded (limit : Nat) (service : Service (Library strerror)) : Prop :=
  service.backend.elim (UringBackend.Bounded limit) (ThreadBackend.Bounded limit)

/-- Every step stays within the depth. -/
theorem Bounded.step {before after : Service (Library strerror)} (bounded : Bounded limit before)
    (transition : Step kernel before after) : Bounded limit after := by
  obtain ⟨backend, call, accepted, reported, written⟩ := before
  cases transition with
  | @submit requests got after idle submits =>
      cases backend <;> cases after
      · obtain ⟨answers, submitted, same⟩ := submits
        exact UringBackend.Bounded.submit bounded same
      · exact submits.elim
      · exact submits.elim
      · exact ThreadBackend.Bounded.submit bounded submits
  | reap => exact bounded
  | @move call after next busy moves =>
      cases backend <;> cases call <;> cases after <;> cases next
      case inl.inl.inl.inl => exact UringBackend.Bounded.move bounded moves
      case inr.inr.inr.inr => exact ThreadBackend.Bounded.move bounded moves
      all_goals exact moves.elim
  | finish => exact bounded
  | @serve dst data after serves =>
      cases backend <;> cases after
      · exact UringBackend.Bounded.serve bounded serves
      · exact serves.elim
      · exact serves.elim
      · exact ThreadBackend.Bounded.serve bounded serves

/-- Whatever the caller of a backend submits and reaps, and whichever calls of the system
fail: `in_flight` counts the requests the backend holds, and there are never more of them
than the depth it was opened with. -/
theorem in_flight_within_depth {setup : RingSetup} {construction : Construction} {fd : Int}
    {options : BackendOptions} {backend : UringBackend ⊕ ThreadBackend}
    (opened : openBackend strerror setup construction fd options = .ok backend)
    {service : Service (Library strerror)} (run : Reaches (Step kernel) { backend } service) :
    service.inFlight = service.held ∧ service.held ≤ options.queueDepth := by
  have initially : Bounded options.queueDepth ({ backend } : Service (Library strerror)) := by
    rcases openBackend_eq_ok opened with ⟨uring, rfl, made⟩ | ⟨threads, rfl, made⟩
    · rw [openUringBackend_eq_ok made]
      exact ⟨rfl, rfl, Nat.zero_le _⟩
    · rw [openThreadBackend_eq_ok made]
      exact ⟨rfl, Nat.zero_le _⟩
  have bounded := run.preserves Bounded.step initially
  obtain ⟨backend, call, accepted, reported, written⟩ := service
  cases backend with
  | inl uring =>
      obtain ⟨-, accounted, bound⟩ : UringBackend.Bounded _ uring := bounded
      exact ⟨accounted, (Nat.le_of_eq accounted.symm).trans bound⟩
  | inr threads =>
      obtain ⟨-, bound⟩ : ThreadBackend.Bounded _ threads := bounded
      exact ⟨rfl, bound⟩

/-- A ring for two, which has been handed one of two requests. -/
def twoQueued : Service (Library toString) where
  backend := .inl { fd := 3, depth := 2, inFlight := 2, ring := {
    prepared := [⟨3, ⟨64, 8⟩, 8, 8, 1⟩]
    executing := [⟨3, ⟨0, 8⟩, 8, 0, 0⟩] } }
  accepted := [⟨0, ⟨0, 8⟩, 0⟩, ⟨8, ⟨64, 8⟩, 1⟩]

theorem twoQueued_within_depth : twoQueued.inFlight = twoQueued.held ∧ twoQueued.held ≤ 2 := by
  let opened : UringBackend ⊕ ThreadBackend := .inl { fd := 3, depth := 2 }
  have submits : (Library toString).submits opened
      [⟨0, ⟨0, 8⟩, 0⟩, ⟨8, ⟨64, 8⟩, 1⟩] (.ok ()) twoQueued.backend :=
    ⟨fun _ => .available, .ok 1, rfl⟩
  have queued := @Step.submit (Library toString) (fun _ _ _ => True)
    { backend := opened } _ _ _ rfl submits
  exact @in_flight_within_depth toString _ ⟨true, fun _ => .ok ()⟩ .constructed 3
    { queueDepth := 2 } opened rfl _ (.single queued)

end Service

end Dsio
