import Dsio.Agreement
import Dsio.OpenBackend

/-!
# What a backend owes its stream

A stream submits requests and reaps one completion at a time. `Contract` says what that
does to the requests that wait to be read and to the completions not reported yet, whatever
the system calls give; `Prompt` adds that a reap gets to its end. Both classes keep the
contract, and so does a backend of either class.
-/

namespace Dsio

/-- No read fails with errno 0. -/
def Kernel.Nonzero (kernel : Kernel) : Prop :=
  ∀ offset length errno, kernel offset length (.error errno) → errno ≠ 0

/-- The read of a request is done: its data is in the buffer and its completion waits to be
reported. -/
structure Served (kernel : Kernel) (waiting left : List ReadRequest)
    (finished more : List Completion) (dst : Span) (data : List Byte) : Prop where
  read : ∃ request answer, request.dst = dst ∧ data = dataOf answer ∧
    kernel request.offset request.dst.size answer ∧ waiting.Perm (request :: left) ∧
    more.Perm (completionOf request.token answer :: finished)

/-- How a backend is seen by its caller. -/
structure Implementation.View (implementation : Implementation) where
  depth : implementation.Backend → Nat
  waiting : implementation.Backend → List ReadRequest
  finished : implementation.Backend → List Completion
  /-- What a reap in progress has taken. -/
  taken : implementation.Call → List Completion
  Holds : implementation.Backend → Prop
  /-- A reap of one completion is in progress. -/
  Reaping : implementation.Backend → implementation.Call → Prop

/-- `fails` says whether calls of the system may fail, and `suits` which requests the
backend can take. -/
structure Implementation.View.Lawful {implementation : Implementation}
    (view : implementation.View)
    (opens : Int → BackendOptions → Outcome implementation.Backend → Prop) (fails : Prop)
    (suits : ReadRequest → Prop) : Prop where
  opened {fd options backend} (opening : opens fd options (.ok backend)) :
    view.Holds backend ∧ view.depth backend = options.queueDepth ∧ view.waiting backend = [] ∧
      view.finished backend = []
  accepted {backend requests after} (holds : view.Holds backend)
    (suit : ∀ request ∈ requests, suits request)
    (submits : implementation.submits backend requests (.ok ()) after) :
    (view.waiting backend).length + (view.finished backend).length + requests.length ≤
        view.depth backend ∧
      view.Holds after ∧ view.depth after = view.depth backend ∧
      (view.waiting after).Perm (view.waiting backend ++ requests) ∧
      view.finished after = view.finished backend
  refused {backend requests error after} (holds : view.Holds backend)
    (suit : ∀ request ∈ requests, suits request)
    (submits : implementation.submits backend requests (.error error) after) :
    (fails ∨ view.depth backend <
        (view.waiting backend).length + (view.finished backend).length + requests.length) ∧
      view.Holds after ∧ view.depth after = view.depth backend ∧
      view.finished after = view.finished backend ∧
      ∃ queued, (view.waiting after).Perm (view.waiting backend ++ requests.take queued)
  begun {backend} (holds : view.Holds backend) :
    view.Reaping backend (implementation.begins 1 1 backend) ∧
      view.taken (implementation.begins 1 1 backend) = []
  moved {backend call after next} (holds : view.Holds backend) (reaping : view.Reaping backend call)
    (moves : implementation.moves backend call after next) :
    view.Holds after ∧ view.Reaping after next ∧ view.depth after = view.depth backend ∧
      view.waiting after = view.waiting backend ∧
      (view.taken next ++ view.finished after).Perm (view.taken call ++ view.finished backend)
  reported {backend call out} (holds : view.Holds backend) (reaping : view.Reaping backend call)
    (ends : implementation.ends call = some (.ok out)) :
    out = view.taken call ∧ out.length ≤ 1 ∧
      (out = [] → view.waiting backend = [] ∧ view.finished backend = [])
  failed {backend call error} (reaping : view.Reaping backend call)
    (ends : implementation.ends call = some (.error error)) : fails ∧ view.taken call = []
  served {kernel : Kernel} {backend dst data after} (nonzero : kernel.Nonzero)
    (holds : view.Holds backend) (serves : implementation.serves kernel backend dst data after) :
    view.Holds after ∧ view.depth after = view.depth backend ∧
      (∀ call, view.Reaping backend call → view.Reaping after call) ∧
      Served kernel (view.waiting backend) (view.waiting after) (view.finished backend)
        (view.finished after) dst data

/-- A view that the operations of the backend keep to. -/
structure Implementation.Contract (implementation : Implementation)
    (opens : Int → BackendOptions → Outcome implementation.Backend → Prop) (fails : Prop)
    (suits : ReadRequest → Prop) extends
    implementation.View, Implementation.View.Lawful toView opens fails suits

/-- What a reap has left to do. -/
structure Implementation.Pace (implementation : Implementation) where
  /-- Every request the backend took can be read. -/
  Ready : implementation.Backend → Prop
  steps : implementation.Backend → implementation.Call → Nat

structure Implementation.Pace.Lawful {implementation : Implementation}
    (pace : implementation.Pace) (view : implementation.View)
    (opens : Int → BackendOptions → Outcome implementation.Backend → Prop) : Prop where
  opened {fd options backend} (opening : opens fd options (.ok backend)) : pace.Ready backend
  submits (backend : implementation.Backend) (requests : List ReadRequest) :
    ∃ got after, implementation.submits backend requests got after
  accepted {backend requests after} (ready : pace.Ready backend)
    (submits : implementation.submits backend requests (.ok ()) after) : pace.Ready after
  moved {backend call after next} (ready : pace.Ready backend)
    (moves : implementation.moves backend call after next) :
    pace.Ready after ∧ pace.steps after next < pace.steps backend call
  served {kernel : Kernel} {backend dst data after} (ready : pace.Ready backend)
    (serves : implementation.serves kernel backend dst data after) : pace.Ready after
  progress {kernel : Kernel} {backend call}
    (total : ∀ offset length, ∃ data, kernel offset length (.ok data)) (ready : pace.Ready backend)
    (holds : view.Holds backend) (reaping : view.Reaping backend call) :
    (∃ got, implementation.ends call = some got) ∨
      (∃ after next, implementation.moves backend call after next) ∨
        ∃ dst data after, implementation.serves kernel backend dst data after

/-- A reap of one completion gets to its end as long as reads are done. -/
structure Implementation.Contract.Prompt {implementation : Implementation}
    {opens : Int → BackendOptions → Outcome implementation.Backend → Prop} {fails : Prop}
    {suits : ReadRequest → Prop} (contract : implementation.Contract opens fails suits) extends
    implementation.Pace, Implementation.Pace.Lawful toPace contract.toView opens

/-! ## The thread backend -/

namespace ThreadBackend

/-- `open_thread_backend`, whatever the system gives it. -/
def Opens (fd : Int) (options : BackendOptions) (opened : Outcome ThreadBackend) : Prop :=
  ∃ construction, openThreadBackend construction fd options = opened

/-- The requests no thread has read yet. -/
def waiting (backend : ThreadBackend) : List ReadRequest :=
  (backend.pending.filter (·.result.isNone)).map (·.request)

/-- The completions no reap has taken yet. -/
def finished (backend : ThreadBackend) : List Completion := backend.pending.filterMap (·.result)

/-- A reap of one completion. -/
def ReapingOne (backend : ThreadBackend) (call : Call) : Prop :=
  call.size = 1 ∧ ∃ inFlight, call.min = min 1 inFlight ∧
    ReapInv inFlight 1 call.min ⟨backend, call.point⟩

/-- Each future runs or has finished. -/
theorem length_waiting_add_finished (backend : ThreadBackend) :
    backend.waiting.length + backend.finished.length = backend.pending.length := by
  simp only [waiting, finished, List.length_map]
  induction backend.pending with
  | nil => rfl
  | cons future rest ih => cases result : future.result <;> simp [result] <;> omega

/-- `submit` is refused for want of room, or adds the futures. -/
theorem submit_cases {backend after : ThreadBackend} {requests : List ReadRequest}
    {got : Outcome Unit} (submits : backend.submit requests = (got, after)) :
    (∃ error, got = .error error ∧ after = backend ∧
        backend.depth < backend.pending.length + requests.length) ∨
      got = .ok () ∧ backend.pending.length + requests.length ≤ backend.depth ∧
        after = { backend with
          pending := backend.pending ++ requests.map fun request => { request } } := by
  simp only [submit] at submits
  split at submits
  · next full =>
    cases submits
    exact .inl ⟨_, rfl, rfl, full⟩
  · next room =>
    cases submits
    exact .inr ⟨rfl, Nat.not_lt.mp room, rfl⟩

/-- A step of `reap` keeps the depth. -/
theorem reapStep_depth {size min : Nat} {before after : Reaping}
    (moves : reapStep size min before = some after) :
    after.backend.depth = before.backend.depth := by
  obtain ⟨backend, point⟩ := before
  cases point with
  | waiting index =>
      simp only [reapStep] at moves
      split at moves
      · split at moves <;> cases moves
        rfl
      · cases moves
        rfl
  | draining out =>
      simp only [reapStep] at moves
      split at moves
      · split at moves <;> cases moves <;> rfl
      · cases moves
        rfl
  | returned out => simp [reapStep] at moves

/-- A call for one completion stays one. -/
theorem ReapingOne.step {backend after : ThreadBackend} {call next : Call}
    (reaping : ReapingOne backend call) (moves : implementation.moves backend call after next) :
    ReapingOne after next := by
  obtain ⟨size, inFlight, clamped, inv⟩ := reaping
  obtain ⟨point, moves, rfl⟩ := moves
  rw [size] at moves
  exact ⟨size, inFlight, clamped, inv.step (Nat.le_of_eq clamped) (.caller moves)⟩

/-- A finished read moves its request over to the completions. -/
theorem served_finish {kernel : Kernel} {backend : ThreadBackend} {index : Nat} {future : Future}
    {answer : Except Nat (List Byte)} (found : backend.pending[index]? = some future)
    (running : future.result = none)
    (answers : kernel future.request.offset future.request.dst.size answer)
    {completion : Completion} (same : completion = completionOf future.request.token answer) :
    Served kernel backend.waiting
      (waiting { backend with
        pending := finish index completion.bytes completion.error backend.pending })
      backend.finished
      (finished { backend with
        pending := finish index completion.bytes completion.error backend.pending })
      future.request.dst (dataOf answer) := by
  obtain ⟨bound, rfl⟩ := List.getElem?_eq_some_iff.mp found
  have own : (⟨backend.pending[index].request.token, completion.bytes, completion.error⟩ :
      Completion) = completionOf backend.pending[index].request.token answer := by
    rw [same]
    cases answer <;> rfl
  have split := List.take_append_drop index backend.pending
  rw [List.drop_eq_getElem_cons bound] at split
  refine ⟨backend.pending[index].request, answer, rfl, rfl, answers, ?_, ?_⟩
  · have before :=
      congrArg (fun pending => (pending.filter (·.result.isNone)).map (·.request)) split
    simp only [List.filter_append, List.filter_cons, running, Option.isNone_none, if_true,
      List.map_append, List.map_cons] at before
    simp only [waiting, finish, List.modify_eq_take_cons_drop bound, List.filter_append,
      List.filter_cons, Option.isNone_some, Bool.false_eq_true, if_false, List.map_append]
    rw [← before]
    exact List.perm_middle
  · have before := congrArg (List.filterMap (·.result)) split
    simp only [List.filterMap_append, List.filterMap_cons, running] at before
    simp only [finished, finish, List.modify_eq_take_cons_drop bound, List.filterMap_append,
      List.filterMap_cons, own]
    rw [← before]
    exact List.perm_middle

abbrev view : implementation.View where
  depth := ThreadBackend.depth
  waiting := waiting
  finished := finished
  taken := fun call => call.point.out
  Holds := fun _ => True
  Reaping := ReapingOne

/-- Whatever comes of the reads, the thread backend keeps the contract. -/
theorem view_lawful (fails : Prop) (suits : ReadRequest → Prop) :
    view.Lawful Opens fails suits where
  opened := by
    rintro fd options backend ⟨construction, opened⟩
    rw [openThreadBackend_eq_ok opened]
    exact ⟨trivial, rfl, rfl, rfl⟩
  accepted := by
    intro backend requests after _ _ submits
    rcases submit_cases submits with ⟨error, failed, -⟩ | ⟨-, room, rfl⟩
    · cases failed
    · rw [length_waiting_add_finished]
      refine ⟨room, trivial, rfl, ?_, by simp [finished]⟩
      have fresh : (requests.map fun request => ({ request } : Future)).filter
          (·.result.isNone) = requests.map fun request => { request } :=
        List.filter_eq_self.mpr (by simp)
      simp [waiting, fresh, Function.comp_def]
  refused := by
    intro backend requests error after _ _ submits
    rcases submit_cases submits with ⟨_, -, rfl, full⟩ | ⟨ok, -⟩
    · rw [length_waiting_add_finished]
      exact ⟨.inr full, trivial, rfl, rfl, 0, by simp⟩
    · cases ok
  begun := by
    intro backend _
    refine ⟨⟨rfl, backend.inFlight, ?_, reapInv_start backend 1 _⟩, rfl⟩
    simp [clamp, inFlight]
  moved := by
    intro backend call after next _ reaping moves
    refine ⟨trivial, reaping.step moves, ?_, ?_⟩
    · obtain ⟨point, moves, -⟩ := moves
      exact reapStep_depth moves
    · rcases move_cases moves with ⟨pending, out⟩ | ⟨future, completion, found, result, out⟩
      · have waits : waiting after = waiting backend := by rw [waiting, pending, waiting]
        have done : finished after = finished backend := by rw [finished, pending, finished]
        exact ⟨waits, .of_eq (congrArg₂ (· ++ ·) out done)⟩
      · exact ⟨by simp [waiting, found, result], by simp [finished, found, result, out]⟩
  reported := by
    intro backend call out _ reaping ends
    obtain ⟨size, inFlight, clamped, inv⟩ := reaping
    cases point : call.point with
    | returned taken =>
        simp only [point] at ends
        cases ends
        rw [point] at inv
        have fits := inv.fits
        have enough := inv.returned out rfl
        have total := inv.total
        simp only [Point.out] at fits total
        refine ⟨(congrArg Point.out point).symm, fits, ?_⟩
        rintro rfl
        have none : backend.pending = [] := by
          refine List.eq_nil_of_length_eq_zero ?_
          rw [clamped] at enough
          simp only [List.length_nil] at enough total
          omega
        simp [waiting, finished, none]
    | waiting | draining => simp [point] at ends
  failed := by
    intro backend call error _ ends
    cases point : call.point <;> simp [point] at ends
  served := by
    intro kernel backend dst data after nonzero _ serves
    cases serves with
    | @read index future answer completion found running interruptions answers once =>
        have same : completion = completionOf future.request.token answer := by
          have last := readOnce_replicate once
          cases answer with
          | ok data =>
              cases last
              rfl
          | error errno =>
              simp only [Except.map, readOnce] at last
              split at last
              · cases last
              · cases last
                rfl
        refine ⟨trivial, rfl, ?_, served_finish found running answers same⟩
        rintro call ⟨size, inFlight, clamped, inv⟩
        exact ⟨size, inFlight, clamped,
          inv.step (Nat.le_of_eq clamped) (.pool completion.bytes completion.error found running)⟩

def contract (fails : Prop) (suits : ReadRequest → Prop) :
    implementation.Contract Opens fails suits :=
  { view with toLawful := view_lawful fails suits }

abbrev pace : implementation.Pace where
  Ready := fun _ => True
  steps := fun backend call => reapRank call.min ⟨backend, call.point⟩

/-- Either the caller can move, or the read it waits for can be done. -/
theorem pace_lawful : pace.Lawful view Opens where
  opened := fun _ => trivial
  submits := fun backend requests => ⟨_, _, rfl⟩
  accepted := fun _ _ => trivial
  moved := by
    rintro backend call after next - ⟨point, moves, rfl⟩
    exact ⟨trivial, reapRank_lt (.caller moves)⟩
  served := fun _ _ => trivial
  progress := by
    rintro kernel backend call total - - ⟨size, inFlight, clamped, inv⟩
    cases point : call.point with
    | returned out => exact .inl ⟨.ok out, by simp [point]⟩
    | waiting | draining =>
        obtain ⟨after, transition⟩ := inv.progress (Nat.le_of_eq clamped) (by simp [point])
        refine .inr ?_
        cases transition with
        | @caller after moves =>
            exact .inl ⟨after.backend, { call with point := after.point }, after.point,
              by rw [size]; exact moves, rfl⟩
        | @pool index future _ _ found running =>
            obtain ⟨data, answers⟩ := total future.request.offset future.request.dst.size
            exact .inr ⟨_, _, _, .read found running 0 answers rfl⟩

def prompt (fails : Prop) (suits : ReadRequest → Prop) : (contract fails suits).Prompt :=
  { pace with toLawful := pace_lawful }

end ThreadBackend

/-! ## The io_uring backend -/

namespace UringBackend

variable {strerror : Nat → String} {fails short : Prop}

/-- `open_uring_backend`, whatever the system gives it. -/
def Opens (strerror : Nat → String) (fd : Int) (options : BackendOptions)
    (opened : Outcome UringBackend) : Prop :=
  ∃ setup, openUringBackend strerror setup fd options = opened

/-- The request an entry was prepared for, if its length was not cut off. -/
def requestOf (entry : Sqe) : ReadRequest := ⟨entry.offset, entry.dst, entry.userData⟩

/-- The requests the kernel has not read yet. -/
def waiting (backend : UringBackend) : List ReadRequest := backend.queued.map requestOf

/-- The completions no reap has taken yet. -/
def finished (backend : UringBackend) : List Completion := backend.ring.posted.map toCompletion

/-- The buffers whose size an entry can hold. -/
def Narrow (request : ReadRequest) : Prop := request.dst.size < 2 ^ 32

/-- The count is right, and every entry reads all of its buffer. -/
structure Sizes (backend : UringBackend) : Prop where
  accounted : Accounted backend
  whole : ∀ entry ∈ backend.queued, entry.length = entry.dst.size

/-- A reap of one completion. -/
def ReapingOne (fails : Prop) (backend : UringBackend) (call : Call) : Prop :=
  call.size = 1 ∧ call.min = 1 ∧
    match call.point with
    | .waiting out => out.length ≤ 1
    | .returned out => out.length ≤ 1 ∧ (out = [] → backend.inFlight = 0)
    | .failed _ => fails

/-- Each request in flight waits or has finished. -/
theorem Sizes.count {backend : UringBackend} (sizes : Sizes backend) :
    backend.waiting.length + backend.finished.length = backend.inFlight := by
  have accounted := sizes.accounted
  simp only [Accounted] at accounted
  simp only [waiting, finished, queued, List.length_map, List.length_append]
  omega

/-- An entry holds its request. -/
theorem requestOf_sqeOf (fd : Int) (request : ReadRequest) :
    requestOf (sqeOf fd request) = request := rfl

/-- What is prepared waits behind the others. -/
theorem waiting_prepared {before after : UringBackend} {done : List ReadRequest}
    (prepared : Prepared before after done) : after.waiting = before.waiting ++ done := by
  simp [waiting, prepared.queued, Function.comp_def, requestOf_sqeOf]

/-- Narrow requests keep their sizes. -/
theorem Sizes.prepared {before after : UringBackend} {done : List ReadRequest}
    (sizes : Sizes before) (prepared : Prepared before after done)
    (accounted : Accounted after) (narrow : ∀ request ∈ done, Narrow request) : Sizes after where
  accounted := accounted
  whole := by
    intro entry member
    rw [prepared.queued] at member
    rcases List.mem_append.mp member with old | new
    · exact sizes.whole entry old
    · obtain ⟨request, asked, rfl⟩ := List.mem_map.mp new
      exact Nat.mod_eq_of_lt (narrow request asked)

/-- A submit that fails has prepared the first of its requests. -/
theorem submit_error {answers : Nat → SqeAnswer} {submitted : Except Nat Nat}
    {backend after : UringBackend} {requests : List ReadRequest} {error : Error}
    (same : submit strerror answers submitted backend requests = (.error error, after)) :
    (backend.depth < backend.inFlight + requests.length ∨ ¬ Succeeds answers submitted requests) ∧
      ∃ done, Prepared backend after (requests.take done) := by
  simp only [submit] at same
  split at same
  · next full =>
    cases same
    exact ⟨.inl full, 0, rfl, rfl, rfl, by simp, rfl⟩
  · rcases prepareAll_spec strerror answers 0 requests backend with
      ⟨prepared, ok, -, spec, -⟩ | ⟨failure, prepared, done, failed, inside, stops, -, spec⟩
    · simp only [ok] at same
      split at same
      · cases same
        refine ⟨.inr ?_, requests.length, by rwa [List.take_length]⟩
        rintro ⟨-, accepted, ⟨⟩⟩
      · cases same
    · simp only [failed] at same
      cases same
      refine ⟨.inr fun succeeds => ?_, done, spec⟩
      have gives := succeeds.1 done inside
      rw [Nat.zero_add, gives] at stops
      cases stops

/-- What a step of a reap of one completion does. -/
theorem ReapingOne.step {backend after : UringBackend} {call next : Call} (sizes : Sizes backend)
    (reaping : ReapingOne fails backend call)
    (moves : (restricted strerror fails short).moves backend call after next) :
    Sizes after ∧ ReapingOne fails after next ∧ after.depth = backend.depth ∧
      after.waiting = backend.waiting ∧
      next.point.out ++ after.finished = call.point.out ++ backend.finished := by
  obtain ⟨size, min, standing⟩ := reaping
  obtain ⟨moves, allowed⟩ := moves
  have accounted := sizes.accounted
  cases moves with
  | @failedWait out code point loops =>
      rw [point] at standing
      simp only [waits, min, Bool.and_eq_true, decide_eq_true_eq] at loops
      have none : out = [] := List.eq_nil_of_length_eq_zero (by omega)
      refine ⟨sizes, ⟨size, min, ?_⟩, rfl, rfl, by simp [point, none, Point.out]⟩
      exact allowed.resolve_right fun never => never _ rfl
  | @caller after point moves =>
      have stepped : Step strerror (fun _ => True) call.size call.min ⟨backend, call.point⟩
          ⟨after, point⟩ := .caller moves
      have counted : Accounted after :=
        @Accounted.step _ _ _ _ ⟨backend, call.point⟩ _ accounted stepped
      cases stands : call.point with
      | returned | failed => simp [stands, reapStep] at moves
      | waiting out =>
          rw [stands] at standing
          simp only [stands, reapStep, size, min] at moves
          split at moves
          · next loops =>
            simp only [waits, Bool.and_eq_true, decide_eq_true_eq] at loops
            simp only [waitCqe] at moves
            split at moves
            · next cqe posted found =>
              cases moves
              refine ⟨⟨counted, sizes.whole⟩, ⟨size, min, ?_⟩, rfl, rfl, ?_⟩
              · simp only [List.length_append, List.length_singleton]
                omega
              · simp [Point.out, finished, found]
            · cases moves
          · next ends =>
            have stopped := waits_eq_false (Bool.eq_false_iff.mpr ends)
            simp only [drain] at moves
            cases moves
            refine ⟨⟨counted, sizes.whole⟩, ⟨size, min, ?_, ?_⟩, rfl, rfl, ?_⟩
            · simp only [drainCount, List.length_append, List.length_map, List.length_take]
              dsimp only at standing
              omega
            · intro none
              have empty : out = [] := (List.append_eq_nil_iff.mp none).1
              rw [empty, List.length_nil] at stopped
              dsimp only
              omega
            · simp only [Point.out, finished, List.append_assoc, List.map_drop, List.map_take,
                List.take_append_drop]

abbrev view (strerror : Nat → String) (fails short : Prop) :
    (restricted strerror fails short).View where
  depth := UringBackend.depth
  waiting := waiting
  finished := finished
  taken := fun call => call.point.out
  Holds := Sizes
  Reaping := ReapingOne fails

/-- With buffers an entry can hold, and whatever the ring answers, the io_uring backend
keeps the contract. -/
theorem view_lawful (strerror : Nat → String) (fails short : Prop) :
    (view strerror fails short).Lawful (Opens strerror) fails Narrow where
  opened := by
    rintro fd options backend ⟨setup, opened⟩
    rw [openUringBackend_eq_ok opened]
    exact ⟨⟨rfl, by simp [queued]⟩, rfl, rfl, rfl⟩
  accepted := by
    rintro backend requests after sizes suit ⟨answers, submitted, same, -, -⟩
    have accounted := sizes.accounted.submit strerror answers submitted requests
    rcases submit_spec strerror answers submitted backend requests with
      ⟨middle, accepted, outcome, prepared, room, -, -⟩ | ⟨_, _, _, outcome, -⟩
    · rw [outcome] at same accounted
      cases same
      have flushed : Prepared backend (middle.flush accepted) requests :=
        ⟨prepared.fd, prepared.depth, prepared.inFlight, by rw [queued_flush, prepared.queued],
          prepared.posted⟩
      rw [sizes.count]
      exact ⟨room, sizes.prepared flushed accounted suit, flushed.depth,
        .of_eq (waiting_prepared flushed), congrArg (List.map toCompletion) flushed.posted⟩
    · rw [outcome] at same
      cases same
  refused := by
    rintro backend requests error after sizes suit ⟨answers, submitted, same, allowed, -⟩
    have accounted := sizes.accounted.submit strerror answers submitted requests
    rw [same] at accounted
    obtain ⟨reason, done, prepared⟩ := submit_error same
    rw [sizes.count]
    refine ⟨?_, sizes.prepared prepared accounted fun request member =>
        suit request (List.mem_of_mem_take member), prepared.depth,
      congrArg (List.map toCompletion) prepared.posted, done, .of_eq (waiting_prepared prepared)⟩
    rcases reason with full | failed
    · exact .inr full
    · exact .inl (allowed.resolve_right failed)
  begun := fun {backend} _ => ⟨⟨rfl, rfl, Nat.zero_le 1⟩, rfl⟩
  moved := by
    intro backend call after next sizes reaping moves
    obtain ⟨sizes, reaping, depth, waiting, taken⟩ := reaping.step sizes moves
    exact ⟨sizes, reaping, depth, waiting, .of_eq taken⟩
  reported := by
    rintro backend call out sizes ⟨-, -, standing⟩ ends
    cases point : call.point with
    | returned taken =>
        simp only [point] at ends standing
        cases ends
        refine ⟨(congrArg Point.out point).symm, standing.1, fun none => ?_⟩
        have count : (waiting backend).length + (finished backend).length = 0 :=
          sizes.count.trans (standing.2 none)
        have empty := Nat.add_eq_zero_iff.mp count
        exact ⟨List.eq_nil_of_length_eq_zero empty.1, List.eq_nil_of_length_eq_zero empty.2⟩
    | waiting | failed => simp [point] at ends
  failed := by
    rintro backend call error ⟨-, -, standing⟩ ends
    cases point : call.point with
    | failed => exact ⟨by simpa only [point] using standing, congrArg Point.out point⟩
    | waiting | returned => simp [point] at ends
  served := by
    intro kernel backend dst data after nonzero sizes serves
    cases serves with
    | @read index entry answer found answers =>
        have taken := queued_complete (resOf answer) found
        have length : entry.length = entry.dst.size :=
          sizes.whole entry (List.mem_append_left _ (List.mem_of_getElem? found))
        rw [length] at answers
        refine ⟨⟨sizes.accounted.complete _ found, fun other member => ?_⟩, rfl,
          fun call reaping => reaping, requestOf entry, answer, rfl, rfl, answers,
          taken.map requestOf, ?_⟩
        · exact sizes.whole other (taken.mem_iff.mpr (List.mem_cons_of_mem _ member))
        · have completed : toCompletion ⟨entry.userData, resOf answer⟩ =
              completionOf (requestOf entry).token answer := by
            cases answer with
            | ok data =>
                have notNegative : ¬ (data.length : Int) < 0 := by omega
                simp [toCompletion, resOf, completionOf, notNegative, requestOf]
            | error errno =>
                have nonzero := nonzero _ _ _ answers
                have negative : -(errno : Int) < 0 := by omega
                simp only [toCompletion, resOf, if_pos negative, completionOf, requestOf,
                  Int.neg_neg, Int.toNat_natCast]
          simp only [finished, complete, List.map_append, List.map_cons, List.map_nil, completed]
          exact List.perm_append_singleton _ _

def contract (strerror : Nat → String) (fails short : Prop) :
    (restricted strerror fails short).Contract (Opens strerror) fails Narrow :=
  { view strerror fails short with toLawful := view_lawful strerror fails short }

/-- A submit that hands all entries over leaves none prepared. -/
theorem submit_prepared {answers : Nat → SqeAnswer} {submitted : Except Nat Nat}
    {backend after : UringBackend} {requests : List ReadRequest}
    (same : submit strerror answers submitted backend requests = (.ok (), after))
    (handed : ¬ FallsShort answers submitted backend requests)
    (ready : backend.ring.prepared = []) : after.ring.prepared = [] := by
  rcases submit_spec strerror answers submitted backend requests with
    ⟨middle, accepted, outcome, -, -, -, short⟩ | ⟨_, _, _, outcome, -⟩
  · by_cases none : requests = []
    · subst none
      simp only [submit, prepareAll] at same
      split at same
      · cases same
      · split at same
        · cases same
        · cases same
          simp [flush, ready]
    · rw [outcome] at same
      cases same
      rw [short] at handed
      exact List.drop_eq_nil_of_le (Nat.le_of_not_lt fun fewer => handed ⟨none, fewer⟩)
  · rw [outcome] at same
    cases same

/-- A step of `reap` prepares nothing. -/
theorem reapStep_prepared {size min : Nat} {before after : Reaping}
    (moves : reapStep size min before = some after) :
    after.backend.ring.prepared = before.backend.ring.prepared := by
  obtain ⟨backend, point⟩ := before
  cases point with
  | waiting out =>
      simp only [reapStep, waitCqe] at moves
      split at moves
      · split at moves <;> cases moves
        rfl
      · cases moves
        rfl
  | returned | failed => simp [reapStep] at moves

/-- A step that succeeds does not fail the call. -/
theorem reapStep_not_failed {size min : Nat} {before after : Reaping} {error : Error}
    (moves : reapStep size min before = some after) : after.point ≠ .failed error := by
  obtain ⟨backend, point⟩ := before
  cases point with
  | waiting out =>
      simp only [reapStep, waitCqe] at moves
      split at moves
      · split at moves <;> cases moves
        simp
      · cases moves
        simp [drain]
  | returned | failed => simp [reapStep] at moves

/-- The caller waits only for something in flight of which nothing is posted. -/
theorem reapStep_eq_none {size min : Nat} {backend : UringBackend} {point : Point}
    {out : List Completion} (waiting : point = .waiting out)
    (blocked : reapStep size min ⟨backend, point⟩ = none) :
    backend.ring.posted = [] ∧ 0 < backend.inFlight := by
  subst waiting
  simp only [reapStep, waitCqe] at blocked
  split at blocked
  · next loops =>
    simp only [waits, Bool.and_eq_true, decide_eq_true_eq] at loops
    split at blocked
    · cases blocked
    · next nothing => exact ⟨nothing, by omega⟩
  · cases blocked

abbrev pace (strerror : Nat → String) (fails : Prop) : (restricted strerror fails False).Pace where
  Ready := fun backend => backend.ring.prepared = []
  steps := fun backend call => reapRank ⟨backend, call.point⟩

/-- When `io_uring_submit` hands every entry over, either the caller can move, or the
kernel can. -/
theorem pace_lawful (strerror : Nat → String) (fails : Prop) :
    (pace strerror fails).Lawful (view strerror fails False) (Opens strerror) where
  opened := by
    rintro fd options backend ⟨setup, opened⟩
    rw [openUringBackend_eq_ok opened]
  submits := by
    intro backend requests
    let answers : Nat → SqeAnswer := fun _ => .available
    let waiting := unsubmitted answers 0 requests.length backend.ring.prepared.length
    refine ⟨_, _, answers, .ok waiting, rfl, .inr ⟨fun _ _ => rfl, waiting, rfl⟩, .inr ?_⟩
    rintro ⟨-, -, -, accepted, same, short⟩
    cases same
    exact Nat.lt_irrefl _ short
  accepted := by
    rintro backend requests after ready ⟨answers, submitted, same, -, handed⟩
    exact submit_prepared same (handed.resolve_left id) ready
  moved := by
    rintro backend call after next ready ⟨moves, -⟩
    cases moves with
    | @caller after point moves =>
        have stepped : Step strerror (fun _ => False) call.size call.min ⟨backend, call.point⟩
            ⟨after, point⟩ := .caller moves
        exact ⟨(reapStep_prepared moves).trans ready, reapRank_lt stepped⟩
    | failedWait point =>
        refine ⟨ready, ?_⟩
        simp only [reapRank, point]
        omega
  served := by
    intro kernel backend dst data after ready serves
    cases serves
    exact ready
  progress := by
    rintro kernel backend call total ready sizes ⟨size, min, standing⟩
    cases point : call.point with
    | returned out => exact .inl ⟨.ok out, by simp only [point]⟩
    | failed error => exact .inl ⟨.error error, by simp only [point]⟩
    | waiting out =>
        refine .inr ?_
        cases moves : reapStep call.size call.min ⟨backend, call.point⟩ with
        | some after =>
            obtain ⟨after, next⟩ := after
            refine .inl ⟨after, { call with point := next }, .caller moves, .inr ?_⟩
            rintro error rfl
            exact reapStep_not_failed moves rfl
        | none =>
            obtain ⟨nothing, more⟩ := reapStep_eq_none point moves
            have accounted := sizes.accounted
            have handed : backend.ring.prepared = [] := ready
            simp only [Accounted, handed, nothing, List.length_nil] at accounted
            have bound : 0 < backend.ring.executing.length := by omega
            obtain ⟨data, answers⟩ := total backend.ring.executing[0].offset
              backend.ring.executing[0].length
            exact .inr ⟨_, _, _, .read (List.getElem?_eq_getElem bound) answers⟩

def prompt (strerror : Nat → String) (fails : Prop) :
    (contract strerror fails False).Prompt :=
  { pace strerror fails with toLawful := pace_lawful strerror fails }

end UringBackend

/-! ## Either -/

section Either

variable {first second : Implementation} {fails : Prop} {suits others : ReadRequest → Prop}
variable {opensFirst : Int → BackendOptions → Outcome first.Backend → Prop}
variable {opensSecond : Int → BackendOptions → Outcome second.Backend → Prop}

/-- How a backend of either class is opened, if it is opened as its class says. -/
structure Either (opensFirst : Int → BackendOptions → Outcome first.Backend → Prop)
    (opensSecond : Int → BackendOptions → Outcome second.Backend → Prop)
    (opens : Int → BackendOptions → Outcome (first.Backend ⊕ second.Backend) → Prop) : Prop where
  left {fd options backend} (opening : opens fd options (.ok (.inl backend))) :
    opensFirst fd options (.ok backend)
  right {fd options backend} (opening : opens fd options (.ok (.inr backend))) :
    opensSecond fd options (.ok backend)

variable {opens : Int → BackendOptions → Outcome (first.Backend ⊕ second.Backend) → Prop}

/-- A backend of either class keeps the contract when both classes do. -/
def Implementation.Contract.either (contract : first.Contract opensFirst fails suits)
    (other : second.Contract opensSecond fails others)
    (either : Either opensFirst opensSecond opens) :
    (first.either second).Contract opens fails fun request => suits request ∧ others request where
  depth := Sum.elim contract.depth other.depth
  waiting := Sum.elim contract.waiting other.waiting
  finished := Sum.elim contract.finished other.finished
  taken := Sum.elim contract.taken other.taken
  Holds := Sum.elim contract.Holds other.Holds
  Reaping := fun backend call =>
    match backend, call with
    | .inl backend, .inl call => contract.Reaping backend call
    | .inr backend, .inr call => other.Reaping backend call
    | _, _ => False
  opened := by
    rintro fd options (backend | backend) opening
    · exact contract.opened (either.left opening)
    · exact other.opened (either.right opening)
  accepted := by
    rintro (backend | backend) requests (after | after) holds suit submits
    · exact contract.accepted holds (fun request member => (suit request member).1) submits
    · exact submits.elim
    · exact submits.elim
    · exact other.accepted holds (fun request member => (suit request member).2) submits
  refused := by
    rintro (backend | backend) requests error (after | after) holds suit submits
    · exact contract.refused holds (fun request member => (suit request member).1) submits
    · exact submits.elim
    · exact submits.elim
    · exact other.refused holds (fun request member => (suit request member).2) submits
  begun := by
    rintro (backend | backend) holds
    · exact contract.begun holds
    · exact other.begun holds
  moved := by
    rintro (backend | backend) (call | call) (after | after) (next | next) holds reaping moves
    case inl.inl.inl.inl => exact contract.moved holds reaping moves
    case inr.inr.inr.inr => exact other.moved holds reaping moves
    all_goals exact moves.elim
  reported := by
    rintro (backend | backend) (call | call) out holds reaping ends
    · exact contract.reported holds reaping ends
    · exact reaping.elim
    · exact reaping.elim
    · exact other.reported holds reaping ends
  failed := by
    rintro (backend | backend) (call | call) error reaping ends
    · exact contract.failed reaping ends
    · exact reaping.elim
    · exact reaping.elim
    · exact other.failed reaping ends
  served := by
    rintro kernel (backend | backend) dst data (after | after) nonzero holds serves
    · obtain ⟨holds, depth, keeps, served⟩ := contract.served nonzero holds serves
      refine ⟨holds, depth, ?_, served⟩
      rintro (call | call) reaping
      · exact keeps call reaping
      · exact reaping.elim
    · exact serves.elim
    · exact serves.elim
    · obtain ⟨holds, depth, keeps, served⟩ := other.served nonzero holds serves
      refine ⟨holds, depth, ?_, served⟩
      rintro (call | call) reaping
      · exact reaping.elim
      · exact keeps call reaping

def Implementation.Contract.Prompt.either {contract : first.Contract opensFirst fails suits}
    {other : second.Contract opensSecond fails others} (prompt : contract.Prompt)
    (otherPrompt : other.Prompt) (either : Either opensFirst opensSecond opens) :
    (contract.either other either).Prompt where
  Ready := Sum.elim prompt.Ready otherPrompt.Ready
  steps := fun backend call =>
    match backend, call with
    | .inl backend, .inl call => prompt.steps backend call
    | .inr backend, .inr call => otherPrompt.steps backend call
    | _, _ => 0
  opened := by
    rintro fd options (backend | backend) opening
    · exact prompt.opened (either.left opening)
    · exact otherPrompt.opened (either.right opening)
  submits := by
    rintro (backend | backend) requests
    · obtain ⟨got, after, submits⟩ := prompt.submits backend requests
      exact ⟨got, .inl after, submits⟩
    · obtain ⟨got, after, submits⟩ := otherPrompt.submits backend requests
      exact ⟨got, .inr after, submits⟩
  accepted := by
    rintro (backend | backend) requests (after | after) ready submits
    · exact prompt.accepted ready submits
    · exact submits.elim
    · exact submits.elim
    · exact otherPrompt.accepted ready submits
  moved := by
    rintro (backend | backend) (call | call) (after | after) (next | next) ready moves
    case inl.inl.inl.inl => exact prompt.moved ready moves
    case inr.inr.inr.inr => exact otherPrompt.moved ready moves
    all_goals exact moves.elim
  served := by
    rintro kernel (backend | backend) dst data (after | after) ready serves
    · exact prompt.served ready serves
    · exact serves.elim
    · exact serves.elim
    · exact otherPrompt.served ready serves
  progress := by
    rintro kernel (backend | backend) (call | call) total ready holds reaping
    · rcases prompt.progress total ready holds reaping with ended | ⟨after, next, moves⟩ |
        ⟨dst, data, after, serves⟩
      · exact .inl ended
      · exact .inr (.inl ⟨.inl after, .inl next, moves⟩)
      · exact .inr (.inr ⟨dst, data, .inl after, serves⟩)
    · exact reaping.elim
    · exact reaping.elim
    · rcases otherPrompt.progress total ready holds reaping with ended | ⟨after, next, moves⟩ |
        ⟨dst, data, after, serves⟩
      · exact .inl ended
      · exact .inr (.inl ⟨.inr after, .inr next, moves⟩)
      · exact .inr (.inr ⟨dst, data, .inr after, serves⟩)

end Either

/-! ## What `open_backend` gives -/

/-- `open_backend`, whatever the system gives it. -/
def BackendOpens (strerror : Nat → String) (fd : Int) (options : BackendOptions)
    (opened : Outcome (UringBackend ⊕ ThreadBackend)) : Prop :=
  ∃ setup construction, openBackend strerror setup construction fd options = opened

/-- What `open_backend` gives is one of the two backends. -/
theorem opens_either (strerror : Nat → String) (fails short : Prop) :
    @Either (UringBackend.restricted strerror fails short) ThreadBackend.implementation
      (UringBackend.Opens strerror) ThreadBackend.Opens (BackendOpens strerror) where
  left := by
    rintro fd options backend ⟨setup, construction, opened⟩
    rcases openBackend_eq_ok opened with ⟨uring, ⟨⟩, opened⟩ | ⟨thread, ⟨⟩, -⟩
    exact ⟨setup, opened⟩
  right := by
    rintro fd options backend ⟨setup, construction, opened⟩
    rcases openBackend_eq_ok opened with ⟨uring, ⟨⟩, -⟩ | ⟨thread, ⟨⟩, opened⟩
    exact ⟨construction, opened⟩

/-- What `backend_` points to. -/
abbrev backendOf (strerror : Nat → String) (fails short : Prop) : Implementation :=
  (UringBackend.restricted strerror fails short).either ThreadBackend.implementation

def backendContract (strerror : Nat → String) (fails short : Prop) :
    (backendOf strerror fails short).Contract (BackendOpens strerror) fails fun request =>
      UringBackend.Narrow request ∧ True :=
  (UringBackend.contract strerror fails short).either
    (ThreadBackend.contract fails fun _ => True) (opens_either strerror fails short)

def backendPrompt (strerror : Nat → String) (fails : Prop) :
    (backendContract strerror fails False).Prompt :=
  (UringBackend.prompt strerror fails).either (ThreadBackend.prompt fails fun _ => True)
    (opens_either strerror fails False)

end Dsio
