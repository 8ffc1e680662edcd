import Mathlib.Data.List.Perm.Basic
import Dsio.Library.Run
import Dsio.Service
import Dsio.UringSubmitting

/-!
# Completions are reported once

Whatever is accepted is reported or still in the backend. The books are kept in any
currency: `ofRequest` says what a request is worth, and a read that is done is worth as
much as its request was. On the io_uring backend a reap whose wait fails drops what it
has taken, and a submit that fails late leaves entries nobody accounts for.
-/

namespace Dsio

open Transition

universe u

variable {Worth : Type u} {kernel : Kernel}

namespace ThreadBackend

/-- What a future is worth. -/
def Future.worth (ofRequest : ReadRequest → Worth) (ofCompletion : Completion → Worth)
    (future : Future) : Worth :=
  match future.result with
  | some completion => ofCompletion completion
  | none => ofRequest future.request

/-- The completions of the reap in progress. -/
def outOf (service : Service implementation) : List Completion :=
  match service.call with
  | some call => call.point.out
  | none => []

/-- The books: completions are reported in the order of their requests. -/
def Balanced (ofRequest : ReadRequest → Worth) (ofCompletion : Completion → Worth)
    (service : Service implementation) : Prop :=
  service.accepted.map ofRequest = (service.reported ++ outOf service).map ofCompletion ++
    service.backend.pending.map (Future.worth ofRequest ofCompletion)

/-- A step of `reap` changes nothing or takes the oldest future, which is finished. -/
theorem move_cases {backend after : ThreadBackend} {call next : Call}
    (moves : implementation.moves backend call after next) :
    after.pending = backend.pending ∧ next.point.out = call.point.out ∨
      ∃ future completion, backend.pending = future :: after.pending ∧
        future.result = some completion ∧ next.point.out = call.point.out ++ [completion] := by
  obtain ⟨point, moves, rfl⟩ := moves
  cases stands : call.point with
  | waiting index =>
      simp only [stands, reapStep] at moves
      split at moves
      · split at moves
        · cases moves
          exact .inl ⟨rfl, rfl⟩
        · cases moves
      · cases moves
        exact .inl ⟨rfl, rfl⟩
  | draining out =>
      simp only [stands, reapStep] at moves
      split at moves
      · split at moves
        · next found =>
          cases moves
          exact .inr ⟨_, _, found, rfl, rfl⟩
        · cases moves
          exact .inl ⟨rfl, rfl⟩
      · cases moves
        exact .inl ⟨rfl, rfl⟩
  | returned out => simp [stands, reapStep] at moves

/-- A completion has the token of its request. -/
theorem readOnce_token {request : ReadRequest} {answers : List (Except Nat Nat)}
    {completion : Completion} (once : readOnce request answers = some completion) :
    completion.token = request.token := by
  induction answers with
  | nil => cases once
  | cons answer more ih =>
      cases answer with
      | ok => cases once; rfl
      | error errno =>
          simp only [readOnce] at once
          split at once
          · exact ih once
          · cases once
            rfl

/-- `read_once` gives what its last attempt did, unless that was interrupted too. -/
theorem readOnce_replicate {request : ReadRequest} {interruptions : Nat}
    {answer : Except Nat Nat} {completion : Completion}
    (once : readOnce request (List.replicate interruptions (.error eintr) ++ [answer]) =
      some completion) :
    readOnce request [answer] = some completion := by
  induction interruptions with
  | zero => exact once
  | succ interruptions ih => exact ih (by simpa [List.replicate_succ, readOnce] using once)

theorem Balanced.step {ofRequest : ReadRequest → Worth} {ofCompletion : Completion → Worth}
    (honest : ∀ request answer completion,
      kernel request.offset request.dst.size answer →
      readOnce request [answer.map List.length] = some completion →
      ofCompletion completion = ofRequest request)
    {before after : Service implementation} (balanced : Balanced ofRequest ofCompletion before)
    (transition : Service.Step kernel before after) : Balanced ofRequest ofCompletion after := by
  simp only [Balanced, outOf] at balanced ⊢
  cases transition with
  | @submit requests got backend idle submits =>
      simp only [submit] at submits
      split at submits
      · cases submits
        simpa [Service.acceptedOf] using balanced
      · cases submits
        simp only [Service.acceptedOf, List.map_append, balanced, List.map_map, List.append_assoc]
        rfl
  | reap idle size min =>
      simpa [idle, Point.out] using balanced
  | @move call backend next busy moves =>
      rw [busy] at balanced
      rcases move_cases moves with ⟨pending, out⟩ | ⟨future, completion, found, result, out⟩
      · simpa only [pending, out] using balanced
      · simpa [found, out, Future.worth, result] using balanced
  | @finish call got busy ends =>
      rw [busy] at balanced
      cases point : call.point with
      | returned out =>
          simp only [point] at ends
          cases ends
          simpa [point, Point.out, Service.reportedOf] using balanced
      | waiting | draining => simp [point] at ends
  | serve serves =>
      cases serves with
      | @read index future answer completion found running interruptions answers once =>
          have worth := honest future.request answer completion answers (readOnce_replicate once)
          have same : (finish index completion.bytes completion.error
              before.backend.pending).map (Future.worth ofRequest ofCompletion) =
              before.backend.pending.map (Future.worth ofRequest ofCompletion) := by
            obtain ⟨bound, rfl⟩ := List.getElem?_eq_some_iff.mp found
            refine List.ext_getElem (by simp [finish]) fun position _ inside => ?_
            rw [List.length_map] at inside
            simp only [List.getElem_map, finish, List.getElem_modify]
            split
            · next own =>
              subst own
              rw [← readOnce_token once]
              simp only [Future.worth, running, worth]
            · rfl
          rw [same]
          exact balanced

/-- A finished future has the token of its request. -/
def Own (backend : ThreadBackend) : Prop :=
  ∀ future ∈ backend.pending, ∀ completion, future.result = some completion →
    completion.token = future.request.token

/-- Every step keeps the completions of a call its own. -/
theorem Own.step {before after : Service implementation} (own : Own before.backend)
    (transition : Service.Step kernel before after) : Own after.backend := by
  cases transition with
  | @submit requests got backend idle submits =>
      simp only [submit] at submits
      split at submits
      · cases submits
        exact own
      · cases submits
        intro future member completion found
        rcases List.mem_append.mp member with old | new
        · exact own future old completion found
        · obtain ⟨request, -, rfl⟩ := List.mem_map.mp new
          cases found
  | reap => exact own
  | finish => exact own
  | @move call backend next busy moves =>
      rcases move_cases moves with ⟨pending, -⟩ | ⟨future, completion, found, -⟩
      · exact fun future member => own future (pending ▸ member)
      · exact fun other member => own other (found ▸ List.mem_cons_of_mem _ member)
  | serve serves =>
      cases serves with
      | @read index future answer completion found =>
          intro other member result got
          obtain ⟨position, bound, rfl⟩ := List.mem_iff_getElem.mp member
          simp only [finish, List.getElem_modify] at got ⊢
          by_cases served : index = position
          · rw [if_pos served] at got ⊢
            cases got
            rfl
          · rw [if_neg served] at got ⊢
            exact own _ (List.getElem_mem _) result got

/-- The tokens of the accepted requests are those reported, those about to be, and those
in flight, of which there are `in_flight()`. -/
def ReportedOnce (service : Service implementation) : Prop :=
  (service.accepted.map (·.token)).Perm
      ((service.reported ++ outOf service).map (·.token) ++
        service.backend.pending.map (·.request.token)) ∧
    service.backend.inFlight = service.backend.pending.length

end ThreadBackend

namespace UringBackend

variable {strerror : Nat → String}

/-- The completions of the reap in progress. -/
def outOf (service : Service (implementation strerror)) : List Completion :=
  match service.call with
  | some call => call.point.out
  | none => []

/-- The books, up to the order in which the kernel completes the requests. -/
def Balanced (ofSqe : Sqe → Worth) (ofRequest : ReadRequest → Worth)
    (ofCompletion : Completion → Worth) (service : Service (implementation strerror)) : Prop :=
  (service.accepted.map ofRequest).Perm
    ((service.reported ++ outOf service).map ofCompletion ++
      (service.backend.ring.posted.map (fun cqe => ofCompletion (toCompletion cqe)) ++
        service.backend.queued.map ofSqe))

/-- A submit that fails late, or a reap whose wait fails after it took a completion. -/
inductive Loses (before : Service (implementation strerror)) :
    Service (implementation strerror) → Prop where
  | submit {answers submitted requests} (idle : before.call = none)
      (late : FailsLate answers submitted before.backend requests) :
      Loses before { before with
        backend := (submit strerror answers submitted before.backend requests).2
        accepted := before.accepted ++ Service.acceptedOf requests
          (submit strerror answers submitted before.backend requests).1 }
  | wait {call out error} (busy : before.call = some call) (point : call.point = .waiting out)
      (taken : out ≠ []) :
      Loses before { before with call := some { call with point := .failed error } }

/-- What a submit that does not fail late leaves in the ring. -/
theorem submit_queued {answers : Nat → SqeAnswer} {submitted : Except Nat Nat}
    {backend after : UringBackend} {requests : List ReadRequest} {got : Outcome Unit}
    (same : submit strerror answers submitted backend requests = (got, after))
    (early : ¬ FailsLate answers submitted backend requests) :
    after.ring.posted = backend.ring.posted ∧ after.queued =
      backend.queued ++ (Service.acceptedOf requests got).map (sqeOf backend.fd) := by
  rcases submit_spec strerror answers submitted backend requests with
    ⟨full, accepted, outcome, prepared, -, -, -⟩ | ⟨error, full, first, outcome, prepared, late, -⟩
  · rw [outcome] at same
    cases same
    exact ⟨prepared.posted, by rw [queued_flush, prepared.queued]; rfl⟩
  · rw [outcome] at same
    cases same
    have none : first = [] := by
      by_contra begun
      exact early (late.mpr begun)
    exact ⟨prepared.posted, by rw [prepared.queued, none]; rfl⟩

/-- A submit that fails late leaves more in the ring than there was. -/
theorem submit_late (strerror : Nat → String) {answers : Nat → SqeAnswer}
    {submitted : Except Nat Nat} {backend : UringBackend} {requests : List ReadRequest}
    (late : FailsLate answers submitted backend requests) :
    ∃ error after, submit strerror answers submitted backend requests = (.error error, after) ∧
      after.ring.posted = backend.ring.posted ∧ backend.queued.length < after.queued.length := by
  rcases submit_spec strerror answers submitted backend requests with
    ⟨-, -, -, -, -, early, -⟩ | ⟨error, after, first, outcome, prepared, begun, -⟩
  · exact absurd late early
  · refine ⟨error, after, outcome, prepared.posted, ?_⟩
    have some := List.length_pos_iff.mpr (begun.mp late)
    rw [prepared.queued, List.length_append, List.length_map]
    omega

/-- A submit that loses nothing. -/
theorem submit_keeps {before : Service (implementation strerror)} {requests : List ReadRequest}
    {got : Outcome Unit} {backend : UringBackend} (idle : before.call = none)
    (submits : (implementation strerror).submits before.backend requests got backend)
    (keeps : ¬ Loses before { before with
      backend, accepted := before.accepted ++ Service.acceptedOf requests got }) :
    backend.ring.posted = before.backend.ring.posted ∧ backend.queued =
      before.backend.queued ++
        (Service.acceptedOf requests got).map (sqeOf before.backend.fd) := by
  obtain ⟨answers, submitted, same⟩ := submits
  refine submit_queued same fun late => keeps ?_
  have loses := Loses.submit idle late
  rwa [same] at loses

/-- A step of `reap` takes some posted completions, or its wait fails. -/
theorem move_cases {backend after : UringBackend} {call next : Call}
    (moves : Moves strerror backend call after next) :
    after.queued = backend.queued ∧
      ((∃ count, next.point.out = call.point.out ++
            (backend.ring.posted.take count).map toCompletion ∧
          after.ring.posted = backend.ring.posted.drop count) ∨
        ∃ out error, call.point = .waiting out ∧ next = { call with point := .failed error } ∧
          after = backend) := by
  cases moves with
  | failedWait point => exact ⟨rfl, .inr ⟨_, _, point, rfl, rfl⟩⟩
  | @caller after point moves =>
      cases stands : call.point with
      | returned | failed => simp [stands, reapStep] at moves
      | waiting out =>
          simp only [stands, reapStep] at moves
          split at moves
          · simp only [waitCqe] at moves
            split at moves
            · next found =>
              cases moves
              exact ⟨rfl, .inl ⟨1, by simp [found, Point.out], by simp [found]⟩⟩
            · cases moves
          · cases moves
            exact ⟨rfl, .inl ⟨drainCount call.size backend out, rfl, rfl⟩⟩

/-- The kernel takes the entry it has completed out of the ring. -/
theorem queued_complete {backend : UringBackend} {index : Nat} {entry : Sqe} (res : Int)
    (found : backend.ring.executing[index]? = some entry) :
    backend.queued.Perm (entry :: queued { backend with
      ring := complete index entry res backend.ring }) := by
  obtain ⟨bound, rfl⟩ := List.getElem?_eq_some_iff.mp found
  exact (List.getElem_cons_eraseIdx_perm bound).symm.append_right _

theorem Balanced.step {ofSqe : Sqe → Worth} {ofRequest : ReadRequest → Worth}
    {ofCompletion : Completion → Worth}
    (prepares : ∀ fd request, ofSqe (sqeOf fd request) = ofRequest request)
    (honest : ∀ entry answer, kernel entry.offset entry.length answer →
      ofCompletion (toCompletion ⟨entry.userData, resOf answer⟩) = ofSqe entry)
    {before after : Service (implementation strerror)}
    (balanced : Balanced ofSqe ofRequest ofCompletion before)
    (transition : Service.Step kernel before after) (keeps : ¬ Loses before after) :
    Balanced ofSqe ofRequest ofCompletion after := by
  simp only [Balanced, outOf] at balanced ⊢
  cases transition with
  | @submit requests got backend idle submits =>
      obtain ⟨posted, queued⟩ := submit_keeps idle submits keeps
      have grown := balanced.append_right ((Service.acceptedOf requests got).map ofRequest)
      rw [posted, queued]
      simpa only [List.map_append, List.append_assoc, List.map_map, Function.comp_def, prepares]
        using grown
  | reap idle size min =>
      simpa [idle, Point.out] using balanced
  | @move call backend next busy moves =>
      rw [busy] at balanced
      obtain ⟨queued, ⟨count, out, posted⟩ | ⟨out, error, point, rfl, rfl⟩⟩ := move_cases moves
      · rw [← List.take_append_drop count before.backend.ring.posted] at balanced
        simpa only [out, posted, queued, List.map_append, List.map_map, List.append_assoc,
          Function.comp_def] using balanced
      · have none : out = [] := by
          by_contra taken
          exact keeps (.wait busy point taken)
        simpa only [point, Point.out, none] using balanced
  | @finish call got busy ends =>
      rw [busy] at balanced
      cases point : call.point with
      | returned out =>
          simp only [point] at ends
          cases ends
          simpa [point, Point.out, Service.reportedOf] using balanced
      | failed =>
          simp only [point] at ends
          cases ends
          simpa [point, Point.out, Service.reportedOf] using balanced
      | waiting => simp [point] at ends
  | serve serves =>
      cases serves with
      | @read index entry answer found answers =>
          have taken := (queued_complete (resOf answer) found).map ofSqe
          rw [List.map_cons, ← honest entry answer answers] at taken
          refine balanced.trans (List.Perm.append_left _ ?_)
          simp only [complete, List.map_append, List.map_cons, List.map_nil, List.append_assoc,
            List.singleton_append]
          exact taken.append_left _

/-- The tokens of the accepted requests are those reported, those about to be, and those
in flight, of which there are `in_flight()`. -/
def ReportedOnce (service : Service (implementation strerror)) : Prop :=
  (service.accepted.map (·.token)).Perm
      ((service.reported ++ outOf service).map (·.token) ++
        (service.backend.ring.posted.map (·.userData) ++
          service.backend.queued.map (·.userData))) ∧
    service.backend.inFlight =
      service.backend.ring.posted.length + service.backend.queued.length

@[simp] theorem toCompletion_token (cqe : Cqe) : (toCompletion cqe).token = cqe.userData := by
  simp only [toCompletion]
  split <;> rfl

/-- The books in tokens, and the count. -/
def Kept (service : Service (implementation strerror)) : Prop :=
  Balanced (·.userData) (·.token) (·.token) service ∧ Accounted service.backend

/-- What is kept was reported once. -/
theorem Kept.reportedOnce {service : Service (implementation strerror)} (kept : Kept service) :
    ReportedOnce service := by
  obtain ⟨balanced, accounted⟩ := kept
  refine ⟨by simpa [Balanced] using balanced, ?_⟩
  simp only [Accounted, queued, List.length_append] at accounted ⊢
  omega

/-- A step that loses nothing keeps the account. -/
theorem Kept.step {before after : Service (implementation strerror)} (kept : Kept before)
    (transition : Service.Step kernel before after) (keeps : ¬ Loses before after) :
    Kept after := by
  refine ⟨kept.1.step (fun _ _ => rfl) (fun _ _ _ => by simp) transition keeps, ?_⟩
  have accounted := kept.2
  cases transition with
  | @submit requests got backend idle submits =>
      obtain ⟨answers, submitted, same⟩ := submits
      have counted := accounted.submit strerror answers submitted requests
      rw [same] at counted
      exact counted
  | reap => exact accounted
  | finish => exact accounted
  | @move call backend next busy moves =>
      cases moves with
      | @caller after point moves =>
          have stepped : Step strerror (fun _ => True) call.size call.min
              ⟨before.backend, call.point⟩ ⟨backend, point⟩ := .caller moves
          exact Accounted.step accounted stepped
      | failedWait => exact accounted
  | serve serves =>
      cases serves with
      | read found => exact accounted.complete _ found

/-- A loss shows: the ring holds more than before though nothing was accepted, or the
reap has failed. -/
theorem Loses.shows {before after : Service (implementation strerror)}
    (loses : Loses before after) :
    after.accepted = before.accepted ∧ before.backend.queued.length < after.backend.queued.length ∨
      ∃ call error, after.call = some call ∧ call.point = .failed error := by
  cases loses with
  | submit idle late =>
      obtain ⟨error, after, failed, -, more⟩ := submit_late strerror late
      rw [failed]
      exact .inl ⟨List.append_nil _, more⟩
  | wait => exact .inr ⟨_, _, rfl, rfl⟩

/-- What is lost stays lost to the books. -/
theorem Kept.lost {before after : Service (implementation strerror)} (kept : Kept before)
    (loses : Loses before after) : ¬ ReportedOnce after := by
  intro reported
  have lengths := kept.reportedOnce.1.length_eq
  have lengthsAfter := reported.1.length_eq
  simp only [outOf, List.length_append, List.length_map] at lengths lengthsAfter
  cases loses with
  | submit idle late =>
      obtain ⟨error, after, failed, posted, more⟩ := submit_late strerror late
      simp only [failed, Service.acceptedOf, List.append_nil, posted, idle] at lengths lengthsAfter
      omega
  | @wait call out error busy point taken =>
      have some := List.length_pos_iff.mpr taken
      simp only [busy, point, Point.out, List.length_nil] at lengths lengthsAfter
      omega

/-- A backend that has just been opened. -/
def opened (strerror : Nat → String) (fd : Int) (depth : Nat) :
    Service (implementation strerror) where
  backend := { fd, depth }

/-- A new backend has an even account. -/
theorem kept_opened (strerror : Nat → String) (fd : Int) (depth : Nat) :
    Kept (opened strerror fd depth) := ⟨.refl _, rfl⟩

end UringBackend

namespace ThreadBackend

/-- A backend that has just been opened. -/
def opened (fd : Int) (depth : Nat) : Service implementation where
  backend := { fd, depth }

/-- The thread backend reports every request once along every run. -/
theorem reportedOnce_of_reaches {fd : Int} {depth : Nat} {service : Service implementation}
    (run : Reaches (Service.Step kernel) (opened fd depth) service) : ReportedOnce service := by
  have balanced : Balanced (·.token) (·.token) service :=
    run.preserves (fun balanced transition => balanced.step
      (fun _ _ _ _ once => readOnce_token once) transition) rfl
  have own : Own service.backend := run.preserves Own.step (by simp [Own, opened])
  have tokens : service.backend.pending.map (Future.worth (·.token) (·.token)) =
      service.backend.pending.map (·.request.token) := by
    refine List.map_congr_left fun future member => ?_
    cases result : future.result with
    | none => simp only [Future.worth, result]
    | some completion => simpa only [Future.worth, result] using own future member _ result
  refine ⟨?_, rfl⟩
  rw [balanced, tokens]

end ThreadBackend

/-- Over every sequence of submits and reaps, whatever the reads give and in whatever
order they are done: the thread backend reports every accepted request once, and the
io_uring backend does so exactly as long as no submit fails late and no wait fails after
its reap took a completion. -/
theorem completions_reported_once (kernel : Kernel) (fd : Int) (depth : Nat) :
    (∀ service, Reaches (Service.Step kernel) (ThreadBackend.opened fd depth) service →
      ThreadBackend.ReportedOnce service) ∧
    ∀ (strerror : Nat → String) (passed : List (Service (UringBackend.implementation strerror))),
      Run (Service.Step kernel) (UringBackend.opened strerror fd depth) passed →
      ((∀ service ∈ UringBackend.opened strerror fd depth :: passed,
          UringBackend.ReportedOnce service) ↔
        Avoids UringBackend.Loses (UringBackend.opened strerror fd depth) passed) := by
  refine ⟨fun service run => ThreadBackend.reportedOnce_of_reaches run, ?_⟩
  intro strerror passed run
  exact run.always_iff (UringBackend.kept_opened strerror fd depth)
    UringBackend.Kept.reportedOnce UringBackend.Kept.step
    (fun kept _ loses => kept.lost loses)

/-! ## An interrupted reap -/

namespace UringBackend

def threeRequests : List ReadRequest :=
  [⟨0, ⟨4096, 512⟩, 0⟩, ⟨512, ⟨8192, 512⟩, 1⟩, ⟨1024, ⟨12288, 512⟩, 2⟩]

/-- The requests have been handed to the kernel. -/
def threeSubmitted : Service (implementation fun _ => "") where
  backend := (submit (fun _ => "") (fun _ => .available) (.ok 3) { fd := 3, depth := 3 }
    threeRequests).2
  accepted := threeRequests

/-- The first read is done. -/
def oneServed : Service (implementation fun _ => "") where
  backend := { threeSubmitted.backend with
    ring := complete 0 ⟨3, ⟨4096, 512⟩, 512, 0, 0⟩ 0 threeSubmitted.backend.ring }
  accepted := threeRequests
  written := [(⟨4096, 512⟩, [])]

/-- A reap of all three is at the head of its waiting loop. -/
def reapBegun : Service (implementation fun _ => "") :=
  { oneServed with call := some ⟨3, 3, .waiting []⟩ }

/-- It has taken the first completion. -/
def oneTaken : Service (implementation fun _ => "") where
  backend := { oneServed.backend with
    inFlight := 2, ring := { oneServed.backend.ring with posted := [] } }
  call := some ⟨3, 3, .waiting [⟨0, 0, 0⟩]⟩
  accepted := threeRequests
  written := oneServed.written

/-- The wait for the second is interrupted. -/
def reapInterrupted : Service (implementation fun _ => "") :=
  { oneTaken with
    call := some ⟨3, 3, .failed (ringError (fun _ => "") "io_uring_wait_cqe" 4)⟩ }

/-- Three reads are submitted. -/
theorem threeSubmitted_step :
    Service.Step (fun _ _ _ => True) (opened (fun _ => "") 3 3) threeSubmitted :=
  have submitted : (implementation fun _ => "").submits { fd := 3, depth := 3 } threeRequests
      (.ok ()) threeSubmitted.backend := ⟨fun _ => .available, .ok 3, rfl⟩
  @Service.Step.submit _ _ (opened (fun _ => "") 3 3) _ _ _ rfl submitted

/-- One of them is done. -/
theorem oneServed_step : Service.Step (fun _ _ _ => True) threeSubmitted oneServed :=
  .serve (@Serves.read _ threeSubmitted.backend 0 ⟨3, ⟨4096, 512⟩, 512, 0, 0⟩ (.ok []) rfl trivial)

/-- The call takes its completion. -/
theorem oneTaken_step : Service.Step (fun _ _ _ => True) reapBegun oneTaken :=
  have taken : Moves (fun _ => "") oneServed.backend ⟨3, 3, .waiting []⟩ oneTaken.backend
      ⟨3, 3, .waiting [⟨0, 0, 0⟩]⟩ := .caller rfl
  .move rfl taken

/-- The wait for more of them fails. -/
theorem reapInterrupted_step : Service.Step (fun _ _ _ => True) oneTaken reapInterrupted :=
  have interrupted : Moves (fun _ => "") oneTaken.backend ⟨3, 3, .waiting [⟨0, 0, 0⟩]⟩
      oneTaken.backend ⟨3, 3, .failed (ringError (fun _ => "") "io_uring_wait_cqe" 4)⟩ :=
    .failedWait rfl (by decide)
  .move rfl interrupted

end UringBackend

open UringBackend in
/-- Until the wait is interrupted, every token is in the books. -/
theorem oneTaken_reportedOnce : ReportedOnce oneTaken := by
  have run : Run (Service.Step fun _ _ _ => True) (UringBackend.opened (fun _ => "") 3 3)
      [threeSubmitted, oneServed, reapBegun, oneTaken] := by
    simp only [Run, List.isChain_cons_cons, List.isChain_singleton, and_true]
    exact ⟨threeSubmitted_step, oneServed_step, .reap rfl 3 3, oneTaken_step⟩
  have avoids : Avoids Loses (UringBackend.opened (fun _ => "") 3 3)
      [threeSubmitted, oneServed, reapBegun, oneTaken] := by
    simp only [Avoids, List.isChain_cons_cons, List.isChain_singleton, and_true]
    refine ⟨fun loses => ?_, fun loses => ?_, fun loses => ?_, fun loses => ?_⟩ <;>
      rcases loses.shows with ⟨same, more⟩ | ⟨call, error, ⟨⟩, ⟨⟩⟩
    · exact absurd same (by decide)
    · exact absurd more (by decide)
    · exact absurd more (by decide)
    · exact absurd more (by decide)
  exact ((completions_reported_once _ 3 3).2 _ _ run).mpr avoids oneTaken (by simp)

open UringBackend in
/-- The completion taken before the interruption is never reported. -/
theorem interrupted_reap_loses_completion :
    ¬ ∀ (kernel : Kernel) (strerror : Nat → String) (fd : Int) (depth : Nat)
      (passed : List (Service (implementation strerror))),
      Run (Service.Step kernel) (UringBackend.opened strerror fd depth) passed →
      ∀ service ∈ UringBackend.opened strerror fd depth :: passed, ReportedOnce service := by
  intro always
  have run : Run (Service.Step fun _ _ _ => True) (UringBackend.opened (fun _ => "") 3 3)
      [threeSubmitted, oneServed, reapBegun, oneTaken, reapInterrupted] := by
    simp only [Run, List.isChain_cons_cons, List.isChain_singleton, and_true]
    exact ⟨threeSubmitted_step, oneServed_step, .reap rfl 3 3, oneTaken_step,
      reapInterrupted_step⟩
  have reported := always _ _ _ _ _ run reapInterrupted (by simp)
  exact absurd reported.1.length_eq (by decide)

end Dsio
