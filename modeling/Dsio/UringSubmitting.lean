import Dsio.UringReaping

/-!
# `submit` on the io_uring backend

`submit` prepares and counts the requests one by one. Where it fails with entries
already prepared, it leaves them in the ring and in `in_flight_`, and where the last
`io_uring_submit` takes fewer entries than there are, it returns ok all the same.
`submit_allOrNothing_iff` says that these are the only calls that queue a part of
their requests.
-/

namespace Dsio

namespace UringBackend

/-- The entries the kernel has not completed: those it was handed, then those still
prepared, oldest first. -/
def queued (backend : UringBackend) : List Sqe := backend.ring.executing ++ backend.ring.prepared

/-- A call that returned ok handed every request to the kernel and counted it, within
the depth of the queue; one that failed left the ring and the count as they were. -/
def AllOrNothing (backend : UringBackend) (requests : List ReadRequest) :
    Outcome Unit × UringBackend → Prop
  | (.ok (), after) =>
      after.inFlight = backend.inFlight + requests.length ∧ after.inFlight ≤ after.depth ∧
        after.queued = backend.queued ++ requests.map (sqeOf backend.fd) ∧
        (requests ≠ [] → after.ring.prepared = [])
  | (.error _, after) => after.inFlight = backend.inFlight ∧ after.queued = backend.queued

/-- The ring has an entry for the request, at once or after a flush. -/
def SqeAnswer.gives : SqeAnswer → Bool
  | .available | .full (.ok _) true => true
  | .full (.error _) _ | .full (.ok _) false => false

/-- How many entries wait to be submitted once `count` more have been prepared. -/
def unsubmitted (answers : Nat → SqeAnswer) : Nat → Nat → Nat → Nat
  | _, 0, waiting => waiting
  | index, count + 1, waiting =>
      match answers index with
      | .full (.ok accepted) _ => unsubmitted answers (index + 1) count (waiting - accepted + 1)
      | _ => unsubmitted answers (index + 1) count (waiting + 1)

/-- A ring call fails after the first request has been prepared. -/
def FailsLate (answers : Nat → SqeAnswer) (submitted : Except Nat Nat) (backend : UringBackend)
    (requests : List ReadRequest) : Prop :=
  backend.inFlight + requests.length ≤ backend.depth ∧ requests ≠ [] ∧ (answers 0).gives = true ∧
    ((∃ index < requests.length, (answers index).gives = false) ∨
      ∃ code, submitted = .error code)

/-- No ring call fails, and the last one takes fewer entries than there are. -/
def FallsShort (answers : Nat → SqeAnswer) (submitted : Except Nat Nat) (backend : UringBackend)
    (requests : List ReadRequest) : Prop :=
  backend.inFlight + requests.length ≤ backend.depth ∧ requests ≠ [] ∧
    (∀ index < requests.length, (answers index).gives = true) ∧
    ∃ accepted, submitted = .ok accepted ∧
      accepted < unsubmitted answers 0 requests.length backend.ring.prepared.length

variable {strerror : Nat → String} {answers : Nat → SqeAnswer} {backend : UringBackend}

@[simp] theorem queued_flush (backend : UringBackend) (accepted : Nat) :
    (backend.flush accepted).queued = backend.queued := by
  simp [queued, flush, List.append_assoc]

@[simp] theorem queued_prepare (backend : UringBackend) (request : ReadRequest) :
    (backend.prepare request).queued = backend.queued ++ [sqeOf backend.fd request] := by
  simp [queued, prepare]

/-- What the loop over the requests did when it got past `done` of them. -/
structure Prepared (before after : UringBackend) (done : List ReadRequest) : Prop where
  fd : after.fd = before.fd
  depth : after.depth = before.depth
  inFlight : after.inFlight = before.inFlight + done.length
  queued : after.queued = before.queued ++ done.map (sqeOf before.fd)
  posted : after.ring.posted = before.ring.posted

/-- Requests are prepared one after the other. -/
theorem Prepared.cons {before middle after : UringBackend} {request : ReadRequest}
    {done : List ReadRequest} (first : Prepared before middle [request])
    (rest : Prepared middle after done) : Prepared before after (request :: done) where
  fd := rest.fd.trans first.fd
  depth := rest.depth.trans first.depth
  inFlight := by
    rw [rest.inFlight, first.inFlight, List.length_singleton, List.length_cons]
    omega
  queued := by
    rw [rest.queued, first.queued, first.fd]
    simp
  posted := rest.posted.trans first.posted

/-- One request is prepared. -/
theorem prepared_prepare (backend : UringBackend) (request : ReadRequest) :
    Prepared backend (backend.prepare request) [request] :=
  ⟨rfl, rfl, rfl, queued_prepare backend request, rfl⟩

/-- One request is prepared behind a flush. -/
theorem prepared_flush (backend : UringBackend) (accepted : Nat) (request : ReadRequest) :
    Prepared backend ((backend.flush accepted).prepare request) [request] :=
  ⟨rfl, rfl, rfl, by rw [queued_prepare, queued_flush]; rfl, rfl⟩

/-- A round that gets an entry. -/
theorem prepareAll_of_gives (strerror : Nat → String) {index : Nat}
    (gives : (answers index).gives = true) (request : ReadRequest) (rest : List ReadRequest)
    (backend : UringBackend) :
    ∃ middle, prepareAll strerror answers index (request :: rest) backend =
        prepareAll strerror answers (index + 1) rest middle ∧
      Prepared backend middle [request] ∧
      unsubmitted answers index (rest.length + 1) backend.ring.prepared.length =
        unsubmitted answers (index + 1) rest.length middle.ring.prepared.length := by
  cases answer : answers index with
  | available =>
      refine ⟨backend.prepare request, by simp only [prepareAll, answer],
        prepared_prepare backend request, ?_⟩
      simp [unsubmitted, answer, prepare]
  | full flushed retried =>
      cases flushed with
      | error => simp [answer, SqeAnswer.gives] at gives
      | ok accepted =>
          cases retried with
          | false => simp [answer, SqeAnswer.gives] at gives
          | true =>
              refine ⟨(backend.flush accepted).prepare request, by simp only [prepareAll, answer],
                prepared_flush backend accepted request, ?_⟩
              simp [unsubmitted, answer, prepare, flush]

/-- A round that does not end the loop with an error. -/
theorem prepareAll_of_not_gives (strerror : Nat → String) {index : Nat}
    (fails : (answers index).gives = false) (request : ReadRequest) (rest : List ReadRequest)
    (backend : UringBackend) :
    ∃ error after, prepareAll strerror answers index (request :: rest) backend =
      (.error error, after) ∧ Prepared backend after [] := by
  cases answer : answers index with
  | available => simp [answer, SqeAnswer.gives] at fails
  | full flushed retried =>
      cases flushed with
      | error code =>
          exact ⟨ringError strerror "io_uring_submit" code, backend,
            by simp only [prepareAll, answer], rfl, rfl, rfl, by simp, rfl⟩
      | ok accepted =>
          cases retried with
          | true => simp [answer, SqeAnswer.gives] at fails
          | false =>
              exact ⟨⟨"dsio::UringBackend::submit: submission queue full", none⟩,
                backend.flush accepted, by simp only [prepareAll, answer], rfl, rfl, rfl,
                by simp, rfl⟩

/-- The loop prepares every request, or it fails at the first one without an entry and
leaves those before it prepared. -/
theorem prepareAll_spec (strerror : Nat → String) (answers : Nat → SqeAnswer) (index : Nat)
    (requests : List ReadRequest) (backend : UringBackend) :
    (∃ after, prepareAll strerror answers index requests backend = (.ok (), after) ∧
        (∀ later < requests.length, (answers (index + later)).gives = true) ∧
        Prepared backend after requests ∧
        after.ring.prepared.length =
          unsubmitted answers index requests.length backend.ring.prepared.length) ∨
      ∃ error after done, prepareAll strerror answers index requests backend =
          (.error error, after) ∧
        done < requests.length ∧ (answers (index + done)).gives = false ∧
        (∀ earlier < done, (answers (index + earlier)).gives = true) ∧
        Prepared backend after (requests.take done) := by
  induction requests generalizing index backend with
  | nil =>
      exact .inl ⟨backend, rfl, by simp, ⟨rfl, rfl, rfl, by simp, rfl⟩, rfl⟩
  | cons request rest ih =>
      cases answered : (answers index).gives with
      | false =>
          obtain ⟨error, after, same, kept⟩ :=
            prepareAll_of_not_gives strerror answered request rest backend
          exact .inr ⟨error, after, 0, same, by simp, answered, by simp, kept⟩
      | true =>
          obtain ⟨middle, same, first, left⟩ :=
            prepareAll_of_gives strerror answered request rest backend
          have gives {count : Nat}
              (later : ∀ other < count, (answers (index + 1 + other)).gives = true) :
              ∀ other < count + 1, (answers (index + other)).gives = true := by
            rintro (_ | other) bound
            · exact answered
            · rw [← Nat.add_assoc, Nat.add_right_comm]
              exact later other (Nat.lt_of_succ_lt_succ bound)
          rw [same, List.length_cons, left]
          rcases ih (index + 1) middle with ⟨after, ok, later, prepared, length⟩ |
            ⟨error, after, done, failed, inside, stops, earlier, prepared⟩
          · exact .inl ⟨after, ok, gives later, first.cons prepared, length⟩
          · refine .inr ⟨error, after, done + 1, failed, Nat.succ_lt_succ inside, ?_,
              gives earlier, first.cons prepared⟩
            rwa [← Nat.add_assoc, Nat.add_right_comm]

/-- `submit` returns ok with every request prepared before the last flush, or it fails
with some of them prepared, none unless it fails late. -/
theorem submit_spec (strerror : Nat → String) (answers : Nat → SqeAnswer)
    (submitted : Except Nat Nat) (backend : UringBackend) (requests : List ReadRequest) :
    (∃ after accepted, submit strerror answers submitted backend requests =
          (.ok (), after.flush accepted) ∧
        Prepared backend after requests ∧ backend.inFlight + requests.length ≤ backend.depth ∧
        ¬ FailsLate answers submitted backend requests ∧
        (FallsShort answers submitted backend requests ↔
          requests ≠ [] ∧ accepted < after.ring.prepared.length)) ∨
      ∃ error after first, submit strerror answers submitted backend requests =
          (.error error, after) ∧
        Prepared backend after first ∧
        (FailsLate answers submitted backend requests ↔ first ≠ []) ∧
        ¬ FallsShort answers submitted backend requests := by
  by_cases full : backend.inFlight + requests.length > backend.depth
  · refine .inr ⟨⟨"dsio::UringBackend::submit: queue full", some eagain⟩, backend, [], ?_,
      ⟨rfl, rfl, rfl, by simp, rfl⟩, ?_, fun short => Nat.not_lt.mpr short.1 full⟩
    · simp only [submit, if_pos full]
    · exact ⟨fun late => absurd full (Nat.not_lt.mpr late.1), fun some => absurd rfl some⟩
  · have room : backend.inFlight + requests.length ≤ backend.depth := Nat.not_lt.mp full
    rcases prepareAll_spec strerror answers 0 requests backend with
      ⟨after, ok, gives, prepared, length⟩ |
      ⟨error, after, done, failed, inside, stops, earlier, prepared⟩
    · simp only [Nat.zero_add] at gives
      cases submitted with
      | ok accepted =>
          refine .inl ⟨after, accepted, by simp only [submit, if_neg full, ok], prepared, room,
            ?_, ?_⟩
          · rintro ⟨-, -, -, ⟨index, bound, fails⟩ | ⟨code, failed⟩⟩
            · rw [gives index bound] at fails
              cases fails
            · cases failed
          · rw [length]
            constructor
            · rintro ⟨-, some, -, count, same, short⟩
              cases same
              exact ⟨some, short⟩
            · rintro ⟨filled, short⟩
              exact ⟨room, filled, gives, accepted, rfl, short⟩
      | error code =>
          refine .inr ⟨ringError strerror "io_uring_submit" code, after, requests,
            by simp only [submit, if_neg full, ok], prepared, ?_, ?_⟩
          · refine ⟨fun late => late.2.1, fun some => ?_⟩
            exact ⟨room, some, gives 0 (List.length_pos_iff.mpr some), .inr ⟨code, rfl⟩⟩
          · rintro ⟨-, -, -, count, same, -⟩
            cases same
    · simp only [Nat.zero_add] at stops earlier
      have some : requests ≠ [] :=
        List.ne_nil_of_length_pos (Nat.lt_of_le_of_lt (Nat.zero_le _) inside)
      refine .inr ⟨error, after, requests.take done, by simp only [submit, if_neg full, failed],
        prepared, ?_, fun short => ?_⟩
      · constructor
        · intro late none
          rcases List.take_eq_nil_iff.mp none with rfl | none
          · rw [late.2.2.1] at stops
            cases stops
          · exact some none
        · intro begun
          have first : 0 < done :=
            Nat.pos_of_ne_zero fun zero => begun (by rw [zero, List.take_zero])
          exact ⟨room, some, earlier 0 first, .inl ⟨done, inside, stops⟩⟩
      · rw [short.2.2.1 done inside] at stops
        cases stops

/-- Whatever the ring calls give, `submit` queues all of its requests or none of them,
unless a ring call fails after the first request has been prepared or the last
`io_uring_submit` takes fewer entries than there are. -/
theorem submit_allOrNothing_iff (strerror : Nat → String) (answers : Nat → SqeAnswer)
    (submitted : Except Nat Nat) (backend : UringBackend) (requests : List ReadRequest) :
    AllOrNothing backend requests (submit strerror answers submitted backend requests) ↔
      ¬ FailsLate answers submitted backend requests ∧
        ¬ FallsShort answers submitted backend requests := by
  rcases submit_spec strerror answers submitted backend requests with
    ⟨after, accepted, same, prepared, room, early, short⟩ |
    ⟨error, after, first, same, prepared, late, enough⟩
  · rw [same, short]
    constructor
    · rintro ⟨-, -, -, handed⟩
      refine ⟨early, fun ⟨filled, fewer⟩ => ?_⟩
      have left : after.ring.prepared.length ≤ accepted :=
        List.drop_eq_nil_iff.mp (handed filled)
      omega
    · rintro ⟨-, enough⟩
      refine ⟨prepared.inFlight, ?_, by rw [queued_flush, prepared.queued], fun some => ?_⟩
      · show after.inFlight ≤ after.depth
        rw [prepared.inFlight, prepared.depth]
        exact room
      · exact List.drop_eq_nil_of_le (Nat.le_of_not_lt fun fewer => enough ⟨some, fewer⟩)
  · rw [same, late]
    constructor
    · rintro ⟨counted, -⟩
      rw [prepared.inFlight] at counted
      have none := List.eq_nil_of_length_eq_zero (by omega : first.length = 0)
      exact ⟨fun begun => begun none, enough⟩
    · rintro ⟨none, -⟩
      rw [Classical.not_not.mp none] at prepared
      exact ⟨prepared.inFlight, by simpa using prepared.queued⟩

/-- One request is prepared and counted, and the only `io_uring_submit` is interrupted. -/
theorem failed_submit_stays_queued :
    ¬ ∀ (strerror : Nat → String) (answers : Nat → SqeAnswer) (submitted : Except Nat Nat)
      (backend : UringBackend) (requests : List ReadRequest), Reachable strerror backend →
      AllOrNothing backend requests (submit strerror answers submitted backend requests) := by
  intro always
  have kept := always (fun _ => "") (fun _ => .available) (.error 4) { fd := 3, depth := 1 }
    [⟨0, ⟨4096, 512⟩, 0⟩] (.opened 3 1)
  exact absurd kept.1 (by decide)

end UringBackend

end Dsio
