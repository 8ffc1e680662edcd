import Dsio.Dataset.PipelineProgress

/-!
# How a call ends when the callback stops it or `stream.read` throws

`Calls` relates the consumer's point to what the callback has answered. A call
the callback stopped at batch `k` reports whatever error the worker has shared by
then, so it ends ok under every schedule exactly when no error lies in the reads
the worker can have done ahead. A worker that dies inside `stream.read` leaves
`ready` open, so the consumer is saved from waiting exactly when the callback
stops it at an earlier batch.
-/

namespace Dsio.Pipeline

open Transition

/-- What the callback has answered so far. -/
structure Calls {Stream : Type} (callback : Nat → CallbackResult) (state : State Stream) :
    Prop where
  earlier : ∀ call, call + 1 < state.delivered.length → callback call = .proceed
  looping : state.consumer = .recvReady ∨ (∃ batch, state.consumer = .sendFree batch true) →
    ∀ call < state.delivered.length, callback call = .proceed
  stopping : ∀ batch, state.consumer = .sendFree batch false →
    ∃ call, call + 1 = state.delivered.length ∧ callback call = .stop
  /-- The consumer left its loop because the worker ended the stream or because
  of what the callback did with the last batch. -/
  exit : state.consumer.exited = true →
    ((∃ held, state.worker = .finished held .returned) ∧ state.delivered = batches state.log ∧
      ∀ call < state.delivered.length, callback call = .proceed) ∨
    ∃ call, call + 1 = state.delivered.length ∧ callback call ≠ .proceed
  unwound : state.consumer.unwound = true →
    ∃ call, call + 1 = state.delivered.length ∧ callback call = .throws
  /-- An error the consumer took is still the shared one. -/
  taken : ∀ error,
    state.consumer = .joining (.err error) ∨ state.consumer = .returned (.err error) →
      state.error = some error

section Calls

variable {Stream : Type} {callback : Nat → CallbackResult}

/-- The callback has not been called. -/
theorem calls_start (prefetch : Nat) (stream : Stream) :
    Calls callback (start prefetch stream) where
  earlier := by simp [start]
  looping := by simp [start]
  stopping := by simp [start]
  exit := by simp [start, Consumer.exited]
  unwound := by simp [start, Consumer.unwound]
  taken := by simp [start]

/-- A step of the worker calls nothing. -/
theorem Calls.worker {before after : State Stream} (calls : Calls callback before)
    (move : WorkerMove before after) : Calls callback after where
  earlier := by cases move <;> exact calls.earlier
  looping := by cases move <;> exact calls.looping
  stopping := by cases move <;> exact calls.stopping
  exit := by
    intro exited
    have same : after.consumer = before.consumer := by cases move <;> rfl
    rcases calls.exit (same ▸ exited) with ⟨⟨held, finished⟩, -⟩ | answered
    · cases move with
      | takes point | freeClosed point | setsError point | closes point | sends point
      | readyClosed point =>
          rw [point] at finished
          cases finished
    · exact .inr (by cases move <;> exact answered)
  unwound := by cases move <;> exact calls.unwound
  taken := by
    intro error point
    cases move with
    | setsError =>
        have taken := calls.taken error point
        simp [setError, taken]
    | takes | freeClosed | closes | sends | readyClosed => exact calls.taken error point

/-- A read of the stream calls nothing. -/
theorem Calls.read {before : State Stream} (calls : Calls callback before) {batch : Batch}
    (point : before.worker = .reading batch) (result : ReadResult) (stream : Stream) :
    Calls callback { before with
      stream, worker := afterRead batch result, log := before.log ++ [result] } where
  earlier := calls.earlier
  looping := calls.looping
  stopping := calls.stopping
  exit := by
    intro exited
    rcases calls.exit exited with ⟨⟨held, finished⟩, -⟩ | answered
    · rw [point] at finished
      cases finished
    · exact .inr answered
  unwound := calls.unwound
  taken := calls.taken

/-- A step of the consumer accounts for its call. -/
theorem Calls.consumer {prefetch : Nat} {before after : State Stream}
    (calls : Calls callback before) (inv : Inv prefetch before)
    (move : ConsumerMove callback before after) : Calls callback after := by
  cases move with
  | receives point received =>
      refine ⟨?_, by simp, by simp, by simp [Consumer.exited], by simp [Consumer.unwound], by simp⟩
      intro call bound
      refine calls.looping (.inl point) call ?_
      simpa using bound
  | drained point closed nothing =>
      obtain ⟨finished, all⟩ := inv.drained point closed nothing
      refine ⟨calls.earlier, by simp, by simp, fun _ => .inl ?_, by simp [Consumer.unwound],
        by simp⟩
      exact ⟨finished, all, calls.looping (.inl point)⟩
  | @proceeds call batch point result =>
      have current := inv.current call batch point
      refine ⟨calls.earlier, fun _ => ?_, by simp, by simp [Consumer.exited],
        by simp [Consumer.unwound], by simp⟩
      intro other bound
      change other < before.delivered.length at bound
      by_cases last : other + 1 < before.delivered.length
      · exact calls.earlier other last
      · have same : other = call := by omega
        exact same ▸ result
  | @stops call batch point result =>
      exact ⟨calls.earlier, by simp, fun _ _ => ⟨call, inv.current call batch point, result⟩,
        by simp [Consumer.exited], by simp [Consumer.unwound], by simp⟩
  | @throws call batch point result =>
      have current := inv.current call batch point
      refine ⟨calls.earlier, by simp, by simp, fun _ => .inr ⟨call, current, by simp [result]⟩,
        fun _ => ⟨call, current, result⟩, by simp⟩
  | @givesBack batch keepGoing free point sent =>
      cases keepGoing with
      | true =>
          exact ⟨calls.earlier, fun _ => calls.looping (.inr ⟨batch, point⟩), by simp,
            by simp [Consumer.exited], by simp [Consumer.unwound], by simp⟩
      | false =>
          obtain ⟨call, last, stop⟩ := calls.stopping batch point
          exact ⟨calls.earlier, by simp, by simp, fun _ => .inr ⟨call, last, by simp [stop]⟩,
            by simp [Consumer.unwound], by simp⟩
  | freeClosed point closed =>
      have stillOpen := inv.freeClosed
      simp [point, closed, Consumer.closedFree] at stillOpen
  | @closesFree exit point =>
      have exited := calls.exit (by simp [point, Consumer.exited])
      refine ⟨calls.earlier, by simp, by simp, fun _ => exited, fun unwound => ?_, by simp⟩
      cases exit with
      | loopEnded => cases unwound
      | unwinding => exact calls.unwound (by simp [point, Consumer.unwound])
  | closesReady point =>
      exact ⟨calls.earlier, by simp, by simp,
        fun _ => calls.exit (by simp [point, Consumer.exited]), by simp [Consumer.unwound], by simp⟩
  | rethrows point =>
      exact ⟨calls.earlier, by simp, by simp,
        fun _ => calls.exit (by simp [point, Consumer.exited]),
        fun _ => calls.unwound (by simp [point, Consumer.unwound]), by simp⟩
  | takesError point set =>
      refine ⟨calls.earlier, by simp, by simp,
        fun _ => calls.exit (by simp [point, Consumer.exited]), by simp [Consumer.unwound], ?_⟩
      simp [set]
  | takesNone point =>
      exact ⟨calls.earlier, by simp, by simp,
        fun _ => calls.exit (by simp [point, Consumer.exited]), by simp [Consumer.unwound], by simp⟩
  | @joins result held ending point finished =>
      refine ⟨calls.earlier, by simp, by simp,
        fun _ => calls.exit (by simp [point, Consumer.exited]), fun unwound => ?_, ?_⟩
      · refine calls.unwound ?_
        cases result with
        | rethrown => simp [point, Consumer.unwound]
        | ok | err => cases unwound
      · intro error returned
        refine calls.taken error (.inl ?_)
        simpa [point] using returned

/-- Every step accounts for the calls of the callback. -/
theorem Calls.step {prefetch : Nat} {read : Stream → ReadResult → Stream → Prop}
    {before after : State Stream} (calls : Calls callback before) (inv : Inv prefetch before)
    (transition : Step read callback before after) : Calls callback after := by
  cases transition with
  | worker moves => exact calls.worker (workerMove_of_step moves)
  | read point => exact calls.read point _ _
  | consumer moves => exact calls.consumer inv (consumerMove_of_step moves)

end Calls

/-- A run over a sequence of read results, with the callback's answers. -/
structure Answers (prefetch : Nat) (sequence : Nat → ReadResult) (callback : Nat → CallbackResult)
    (state : State Nat) : Prop where
  follows : Follows prefetch sequence state
  calls : Calls callback state

section Answers

variable {prefetch : Nat} {sequence : Nat → ReadResult} {callback : Nat → CallbackResult}
  {state : State Nat}

/-- The accounts hold when the worker starts. -/
theorem answers_start : Answers prefetch sequence callback (start prefetch 0) :=
  ⟨follows_start prefetch sequence, calls_start prefetch 0⟩

/-- Every step keeps the accounts. -/
theorem Answers.step {before after : State Nat}
    (answers : Answers prefetch sequence callback before)
    (transition : Step (results sequence) callback before after) :
    Answers prefetch sequence callback after :=
  ⟨answers.follows.step transition, answers.calls.step answers.follows.inv transition⟩

/-- The accounts hold in every state. -/
theorem Answers.of_reaches
    (run : Reaches (Step (results sequence) callback) (start prefetch 0) state) :
    Answers prefetch sequence callback state :=
  run.preserves Answers.step answers_start

/-- The reads of `sequence` before `last` yield batches, and read `last` does not. -/
structure FirstEnd (sequence : Nat → ReadResult) (last : Nat) : Prop where
  batch : ∀ index < last, (sequence index).batch?.isSome
  ends : (sequence last).batch? = none

/-- A log that ends in something else than a batch ends at the first such read. -/
theorem Follows.length_eq_last {last : Nat} (follows : Follows prefetch sequence state)
    (first : FirstEnd sequence last) {goods : List ReadResult} {result : ReadResult}
    (log : state.log = goods ++ [result]) (noBatch : result.batch? = none) :
    goods.length = last := by
  obtain ⟨sequenceEq, found⟩ := follows.log_eq log
  apply Nat.le_antisymm
  · have bounded := follows.log_le first.ends
    simpa [log] using bounded
  · by_contra short
    have some := first.batch goods.length (by omega)
    rw [found, noBatch] at some
    cases some

/-- A stream that ended did so at the first read without a batch. -/
theorem Follows.ended_at {last : Nat} (follows : Follows prefetch sequence state)
    (first : FirstEnd sequence last) (ended : Ended state.log state.error) :
    (sequence last = .outcome (.ok []) ∨ ∃ error, sequence last = .outcome (.error error)) ∧
      ∀ error, sequence last = .outcome (.error error) → state.error = some error := by
  obtain ⟨goods, got, -, log, noBatch, reason⟩ := ended.split
  have found := (follows.log_eq log).2
  rw [follows.length_eq_last first log noBatch] at found
  rw [found]
  rcases reason with ⟨rfl, -⟩ | ⟨error, rfl, set⟩
  · simp
  · simpa using set

/-- In an ended run the callback has been called at most with every batch. -/
theorem Follows.delivered_le_last {last : Nat} (follows : Follows prefetch sequence state)
    (first : FirstEnd sequence last) : state.delivered.length ≤ last := by
  have dropped := follows.inv.allBatches_dropLast
  have called := follows.inv.called.length_le
  have reads : state.log.length ≤ last + 1 := follows.log_le first.ends
  by_cases short : state.log.length ≤ last
  · exact called.trans ((length_batches_le _).trans short)
  · have nonempty : state.log ≠ [] := by
      rintro empty
      simp [empty] at short
    have split := List.dropLast_append_getLast nonempty
    have goodsLength : state.log.dropLast.length = last := by
      rw [List.length_dropLast]
      omega
    have result := (follows.log_eq split.symm).2
    rw [goodsLength] at result
    have nothing : batches [state.log.getLast nonempty] = [] := by
      simp [batches, ← result, first.ends]
    rwa [← split, batches_append, nothing, List.append_nil, dropped.length_batches,
      goodsLength] at called

end Answers

/-! ## Exceptions out of `stream.read` -/

/-- No schedule leaves the consumer waiting on a worker that has died: every call ends, and
one whose callback never stopped it ends in an error. -/
structure WakesConsumer (prefetch : Nat) (sequence : Nat → ReadResult)
    (callback : Nat → CallbackResult) : Prop where
  awake : ∀ state, Reaches (Step (results sequence) callback) (start prefetch 0) state →
    ¬ Hung state
  reports : ∀ state, Reaches (Step (results sequence) callback) (start prefetch 0) state →
    ∀ result, state.consumer = .returned result →
      (∀ call < state.delivered.length, callback call = .proceed) → ∃ error, result = .err error
  ends : Inevitable (Step (results sequence) callback)
    (fun state => ∃ result, state.consumer = .returned result) (start prefetch 0)

section Throws

variable {prefetch last : Nat} {sequence : Nat → ReadResult} {callback : Nat → CallbackResult}

/-- A consumer waiting on a dead worker has handed out every batch before the throw. -/
theorem Answers.proceed_of_hung {state : State Nat}
    (answers : Answers prefetch sequence callback state) (first : FirstEnd sequence last)
    (hung : Hung state) : ∀ call < last, callback call = .proceed := by
  obtain ⟨⟨held, exception, finished⟩, waiting, nothing, -⟩ := hung
  have explains := answers.follows.inv.explains
  rw [finished] at explains
  obtain ⟨-, goods, all, log⟩ := explains
  have length := answers.follows.length_eq_last first log rfl
  have flow := answers.follows.inv.flow (by simp [waiting, Consumer.closedReady])
  have delivered : state.delivered.length = last := by
    have counted := congrArg List.length flow
    simpa [State.inTransit, nothing, finished, Worker.unsent, log, all.length_batches, length]
      using counted
  intro call bound
  exact answers.calls.looping (.inl waiting) call (delivered ▸ bound)

/-- While the callback proceeds, a call whose worker died does not return. -/
theorem Answers.not_returned {state : State Nat}
    (answers : Answers prefetch sequence callback state) (first : FirstEnd sequence last)
    {exception : Exception} (throws : sequence last = .thrown exception) {result : Result}
    (proceeds : ∀ call < state.delivered.length, callback call = .proceed) :
    state.consumer ≠ .returned result := by
  intro returned
  rcases answers.calls.exit (by simp [returned, Consumer.exited]) with
    ⟨⟨held, finished⟩, -⟩ | ⟨call, last, stopped⟩
  · have explains := answers.follows.inv.explains
    rw [finished] at explains
    obtain ⟨found, -⟩ := answers.follows.ended_at first explains
    rw [throws] at found
    rcases found with found | ⟨error, found⟩ <;> cases found
  · exact stopped (proceeds call (by omega))

/-- With a callback that proceeds past every batch before the throw, every
schedule hangs. -/
theorem inevitable_hung (positive : 0 < prefetch) (first : FirstEnd sequence last)
    {exception : Exception} (throws : sequence last = .thrown exception)
    (proceeds : ∀ call < last, callback call = .proceed) :
    Inevitable (Step (results sequence) callback) Hung (start prefetch 0) := by
  have initially : Answers prefetch sequence callback (start prefetch 0) := answers_start
  refine (inevitable_end callback positive first.ends).weaken initially Answers.step ?_
  intro state answers finished
  refine finished.resolve_left ?_
  rintro ⟨result, returned⟩
  refine answers.not_returned first throws (fun call bound => proceeds call ?_) returned
  exact Nat.lt_of_lt_of_le bound (answers.follows.delivered_le_last first)

/-- A call that wakes its consumer was stopped at a batch before the throw. -/
theorem WakesConsumer.answered (wakes : WakesConsumer prefetch sequence callback)
    (positive : 0 < prefetch) (first : FirstEnd sequence last) {exception : Exception}
    (throws : sequence last = .thrown exception) : ∃ call < last, callback call ≠ .proceed := by
  by_contra never
  have proceeds : ∀ call < last, callback call = .proceed := by
    intro call bound
    by_contra stops
    exact never ⟨call, bound, stops⟩
  obtain ⟨state, run, hung⟩ := (inevitable_hung positive first throws proceeds).exists_reaches
  exact wakes.awake state run hung

/-- A throw out of read `last` leaves no consumer waiting, under every schedule,
exactly when the callback stops at one of the `last` batches before it. -/
theorem wakesConsumer_iff (positive : 0 < prefetch)
    (batch : ∀ index < last, ∃ bytes, bytes ≠ [] ∧ sequence index = .outcome (.ok bytes))
    {exception : Exception} (throws : sequence last = .thrown exception) :
    WakesConsumer prefetch sequence callback ↔ ∃ call < last, callback call ≠ .proceed := by
  have first : FirstEnd sequence last := by
    refine ⟨fun index bound => ?_, by simp [throws, ReadResult.batch?]⟩
    obtain ⟨bytes, filled, found⟩ := batch index bound
    simp [found, ReadResult.batch?, filled]
  constructor
  · intro wakes
    exact wakes.answered positive first throws
  · rintro ⟨call, bound, stops⟩
    have awake (state : State Nat) (answers : Answers prefetch sequence callback state) :
        ¬ Hung state := fun hung => stops (answers.proceed_of_hung first hung call bound)
    refine ⟨fun state run => awake state (.of_reaches run), ?_, ?_⟩
    · intro state run result returned proceeds
      have answers : Answers prefetch sequence callback state := .of_reaches run
      exact absurd returned (answers.not_returned first throws proceeds)
    · exact (inevitable_end callback positive first.ends).weaken answers_start Answers.step
        fun state answers finished => finished.resolve_right (awake state answers)

/-- The first read runs out of memory: the call never returns. -/
theorem first_read_throws : ¬ WakesConsumer 1
    (fun _ => .thrown (.other "std::bad_alloc")) (fun _ => .proceed) := by
  intro wakes
  have first : FirstEnd (fun _ => .thrown (.other "std::bad_alloc")) 0 := ⟨by simp, rfl⟩
  obtain ⟨call, bound, -⟩ := wakes.answered Nat.one_pos first rfl
  exact absurd bound (Nat.not_lt_zero call)

/-- One batch, then a throw, with a callback that stops at the batch. -/
theorem wakesConsumer_stopped : WakesConsumer 1
    (fun index => if index = 0 then .outcome (.ok [7]) else .thrown (.other "std::bad_alloc"))
    (fun _ => .stop) :=
  (wakesConsumer_iff Nat.one_pos
    (fun index (bound : index < 1) => ⟨[7], by simp, by simp [Nat.lt_one_iff.mp bound]⟩) rfl).mpr
    ⟨0, by decide, by decide⟩

end Throws

/-! ## A callback that stops the stream -/

/-- Under every schedule a call whose callback stops it at batch `stop` does not
call the callback again, and returns ok once it has been called with that batch. -/
structure StopsCleanly (prefetch : Nat) (reads : Nat → Outcome (List Byte))
    (callback : Nat → CallbackResult) (stop : Nat) : Prop where
  stops : ∀ state, Reaches (Step (outcomes reads) callback) (start prefetch 0) state →
    state.delivered.length ≤ stop + 1
  returns : ∀ state, Reaches (Step (outcomes reads) callback) (start prefetch 0) state →
    state.delivered.length = stop + 1 →
      Inevitable (Step (outcomes reads) callback)
        (fun state => state.consumer = .returned .ok) state

/-- An error among the reads the worker can do ahead of batch `stop`: it has
`prefetch + 1` buffers, and those of the batches up to `stop` come back. -/
def ErrorAhead (prefetch : Nat) (reads : Nat → Outcome (List Byte)) (stop : Nat) : Prop :=
  ∃ last error, stop < last ∧ last ≤ stop + prefetch + 1 ∧
    (∀ index < last, ∃ bytes, bytes ≠ [] ∧ reads index = .ok bytes) ∧ reads last = .error error

section Stops

variable {prefetch stop : Nat} {reads : Nat → Outcome (List Byte)} {callback : Nat → CallbackResult}
  {state : State Nat}

/-- The callback proceeds with the batches before `stop` and stops at that one. -/
structure StopsAt (callback : Nat → CallbackResult) (stop : Nat) : Prop where
  before : ∀ call < stop, callback call = .proceed
  stops : callback stop = .stop

/-- The first answer that is not to proceed is the one at `stop`. -/
theorem StopsAt.eq_of_earlier (stopsAt : StopsAt callback stop) {call : Nat}
    (earlier : ∀ before < call, callback before = .proceed) (answer : callback call ≠ .proceed) :
    call = stop := by
  rcases Nat.lt_trichotomy call stop with less | same | more
  · exact absurd (stopsAt.before call less) answer
  · exact same
  · have proceeds := earlier stop more
    rw [stopsAt.stops] at proceeds
    cases proceeds

/-- The callback is not called after batch `stop`. -/
theorem Calls.delivered_le (calls : Calls callback state) (stopsAt : StopsAt callback stop) :
    state.delivered.length ≤ stop + 1 := by
  by_contra beyond
  have proceeds := calls.earlier stop (by omega)
  rw [stopsAt.stops] at proceeds
  cases proceeds

/-- A callback that stops has not thrown. -/
theorem Calls.not_unwound (calls : Calls callback state) (stopsAt : StopsAt callback stop) :
    state.consumer.unwound = false := by
  cases unwound : state.consumer.unwound with
  | false => rfl
  | true =>
      obtain ⟨call, last, throws⟩ := calls.unwound unwound
      have same := stopsAt.eq_of_earlier (fun before bound => calls.earlier before (by omega))
        (by simp [throws] : callback call ≠ .proceed)
      rw [same, stopsAt.stops] at throws
      cases throws

/-- The shared error is the outcome of the last read, and every earlier read is a batch. -/
theorem Follows.error_eq (follows : Follows prefetch (fun index => .outcome (reads index)) state)
    {error : Error} (shared : state.error = some error) :
    ∃ goods, AllBatches goods ∧ state.log = goods ++ [.outcome (.error error)] := by
  have explains := follows.inv.explains
  have ended : Ended state.log state.error →
      ∃ goods, AllBatches goods ∧ state.log = goods ++ [.outcome (.error error)] := by
    intro ended
    obtain ⟨goods, got, all, log, -, ⟨-, unset⟩ | ⟨other, rfl, set⟩⟩ := ended.split
    · simp [shared] at unset
    · obtain rfl : error = other := by simpa [shared] using set
      exact ⟨goods, all, log⟩
  have unset : state.error = none → False := by
    rw [shared]
    simp
  cases worker : state.worker with
  | recvFree | reading | sendReady =>
      rw [worker] at explains
      exact (unset explains.2).elim
  | settingError =>
      rw [worker] at explains
      exact (unset explains.1).elim
  | closingReady =>
      rw [worker] at explains
      exact ended explains
  | finished held ending =>
      rw [worker] at explains
      cases ending with
      | returned => exact ended explains
      | stopped => exact (unset explains.2).elim
      | threw => exact (unset explains.1).elim

/-- A read of a batch, as an outcome. -/
theorem batch?_outcome_isSome {got : Outcome (List Byte)} :
    (ReadResult.outcome got).batch?.isSome ↔ ∃ bytes, bytes ≠ [] ∧ got = .ok bytes := by
  cases got with
  | error error => simp [ReadResult.batch?]
  | ok bytes => by_cases empty : bytes = [] <;> simp [ReadResult.batch?, empty]

/-- A shared error is one the worker met within its budget. -/
theorem Answers.errorAhead
    (answers : Answers prefetch (fun index => .outcome (reads index)) callback state)
    {error : Error} (shared : state.error = some error)
    (delivered : state.delivered.length = stop + 1) : ErrorAhead prefetch reads stop := by
  obtain ⟨goods, all, log⟩ := answers.follows.error_eq shared
  obtain ⟨sequence, found⟩ := answers.follows.log_eq log
  have called := answers.follows.inv.called.length_le
  rw [log, batches_append, batches_singleton_error, List.append_nil, all.length_batches] at called
  have budget := answers.follows.budget
  simp only [Budget, log, List.length_append, List.length_singleton] at budget
  refine ⟨goods.length, error, by omega, by omega, fun index bound => ?_,
    ReadResult.outcome.inj found⟩
  refine batch?_outcome_isSome.mp (all _ ?_)
  rw [sequence]
  exact List.mem_map_of_mem (f := fun index => ReadResult.outcome (reads index))
    (List.mem_range.mpr bound)

/-- The schedules that let the worker run while the consumer waits at its first
`free.close()`. -/
inductive Held (read : Nat → ReadResult → Nat → Prop) (callback : Nat → CallbackResult)
    (before : State Nat) : State Nat → Prop where
  | worker {after} (step : WorkerStep read before after) : Held read callback before after
  | consumer {after} (inLoop : before.consumer.exited = false)
      (moves : consumerStep callback before = some after) : Held read callback before after

/-- A schedule that holds the worker back is a schedule. -/
theorem Held.step {read : Nat → ReadResult → Nat → Prop} {before after : State Nat}
    (held : Held read callback before after) : Step read callback before after := by
  cases held with
  | worker step => exact step.step
  | consumer _ moves => exact .consumer moves

/-- A consumer held at its first `free.close()` goes no further. -/
theorem Held.exit {read : Nat → ReadResult → Nat → Prop} {before after : State Nat}
    (exits : before.consumer.exited = true → ∃ exit, before.consumer = .closingFree exit)
    (held : Held read callback before after) :
    after.consumer.exited = true → ∃ exit, after.consumer = .closingFree exit := by
  cases held with
  | worker step =>
      cases step with
      | moves moves => cases workerMove_of_step moves <;> exact exits
      | read => exact exits
  | consumer inLoop moves =>
      cases consumerMove_of_step moves with
      | @givesBack batch keepGoing free point sent => cases keepGoing <;> simp [Consumer.exited]
      | closesFree point | closesReady point | rethrows point | takesError point | takesNone point
      | joins point => simp [point, Consumer.exited] at inLoop
      | receives | proceeds | stops => simp [Consumer.exited]
      | drained | throws | freeClosed => simp

/-- A stream that ended has produced the batches before its first other result. -/
theorem Follows.length_batches_of_ended {sequence : Nat → ReadResult} {last : Nat}
    (follows : Follows prefetch sequence state) (first : FirstEnd sequence last)
    (ended : Ended state.log state.error) : (batches state.log).length = last := by
  obtain ⟨goods, got, all, log, noBatch, -⟩ := ended.split
  have nothing : batches [ReadResult.outcome got] = [] := by simp [batches, noBatch]
  rw [log, batches_append, nothing, List.append_nil, all.length_batches]
  exact follows.length_eq_last first log noBatch

/-- A log of batches stops short of the first other result. -/
theorem Follows.length_le_of_all {sequence : Nat → ReadResult} {last : Nat}
    (follows : Follows prefetch sequence state) (first : FirstEnd sequence last)
    (all : AllBatches state.log) : state.log.length ≤ last := by
  have log := follows.log
  by_contra beyond
  have member : sequence last ∈ state.log := by
    rw [log]
    refine List.mem_map_of_mem (List.mem_range.mpr ?_)
    have length : state.log.length = state.stream := by simp [log]
    omega
  have some := all _ member
  rw [first.ends] at some
  cases some

/-- A call that left its loop has stopped at `stop` when the stream ends later. -/
theorem Answers.delivered_of_exited {sequence : Nat → ReadResult} {last : Nat}
    (answers : Answers prefetch sequence callback state) (stopsAt : StopsAt callback stop)
    (first : FirstEnd sequence last) (late : stop < last)
    (exited : state.consumer.exited = true) : state.delivered.length = stop + 1 := by
  rcases answers.calls.exit exited with ⟨⟨held, finished⟩, all, proceeds⟩ | ⟨call, length, answer⟩
  · have explains := answers.follows.inv.explains
    rw [finished] at explains
    have delivered := answers.follows.length_batches_of_ended first explains
    have proceeded := proceeds stop (by rw [all, delivered]; exact late)
    rw [stopsAt.stops] at proceeded
    cases proceeded
  · have same := stopsAt.eq_of_earlier
      (fun before bound => answers.calls.earlier before (by omega)) answer
    omega

/-- While the consumer waits before `free.close()`, a worker that is blocked or
done has met the error ahead and shared it. -/
theorem Answers.error_of_blocked
    (answers : Answers prefetch (fun index => .outcome (reads index)) callback state)
    (stopsAt : StopsAt callback stop) {exit : Exit} (waits : state.consumer = .closingFree exit)
    (blocked : ¬ ∃ after, WorkerStep (outcomes reads) state after)
    {last : Nat} {error : Error} (first : FirstEnd (fun index => .outcome (reads index)) last)
    (late : stop < last) (window : last ≤ stop + prefetch + 1)
    (failed : reads last = .error error) :
    state.error = some error ∧ ∃ held ending, state.worker = .finished held ending := by
  have follows := answers.follows
  have inv := follows.inv
  have explains := inv.explains
  have flow := inv.flow (by simp [waits, Consumer.closedReady])
  have count := inv.length_buffers (answers.calls.not_unwound stopsAt)
  have delivered := answers.delivered_of_exited stopsAt first late
    (by simp [waits, Consumer.exited])
  have stuck : workerStep state = none := by
    by_contra moves
    obtain ⟨after, moves⟩ := Option.ne_none_iff_exists'.mp moves
    exact blocked ⟨after, .moves moves⟩
  cases worker : state.worker with
  | reading batch =>
      obtain ⟨result, next, got⟩ :=
        results_total (fun index => .outcome (reads index)) state.stream
      exact absurd ⟨_, .read worker got⟩ blocked
  | settingError | closingReady => simp [workerStep, worker] at stuck
  | recvFree =>
      -- with nothing free every buffer would be in `ready`, one more than it holds
      have readyBound := state.ready.bounded
      have readyCapacity := inv.readyCapacity
      simp only [workerStep, worker] at stuck
      split at stuck
      · next waiting =>
        have empty := (Channel.recv_eq_blocked_iff.mp waiting).2
        simp [empty, worker, waits, Worker.batch?, Consumer.batch?] at count
        omega
      · cases stuck
      · cases stuck
  | sendReady batch =>
      -- with `ready` full the worker would have read past the error
      rw [worker] at explains
      simp only [workerStep, worker] at stuck
      split at stuck
      · next waiting =>
        have full := (Channel.send_eq_blocked_iff.mp waiting).2
        have short := follows.length_le_of_all first explains.1
        have counted := congrArg List.length flow
        rw [explains.1.length_batches] at counted
        simp [State.inTransit, worker, Worker.unsent, full, inv.readyCapacity, delivered] at counted
        omega
      · cases stuck
      · cases stuck
  | finished held ending =>
      rw [worker] at explains
      refine ⟨?_, held, ending, rfl⟩
      cases ending with
      | stopped =>
          have closed := inv.stopped held worker
          simp [waits, Consumer.closedFree] at closed
      | threw =>
          obtain ⟨-, goods, -, log⟩ := explains
          cases (follows.log_eq log).2
      | returned =>
          obtain ⟨found, shared⟩ := follows.ended_at first explains
          exact shared error (by rw [failed])

/-- An error within the worker's reach is reported under some schedule. -/
theorem late_error_reported (positive : 0 < prefetch) (stopsAt : StopsAt callback stop)
    (ahead : ErrorAhead prefetch reads stop) :
    ∃ state error, Reaches (Step (outcomes reads) callback) (start prefetch 0) state ∧
      state.consumer = .returned (.err error) ∧ state.delivered.length = stop + 1 := by
  obtain ⟨last, error, late, window, batch, failed⟩ := ahead
  have first : FirstEnd (fun index => .outcome (reads index)) last :=
    ⟨fun index bound => batch?_outcome_isSome.mpr (batch index bound),
      by simp [failed, ReadResult.batch?]⟩
  -- let the worker run while the consumer waits at its first `free.close()`
  let holds : State Nat → Prop := fun state =>
    Answers prefetch (fun index => .outcome (reads index)) callback state ∧
      (state.consumer.exited = true → ∃ exit, state.consumer = .closingFree exit)
  have preserved : ∀ {before after}, holds before → Held (outcomes reads) callback before after →
      holds after :=
    fun holds held => ⟨holds.1.step held.step, held.exit holds.2⟩
  have decreases : ∀ {before after}, holds before → Held (outcomes reads) callback before after →
      rank (last + 1) after < rank (last + 1) before := by
    intro before after holds held
    have next := (preserved holds held).1.follows
    exact rank_lt_of_step held.step (next.log_le first.ends) (next.delivered_le first.ends)
  obtain ⟨state, run, stuck⟩ := exists_reaches_stuck wellFounded_lt (rank (last + 1)) holds
    preserved decreases ⟨answers_start, by simp [start, Consumer.exited]⟩
  obtain ⟨answers, exits⟩ := run.preserves preserved
    ⟨answers_start, by simp [start, Consumer.exited]⟩
  have blocked : ¬ ∃ after, WorkerStep (outcomes reads) state after := by
    rintro ⟨after, step⟩
    exact stuck ⟨after, .worker step⟩
  have exited : state.consumer.exited = true := by
    by_contra inLoop
    have looping : state.consumer.exited = false := by simpa using inLoop
    have waiting : consumerStep callback state = none := by
      by_contra moves
      obtain ⟨after, moves⟩ := Option.ne_none_iff_exists'.mp moves
      exact stuck ⟨after, .consumer looping moves⟩
    refine blocked (answers.follows.inv.worker_moves positive
      (results_total fun index => .outcome (reads index)) ?_ waiting answers.follows.not_hung)
    intro result returned
    simp [returned, Consumer.exited] at looping
  obtain ⟨exit, waits⟩ := exits exited
  have normal : exit = .loopEnded := by
    have unwound := answers.calls.not_unwound stopsAt
    cases exit with
    | loopEnded => rfl
    | unwinding => simp [waits, Consumer.unwound] at unwound
  subst normal
  obtain ⟨shared, held, ending, finished⟩ :=
    answers.error_of_blocked stopsAt waits blocked first late window failed
  have delivered := answers.delivered_of_exited stopsAt first late exited
  have here : Reaches (Step (outcomes reads) callback) (start prefetch 0) state :=
    Relation.ReflTransGen.mono (fun _ _ held => held.step) _ _ run
  -- then the consumer closes both channels, takes the error and joins
  have closesFree : Step (outcomes reads) callback state { state with
      free := state.free.close, consumer := .closingReady .loopEnded } :=
    .consumer (by simp [consumerStep, waits])
  have closesReady : Step (outcomes reads) callback
      { state with free := state.free.close, consumer := .closingReady .loopEnded }
      { state with
        free := state.free.close, ready := state.ready.close, consumer := .takingError } :=
    .consumer (by simp [consumerStep])
  have takesError : Step (outcomes reads) callback
      { state with free := state.free.close, ready := state.ready.close, consumer := .takingError }
      { state with
        free := state.free.close, ready := state.ready.close
        consumer := .joining (.err error) } :=
    .consumer (by simp [consumerStep, shared])
  have joins : Step (outcomes reads) callback
      { state with
        free := state.free.close, ready := state.ready.close
        consumer := .joining (.err error) }
      { state with
        free := state.free.close, ready := state.ready.close
        consumer := .returned (.err error) } :=
    .consumer (by simp [consumerStep, finished])
  exact ⟨_, error, (((here.tail closesFree).tail closesReady).tail takesError).tail joins, rfl,
    delivered⟩

/-- The callback is never called less often. -/
theorem delivered_le_of_step {read : Nat → ReadResult → Nat → Prop} {before after : State Nat}
    (transition : Step read callback before after) :
    before.delivered.length ≤ after.delivered.length := by
  cases transition with
  | worker moves => cases workerMove_of_step moves <;> exact Nat.le_refl _
  | read => exact Nat.le_refl _
  | consumer moves => cases consumerMove_of_step moves <;> simp

/-- A call that has returned stays where it is. -/
theorem returned_of_reaches {read : Nat → ReadResult → Nat → Prop} {before after : State Nat}
    {result : Result} (run : Reaches (Step read callback) before after)
    (returned : before.consumer = .returned result) : after.consumer = .returned result := by
  have preserved {before after : State Nat} (returned : before.consumer = .returned result)
      (transition : Step read callback before after) : after.consumer = .returned result := by
    cases transition with
    | worker moves => cases workerMove_of_step moves <;> exact returned
    | read => exact returned
    | consumer moves => simp [consumerStep, returned] at moves
  exact run.preserves preserved returned

/-- A call the callback has stopped returns, whatever the stream goes on with. -/
theorem Answers.inevitable_end (positive : 0 < prefetch)
    (answers : Answers prefetch (fun index => .outcome (reads index)) callback state)
    (stopsAt : StopsAt callback stop) :
    Inevitable (Step (outcomes reads) callback)
      (fun state => ∃ result, state.consumer = .returned result) state := by
  refine .ofRank wellFounded_lt (rank (stop + prefetch + 2)) Answers.step ?_ ?_ answers
  · intro state answers running
    exact answers.follows.inv.progress positive (results_total _) (not_exists.mp running)
      answers.follows.not_hung
  · intro before after answers _ transition
    have next := answers.step transition
    have calls := next.calls.delivered_le stopsAt
    have budget := next.follows.budget
    unfold Budget at budget
    exact rank_lt_of_step transition (by omega) (by omega)

/-- A call that stops cleanly has no error among the reads ahead. -/
theorem StopsCleanly.not_errorAhead (clean : StopsCleanly prefetch reads callback stop)
    (positive : 0 < prefetch) (stopsAt : StopsAt callback stop) :
    ¬ ErrorAhead prefetch reads stop := by
  intro ahead
  obtain ⟨state, error, run, returned, delivered⟩ := late_error_reported positive stopsAt ahead
  obtain ⟨after, more, ok⟩ := (clean.returns state run delivered).exists_reaches
  rw [returned_of_reaches more returned] at ok
  cases ok

/-- A call the callback stops ends ok under every schedule exactly when no error
lies among the reads the worker can have done by then. -/
theorem stopsCleanly_iff (positive : 0 < prefetch) (stopsAt : StopsAt callback stop) :
    StopsCleanly prefetch reads callback stop ↔ ¬ ErrorAhead prefetch reads stop := by
  constructor
  · intro clean
    exact clean.not_errorAhead positive stopsAt
  · intro none
    refine ⟨fun state run => (Answers.of_reaches run).calls.delivered_le stopsAt, ?_⟩
    intro state run delivered
    have answers : Answers prefetch (fun index => .outcome (reads index)) callback state :=
      .of_reaches run
    let stopped : State Nat → Prop := fun state =>
      Answers prefetch (fun index => .outcome (reads index)) callback state ∧
        state.delivered.length = stop + 1
    have preserved : ∀ {before after}, stopped before →
        Step (outcomes reads) callback before after → stopped after := by
      rintro before after ⟨answers, delivered⟩ transition
      have next := answers.step transition
      have most := next.calls.delivered_le stopsAt
      have least := delivered_le_of_step transition
      exact ⟨next, by omega⟩
    refine (answers.inevitable_end positive stopsAt).weaken ⟨answers, delivered⟩ preserved ?_
    rintro state ⟨answers, delivered⟩ ⟨result, returned⟩
    cases result with
    | ok => exact returned
    | rethrown =>
        have kept := answers.calls.not_unwound stopsAt
        simp [returned, Consumer.unwound] at kept
    | err error =>
        have shared := answers.calls.taken error (.inr returned)
        exact absurd (answers.errorAhead shared delivered) none

/-- One batch, at which the callback stops, and a missing shard behind it. -/
theorem stop_before_missing_shard : ¬ StopsCleanly 1
    (fun index => if index = 0 then .ok [7] else .error ⟨"dsio::File: cannot open", some 2⟩)
    (fun _ => .stop) 0 := by
  intro clean
  have stopsAt : StopsAt (fun _ => .stop) 0 := ⟨by simp, rfl⟩
  refine clean.not_errorAhead Nat.one_pos stopsAt ?_
  refine ⟨1, _, by decide, by decide, fun index bound => ⟨[7], by simp, ?_⟩, rfl⟩
  simp [Nat.lt_one_iff.mp bound]

/-- An endless stream of batches, stopped at the third. -/
theorem stopsCleanly_endless : StopsCleanly 2 (fun _ => .ok [7])
    (fun call => if call = 2 then .stop else .proceed) 2 :=
  (stopsCleanly_iff (by decide)
    ⟨fun call bound => by simp [Nat.ne_of_lt bound], by simp⟩).mpr
      fun ⟨_, _, _, _, _, failed⟩ => by cases failed

end Stops

end Dsio.Pipeline
