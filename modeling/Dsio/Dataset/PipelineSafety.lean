import Dsio.Dataset.PipelineProgress

/-!
# Delivery: nothing lost, nothing repeated, nothing reordered

With a callback that never stops the consumer, the consumer leaves its loop only
when `ready` is closed and drained, so the worker has returned and every batch
it read has been handed out (`Delivered`).
-/

namespace Dsio.Pipeline

variable {Stream : Type}

/-- The callback takes every batch. -/
def proceeding : Nat → CallbackResult := fun _ => .proceed

/-- What `error.take()` makes of the shared error. -/
def resultOf : Option Error → Result
  | some error => .err error
  | none => .ok

/-- The consumer's side under a callback that always proceeds. -/
structure Delivered (state : State Stream) : Prop where
  keepsGoing : ∀ batch keepGoing, state.consumer = .sendFree batch keepGoing → keepGoing = true
  kept : state.consumer.unwound = false
  exit : state.consumer.exited = true →
    (∃ held, state.worker = .finished held .returned) ∧ state.ready.items = [] ∧
      state.delivered = batches state.log
  result : ∀ result, state.consumer = .joining result ∨ state.consumer = .returned result →
    result = resultOf state.error

/-- At first the consumer waits for a batch. -/
theorem delivered_start (prefetch : Nat) (stream : Stream) :
    Delivered (start prefetch stream) where
  keepsGoing := by simp [start]
  kept := rfl
  exit := by simp [start, Consumer.exited]
  result := by simp [start]

/-- A step of the worker keeps what holds of the consumer. -/
theorem Delivered.worker {before after : State Stream} (delivered : Delivered before)
    (move : WorkerMove before after) : Delivered after := by
  -- a worker that moves has not returned, so the consumer is still in its loop
  have looping : before.consumer.exited = false := by
    cases exited : before.consumer.exited with
    | false => rfl
    | true =>
        obtain ⟨⟨held, finished⟩, -⟩ := delivered.exit exited
        cases move with
        | takes point | freeClosed point | setsError point | closes point | sends point
        | readyClosed point =>
            rw [point] at finished
            cases finished
  have same : after.consumer = before.consumer := by cases move <;> rfl
  constructor
  · exact same ▸ delivered.keepsGoing
  · exact same ▸ delivered.kept
  · intro exited
    rw [same, looping] at exited
    cases exited
  · intro result point
    rw [same] at point
    rcases point with point | point <;> simp [point, Consumer.exited] at looping

/-- A read of the stream keeps what holds of the consumer. -/
theorem Delivered.read {before : State Stream} (delivered : Delivered before) {batch : Batch}
    (point : before.worker = .reading batch) (result : ReadResult) (stream : Stream) :
    Delivered { before with
      stream, worker := afterRead batch result, log := before.log ++ [result] } where
  keepsGoing := delivered.keepsGoing
  kept := delivered.kept
  exit := by
    intro exited
    obtain ⟨⟨held, finished⟩, -⟩ := delivered.exit exited
    rw [point] at finished
    cases finished
  result := delivered.result

/-- The consumer leaves its loop only once `ready` is closed and drained. -/
theorem Delivered.consumer {prefetch : Nat} {before after : State Stream}
    (delivered : Delivered before) (inv : Inv prefetch before)
    (move : ConsumerMove proceeding before after) : Delivered after := by
  cases move with
  | receives | proceeds =>
      exact ⟨by simp, rfl, by simp [Consumer.exited], by simp⟩
  | drained point closed nothing =>
      obtain ⟨finished, all⟩ := inv.drained point closed nothing
      exact ⟨by simp, rfl, fun _ => ⟨finished, nothing, all⟩, by simp⟩
  | stops _ result | throws _ result => cases result
  | @givesBack batch keepGoing free point sent =>
      have goes := delivered.keepsGoing batch keepGoing point
      subst goes
      exact ⟨by simp, rfl, by simp [Consumer.exited], by simp⟩
  | freeClosed point closed =>
      have notClosed := inv.freeClosed
      simp [point, closed, Consumer.closedFree] at notClosed
  | @closesFree exit point =>
      have kept := delivered.kept
      have exited := delivered.exit (by simp [point, Consumer.exited])
      cases exit with
      | loopEnded => exact ⟨by simp, rfl, fun _ => exited, by simp⟩
      | unwinding => simp [point, Consumer.unwound] at kept
  | closesReady point =>
      exact ⟨by simp, rfl, fun _ => delivered.exit (by simp [point, Consumer.exited]), by simp⟩
  | rethrows point =>
      have kept := delivered.kept
      simp [point, Consumer.unwound] at kept
  | takesError point set =>
      refine ⟨by simp, rfl, fun _ => delivered.exit (by simp [point, Consumer.exited]), ?_⟩
      simp [set, resultOf]
  | takesNone point unset =>
      refine ⟨by simp, rfl, fun _ => delivered.exit (by simp [point, Consumer.exited]), ?_⟩
      simp [unset, resultOf]
  | @joins result held ending point finished =>
      have same := delivered.result result (.inl point)
      have exited := delivered.exit (by simp [point, Consumer.exited])
      subst same
      refine ⟨by simp, ?_, fun _ => exited, by simp⟩
      cases error : before.error <;> simp [resultOf, Consumer.unwound]

/-- What holds of the consumer holds in every state. -/
theorem Delivered.of_reaches {prefetch : Nat} {read : Stream → ReadResult → Stream → Prop}
    {stream : Stream} {state : State Stream}
    (run : Transition.Reaches (Step read proceeding) (start prefetch stream) state) :
    Delivered state := by
  let both : State Stream → Prop := fun state => Inv prefetch state ∧ Delivered state
  have preserved : ∀ {before after}, both before → Step read proceeding before after →
      both after := by
    rintro before after ⟨inv, delivered⟩ transition
    refine ⟨inv.step transition, ?_⟩
    cases transition with
    | worker moves => exact delivered.worker (workerMove_of_step moves)
    | read point => exact delivered.read point _ _
    | consumer moves => exact delivered.consumer inv (consumerMove_of_step moves)
  exact (run.preserves preserved ⟨inv_start prefetch stream, delivered_start prefetch stream⟩).2

/-- A callback that never stops the stream and has not thrown has proceeded. -/
theorem proceeding_of_reaches {read : Stream → ReadResult → Stream → Prop}
    {callback : Nat → CallbackResult} {first state : State Stream}
    (neverStops : ∀ call, callback call ≠ .stop)
    (run : Transition.Reaches (Step read callback) first state)
    (kept : state.consumer.unwound = false) :
    Transition.Reaches (Step read proceeding) first state := by
  induction run with
  | refl => exact .refl
  | @tail before after _ transition ih =>
      cases transition with
      | worker moves =>
          cases workerMove_of_step moves <;> exact (ih kept).tail (.worker moves)
      | read point got => exact (ih kept).tail (.read point got)
      | consumer moves =>
          have same (call : ∀ call batch, before.consumer ≠ .calling call batch) :
              consumerStep proceeding before = some after := by
            rw [← moves]
            unfold consumerStep
            cases point : before.consumer with
            | calling index batch => exact absurd point (call index batch)
            | closingReady exit => cases exit <;> rfl
            | recvReady | sendFree | closingFree | takingError | joining | returned => rfl
          cases consumerMove_of_step moves with
          | @proceeds call batch point result =>
              refine (ih (by simp [point, Consumer.unwound])).tail (.consumer ?_)
              simp [consumerStep, point, proceeding]
          | stops _ result => exact absurd result (neverStops _)
          | throws | freeClosed => cases kept
          | @closesFree exit point =>
              refine (ih ?_).tail (.consumer (same (by simp [point])))
              cases exit with
              | loopEnded => simp [point, Consumer.unwound]
              | unwinding => cases kept
          | rethrows => cases kept
          | @joins result _ _ point =>
              refine (ih ?_).tail (.consumer (same (by simp [point])))
              cases result with
              | rethrown => cases kept
              | ok | err => simp [point, Consumer.unwound]
          | receives point | drained point | givesBack point | closesReady point
          | takesError point | takesNone point =>
              exact (ih (by simp [point, Consumer.unwound])).tail
                (.consumer (same (by simp [point])))

/-- Every batch read is either delivered or on its way, in order, in every state. -/
theorem Delivered.flow {prefetch : Nat} {state : State Stream} (delivered : Delivered state)
    (inv : Inv prefetch state) : state.delivered ++ state.inTransit = batches state.log := by
  cases exited : state.consumer.exited with
  | true =>
      obtain ⟨⟨held, finished⟩, nothing, all⟩ := delivered.exit exited
      simpa [State.inTransit, nothing, finished, Worker.unsent] using all
  | false =>
      refine inv.flow ?_
      cases consumer : state.consumer <;> simp_all [Consumer.exited, Consumer.closedReady]

theorem mem_batches_ne_nil {log : List ReadResult} {bytes : List Byte}
    (member : bytes ∈ batches log) : bytes ≠ [] := by
  obtain ⟨result, -, found⟩ := List.mem_filterMap.mp member
  unfold ReadResult.batch? at found
  split at found
  · split at found
    · cases found
    · next filled =>
      cases found
      exact filled
  · cases found

/-- A call that returned has delivered every read before the one that ended the
stream, and reports that one. -/
theorem Delivered.returned {prefetch : Nat} {reads : Nat → Outcome (List Byte)} {state : State Nat}
    {result : Result} (delivered : Delivered state)
    (follows : Follows prefetch (fun index => .outcome (reads index)) state)
    (returned : state.consumer = .returned result) :
    ∃ last, state.delivered.map Except.ok = (List.range last).map reads ∧
      (∀ bytes ∈ state.delivered, bytes ≠ []) ∧
      ((reads last = .ok [] ∧ result = .ok) ∨
        ∃ error, reads last = .error error ∧ result = .err error) := by
  obtain ⟨⟨held, finished⟩, -, all⟩ := delivered.exit (by simp [returned, Consumer.exited])
  have result := delivered.result result (.inr returned)
  have explains := follows.inv.explains
  rw [finished] at explains
  have nonempty : ∀ bytes ∈ state.delivered, bytes ≠ [] := by
    intro bytes member
    rw [all] at member
    exact mem_batches_ne_nil member
  have upTo : ∀ {goods : List ReadResult}, AllBatches goods → batches state.log = batches goods →
      goods = (List.range goods.length).map (fun index => .outcome (reads index)) →
      state.delivered.map Except.ok = (List.range goods.length).map reads := by
    intro goods onlyBatches same sequence
    have wrapped : (state.delivered.map Except.ok).map ReadResult.outcome =
        ((List.range goods.length).map reads).map ReadResult.outcome := by
      rw [List.map_map, List.map_map, all, same]
      exact onlyBatches.map_batches.trans sequence
    exact List.map_injective_iff.mpr (fun _ _ same => ReadResult.outcome.inj same) wrapped
  obtain ⟨goods, got, onlyBatches, log, noBatch, reason⟩ := Ended.split explains
  obtain ⟨sequence, last⟩ := follows.log_eq log
  have read : reads goods.length = got := ReadResult.outcome.inj last
  refine ⟨goods.length, upTo onlyBatches (by simp [log, batches, noBatch]) sequence, nonempty, ?_⟩
  rcases reason with ⟨rfl, unset⟩ | ⟨error, rfl, set⟩
  · exact .inl ⟨read, by rw [result, unset, resultOf]⟩
  · exact .inr ⟨error, read, by rw [result, set, resultOf]⟩

/-- For every sequence of read outcomes and every interleaving: the batches read
are delivered or on their way in order, the buffers are partitioned among their
four places, giving a batch back never blocks, and a call that returns has
delivered every batch before the outcome that ended the stream, which it reports.
A sequence that ends is a call that returns. -/
theorem delivers_every_batch {prefetch : Nat} (positive : 0 < prefetch)
    (reads : Nat → Outcome (List Byte)) :
    (∀ state, Transition.Reaches (Step (outcomes reads) proceeding) (start prefetch 0) state →
      state.log = (List.range state.stream).map (fun index => .outcome (reads index)) ∧
      state.delivered ++ state.inTransit = batches state.log ∧
      state.buffers.Perm (List.range (prefetch + 1)) ∧
      (∀ filled shown call, state.worker = .reading filled → state.consumer = .calling call shown →
        filled.buffer ≠ shown.buffer) ∧
      (∀ batch keepGoing, state.consumer = .sendFree batch keepGoing →
        state.free.send batch ≠ .blocked) ∧
      ∀ result, state.consumer = .returned result → ∃ last,
        state.delivered.map Except.ok = (List.range last).map reads ∧
        (∀ bytes ∈ state.delivered, bytes ≠ []) ∧
        ((reads last = .ok [] ∧ result = .ok) ∨
          ∃ error, reads last = .error error ∧ result = .err error)) ∧
    ∀ last, (reads last = .ok [] ∨ ∃ error, reads last = .error error) →
      Transition.Inevitable (Step (outcomes reads) proceeding)
        (fun state => ∃ result, state.consumer = .returned result) (start prefetch 0) := by
  constructor
  · intro state run
    have follows := Follows.of_reaches run
    have inv := follows.inv
    have delivered := Delivered.of_reaches run
    refine ⟨follows.log, delivered.flow inv, inv.partition delivered.kept,
      fun _ _ _ => inv.reading_ne_calling, fun _ _ => inv.sendFree_room, ?_⟩
    intro result returned
    exact delivered.returned follows returned
  · intro last ends
    have noBatch : (ReadResult.outcome (reads last)).batch? = none := by
      rcases ends with endOfStream | ⟨error, failed⟩
      · simp [ReadResult.batch?, endOfStream]
      · simp [ReadResult.batch?, failed]
    refine (inevitable_end proceeding positive noBatch).weaken (follows_start _ _) Follows.step ?_
    intro state follows finished
    exact finished.resolve_right follows.not_hung

/-- Two batches, then an error: every schedule returns. -/
theorem delivers_two_batches : Transition.Inevitable
    (Step (outcomes fun index => if index < 2 then .ok [7] else .error ⟨"read", none⟩) proceeding)
    (fun state => ∃ result, state.consumer = .returned result) (start 1 0) :=
  (delivers_every_batch (by decide) _).2 2 (.inr ⟨_, rfl⟩)

end Dsio.Pipeline
