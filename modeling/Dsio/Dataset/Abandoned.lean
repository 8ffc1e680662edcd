import Dsio.Dataset.Requests

/-!
# What a call leaves in flight

A call of `read` that returns bytes leaves a read in flight for every pending entry that is
not done, and one that meets the end of the stream leaves none. `LeavesReads` lists the
failures that leave some, by the system call that fails and what was pending before it.
-/

namespace Dsio.ShardStream

open Transition

/-- A segment read is outstanding: it was queued and has not been reaped. -/
def Waits (stream : ShardStream) : Prop := ∃ entry ∈ stream.pending, entry.done = false

/-- Failures that leave reads in flight: a submission is refused while a read is outstanding
or after some of its requests were taken, a wait fails, or a read fails while another is
outstanding. -/
inductive LeavesReads : Config → Config → Prop where
  | refused {stream : ShardStream} {size out error queued} (isOpen : stream.isOpen = true)
      (some : stream.planned ≠ []) (busy : stream.Waits ∨ 0 < queued) :
      LeavesReads ⟨stream, .loop size out⟩
        (afterFill size out (stream.fillPipeline (.refused error queued)))
  | unreaped {stream : ShardStream} {size out error} (waits : stream.Waits) :
      LeavesReads ⟨stream, .await size out⟩
        (afterReap size out (stream.awaitOne (.failed error)))
  | failed {stream : ShardStream} {size out index request completion data}
      (found : stream.inFlight[index]? = some request)
      (token : completion.token = request.token) (wrong : completion.error ≠ 0)
      (others : ∃ entry ∈ stream.pending, entry.done = false ∧ entry.slot ≠ completion.token) :
      LeavesReads ⟨stream, .await size out⟩
        (afterReap size out (stream.awaitOne (.completed index completion data)))

variable {environment : Environment} {disk : Disk} {stream : ShardStream} {config : Config}

/-- An entry that is not done has its request in flight. -/
theorem Sound.flies (sound : Sound disk stream) {entry : Pending}
    (pending : entry ∈ stream.pending) (waits : entry.done = false) :
    stream.entryRequest entry ∈ stream.inFlight :=
  sound.matched.mem_iff.mpr
    (List.mem_map.mpr ⟨entry, List.mem_filter.mpr ⟨pending, by simp [waits]⟩, rfl⟩)

/-- Requests are in flight as long as entries are outstanding. -/
theorem Sound.inFlight_ne_nil_iff (sound : Sound disk stream) :
    stream.inFlight ≠ [] ↔ stream.Waits := by
  constructor
  · intro some
    obtain ⟨request, member⟩ := List.exists_mem_of_ne_nil _ some
    obtain ⟨entry, pending, waits, -⟩ := sound.mem_inFlight member
    exact ⟨entry, pending, waits⟩
  · rintro ⟨entry, pending, waits⟩
    exact List.ne_nil_of_mem (sound.flies pending waits)

/-- What a refused submission leaves in flight. -/
theorem Sound.inFlight_refused (sound : Sound disk stream) (isOpen : stream.isOpen = true)
    (some : stream.planned ≠ []) (error : Error) (queued : Nat) :
    ∃ after, stream.fillPipeline (.refused error queued) = (.error error, after) ∧
      after.inFlight = stream.inFlight ++ stream.planned.take queued := by
  obtain ⟨backend, found, -⟩ := (sound.opened isOpen).backend
  have isBackend : stream.backend ≠ none := by simp [found]
  obtain ⟨filled, entries, fill, -, loop, handed⟩ :=
    fillPipeline_spec (.refused error queued) stream
  have planned : stream.planned = entries.map stream.entryRequest := by
    rw [ShardStream.planned, loop]
  rcases handed with ⟨none, -⟩ | ⟨-, accepted, -⟩ | ⟨error', queued', -, same, handed⟩
  · rw [planned, none] at some
    exact absurd rfl some
  · cases accepted
  · cases same
    refine ⟨_, handed, ?_⟩
    rw [fill.rollBack, planned]
    exact inFlight_submit isBackend _

/-- What a read that failed leaves in flight. -/
theorem Sound.inFlight_failed (sound : Sound disk stream) {index : Nat} {request : ReadRequest}
    {completion : Completion} (found : stream.inFlight[index]? = some request)
    (token : completion.token = request.token) (wrong : completion.error ≠ 0)
    (data : List Byte) :
    ∃ error after, stream.awaitOne (.completed index completion data) = (.error error, after) ∧
      after.inFlight = stream.inFlight.eraseIdx index := by
  obtain ⟨before, entry, after, -, -, -, same⟩ := sound.awaitOne found token data
  rw [if_pos wrong] at same
  exact ⟨_, _, same, inFlight_complete found data⟩

/-- Of the requests in flight one is left when one has been reaped, if and only if an entry of
another slot is outstanding. -/
theorem Sound.eraseIdx_ne_nil_iff (sound : Sound disk stream) {index : Nat}
    {request : ReadRequest} (found : stream.inFlight[index]? = some request) :
    stream.inFlight.eraseIdx index ≠ [] ↔
      ∃ entry ∈ stream.pending, entry.done = false ∧ entry.slot ≠ request.token := by
  constructor
  · intro some
    obtain ⟨other, left⟩ := List.exists_mem_of_ne_nil _ some
    obtain ⟨place, elsewhere, here⟩ := List.mem_eraseIdx_iff_getElem?.mp left
    obtain ⟨entry, pending, waits, rfl⟩ := sound.mem_inFlight (List.mem_of_getElem? here)
    obtain ⟨read, also, done, rfl⟩ := sound.mem_inFlight (List.mem_of_getElem? found)
    refine ⟨entry, pending, waits, fun same => elsewhere ?_⟩
    have equal : entry = read := List.inj_on_of_nodup_map sound.distinct pending also same
    have distinct : stream.inFlight.Nodup := List.Nodup.of_map _ sound.safe.exclusive
    obtain ⟨bound, -⟩ := List.getElem?_eq_some_iff.mp here
    exact (List.getElem?_inj bound distinct).mp (by rw [here, found, equal])
  · rintro ⟨entry, pending, waits, other⟩
    obtain ⟨place, here⟩ := List.getElem?_of_mem (sound.flies pending waits)
    refine List.ne_nil_of_mem (List.mem_eraseIdx_iff_getElem?.mpr ⟨place, ?_, here⟩)
    rintro rfl
    rw [found, Option.some.injEq] at here
    exact other (congrArg ReadRequest.token here).symm

/-- The failures listed leave reads in flight. -/
theorem LeavesReads.inFlight_ne_nil {after : Config} (leaves : LeavesReads config after)
    (sound : config.Sound disk) : after.stream.inFlight ≠ [] := by
  cases leaves with
  | @refused stream size out error queued isOpen some busy =>
      have sound : Sound disk stream := sound
      obtain ⟨after, same, inFlight⟩ := sound.inFlight_refused isOpen some error queued
      rw [same, afterFill, inFlight]
      intro none
      obtain ⟨old, new⟩ := List.append_eq_nil_iff.mp none
      rcases busy with waits | more
      · exact sound.inFlight_ne_nil_iff.mpr waits old
      · rcases List.take_eq_nil_iff.mp new with zero | none
        · omega
        · exact some none
  | unreaped waits => exact sound.1.inFlight_ne_nil_iff.mpr waits
  | @failed stream size out index request completion data found token wrong others =>
      obtain ⟨error, after, same, inFlight⟩ := sound.1.inFlight_failed found token wrong data
      rw [same, afterReap, inFlight]
      exact (sound.1.eraseIdx_ne_nil_iff found).mpr (token ▸ others)

/-- A step that ends a call in an error and leaves reads in flight is one of them. -/
theorem leavesReads_of_step {after : Config} {error : Error}
    (sound : config.Sound environment.disk) (transition : Step environment config after)
    (failed : after.point = .returned (.error error)) (busy : after.stream.inFlight ≠ []) :
    LeavesReads config after := by
  cases transition with
  | finish => cases failed
  | @openShard stream size out room closed more opening allowed =>
      rcases Sound.openShard sound closed more allowed with
        ⟨error, after, same, none, -⟩ | ⟨after, same, -, -⟩
      · rw [same] at busy
        exact absurd (by simp [afterOpen, inFlight, none]) busy
      · rw [same] at failed
        cases failed
  | @fill stream size out room isOpen submission allowed =>
      have sound : Sound environment.disk stream := sound
      obtain ⟨filled, entries, -, -, loop, handed⟩ := fillPipeline_spec submission stream
      have accepted {after : ShardStream}
          (same : stream.fillPipeline submission = (.ok (), after)) : False := by
        rw [same, afterFill] at failed
        split at failed <;> cases failed
      rcases handed with ⟨-, same⟩ | ⟨-, -, same⟩ | ⟨error', queued, some, rfl, same⟩
      · exact (accepted same).elim
      · exact (accepted same).elim
      · have planned : stream.planned ≠ [] := by
          rw [ShardStream.planned, loop]
          simpa using some
        refine .refused isOpen planned ?_
        by_contra quiet
        obtain ⟨done, zero⟩ := not_or.mp quiet
        obtain ⟨after, same, inFlight⟩ := sound.inFlight_refused isOpen planned error' queued
        rw [same, afterFill, inFlight, Nat.eq_zero_of_not_pos zero, List.take_zero,
          List.append_nil] at busy
        exact done (sound.inFlight_ne_nil_iff.mp busy)
  | @reap stream size out entry front waits reaped allowed =>
      have waiting : stream.Waits := ⟨entry, List.mem_of_head? front, waits⟩
      cases reaped with
      | failed error => exact .unreaped waiting
      | nothing => exact absurd allowed (sound.1.inFlight_ne_nil_iff.mpr waiting)
      | completed index completion data =>
          obtain ⟨request, found, token, -, -⟩ := allowed
          by_cases wrong : completion.error = 0
          · obtain ⟨before, finished, rest, -, -, -, same⟩ := sound.1.awaitOne found token data
            rw [if_neg (not_not.mpr wrong)] at same
            rw [same] at failed
            cases failed
          · obtain ⟨error', after, same, inFlight⟩ :=
              sound.1.inFlight_failed found token wrong data
            rw [same, afterReap, inFlight] at busy
            exact .failed found token wrong (token ▸ (sound.1.eraseIdx_ne_nil_iff found).mp busy)
  | take =>
      simp only [afterTake] at failed
      split at failed
      · cases failed
      · split at failed <;> cases failed

/-- A call that fails leaves reads in flight exactly when its last step is one of those
failures. -/
theorem Reads.inFlight_ne_nil_iff {size : Nat} {error : Error} {after : ShardStream}
    (sound : Sound environment.disk stream)
    (reads : Reads environment size stream (.error error) after) :
    after.inFlight ≠ [] ↔ ∃ config, Reaches (Step environment) (startRead size stream) config ∧
      LeavesReads config ⟨after, .returned (.error error)⟩ := by
  have started : (startRead size stream).Sound environment.disk := sound.startRead size
  constructor
  · intro busy
    rcases Relation.ReflTransGen.cases_tail reads with same | ⟨config, run, last⟩
    · cases congrArg Config.point same
    · exact ⟨config, run, leavesReads_of_step (started.of_reaches run) last rfl busy⟩
  · rintro ⟨config, run, leaves⟩
    exact leaves.inFlight_ne_nil (started.of_reaches run)

/-- A call for `size` bytes is under way, has failed, has returned some bytes, or has met the
end of the stream and left nothing in flight. -/
def Config.Asked (size : Nat) (config : Config) : Prop :=
  match config.point with
  | .loop asked _ | .await asked _ => asked = size
  | .returned (.ok []) => config.stream.inFlight = []
  | .returned _ => True

/-- Every step keeps what holds of the call. -/
theorem Config.Asked.step {size : Nat} {before after : Config} (positive : 0 < size)
    (sound : before.Sound environment.disk) (asked : before.Asked size)
    (transition : Step environment before after) : after.Asked size := by
  cases move_of_step sound transition with
  | @finish stream size out ends =>
      cases asked
      cases out with
      | cons => trivial
      | nil =>
          rcases ends with full | ⟨closed, -⟩
          · exact absurd positive (Nat.not_lt.mpr full)
          · have none : stream.backend = none := (Sound.closed sound closed).1
            simp only [Config.Asked, inFlight, none]
  | fail => trivial
  | opened | exhausted | filled | reaped => exact asked
  | @taken stream size out entry rest pending =>
      cases asked
      simp only [afterTake, ShardStream.takeFront]
      split
      · next carries =>
        -- what did not fit was carried, so `out` is full
        have full : 0 < (out ++ copyN (min (size - out.length) entry.bytes)
            (stream.bufferAt entry.slot).bytes).length := by
          rw [List.length_append, copyN, List.takeD_length]
          omega
        obtain ⟨first, others, same⟩ := List.exists_cons_of_length_pos full
        simp only [Config.Asked, same]
      · split <;> rfl

/-- A call that returns no bytes has met the end of the stream, and leaves nothing in flight. -/
theorem Reads.inFlight_eq_nil {size : Nat} {after : ShardStream} (positive : 0 < size)
    (sound : Sound environment.disk stream)
    (reads : Reads environment size stream (.ok []) after) : after.inFlight = [] := by
  let Good (config : Config) : Prop := config.Sound environment.disk ∧ config.Asked size
  have good : Good ⟨after, .returned (.ok [])⟩ :=
    reads.preserves (fun good transition =>
      ⟨good.1.step transition, good.2.step positive good.1 transition⟩) ⟨sound.startRead size, rfl⟩
  exact good.2

end Dsio.ShardStream
