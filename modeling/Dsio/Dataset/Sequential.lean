import Dsio.Dataset.Interleaving

/-!
# A loop over the batches

What `for_each_batch` is for: the stream in batches, handed to the callback one after the
other until it stops. `handOut` is that loop, and as long as no call of the system fails
every schedule of the two threads does the same.
-/

namespace Dsio.ForEachBatch

open Transition Window Pipeline ShardStream

/-- The batches the callback gets, by what it does with each, and how the loop ends. -/
def handOut (callback : Nat → CallbackResult) : List (List Byte) → List (List Byte) × Result
  | [] => ([], .ok)
  | batch :: rest =>
      match callback 0 with
      | .proceed => (handOut (fun call => callback (call + 1)) rest).map (batch :: ·) id
      | .stop => ([batch], .ok)
      | .throws => ([batch], .rethrown)

/-- The loop goes on behind batches at which the callback proceeds. -/
theorem handOut_append {callback : Nat → CallbackResult} {front : List (List Byte)}
    (proceeds : ∀ call < front.length, callback call = .proceed) (rest : List (List Byte)) :
    handOut callback (front ++ rest) =
      (handOut (fun call => callback (call + front.length)) rest).map (front ++ ·) id := by
  induction front generalizing callback with
  | nil => rfl
  | cons batch front ih =>
      have later := ih fun call bound => proceeds (call + 1) (Nat.succ_lt_succ bound)
      rw [List.cons_append, handOut, proceeds 0 (Nat.succ_pos _), later, Prod.map_map]
      rfl

/-- A callback that proceeds is given all batches. -/
theorem handOut_of_proceed {callback : Nat → CallbackResult} {whole : List (List Byte)}
    (proceeds : ∀ call < whole.length, callback call = .proceed) :
    handOut callback whole = (whole, .ok) := by
  have all := handOut_append proceeds []
  rwa [List.append_nil, handOut, Prod.map_apply, List.append_nil] at all

/-- Batches at which the callback proceeded are the first the loop gives. -/
theorem isPrefix_handOut {callback : Nat → CallbackResult} {given whole : List (List Byte)}
    (front : given <+: whole) (proceeds : ∀ call, call + 1 < given.length →
      callback call = .proceed) : given <+: (handOut callback whole).1 := by
  induction given generalizing callback whole with
  | nil => exact List.nil_prefix
  | cons batch given ih =>
      obtain ⟨rest, rfl⟩ := front
      rw [List.cons_append, handOut]
      by_cases last : given = []
      · subst last
        cases callback 0 <;> simp
      · have more : 0 < given.length := List.length_pos_iff.mpr last
        rw [proceeds 0 (Nat.succ_lt_succ more)]
        refine (List.prefix_cons_inj batch).mpr (ih (List.prefix_append _ _) fun call bound => ?_)
        exact proceeds (call + 1) (Nat.succ_lt_succ bound)

variable {environment : Environment} {options : BatchOptions}
variable {callback : Nat → CallbackResult} {initial : ShardStream} {prefetch : Nat}

/-! ## The call is the loop -/

namespace Interleaved

variable {state : State ShardStream}

/-- Without failures no read returns an error. -/
theorem reads_ok {size : Nat} {stream after : ShardStream} {got : Outcome (List Byte)}
    (sound : Sound environment.disk stream) (noFailure : ¬ environment.fails)
    (reads : Reads environment size stream got after) (error : Error) : got ≠ .error error := by
  let Good (config : Config) : Prop :=
    config.Sound environment.disk ∧ ∀ error, config.point ≠ .returned (.error error)
  have good : Good ⟨after, .returned got⟩ := by
    refine Reaches.preserves reads (fun {before after} good transition => ?_)
      ⟨sound.startRead size, by simp [ShardStream.startRead]⟩
    exact ⟨good.1.step transition, noError_of_step good.1 noFailure transition⟩
  exact fun failed => good.2 error (congrArg Point.returned failed)

/-- Without failures the worker logs what it got, and shares no error. -/
theorem Steady.unfailed (steady : Steady environment options callback initial prefetch state)
    (sound : Sound environment.disk initial) (noFailure : ¬ environment.fails) :
    state.error = none := by
  have good : ∀ error, ReadResult.outcome (.error error) ∉ state.log := by
    intro error
    cases steady.tracks with
    | reading outs logged => simp [logged, logOf]
    | failed outs stream failure _ calls reads =>
        exact absurd rfl (reads_ok (calls.sound sound) noFailure reads failure)
  have ended (ended : Ended state.log state.error) : state.error = none := by
    by_contra some
    obtain ⟨error, set⟩ := Option.ne_none_iff_exists'.mp some
    exact good error ((ended.error_iff error).mp set)
  have explains := steady.inv.explains
  cases worker : state.worker with
  | recvFree | reading | sendReady =>
      rw [worker] at explains
      exact explains.2
  | settingError =>
      rw [worker] at explains
      exact explains.1
  | closingReady =>
      rw [worker] at explains
      exact ended explains
  | finished held ending =>
      rw [worker] at explains
      cases ending with
      | returned => exact ended explains
      | stopped => exact explains.2
      | threw => exact explains.1

/-- A worker that came to the end of the stream has read all of it. -/
theorem Steady.whole (steady : Steady environment options callback initial prefetch state)
    (initially : Between environment.disk initial initial)
    (full : environment.reports = fullReads) (fits : BlocksFit environment.disk initial)
    (positive : 0 < options.batchBytes) (ended : Ended state.log none) :
    batches state.log = chunks options.batchBytes (initial.unread environment.disk) := by
  obtain ⟨goods, logged⟩ : ∃ goods, state.log = goods ++ [.outcome (.ok [])] := by
    obtain ⟨goods, got, -, log, -, ⟨rfl, -⟩ | ⟨error, -, set⟩⟩ := ended.split
    · exact ⟨goods, log⟩
    · cases set
  exact (steady.tracks.pieces initially full fits positive).eq_chunks positive
    (steady.tracks.whole initially full fits positive logged)

/-- Without failures a call that has returned has done what the loop does. -/
theorem Steady.returned_eq {result : Result}
    (steady : Steady environment options callback initial prefetch state)
    (initially : Between environment.disk initial initial)
    (full : environment.reports = fullReads) (fits : BlocksFit environment.disk initial)
    (positive : 0 < options.batchBytes) (noFailure : ¬ environment.fails)
    (returned : state.consumer = .returned result) :
    handOut callback (chunks options.batchBytes (initial.unread environment.disk)) =
      (state.delivered, result) := by
  have unfailed := steady.unfailed initially.sound noFailure
  have exited : state.consumer.exited = true := by rw [returned]; rfl
  have noError : ∀ error, result ≠ .err error := by
    rintro error rfl
    rw [steady.calls.taken error (.inr returned)] at unfailed
    cases unfailed
  rcases steady.calls.exit exited with ⟨⟨held, finished⟩, all, proceeds⟩ | ⟨call, last, answer⟩
  · have explains := steady.inv.explains
    rw [finished, unfailed] at explains
    rw [← steady.whole initially full fits positive explains, ← all,
      handOut_of_proceed proceeds]
    cases result with
    | ok => rfl
    | err error => exact absurd rfl (noError error)
    | rethrown =>
        obtain ⟨call, last, throws⟩ := steady.calls.unwound (by rw [returned]; rfl)
        rw [proceeds call (by omega)] at throws
        cases throws
  · have front := steady.inv.called.trans
      (steady.isPrefix_chunks initially full fits positive)
    have some : state.delivered ≠ [] := List.ne_nil_of_length_pos (by omega)
    obtain ⟨before, batch, split⟩ := List.eq_nil_or_concat' state.delivered |>.resolve_left some
    have count : call = before.length := by simpa [split] using last
    have proceeds : ∀ call < before.length, callback call = .proceed := by
      intro call bound
      exact steady.calls.earlier call (by omega)
    obtain ⟨rest, whole⟩ := front
    rw [← whole, split, List.append_assoc, handOut_append proceeds]
    subst count
    cases result with
    | ok =>
        have stops : callback before.length = .stop := by
          rcases steady.left exited (by rw [returned]; rfl) with all | ⟨call, same, stops⟩
          · exact absurd (all before.length (by omega)) answer
          · have here : call = before.length := by omega
            exact here ▸ stops
        rw [List.singleton_append, handOut, Nat.zero_add, stops]
        rfl
    | err error => exact absurd rfl (noError error)
    | rethrown =>
        have throws : callback before.length = .throws := by
          obtain ⟨call, same, throws⟩ := steady.calls.unwound (by rw [returned]; rfl)
          have here : call = before.length := by omega
          exact here ▸ throws
        rw [List.singleton_append, handOut, Nat.zero_add, throws]
        rfl

variable {shuffle : Nat → List Nat → List Nat} {shards : ShardSet} {disk : Disk}
variable {first : State ShardStream}

/-- The chunks of the stream a call reads. -/
def batchesOf (disk : Disk) (shuffle : Nat → List Nat → List Nat) (shards : ShardSet)
    (options : BatchOptions) : List (List Byte) :=
  chunks options.batchBytes (streamOf disk shards (streamOrder shuffle shards options))

/-- The unread bytes of a new stream are its batches. -/
theorem chunks_unread (shuffles : ∀ seed order, (shuffle seed order).Perm order)
    (noOverflow : ∀ shard ∈ shards, shard.NoOverflow) :
    chunks options.batchBytes
        ((construct shards (streamOrder shuffle shards options) options).unread disk) =
      batchesOf disk shuffle shards options := by
  rw [unread_construct disk options noOverflow (streamOrder_perm shuffles), batchesOf]

/-- What an interleaved call has done when it returns. -/
structure Done (environment : Environment) (callback : Nat → CallbackResult)
    (whole : List (List Byte)) (interleaved : Interleaved ShardStream Config) : Prop where
  returned : ∃ result, interleaved.state.consumer = .returned result
  /-- No read goes on. -/
  idle : interleaved.call = none
  finished : ∃ held ending, interleaved.state.worker = .finished held ending
  given : interleaved.state.delivered <+: (handOut callback whole).1
  looped : ¬ environment.fails → ∀ result, interleaved.state.consumer = .returned result →
    handOut callback whole = (interleaved.state.delivered, result)

/-- A call that has returned has done what the loop does. -/
theorem Kept.done {interleaved : Interleaved ShardStream Config} {result : Result}
    (kept : Kept environment options callback initial prefetch interleaved)
    (initially : Between environment.disk initial initial)
    (full : environment.reports = fullReads) (fits : BlocksFit environment.disk initial)
    (positive : 0 < options.batchBytes) (returned : interleaved.state.consumer = .returned result) :
    Done environment callback
      (chunks options.batchBytes (initial.unread environment.disk)) interleaved := by
  obtain ⟨held, ending, finished⟩ := kept.steady.inv.joined result returned
  have front := kept.steady.inv.called.trans
    (kept.steady.isPrefix_chunks initially full fits positive)
  refine ⟨⟨result, returned⟩, ?_, ⟨held, ending, finished⟩,
    isPrefix_handOut front kept.steady.calls.earlier, fun noFailure result returned => ?_⟩
  · by_contra busy
    obtain ⟨config, call⟩ := Option.ne_none_iff_exists'.mp busy
    obtain ⟨⟨batch, reading⟩, -⟩ := kept.within.2 config call
    rw [finished] at reading
    cases reading
  · exact kept.steady.returned_eq initially full fits positive noFailure returned

/-- Every schedule of an accepted call is done at some time. -/
theorem inevitably_done (shuffles : ∀ seed order, (shuffle seed order).Perm order)
    (begins : begin shuffle shards options = .ok first)
    (noOverflow : ∀ shard ∈ shards, shard.NoOverflow)
    (blocks : ∀ shard ∈ shards, HoldsBlock options (environment.disk.alignment shard.path))
    (full : environment.reports = fullReads) (callback : Nat → CallbackResult) :
    Inevitable (Step (reader environment options) callback)
      (Done environment callback (batchesOf environment.disk shuffle shards options))
      ⟨first, none⟩ := by
  obtain ⟨positive, some, -, rfl⟩ := begin_eq_ok begins
  rw [← chunks_unread shuffles noOverflow]
  generalize started : construct shards (streamOrder shuffle shards options) options = initial
  have initially : Between environment.disk initial initial :=
    started ▸ between_construct environment.disk shards _ options
  have fits : BlocksFit environment.disk initial :=
    started ▸ blocksFit_construct (streamOrder_perm shuffles) blocks
  have begun : Kept environment options callback initial options.prefetch
      ⟨start options.prefetch initial, none⟩ := ⟨within_idle .., steady_start ..⟩
  refine (inevitable positive some initially full fits callback).weaken begun Kept.step ?_
  rintro interleaved kept ⟨result, returned⟩
  exact kept.done initially full fits positive returned

def twoShards : ShardSet := [⟨"a", 0, 3⟩, ⟨"b", 0, 2⟩]

def inPairs : BatchOptions := { batchBytes := 2, segmentBytes := 2, readDepth := 2 }

/-- The segments hold a block of each file. -/
theorem twoShards_fit : (∀ shard ∈ twoShards, shard.NoOverflow) ∧
    ∀ shard ∈ twoShards, HoldsBlock inPairs (twoFiles.alignment shard.path) :=
  ⟨by simp [twoShards, Shard.NoOverflow], by decide⟩

end Interleaved

end Dsio.ForEachBatch
