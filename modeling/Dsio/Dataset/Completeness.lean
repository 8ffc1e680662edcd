import Dsio.Dataset.Lifetime
import Dsio.Dataset.Streaming

/-!
# What a successful pass delivers

A shard ends where its file does, without an error. So a call that returns ok, with
reads that are full up to the end of the file and a callback that never returned false,
has handed out the part of every window its file has, and every failure of the system
is reported.
-/

namespace Dsio.ForEachBatch

open Transition Window Pipeline ShardStream

variable {shuffle : Nat → List Nat → List Nat} {shards : ShardSet} {options : BatchOptions}
variable {environment : Environment} {callback : Nat → CallbackResult}
variable {first state : State ShardStream}

/-! ## The last read -/

/-- Empty reads carry no bytes. -/
theorem flatten_batches_logOf (outs : List (List Byte)) :
    (batches (logOf outs)).flatten = outs.flatten := by
  induction outs with
  | nil => rfl
  | cons out outs ih =>
      by_cases empty : out = []
      · simpa [logOf, batches, ReadResult.batch?, empty] using ih
      · simpa [logOf, batches, ReadResult.batch?, empty] using ih

/-- Readers of one size have read everything once one of them got nothing. -/
theorem flatten_cut_of_last {size count : Nat} {content : List Byte} {outs : List (List Byte)}
    (positive : 0 < size) (cuts : outs ++ [[]] = cut (List.replicate (count + 1) size) content) :
    (outs ++ [[]]).flatten = content := by
  have whole := flatten_cut (List.replicate (count + 1) size) content
  rw [← cuts] at whole
  rw [List.replicate_succ', cut_append] at cuts
  have last := (List.append_inj' cuts rfl).2
  simp only [cut, List.cons.injEq, and_true] at last
  have short : content.length ≤ (List.replicate count size).sum := by
    have length := congrArg List.length last
    simp only [List.length_nil, List.length_take, List.length_drop] at length
    omega
  rw [whole, List.replicate_succ', List.sum_append]
  exact List.take_of_length_le (by omega)

/-- The log of a stream that ended holds the whole stream. -/
theorem Tracks.whole {initial : ShardStream} {goods : List ReadResult}
    (tracks : Tracks environment options initial state)
    (initially : Between environment.disk initial initial)
    (full : environment.reports = fullReads) (fits : BlocksFit environment.disk initial)
    (positive : 0 < options.batchBytes) (ended : state.log = goods ++ [.outcome (.ok [])]) :
    (batches state.log).flatten = initial.unread environment.disk := by
  cases tracks with
  | failed outs stream error logged =>
      rw [ended] at logged
      cases (List.append_inj' logged rfl).2
  | reading outs logged calls =>
      obtain ⟨-, cuts, -⟩ := initially.calls full fits calls
      rw [logged] at ended ⊢
      obtain ⟨before, last, rfl, -, final⟩ := List.map_eq_append_iff.mp ended
      obtain rfl : last = [[]] := by
        obtain ⟨out, more, rfl, same, none⟩ := List.map_eq_cons_iff.mp final
        rw [List.map_eq_nil_iff.mp none]
        simpa using same
      rw [List.length_append, List.length_singleton] at cuts
      rw [flatten_batches_logOf]
      exact flatten_cut_of_last positive cuts

/-! ## Totals -/

/-- Cut lengths add up to the whole ones when none is cut. -/
theorem sum_min_eq_sum_iff {α : Type} (length available : α → Nat) (items : List α) :
    (items.map fun item => min (length item) (available item)).sum = (items.map length).sum ↔
      ∀ item ∈ items, length item ≤ available item := by
  have least (items : List α) : (items.map fun item => min (length item) (available item)).sum ≤
      (items.map length).sum := by
    induction items with
    | nil => exact Nat.le_refl _
    | cons item items ih =>
        simp only [List.map_cons, List.sum_cons]
        omega
  induction items with
  | nil => simp
  | cons item items ih =>
      have rest := least items
      simp only [List.map_cons, List.sum_cons, List.forall_mem_cons, ← ih]
      omega

/-- The order does not change how many bytes the stream has. -/
theorem length_streamOf (disk : Disk) {shards : ShardSet} {order : List Nat}
    (permutes : order.Perm (List.range shards.length)) :
    (streamOf disk shards order).length = (shards.map fun shard =>
      min shard.length ((disk.content shard.path).length - shard.offset)).sum := by
  have inOrder : (List.range shards.length).map (fun index => (shards[index]?).getD {}) = shards :=
    List.ext_getElem (by simp) fun index _ bound => by simp [bound]
  have lengths := (permutes.map fun index =>
    (disk.bytesOf ((shards[index]?).getD {})).length).sum_nat
  rw [streamOf, List.length_flatMap, lengths]
  conv_rhs => rw [← inOrder]
  rw [List.map_map]
  refine congrArg List.sum (List.map_congr_left fun index _ => ?_)
  simp [Disk.bytesOf]

/-- The log of a call that returned without rethrowing. -/
theorem result_of_returned {result : Result} (begins : begin shuffle shards options = .ok first)
    (neverStops : ∀ call, callback call ≠ .stop)
    (run : Reaches (Step environment options callback) first state)
    (returned : state.consumer = .returned result) (kept : result ≠ .rethrown) :
    state.delivered = batches state.log ∧ Ended state.log state.error ∧
      result = resultOf state.error := by
  obtain ⟨-, -, -, rfl⟩ := begin_eq_ok begins
  have proceeded := proceeding_of_reaches neverStops run (by
    rw [returned]
    cases result with
    | rethrown => exact absurd rfl kept
    | ok | err => rfl)
  have delivered := Delivered.of_reaches proceeded
  obtain ⟨⟨held, finished⟩, -, all⟩ := delivered.exit (by simp [returned, Consumer.exited])
  have explains := (Inv.of_reaches proceeded).explains
  rw [finished] at explains
  exact ⟨all, explains, delivered.result result (.inr returned)⟩

/-- With reads that are full up to the end of their file and a callback that never
stops the stream: a call that returns ok has delivered the part of every window its
file has, in the order of the stream, which is the sum of the lengths exactly when every
file has its whole window; and unless the callback threw, the call returns an error
exactly when a read had one. -/
theorem pass_delivers_files {disk : Disk} {result : Result}
    (shuffles : ∀ seed order, (shuffle seed order).Perm order)
    (begins : begin shuffle shards options = .ok first)
    (noOverflow : ∀ shard ∈ shards, shard.NoOverflow)
    (blocks : ∀ shard ∈ shards, HoldsBlock options (disk.alignment shard.path))
    (neverStops : ∀ call, callback call ≠ .stop)
    (run : Reaches (Step (honest disk) options callback) first state)
    (returned : state.consumer = .returned result) :
    (result = .ok →
      state.delivered.flatten = streamOf disk shards (streamOrder shuffle shards options) ∧
      (state.delivered.map List.length).sum = (shards.map fun shard =>
        min shard.length ((disk.content shard.path).length - shard.offset)).sum ∧
      ((state.delivered.map List.length).sum = (shards.map (·.length)).sum ↔
        ∀ shard ∈ shards, shard.length ≤ (disk.content shard.path).length - shard.offset)) ∧
    (result ≠ .rethrown →
      ∀ error, result = .err error ↔ .outcome (.error error) ∈ state.log) := by
  constructor
  · rintro rfl
    obtain ⟨delivered, ended, reported⟩ :=
      result_of_returned begins neverStops run returned (by simp)
    have permutes : (streamOrder shuffle shards options).Perm (List.range shards.length) :=
      streamOrder_perm shuffles
    have whole : state.delivered.flatten =
        streamOf disk shards (streamOrder shuffle shards options) := by
      obtain ⟨goods, logged⟩ : ∃ goods, state.log = goods ++ [.outcome (.ok [])] := by
        obtain ⟨goods, got, -, log, -, ⟨rfl, -⟩ | ⟨error, -, set⟩⟩ := ended.split
        · exact ⟨goods, log⟩
        · rw [set] at reported
          cases reported
      rw [delivered, ← unread_construct disk options noOverflow permutes]
      exact (Tracks.of_reaches begins run).whole (between_construct ..) rfl
        (blocksFit_construct permutes blocks) (begin_eq_ok begins).1 logged
    have total : (state.delivered.map List.length).sum = (shards.map fun shard =>
        min shard.length ((disk.content shard.path).length - shard.offset)).sum := by
      rw [← List.length_flatten, whole, length_streamOf disk permutes]
    refine ⟨whole, total, ?_⟩
    rw [total]
    exact sum_min_eq_sum_iff _ _ shards
  · intro kept error
    obtain ⟨-, ended, reported⟩ := result_of_returned begins neverStops run returned kept
    rw [reported, ← ended.error_iff]
    cases state.error <;> simp [resultOf]

/-! ## A file without its window -/

/-- Of an empty file: the call returns ok, and the callback was not called. -/
theorem empty_run : ∃ first state,
    begin (fun _ order => order) oneBlockShards oneBlockOptions = .ok first ∧
      Reaches (Step (honest emptyFiles) oneBlockOptions proceeding) first state ∧
      state.consumer = .returned .ok ∧ state.delivered = [] := by
  have received : Reaches (Step (honest emptyFiles) oneBlockOptions proceeding)
      (start oneBlockOptions.prefetch (oneBlock 4096)) _ := .single (.worker rfl)
  have ended := received.tail (.read rfl oneBlock_ends)
  have workerEnded := ended.tail (.worker rfl)
  have loopLeft := workerEnded.tail (.consumer rfl)
  have closed := (loopLeft.tail (.consumer rfl)).tail (.consumer rfl)
  have joined := (closed.tail (.consumer rfl)).tail (.consumer rfl)
  exact ⟨_, _, rfl, joined, rfl, rfl⟩

/-- The segments hold a block. -/
theorem oneBlock_holds : ∀ shard ∈ oneBlockShards,
    shard.NoOverflow ∧ HoldsBlock oneBlockOptions (emptyFiles.alignment shard.path) := by
  intro shard member
  obtain rfl := List.mem_singleton.mp member
  exact ⟨by simp [Shard.NoOverflow], by decide⟩

/-- A window of four bytes of a file that has three of them, and a whole file. -/
def shortShards : ShardSet := [⟨"a", 0, 4⟩, ⟨"b", 0, 2⟩]

def inBatches (size : Nat) : BatchOptions :=
  { batchBytes := size, segmentBytes := 2, readDepth := 2 }

/-- The segments hold a block of each file. -/
theorem shortShards_hold (size : Nat) : ∀ shard ∈ shortShards,
    shard.NoOverflow ∧ HoldsBlock (inBatches size) (twoFiles.alignment shard.path) := by
  intro shard member
  rcases List.mem_pair.mp member with rfl | rfl
  · exact ⟨by simp [Shard.NoOverflow], by simp [HoldsBlock, inBatches, twoFiles]⟩
  · exact ⟨by simp [Shard.NoOverflow], by simp [HoldsBlock, inBatches, twoFiles]⟩

/-- The first two reads cut what the files have. -/
theorem shortShards_reads (size : Nat) : ∃ between after,
    readBatch (honest twoFiles) (inBatches size) (construct shortShards [0, 1] (inBatches size))
      (.outcome (.ok ([1, 2, 3, 4, 5].take size))) between ∧
    readBatch (honest twoFiles) (inBatches size) between
      (.outcome (.ok (([1, 2, 3, 4, 5].drop size).take size))) after := by
  have permutes : [0, 1].Perm (List.range shortShards.length) := .refl _
  have fits : BlocksFit twoFiles (construct shortShards [0, 1] (inBatches size)) :=
    blocksFit_construct permutes fun shard member => (shortShards_hold size shard member).2
  have content : (construct shortShards [0, 1] (inBatches size)).unread twoFiles =
      [1, 2, 3, 4, 5] := by
    rw [unread_construct twoFiles (inBatches size)
      (fun shard member => (shortShards_hold size shard member).1) permutes]
    decide
  obtain ⟨between, first, holds, rest⟩ := (between_construct ..).exists_reads fits size
  obtain ⟨after, second, -, -⟩ := holds.exists_reads fits size
  rw [content] at first rest
  rw [rest] at second
  exact ⟨between, after, first, second⟩

/-- The call returns ok with the one batch delivered. -/
theorem shortShards_run : ∃ first state,
    begin (fun _ order => order) shortShards (inBatches 8) = .ok first ∧
      Reaches (Step (honest twoFiles) (inBatches 8) proceeding) first state ∧
      state.consumer = .returned .ok := by
  obtain ⟨between, after, reads, ends⟩ := shortShards_reads 8
  have received : Reaches (Step (honest twoFiles) (inBatches 8) proceeding)
      (start (inBatches 8).prefetch (construct shortShards [0, 1] (inBatches 8))) _ :=
    .single (.worker rfl)
  have queued := (received.tail (.read rfl reads)).tail (.worker rfl)
  have called := ((queued.tail (.consumer rfl)).tail (.consumer rfl)).tail (.consumer rfl)
  have ended := (called.tail (.worker rfl)).tail (.read rfl ends)
  have workerEnded := ended.tail (.worker rfl)
  have loopLeft := workerEnded.tail (.consumer rfl)
  have closed := (loopLeft.tail (.consumer rfl)).tail (.consumer rfl)
  have joined := (closed.tail (.consumer rfl)).tail (.consumer rfl)
  exact ⟨_, _, rfl, joined, rfl⟩

/-- What was delivered is the three bytes that the first file has and the two of the other. -/
theorem shortShards_delivers : ∃ state : State ShardStream,
    state.consumer = .returned .ok ∧ state.delivered.flatten = [1, 2, 3, 4, 5] := by
  obtain ⟨first, state, begins, run, returned⟩ := shortShards_run
  have delivers := pass_delivers_files (fun _ order => .refl order) begins
    (fun shard member => (shortShards_hold 8 shard member).1)
    (fun shard member => (shortShards_hold 8 shard member).2) (by simp [proceeding]) run returned
  exact ⟨state, returned, (delivers.1 rfl).1.trans (by decide)⟩

/-- A file shorter than the window of its shard ends the shard without an error. -/
theorem empty_file_ends_ok :
    ¬ ∀ (disk : Disk) (shuffle : Nat → List Nat → List Nat) (shards : ShardSet)
      (options : BatchOptions) (callback : Nat → CallbackResult)
      (first state : State ShardStream),
      (∀ seed order, (shuffle seed order).Perm order) →
      begin shuffle shards options = .ok first →
      (∀ shard ∈ shards, shard.NoOverflow) →
      (∀ shard ∈ shards, HoldsBlock options (disk.alignment shard.path)) →
      (∀ call, callback call ≠ .stop) →
      Reaches (Step (honest disk) options callback) first state →
      state.consumer = .returned .ok →
      (state.delivered.map List.length).sum = (shards.map (·.length)).sum := by
  intro always
  obtain ⟨first, state, begins, run, returned, nothing⟩ := empty_run
  have complete := always _ _ _ _ _ _ _ (fun _ order => .refl order) begins
    (fun shard member => (oneBlock_holds shard member).1)
    (fun shard member => (oneBlock_holds shard member).2) (by simp [proceeding]) run returned
  rw [nothing] at complete
  exact absurd complete (by decide)

end Dsio.ForEachBatch
