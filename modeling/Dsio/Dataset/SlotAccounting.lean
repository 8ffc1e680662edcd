import Dsio.Dataset.Requests
import Dsio.Library.Run

/-!
# Slot accounting

`fill_pipeline` takes a slot for every entry it queues; `read`, the roll-back and the
replacement of the buffers give slots back. `close_shard` clears the pending entries
without giving back theirs, and a file that ends early closes its shard while later
segments are pending: the slots of those stay taken for as long as the buffers are
reused. `slotsAccounted_iff` says that this is the only way to lose one.
-/

namespace Dsio.ShardStream

open Transition

/-- How many pending entries use a slot. -/
def users (stream : ShardStream) (slot : Nat) : Nat := (stream.pending.map (·.slot)).count slot

/-- The free list and the pending entries are in step. -/
structure SlotsAccounted (stream : ShardStream) : Prop where
  taken_iff : ∀ slot, stream.free[slot]? = some false ↔ stream.users slot = 1
  distinct : (stream.pending.map (·.slot)).Nodup
  /-- With nothing pending, as when a shard has just been opened, every slot is free. -/
  allFree : stream.isOpen = true → stream.pending = [] →
    stream.free = List.replicate stream.readDepth true
  /-- A fill never stops for want of a slot. -/
  spare : stream.isOpen = true → stream.pending.length < stream.readDepth → true ∈ stream.free

/-- A pending entry uses every slot that is not free. -/
def Owned (stream : ShardStream) : Prop :=
  ∀ slot, stream.free[slot]? = some false → slot ∈ stream.pending.map (·.slot)

/-- The end of the file is about to close the shard while later segments are pending. -/
def Discards (config : Config) : Prop :=
  match config.point with
  | .await _ _ => ∃ entry rest, config.stream.pending = entry :: rest ∧ entry.done = true ∧
      entry.bytes = 0 ∧ rest ≠ []
  | _ => False

variable {disk : Disk} {stream : ShardStream}

/-- Slots are a matter of these members only. -/
theorem SlotsAccounted.congr {after : ShardStream} (accounted : SlotsAccounted stream)
    (free : after.free = stream.free) (pending : after.pending = stream.pending)
    (readDepth : after.readDepth = stream.readDepth) (isOpen : after.isOpen = stream.isOpen) :
    SlotsAccounted after := by
  obtain ⟨taken_iff, distinct, allFree, spare⟩ := accounted
  refine ⟨fun slot => ?_, ?_, ?_, ?_⟩
  · simpa only [free, users, pending] using taken_iff slot
  · simpa only [pending] using distinct
  · simpa only [free, pending, readDepth, isOpen] using allFree
  · simpa only [free, pending, readDepth, isOpen] using spare

/-- Without pending entries every slot is free. -/
theorem Owned.all_free (owned : Owned stream) (empty : stream.pending = []) :
    stream.free = List.replicate stream.free.length true := by
  refine List.eq_replicate_iff.mpr ⟨rfl, fun slot member => ?_⟩
  obtain ⟨index, bound, rfl⟩ := List.mem_iff_getElem.mp member
  by_contra taken
  have found : stream.free[index]? = some false := by
    rw [List.getElem?_eq_getElem bound]
    simpa using taken
  simpa [empty] using owned index found

/-- More slots are free than taken as long as fewer entries are pending than there are
slots. -/
theorem Owned.exists_spare (owned : Owned stream)
    (room : stream.pending.length < stream.free.length) : true ∈ stream.free := by
  by_contra none
  have used : List.range stream.free.length ⊆ stream.pending.map (·.slot) := by
    intro slot member
    have bound := List.mem_range.mp member
    refine owned slot ?_
    rw [List.getElem?_eq_getElem bound, Option.some.injEq]
    by_contra free
    exact none (List.mem_iff_getElem.mpr ⟨slot, bound, by simpa using free⟩)
  have more := (List.subperm_of_subset List.nodup_range used).length_le
  rw [List.length_range, List.length_map] at more
  omega

/-- A slot is taken exactly when a pending entry owns it. -/
theorem Sound.accounted (sound : Sound disk stream) (owned : Owned stream) :
    SlotsAccounted stream where
  taken_iff := by
    intro slot
    constructor
    · exact fun taken => List.count_eq_one_of_mem sound.distinct (owned slot taken)
    · intro used
      have member : slot ∈ stream.pending.map (·.slot) :=
        List.count_pos_iff.mp (Nat.lt_of_lt_of_eq Nat.one_pos used.symm)
      obtain ⟨entry, pending, rfl⟩ := List.mem_map.mp member
      exact sound.taken entry pending
  distinct := sound.distinct
  allFree := by
    intro isOpen empty
    rw [← (sound.opened isOpen).buffers, ← sound.slots]
    exact owned.all_free empty
  spare := by
    intro isOpen room
    rw [← (sound.opened isOpen).buffers, ← sound.slots] at room
    exact owned.exists_spare room

/-- Where no shard is open only the slots count. -/
theorem Owned.accounted (owned : Owned stream) (empty : stream.pending = [])
    (closed : stream.isOpen = false) : SlotsAccounted stream where
  taken_iff := by
    intro slot
    constructor
    · exact fun taken => absurd (owned slot taken) (by simp [empty])
    · exact fun used => absurd used (by simp [users, empty])
  distinct := by simp [empty]
  allFree := fun isOpen => by simp [closed] at isOpen
  spare := fun isOpen => by simp [closed] at isOpen

/-! ## The operations -/

/-- New buffers come with all slots free. -/
theorem prepareBuffers_slots (allocated : Except String (List Nat)) (block segment : Nat)
    (stream : ShardStream) :
    let prepared := (stream.prepareBuffers allocated block segment).2
    prepared.pending = stream.pending ∧ prepared.isOpen = stream.isOpen ∧
      (prepared.free = stream.free ∨
        prepared.free = List.replicate stream.readDepth true) := by
  simp only [prepareBuffers]
  split
  · exact ⟨rfl, rfl, .inl rfl⟩
  · cases allocated with
    | error => exact ⟨rfl, rfl, .inl rfl⟩
    | ok => exact ⟨rfl, rfl, .inr rfl⟩

/-- Opening a shard touches no pending entry, and the slots stay as they are or are all
made free. -/
theorem openShard_slots (opening : Opening) (stream : ShardStream) :
    let opened := stream.openShard opening
    opened.2.pending = stream.pending ∧
      (opened.2.free = stream.free ∨ opened.2.free = List.replicate stream.readDepth true) ∧
      ∀ error, opened.1 = .error error → opened.2.isOpen = stream.isOpen := by
  simp only [ShardStream.openShard]
  cases opening.file with
  | error error => exact ⟨rfl, .inl rfl, fun _ _ => rfl⟩
  | ok file =>
      have slots := prepareBuffers_slots opening.allocated file.alignment
        (segmentOf stream.options file.alignment) stream
      dsimp only
      cases prepared : stream.prepareBuffers opening.allocated file.alignment
          (segmentOf stream.options file.alignment) with
      | mk result after =>
          rw [prepared] at slots
          obtain ⟨pending, isOpen, free⟩ := slots
          cases result with
          | error => exact ⟨pending, free, fun _ _ => isOpen⟩
          | ok =>
              cases opening.backend with
              | error => exact ⟨pending, free, fun _ _ => isOpen⟩
              | ok => exact ⟨pending, free, fun _ failed => by cases failed⟩

/-- The slots after opening a shard. -/
theorem Owned.openShard (owned : Owned stream) (opening : Opening) :
    Owned (stream.openShard opening).2 := by
  obtain ⟨pending, free, -⟩ := openShard_slots opening stream
  intro slot taken
  rcases free with same | fresh
  · rw [same] at taken
    rw [pending]
    exact owned slot taken
  · rw [fresh] at taken
    exact absurd (List.mem_of_getElem? taken) (by simp)

/-- Filling the pipeline takes slots for its entries. -/
theorem Owned.fill {filled : ShardStream} {entries : List Pending} (owned : Owned stream)
    (fill : Filled stream filled entries) : Owned filled := by
  intro slot taken
  rw [fill.frame, List.map_append, List.mem_append]
  by_cases queued : slot ∈ entries.map (·.slot)
  · exact .inr queued
  · rw [fill.others slot queued] at taken
    exact .inl (owned slot taken)

/-- Taking the front entry frees its slot. -/
theorem Owned.takeFront {entry : Pending} {rest : List Pending} (owned : Owned stream)
    (pending : stream.pending = entry :: rest) (room : Nat) :
    Owned (stream.takeFront entry room).2.2 := by
  obtain ⟨carry, carrySize, same⟩ := stream.takeFront_frame entry room
  rw [same, pending, List.tail_cons]
  intro slot (taken : (stream.free.set entry.slot true)[slot]? = some false)
  have apart : entry.slot ≠ slot := by
    rintro rfl
    rw [List.getElem?_set_self'] at taken
    cases before : stream.free[entry.slot]? <;> simp [before] at taken
  rw [List.getElem?_set_ne apart] at taken
  have member := owned slot taken
  rw [pending, List.map_cons, List.mem_cons] at member
  exact member.resolve_left (Ne.symm apart)

/-- Closing a shard without pending entries loses no slot. -/
theorem Owned.closeShard (owned : Owned stream) (empty : stream.pending = []) :
    Owned stream.closeShard := by
  intro slot taken
  have member := owned slot taken
  rw [empty] at member
  exact member

/-! ## Steps and runs -/

/-- What the steps that discard no entry keep: a failed call leaves its slots accounted
for, and until then nothing is lost. -/
def Kept (disk : Disk) (config : Config) : Prop :=
  match config.point with
  | .returned (.error _) => SlotsAccounted config.stream
  | _ => config.Sound disk ∧ Owned config.stream

/-- The slots are accounted for as long as ownership is kept. -/
theorem Kept.accounted {config : Config} (kept : Kept disk config) :
    SlotsAccounted config.stream := by
  obtain ⟨stream, point⟩ := config
  cases point with
  | loop => exact Sound.accounted kept.1 kept.2
  | await => exact Sound.accounted kept.1.1 kept.2
  | returned got =>
      cases got with
      | ok => exact Sound.accounted kept.1 kept.2
      | error => exact kept

variable {environment : Environment}

/-- A step that discards no entry keeps ownership. -/
theorem Kept.step {before after : Config} (kept : Kept environment.disk before)
    (transition : Step environment before after) (keeps : ¬ Discards before) :
    Kept environment.disk after := by
  cases transition with
  | finish => exact kept
  | @openShard stream size out room closed more opening allowed =>
      obtain ⟨sound, owned⟩ := kept
      have empty : stream.pending = [] := (ShardStream.Sound.closed sound closed).2
      have soundAfter := sound.step (.openShard room closed more opening allowed)
      have ownedAfter := owned.openShard opening
      have slots := openShard_slots opening stream
      cases opened : stream.openShard opening with
      | mk result after =>
          rw [opened] at soundAfter ownedAfter slots
          cases result with
          | ok => exact ⟨soundAfter, ownedAfter⟩
          | error error =>
              exact ownedAfter.accounted (slots.1.trans empty) ((slots.2.2 error rfl).trans closed)
  | @fill stream size out room isOpen submission allowed =>
      obtain ⟨sound, owned⟩ := kept
      have soundAfter := sound.step (.fill room isOpen submission allowed)
      obtain ⟨filled, entries, fill, -, -, handed⟩ := fillPipeline_spec submission stream
      have ownedAfter : Owned filled := owned.fill fill
      have accepted {after : ShardStream}
          (handed : stream.fillPipeline submission = (.ok (), after)) (owned : Owned after) :
          Kept environment.disk (afterFill size out (stream.fillPipeline submission)) := by
        rw [handed] at soundAfter ⊢
        simp only [afterFill] at soundAfter ⊢
        split at soundAfter
        · next empty =>
          rw [if_pos empty]
          exact ⟨soundAfter, owned.closeShard empty⟩
        · next some =>
          rw [if_neg some]
          exact ⟨soundAfter, owned⟩
      rcases handed with ⟨-, handed⟩ | ⟨-, -, handed⟩ | ⟨error, queued, -, -, handed⟩
      · exact accepted handed ownedAfter
      · exact accepted handed ownedAfter
      · rw [handed, fill.rollBack]
        exact (ShardStream.Sound.accounted sound owned).congr rfl rfl rfl rfl
  | @reap stream size out entry front waits reaped allowed =>
      obtain ⟨sound, owned⟩ := kept
      have accounted := sound.1.accounted owned
      have soundAfter := sound.step (.reap front waits reaped allowed)
      cases reaped with
      | failed => exact accounted
      | nothing => exact accounted
      | completed index completion data =>
          obtain ⟨request, found, token, -⟩ := allowed
          obtain ⟨before, finished, after, split, -, -, same⟩ := sound.1.awaitOne found token data
          rw [same] at soundAfter ⊢
          by_cases failed : completion.error ≠ 0
          · rw [if_pos failed]
            rw [complete_eq found]
            exact accounted.congr rfl rfl rfl rfl
          · rw [if_neg failed] at soundAfter ⊢
            refine ⟨soundAfter, fun slot taken => ?_⟩
            rw [complete_eq found] at taken
            have member := owned slot taken
            show slot ∈ (before ++ finishEntry stream.windowEnd completion finished :: after).map
              (·.slot)
            rw [split] at member
            simpa [finishEntry] using member
  | @take stream size out entry front done =>
      obtain ⟨sound, owned⟩ := kept
      have soundAfter := sound.step (.take front done)
      obtain ⟨rest, pending⟩ := List.head?_eq_some_iff.mp front
      have ownedAfter := owned.takeFront pending (size - out.length)
      simp only [afterTake] at soundAfter ⊢
      split at soundAfter
      · next more =>
        rw [if_pos more]
        exact ⟨soundAfter, ownedAfter⟩
      · next none =>
        rw [if_neg none]
        split at soundAfter
        · next ended =>
          rw [if_pos ended]
          have last : rest = [] := by
            by_contra some
            exact keeps ⟨entry, rest, pending, done, ended, some⟩
          refine ⟨soundAfter, ownedAfter.closeShard ?_⟩
          obtain ⟨carry, carrySize, same⟩ := stream.takeFront_frame entry (size - out.length)
          rw [same, pending, last, List.tail_cons]
        · next more =>
          rw [if_neg more]
          exact ⟨soundAfter, ownedAfter⟩

/-- Discarding entries loses their slots. -/
theorem Kept.lost {before after : Config} (kept : Kept environment.disk before)
    (transition : Step environment before after) (discards : Discards before) :
    ¬ SlotsAccounted after.stream := by
  cases transition with
  | finish => exact absurd discards id
  | openShard => exact absurd discards id
  | fill => exact absurd discards id
  | @reap stream size out entry front waits =>
      obtain ⟨first, rest, pending, done, -⟩ := discards
      rw [pending, List.head?_cons, Option.some.injEq] at front
      rw [← front, done] at waits
      cases waits
  | @take stream size out entry front done =>
      obtain ⟨first, rest, pending, -, ended, some⟩ := discards
      rw [pending, List.head?_cons, Option.some.injEq] at front
      subst front
      obtain ⟨other, others, rfl⟩ := List.exists_cons_of_ne_nil some
      obtain ⟨sound, owned⟩ := kept
      obtain ⟨soundAfter, -⟩ := sound.1.takeFront pending done (size - out.length)
      obtain ⟨carry, carrySize, same⟩ := stream.takeFront_frame first (size - out.length)
      rw [same, pending, List.tail_cons] at soundAfter
      have taken := soundAfter.taken other List.mem_cons_self
      have closes : afterTake first size out (stream.takeFront first (size - out.length)) =
          ⟨(stream.takeFront first (size - out.length)).2.2.closeShard, .loop size (out ++
            (stream.takeFront first (size - out.length)).1)⟩ := by
        have none : (stream.takeFront first (size - out.length)).2.1 = 0 := by
          simp [ShardStream.takeFront, ended]
        simp [afterTake, none, ended]
      rw [closes, same]
      intro accounted
      have used := (accounted.taken_iff other.slot).mp taken
      simp [users, closeShard_eq] at used

/-- In every run of calls, the slots are accounted for in every state, after errors too,
exactly when no step of the run discards pending entries. -/
theorem slotsAccounted_iff {shards : ShardSet} {order : List Nat} {options : BatchOptions}
    {passed : List Config}
    (run : Run (Session environment) (idle (construct shards order options)) passed) :
    (∀ config ∈ idle (construct shards order options) :: passed, SlotsAccounted config.stream) ↔
      Avoids (fun before _ => Discards before) (idle (construct shards order options)) passed := by
  have initially : Kept environment.disk (idle (construct shards order options)) :=
    ⟨sound_construct .., fun slot taken => by simp [idle, construct] at taken⟩
  refine run.always_iff initially Kept.accounted ?_ ?_
  · rintro before after kept session keeps
    cases session with
    | step transition => exact kept.step transition keeps
    | call size =>
        obtain ⟨sound, owned⟩ := kept
        refine ⟨ShardStream.Sound.startRead sound size, ?_⟩
        obtain ⟨carry, carrySize, same⟩ := flushCarry_frame size _
        rw [ShardStream.startRead, same]
        exact owned
  · rintro before after kept session discards
    cases session with
    | step transition => exact kept.lost transition discards
    | call => exact absurd discards id

/-! ## A file that ends early -/

/-- Two shards of two segments each, with up to three reads ahead. -/
def twoShards : ShardStream :=
  construct [⟨"first", 0, 8192⟩, ⟨"second", 0, 8192⟩] [0, 1]
    { readDepth := 3, segmentBytes := 4096 }

def twoShardsOpening : Opening := ⟨.ok ⟨3, "first", 4096⟩, .ok [0, 4096, 8192], .ok ()⟩

def twoShardsReopening : Opening := ⟨.ok ⟨4, "second", 4096⟩, .ok [12288, 16384, 20480], .ok ()⟩

def twoShardsOpen : ShardStream := (twoShards.openShard twoShardsOpening).2

/-- Both segments of the first shard are being read. -/
def twoShardsQueued : ShardStream := (twoShardsOpen.fillPipeline .accepted).2

/-- The first read finds nothing in the file. -/
def endReaped : Reaped := .completed 0 ⟨0, 0, 0⟩ []

def twoShardsEnded : ShardStream := (twoShardsQueued.awaitOne endReaped).2

def twoShardsClosed : ShardStream := (twoShardsEnded.takeFront ⟨0, 0, 0, true⟩ 1).2.2.closeShard

/-- The second shard takes over the buffers. -/
def twoShardsReopened : ShardStream := (twoShardsClosed.openShard twoShardsReopening).2

/-- The first shard is opened. -/
theorem twoShards_open :
    Step (reliable emptyFiles) (startRead 1 twoShards) ⟨twoShardsOpen, .loop 1 []⟩ :=
  .openShard Nat.one_pos rfl Nat.two_pos twoShardsOpening
    (opens_of_calls rfl rfl rfl (by decide) (by decide))

/-- Its reads are queued. -/
theorem twoShards_fill :
    Step (reliable emptyFiles) ⟨twoShardsOpen, .loop 1 []⟩ ⟨twoShardsQueued, .await 1 []⟩ := by
  refine .fill Nat.one_pos rfl .accepted ?_
  rintro backend ⟨⟩
  decide

/-- The front one has come to the end of the file. -/
theorem twoShards_reap :
    Step (reliable emptyFiles) ⟨twoShardsQueued, .await 1 []⟩ ⟨twoShardsEnded, .await 1 []⟩ :=
  .reap rfl rfl endReaped ⟨_, rfl, rfl, rfl, .inl ⟨rfl, rfl⟩⟩

/-- The shard is closed with an entry pending. -/
theorem twoShards_close :
    Step (reliable emptyFiles) ⟨twoShardsEnded, .await 1 []⟩ ⟨twoShardsClosed, .loop 1 []⟩ :=
  have taken : Step (reliable emptyFiles) ⟨twoShardsEnded, .await 1 []⟩
      (afterTake ⟨0, 0, 0, true⟩ 1 [] (twoShardsEnded.takeFront ⟨0, 0, 0, true⟩ 1)) := .take rfl rfl
  taken

/-- The next shard is opened. -/
theorem twoShards_reopen :
    Step (reliable emptyFiles) ⟨twoShardsClosed, .loop 1 []⟩ ⟨twoShardsReopened, .loop 1 []⟩ :=
  .openShard Nat.one_pos rfl (by decide) twoShardsReopening
    (opens_of_calls rfl rfl rfl (by decide) (by decide))

/-- Before the close the slots are accounted for. -/
theorem twoShardsQueued_accounted : SlotsAccounted twoShardsQueued := by
  have run : Run (Session (reliable emptyFiles)) (idle twoShards)
      [startRead 1 twoShards, ⟨twoShardsOpen, .loop 1 []⟩, ⟨twoShardsQueued, .await 1 []⟩] := by
    simp only [Run, List.isChain_cons_cons, List.isChain_singleton, and_true]
    exact ⟨.call 1, .step twoShards_open, .step twoShards_fill⟩
  have avoids : Avoids (fun before _ => Discards before) (idle twoShards)
      [startRead 1 twoShards, ⟨twoShardsOpen, .loop 1 []⟩, ⟨twoShardsQueued, .await 1 []⟩] := by
    simp [Avoids, Discards, idle, startRead]
  exact (slotsAccounted_iff run).mpr avoids ⟨twoShardsQueued, .await 1 []⟩ (by simp)

/-- The second shard opens with a slot that no entry uses and that is not free. -/
theorem early_end_loses_slot :
    ¬ ∀ (environment : Environment) (shards : ShardSet) (order : List Nat)
      (options : BatchOptions) (passed : List Config),
      0 < options.batchBytes → 0 < options.prefetch → 0 < options.readDepth →
      Run (Session environment) (idle (construct shards order options)) passed →
      ∀ config ∈ idle (construct shards order options) :: passed,
        SlotsAccounted config.stream := by
  intro always
  have run : Run (Session (reliable emptyFiles)) (idle twoShards)
      [startRead 1 twoShards, ⟨twoShardsOpen, .loop 1 []⟩, ⟨twoShardsQueued, .await 1 []⟩,
        ⟨twoShardsEnded, .await 1 []⟩, ⟨twoShardsClosed, .loop 1 []⟩,
        ⟨twoShardsReopened, .loop 1 []⟩] := by
    simp only [Run, List.isChain_cons_cons, List.isChain_singleton, and_true]
    exact ⟨.call 1, .step twoShards_open, .step twoShards_fill, .step twoShards_reap,
      .step twoShards_close, .step twoShards_reopen⟩
  have accounted := always _ _ _ _ _ (by decide) (by decide) (by decide) run
    ⟨twoShardsReopened, .loop 1 []⟩ (by simp)
  have free : twoShardsReopened.free = [true, false, true] := by decide
  have allFree := accounted.allFree rfl rfl
  rw [free] at allFree
  exact absurd allFree (by decide)

end Dsio.ShardStream
