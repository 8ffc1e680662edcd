import Dsio.Dataset.Requests

/-!
# The stream and its backend stay in step

Until something fails, the backend has exactly the reads in flight that the pending
entries wait for. So it has room for every fill, it has something to report whenever
the stream waits, and what it reports is known to the stream. And a shard is closed as
exhausted only once its window has been requested to its end.
-/

namespace Dsio.ShardStream

open Transition

/-- What the backend and the stream agree on at a point of a call. -/
structure InStep (config : Config) : Prop where
  counted : config.stream.inFlight.length =
    config.stream.pending.countP fun entry => !entry.done
  /-- A submission would not find the queue full. -/
  accepts : ∀ size out, config.point = .loop size out → config.stream.Fits
  /-- A reap for the front entry would not come back with nothing. -/
  reports : ∀ size out entry, config.point = .await size out →
    config.stream.pending.head? = some entry → entry.done = false → config.stream.inFlight ≠ []
  /-- No completion is for an unknown request. -/
  known : ∀ (index : Nat) (request : ReadRequest) (completion : Completion) (data : List Byte),
    config.stream.inFlight[index]? = some request → completion.token = request.token →
    (config.stream.complete index data).markDone completion ≠ none

variable {disk : Disk} {stream : ShardStream}

/-- As many reads are in flight as entries wait. -/
theorem Sound.counted (sound : Sound disk stream) :
    stream.inFlight.length = stream.pending.countP fun entry => !entry.done := by
  have matched := sound.matched.length_eq
  rw [List.length_map] at matched
  rw [matched, List.countP_eq_length_filter]

/-- Where no shard is open there is no queue to find full. -/
theorem Sound.accepts (sound : Sound disk stream) : stream.Fits := by
  cases isOpen : stream.isOpen with
  | true =>
      obtain ⟨filled, entries, loop, fill, -⟩ :=
        fillLoop_spec stream.readDepth (filled_refl stream) (by simp)
      exact sound.fits isOpen fill loop
  | false =>
      intro backend found
      rw [(sound.closed isOpen).1] at found
      cases found

/-- A completion is for an entry of the stream. -/
theorem Sound.known {index : Nat} {request : ReadRequest} {completion : Completion}
    (sound : Sound disk stream) (found : stream.inFlight[index]? = some request)
    (token : completion.token = request.token) (data : List Byte) :
    (stream.complete index data).markDone completion ≠ none := by
  intro unknown
  obtain ⟨before, entry, after, -, -, -, same⟩ := sound.awaitOne found token data
  simp only [ShardStream.awaitOne, unknown] at same
  split at same
  · simp only [Prod.mk.injEq, Except.error.injEq, Error.mk.injEq] at same
    exact absurd same.1.2 (by simp)
  · cases same

/-- A sound stream and its backend are in step. -/
theorem Sound.inStep {point : Point} (sound : Sound disk stream) : InStep ⟨stream, point⟩ where
  counted := sound.counted
  accepts := fun _ _ _ => sound.accepts
  reports := fun _ _ _ _ front waits => sound.inFlight_ne_nil front waits
  known := fun _ _ _ data found token => sound.known found token data

/-- In every state of every run that no error has ended, the reads in flight are as many
as the entries not yet done, and neither a full queue, nor a reap of nothing, nor a
completion for an unknown request can come up. -/
theorem stays_inStep {environment : Environment} {shards : ShardSet} {order : List Nat}
    {options : BatchOptions} {config : Config}
    (visits : Visits environment (construct shards order options) config)
    (unfailed : ∀ error, config.point ≠ .returned (.error error)) : InStep config := by
  have sound : config.Sound environment.disk := visits.sound (sound_construct ..)
  obtain ⟨stream, point⟩ := config
  cases point with
  | loop => exact Sound.inStep sound
  | await => exact Sound.inStep sound.1
  | returned got =>
      cases got with
      | ok => exact Sound.inStep sound
      | error error => exact absurd rfl (unfailed error)

/-- The only segment read of the stream is in flight. -/
def oneBlockWaiting : ShardStream := ((oneBlockOpen 4096).fillPipeline .accepted).2

/-- The call waits for its one read. -/
theorem oneBlock_waits :
    Visits (reliable emptyFiles) (oneBlock 4096) ⟨oneBlockWaiting, .await 1 []⟩ := by
  have fills : Step (reliable emptyFiles) ⟨oneBlockOpen 4096, .loop 1 []⟩
      ⟨oneBlockWaiting, .await 1 []⟩ := by
    refine .fill Nat.one_pos rfl .accepted ?_
    rintro backend ⟨⟩
    decide
  exact ⟨[], [], _, 1, .none, .tail (.single (oneBlock_opens 4096 Nat.one_pos rfl)) fills⟩

/-- One read is in flight for one entry. -/
theorem oneBlockWaiting_inStep : InStep ⟨oneBlockWaiting, .await 1 []⟩ :=
  stays_inStep oneBlock_waits (fun _ => by simp)

/-! ## Exhausted shards -/

/-- Nothing beyond the window of the open shard has been requested. -/
def Config.Inside (config : Config) : Prop :=
  match config.point with
  | .returned (.error _) => True
  | _ => config.stream.isOpen = true → config.stream.nextOffset ≤ config.stream.windowEnd

/-- Tiles end inside the window they lie in. -/
theorem Tiled.finish_le {start finish : Nat} {entries : List Pending}
    (tiled : Tiled stream.advance stream.windowEnd start entries finish)
    (inside : start ≤ stream.windowEnd) : finish ≤ stream.windowEnd := by
  induction entries generalizing start with
  | nil =>
      cases tiled
      exact inside
  | cons entry rest ih => exact ih tiled.2.2 (advance_le inside)

variable {environment : Environment}

/-- Every step keeps the queue inside the window. -/
theorem Move.inside {start : ShardStream} {before after : Config}
    (noOverflow : ∀ position, (start.shardAt position).NoOverflow) (stems : before.Stems start)
    (inside : before.Inside) (move : Move environment before after) : after.Inside := by
  cases move with
  | finish => exact inside
  | fail => trivial
  | @opened stream after _ _ _ _ _ begun =>
      intro _
      show after.nextOffset ≤ after.windowEnd
      rw [begun]
      have ends := (noOverflow stream.next).end_eq
      rw [← ShardStream.Stems.shardAt stems] at ends
      exact ends ▸ Nat.le_add_right _ _
  | exhausted => exact fun isOpen => absurd isOpen (by simp [closeShard_eq])
  | @filled stream after _ _ entries _ isOpen filled =>
      have window : after.windowEnd = stream.windowEnd := by rw [filled.frame]
      intro _
      show after.nextOffset ≤ after.windowEnd
      rw [window]
      exact filled.tiled.finish_le (inside isOpen)
  | @reaped stream _ _ _ _ _ _ _ _ _ _ _ _ _ found =>
      rw [complete_eq found]
      exact inside
  | @taken stream size out entry =>
      obtain ⟨carry, carrySize, same⟩ := stream.takeFront_frame entry (size - out.length)
      have kept : (stream.takeFront entry (size - out.length)).2.2.isOpen = true →
          (stream.takeFront entry (size - out.length)).2.2.nextOffset ≤
            (stream.takeFront entry (size - out.length)).2.2.windowEnd := by
        rw [same]
        exact inside
      simp only [afterTake]
      split
      · exact kept
      · split
        · exact fun isOpen => absurd isOpen (by simp [closeShard_eq])
        · exact kept

/-- No shard of the order overflows. -/
theorem shardAt_noOverflow {shards : ShardSet}
    (noOverflow : ∀ shard ∈ shards, shard.NoOverflow) (order : List Nat) (options : BatchOptions)
    (position : Nat) : ((construct shards order options).shardAt position).NoOverflow := by
  simp only [shardAt, construct]
  cases order[position]? with
  | none => exact (by decide : 0 + 0 < 2 ^ 64)
  | some index =>
      rw [Option.bind_some]
      cases found : shards[index]? with
      | none => exact (by decide : 0 + 0 < 2 ^ 64)
      | some shard => exact noOverflow shard (List.mem_of_getElem? found)

/-- The queue is inside the window at every point. -/
theorem Visits.inside {shards : ShardSet} {order : List Nat} {options : BatchOptions}
    {config : Config} (noOverflow : ∀ shard ∈ shards, shard.NoOverflow)
    (visits : Visits environment (construct shards order options) config) : config.Inside := by
  have all : (config.Sound environment.disk ∧ config.Stems (construct shards order options)) ∧
      config.Inside := by
    refine visits.preserves
      (fun stream => (Sound environment.disk stream ∧
        Stems (construct shards order options) stream) ∧
        (stream.isOpen = true → stream.nextOffset ≤ stream.windowEnd))
      (fun config => (config.Sound environment.disk ∧
        config.Stems (construct shards order options)) ∧ config.Inside)
      ⟨⟨sound_construct .., rfl, rfl, rfl⟩, by simp [construct]⟩ ?_ ?_ id
    · rintro size stream ⟨⟨sound, stems⟩, inside⟩
      refine ⟨⟨sound.startRead size, stems.startRead size⟩, ?_⟩
      obtain ⟨carry, carrySize, same⟩ := flushCarry_frame size stream
      rw [ShardStream.startRead, same]
      exact inside
    · rintro before after ⟨⟨sound, stems⟩, inside⟩ transition
      have move := move_of_step sound transition
      exact ⟨⟨sound.step transition, move.stems stems⟩,
        move.inside (shardAt_noOverflow noOverflow order options) stems inside⟩
  exact all.2

/-- Whenever a fill succeeds and leaves nothing pending, the window of the shard has been
requested to its end. -/
theorem exhausted_at_end {shards : ShardSet} {order : List Nat} {options : BatchOptions}
    {stream after : ShardStream} {size : Nat} {out : List Byte} {submission : Submission}
    (noOverflow : ∀ shard ∈ shards, shard.NoOverflow)
    (visits : Visits environment (construct shards order options) ⟨stream, .loop size out⟩)
    (isOpen : stream.isOpen = true) (filled : stream.fillPipeline submission = (.ok (), after))
    (empty : after.pending = []) :
    after.nextOffset = after.windowEnd ∧
      after.windowEnd = (after.shardAt after.next).offset + (after.shardAt after.next).length := by
  have sound : Sound environment.disk stream := visits.sound (sound_construct ..)
  have stems : Stems (construct shards order options) stream := visits.stems (sound_construct ..)
  have inside : stream.nextOffset ≤ stream.windowEnd := visits.inside noOverflow isOpen
  obtain ⟨full, entries, fill, saturated, -, handed⟩ := fillPipeline_spec submission stream
  have same : after = full.submit (entries.map stream.entryRequest) := by
    rcases handed with ⟨rfl, handed⟩ | ⟨-, -, handed⟩ | ⟨error, queued, -, -, handed⟩
    · rw [List.map_nil, submit_nil]
      exact (Prod.mk.inj (filled.symm.trans handed)).2
    · exact (Prod.mk.inj (filled.symm.trans handed)).2
    · exact absurd (Prod.mk.inj (filled.symm.trans handed)).1 (by simp)
  have none : full.pending = [] := by rw [same] at empty; exact empty
  obtain ⟨-, rfl, rfl, ended, -⟩ := Sound.exhausted sound isOpen fill saturated none
  rw [List.map_nil, submit_nil] at same
  subst same
  have bounded := shardAt_noOverflow noOverflow order options after.next
  rw [← stems.shardAt] at bounded
  exact ⟨Nat.le_antisymm inside ended, (sound.opened isOpen).windowEnd.trans bounded.end_eq⟩

/-- A file of one byte on a device with blocks of one. -/
def oneByte : Disk where
  content := fun _ => [7]
  alignment := fun _ => 1
  aligned := fun _ => by decide
  bounded := fun _ => by decide

def oneByteStart : ShardStream := construct [⟨"byte", 0, 1⟩] [0] { readDepth := 1 }

def oneByteOpening : Opening := ⟨.ok ⟨3, "byte", 1⟩, .ok [0], .ok ()⟩

def oneByteOpen : ShardStream := (oneByteStart.openShard oneByteOpening).2

def oneByteQueued : ShardStream := (oneByteOpen.fillPipeline .accepted).2

def oneByteReaped : Reaped := .completed 0 ⟨0, 1, 0⟩ [7]

def oneByteRead : ShardStream := (oneByteQueued.awaitOne oneByteReaped).2

/-- The stream once the byte has been consumed. -/
def oneByteTaken : ShardStream := (oneByteRead.takeFront ⟨0, 0, 1, true⟩ 2).2.2

/-- A read of more than one byte gets to the end of the shard. -/
theorem oneByte_reaches (disk : environment.disk = oneByte)
    (full : environment.reports = fullReads) {size : Nat} (room : 1 < size) :
    Reaches (Step environment) (startRead size oneByteStart) ⟨oneByteTaken, .loop size [7]⟩ := by
  have allowed : Opens environment oneByteStart oneByteOpening :=
    opens_of_calls rfl (by rw [disk]; rfl) rfl (by simp) (by simp [oneByteStart, construct])
  have opened : Step environment (startRead size oneByteStart) ⟨oneByteOpen, .loop size []⟩ :=
    .openShard (Nat.lt_trans Nat.zero_lt_one room) rfl Nat.one_pos oneByteOpening allowed
  have queued : Step environment ⟨oneByteOpen, .loop size []⟩ ⟨oneByteQueued, .await size []⟩ := by
    refine .fill (Nat.lt_trans Nat.zero_lt_one room) rfl .accepted ?_
    rintro backend ⟨⟩
    decide
  have read : Step environment ⟨oneByteQueued, .await size []⟩ ⟨oneByteRead, .await size []⟩ := by
    refine .reap rfl rfl oneByteReaped ⟨_, rfl, rfl, ?_, .inl ⟨rfl, ?_⟩⟩
    · rw [disk]
      rfl
    · rw [disk, full]
      rfl
  have taken : Step environment ⟨oneByteRead, .await size []⟩
      (afterTake ⟨0, 0, 1, true⟩ size [] (oneByteRead.takeFront ⟨0, 0, 1, true⟩ size)) :=
    .take rfl rfl
  have whole : min size 1 = 1 := Nat.min_eq_right (Nat.le_of_lt room)
  simp only [takeFront, whole] at taken
  have started := Relation.ReflTransGen.single opened
  exact ((started.tail queued).tail read).tail taken

/-- The window has been queued to its end. -/
theorem oneByte_exhausted : oneByteTaken.nextOffset = 1 ∧ oneByteTaken.windowEnd = 1 := by
  have visits : Visits (reliable oneByte) oneByteStart ⟨oneByteTaken, .loop 2 [7]⟩ :=
    ⟨[], [], _, 2, .none, oneByte_reaches rfl rfl (by decide)⟩
  exact exhausted_at_end (by simp [Shard.NoOverflow]) visits rfl
    (rfl : oneByteTaken.fillPipeline .accepted = (.ok (), oneByteTaken)) rfl

end Dsio.ShardStream
