import Dsio.Dataset.StreamMoves

/-!
# The requests a fill submits

Lengths are whole blocks and offsets lie on the grid of the shard, whatever the
options. A request fits the buffer of its slot exactly when the segment size, rounded
down to whole blocks, is not 0: `fill_pipeline` falls back to one block where
`prepare_buffers` allocated nothing.
-/

namespace Dsio.ShardStream

open Transition

/-- Segments are whole blocks. -/
theorem block_dvd_segmentOf (options : BatchOptions) (block : Nat) :
    block ∣ segmentOf options block := Nat.dvd_sub_mod _

/-- The options and the block size leave at least one block for a segment. -/
def HoldsBlock (options : BatchOptions) (block : Nat) : Prop :=
  if options.segmentBytes = 0 then block ≤ 256 * 1024 else block ≤ options.segmentBytes

instance (options : BatchOptions) (block : Nat) : Decidable (HoldsBlock options block) :=
  inferInstanceAs (Decidable
    (if options.segmentBytes = 0 then block ≤ 256 * 1024 else block ≤ options.segmentBytes))

/-- A segment holds a block exactly when the options leave one. -/
theorem block_le_segmentOf_iff {options : BatchOptions} {block : Nat} (positive : 0 < block) :
    block ≤ segmentOf options block ↔ HoldsBlock options block := by
  have rounds (target : Nat) : block ≤ target - target % block ↔ block ≤ target := by
    constructor
    · omega
    · intro enough
      have whole : block ∣ target - target % block := Nat.dvd_sub_mod _
      have below := Nat.mod_lt target positive
      exact Nat.le_of_dvd (by omega) whole
  simp only [segmentOf, HoldsBlock, rounds]
  split
  · omega
  · exact Iff.rfl

/-- What a request has to be for the read to stay inside the buffer of its slot. -/
structure WellFormed (stream : ShardStream) (request : ReadRequest) : Prop where
  positive : 0 < request.dst.size
  blocks : stream.block ∣ request.dst.size
  fits : ∃ buffer, stream.buffers[request.token]? = some buffer ∧
    request.dst.address = buffer.address ∧ request.dst.size ≤ buffer.size
  grid : stream.OnGrid request.offset

/-- A block or more of segment bounds every request. -/
theorem requestLength_le_segment {stream : ShardStream} (holds : stream.block ≤ stream.segment)
    (remaining : Nat) : stream.requestLength remaining ≤ stream.segment := by
  simp only [requestLength]
  split <;> omega

/-- The requests a fill of a sound stream plans. -/
theorem Sound.wellFormed_iff {disk : Disk} {stream : ShardStream} (sound : Sound disk stream)
    (isOpen : stream.isOpen = true) {request : ReadRequest} (member : request ∈ stream.planned) :
    WellFormed stream request ↔ HoldsBlock stream.options stream.block := by
  have opened := sound.opened isOpen
  have positive : 0 < stream.block := opened.block ▸ disk.aligned _
  obtain ⟨filled, entries, loop, fill, -⟩ :=
    fillLoop_spec stream.readDepth (filled_refl stream) (by simp)
  rw [List.map_nil] at loop
  simp only [planned, loop] at member
  obtain ⟨entry, queued, rfl⟩ := List.mem_map.mp member
  have length := requestLength_pos positive (stream.windowEnd - entry.offset)
  obtain ⟨bound, -⟩ := List.getElem?_eq_some_iff.mp (fill.wereFree entry queued)
  rw [sound.slots] at bound
  have slot : stream.buffers[entry.slot]? = some stream.buffers[entry.slot] := by simp [bound]
  have size := sound.sized _ (List.getElem_mem bound)
  rw [roundUp_of_dvd positive (opened.segment ▸ block_dvd_segmentOf _ _)] at size
  rw [← block_le_segmentOf_iff positive, ← opened.segment]
  constructor
  · rintro ⟨-, -, ⟨buffer, same, -, fits⟩, -⟩
    have found : stream.buffers[entry.slot]? = some buffer := same
    rw [slot, Option.some.injEq] at found
    rw [← found, size] at fits
    have whole : stream.block ∣ stream.segment := opened.segment ▸ block_dvd_segmentOf _ _
    exact Nat.le_of_dvd (Nat.lt_of_lt_of_le length fits) whole
  · intro holds
    refine ⟨length, block_dvd_requestLength _ _, ⟨_, slot, ?_, ?_⟩,
      (fill.tiled.grid opened.grid).1 entry queued⟩
    · simp [entryRequest, bufferSpan, bufferAt, slot]
    · rw [size]
      exact requestLength_le_segment holds _

/-- In every reachable state, each request the next fill submits is well formed exactly
when the options leave a block for the segments of the file. -/
theorem request_wellFormed_iff {environment : Environment} {shards : ShardSet}
    {order : List Nat} {options : BatchOptions} {stream : ShardStream} {size : Nat}
    {out : List Byte}
    (visits : Visits environment (construct shards order options) ⟨stream, .loop size out⟩)
    (isOpen : stream.isOpen = true) {request : ReadRequest} (member : request ∈ stream.planned) :
    WellFormed stream request ↔
      HoldsBlock options (environment.disk.alignment (stream.shardAt stream.next).path) := by
  have sound : Sound environment.disk stream := visits.sound (sound_construct ..)
  have stems : Stems (construct shards order options) stream :=
    visits.stems (sound_construct ..)
  have opened := sound.opened isOpen
  rw [sound.wellFormed_iff isOpen member, opened.block, opened.path, stems.options]
  rfl

/-! ## The first fill of a run -/

/-- Empty files on a device with blocks of 4096 bytes. -/
def emptyFiles : Disk where
  content := fun _ => []
  alignment := fun _ => 4096
  aligned := fun _ => by decide
  bounded := fun _ => by decide

/-- A stream of one block, read one segment at a time. -/
def oneBlock (segmentBytes : Nat) : ShardStream :=
  construct [{ path := "shard", length := 4096 }] [0] { readDepth := 1, segmentBytes }

def oneBlockOpening : Opening := ⟨.ok ⟨3, "shard", 4096⟩, .ok [0], .ok ()⟩

/-- The stream with its shard open. -/
def oneBlockOpen (segmentBytes : Nat) : ShardStream :=
  ((oneBlock segmentBytes).openShard oneBlockOpening).2

/-- The open gives the file that was asked for. -/
theorem oneBlockOpening_allowed {environment : Environment} (segmentBytes : Nat)
    (disk : environment.disk = emptyFiles) :
    Opens environment (oneBlock segmentBytes) oneBlockOpening :=
  opens_of_calls rfl (by rw [disk]; rfl) rfl (by simp) (by simp [oneBlock, construct])

/-- The shard is opened. -/
theorem oneBlock_opens {environment : Environment} (segmentBytes : Nat) {size : Nat}
    (positive : 0 < size) (disk : environment.disk = emptyFiles) :
    Step environment (startRead size (oneBlock segmentBytes))
      ⟨oneBlockOpen segmentBytes, .loop size []⟩ :=
  .openShard positive rfl Nat.one_pos oneBlockOpening (oneBlockOpening_allowed segmentBytes disk)

/-- The call stands at the head of its loop with the shard open. -/
theorem oneBlock_visits (segmentBytes : Nat) : Visits (reliable emptyFiles) (oneBlock segmentBytes)
    ⟨oneBlockOpen segmentBytes, .loop 1 []⟩ :=
  ⟨[], [], _, 1, .none, .single (oneBlock_opens segmentBytes Nat.one_pos rfl)⟩

theorem wellFormed_whole_block :
    WellFormed (oneBlockOpen 4096) ⟨0, ⟨0, 4096⟩, 0⟩ :=
  (request_wellFormed_iff (oneBlock_visits 4096) rfl (by decide)).mpr (by decide)

/-- A segment size below the block size: a block is read into a buffer of no bytes. -/
theorem request_overruns_buffer :
    ¬ ∀ (environment : Environment) (shards : ShardSet) (order : List Nat)
      (options : BatchOptions) (stream : ShardStream) (size : Nat) (out : List Byte),
      0 < options.batchBytes → 0 < options.prefetch → 0 < options.readDepth →
      Visits environment (construct shards order options) ⟨stream, .loop size out⟩ →
      stream.isOpen = true → ∀ request ∈ stream.planned, WellFormed stream request := by
  intro always
  have wellFormed := always _ _ _ _ _ _ _ (by decide) (by decide) (by decide)
    (oneBlock_visits 512) rfl ⟨0, ⟨0, 4096⟩, 0⟩ (by decide)
  obtain ⟨buffer, found, -, fits⟩ := wellFormed.fits
  have allocated : (oneBlockOpen 512).buffers[0]? = some { address := 0, size := 0 } := by decide
  rw [allocated] at found
  cases found
  exact absurd fits (by decide)

end Dsio.ShardStream
