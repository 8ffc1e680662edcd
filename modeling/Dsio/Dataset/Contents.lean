import Dsio.Dataset.Requests

/-!
# The bytes of the stream

With reads that are full up to the end of the file, what the stream has yet to return
is the carry, then the part of the open window its file has, then the windows of the
later shards. `Conserves` says that what a call has returned so far and what is unread
make up what was unread before it, at every point and whatever order the backend
completes its reads in.
-/

namespace Dsio.ShardStream

open Transition Window

/-- The bytes `read` could not fit in the last batch. -/
def carried (stream : ShardStream) : List Byte := stream.carry.take stream.carrySize

/-- What is left of the open shard. -/
def shardRest (disk : Disk) (stream : ShardStream) : List Byte :=
  if stream.isOpen then
    window (disk.content stream.file.path) stream.position (stream.windowEnd - stream.position)
  else []

/-- The windows of the shards from a position of the order on. -/
def windowsFrom (disk : Disk) (stream : ShardStream) (position : Nat) : List Byte :=
  (stream.order.drop position).flatMap fun index =>
    disk.windowOf ((stream.shards[index]?).getD {})

/-- What the stream has yet to return. -/
def unread (disk : Disk) (stream : ShardStream) : List Byte :=
  stream.carried ++ (stream.shardRest disk ++
    stream.windowsFrom disk (if stream.isOpen then stream.next + 1 else stream.next))

/-- An entry counts, and its buffer holds, the bytes of its share of the window. -/
structure Finished (content : List Byte) (share : Nat) (buffer : AlignedBuffer)
    (entry : Pending) : Prop where
  bytes : entry.bytes = (window content entry.offset share).length
  data : buffer.bytes.take entry.bytes = window content entry.offset share

/-- The entries that are done hold the bytes at their offset. -/
def Genuine (disk : Disk) (stream : ShardStream) : Prop :=
  ∀ entry ∈ stream.pending, entry.done = true →
    Finished (disk.content stream.file.path) (stream.share entry.offset)
      (stream.bufferAt entry.slot) entry

/-- Every file leaves room for a block in its segments. -/
def BlocksFit (disk : Disk) (stream : ShardStream) : Prop :=
  ∀ position < stream.order.length,
    HoldsBlock stream.options (disk.alignment (stream.shardAt position).path)

variable {disk : Disk} {stream : ShardStream}

/-! ## Carry -/

/-- As many bytes are carried as `carry_size_` says. -/
theorem length_carried (stored : stream.carrySize ≤ stream.carry.length) :
    stream.carried.length = stream.carrySize := by
  simp only [carried, List.length_take]
  omega

/-- `flush_carry` returns the front of the carry and keeps the rest. -/
theorem flushCarry_spec (stored : stream.carrySize ≤ stream.carry.length) (size : Nat) :
    ∃ carry, stream.flushCarry size =
        (stream.carried.take size, { stream with carry, carrySize := stream.carrySize - size }) ∧
      stream.carrySize - size ≤ carry.length ∧
      carry.take (stream.carrySize - size) = stream.carried.drop size := by
  by_cases none : stream.carrySize = 0
  · refine ⟨stream.carry, ?_, by omega, by simp [none, carried]⟩
    rw [flushCarry, if_pos none]
    simp only [carried, none, List.take_zero, List.take_nil, Nat.zero_sub]
    rw [← none]
  · have taken : copyN (min stream.carrySize size) stream.carry = stream.carried.take size := by
      rw [copyN_eq_take (by omega), carried, List.take_take, Nat.min_comm]
    have left : stream.carrySize - min stream.carrySize size = stream.carrySize - size := by omega
    simp only [flushCarry, none, if_false, taken, left]
    refine ⟨_, rfl, ?_⟩
    split
    · next more =>
      have least : min stream.carrySize size = size := by omega
      have rest : (stream.carried.drop size).length = stream.carrySize - size := by
        rw [List.length_drop, length_carried stored]
      rw [least, ← carried, List.length_append, rest]
      refine ⟨by omega, ?_⟩
      rw [List.take_append_of_le_length (Nat.le_of_eq rest.symm), List.take_of_length_le
        (Nat.le_of_eq rest)]
    · next all =>
      have nothing : stream.carrySize - size = 0 := by omega
      have empty : stream.carried.drop size = [] :=
        List.drop_eq_nil_of_le (by rw [length_carried stored]; omega)
      rw [nothing, empty, List.take_zero]
      exact ⟨Nat.zero_le _, rfl⟩

/-! ## What a call conserves -/

/-- What holds of the bytes in memory between the operations of a run. -/
structure Holds (disk : Disk) (stream : ShardStream) : Prop where
  genuine : Genuine disk stream
  stored : stream.carrySize ≤ stream.carry.length

/-- At every point of a call of `read` on `size` bytes: what is in `out` and what is
unread are together what was unread before the call. -/
def Config.Conserves (disk : Disk) (size : Nat) (before : List Byte) (config : Config) : Prop :=
  match config.point with
  | .loop asked out =>
      asked = size ∧ Holds disk config.stream ∧ out.length ≤ size ∧
        (out.length < size → config.stream.carrySize = 0) ∧
        out ++ config.stream.unread disk = before
  | .await asked out =>
      asked = size ∧ Holds disk config.stream ∧ out.length < size ∧
        config.stream.carrySize = 0 ∧ out ++ config.stream.unread disk = before
  | .returned (.ok out) =>
      Holds disk config.stream ∧ out = before.take size ∧
        config.stream.unread disk = before.drop size
  | .returned (.error _) => True

/-- Entering a call. -/
theorem Holds.startRead (holds : Holds disk stream) (size : Nat) :
    (startRead size stream).Conserves disk size (stream.unread disk) := by
  obtain ⟨carry, flushed, stored, kept⟩ := flushCarry_spec holds.stored size
  have length := length_carried holds.stored
  rw [ShardStream.startRead, flushed]
  refine ⟨rfl, ⟨holds.genuine, stored⟩, ?_, ?_, ?_⟩
  · rw [List.length_take]
    exact Nat.min_le_left _ _
  · intro short
    rw [List.length_take, length] at short
    show stream.carrySize - size = 0
    omega
  · show stream.carried.take size ++ (carry.take (stream.carrySize - size) ++ _) = _
    rw [kept, ← List.append_assoc, List.take_append_drop]
    rfl

/-- Nothing is carried when `carry_size_` is 0. -/
theorem carried_of_carrySize (none : stream.carrySize = 0) : stream.carried = [] := by
  simp [carried, none]

/-- Between two shards the carry and the windows from the next shard on are unread. -/
theorem unread_of_closed (closed : stream.isOpen = false) :
    stream.unread disk = stream.carried ++ stream.windowsFrom disk stream.next := by
  simp [unread, shardRest, closed]

/-- In a shard the rest of its window is unread as well. -/
theorem unread_of_isOpen (isOpen : stream.isOpen = true) :
    stream.unread disk = stream.carried ++
      (window (disk.content stream.file.path) stream.position
        (stream.windowEnd - stream.position) ++ stream.windowsFrom disk (stream.next + 1)) := by
  simp [unread, shardRest, isOpen]

/-- Leaving a shard loses what is left of its window. -/
theorem unread_closeShard (isOpen : stream.isOpen = true)
    (nothing : window (disk.content stream.file.path) stream.position
      (stream.windowEnd - stream.position) = []) :
    stream.closeShard.unread disk = stream.unread disk := by
  rw [unread_of_isOpen isOpen, nothing, List.nil_append, closeShard_eq]
  exact unread_of_closed rfl

/-- Entering a shard brings its window in. -/
theorem unread_begun {after : ShardStream} (closed : stream.isOpen = false)
    (more : stream.next < stream.order.length) (begun : Begun stream after)
    (sound : Sound disk after) (empty : stream.pending = []) :
    after.unread disk = stream.unread disk := by
  have isOpen : after.isOpen = true := by rw [begun]
  have path := (sound.opened isOpen).path
  have position : after.position = (stream.shardAt stream.next).offset := by
    rw [begun]
    simp [ShardStream.position, empty]
  have windowEnd : after.windowEnd = (stream.shardAt stream.next).end := by rw [begun]
  have next : after.next = stream.next := by rw [begun]
  have shard : after.shardAt stream.next = stream.shardAt stream.next := by
    rw [begun]
    rfl
  have later : ∀ position, after.windowsFrom disk position = stream.windowsFrom disk position := by
    intro position
    rw [begun]
    rfl
  have carry : after.carried = stream.carried := by
    rw [begun]
    rfl
  rw [unread_of_isOpen isOpen, unread_of_closed closed, path, next, shard, position, windowEnd,
    later, carry]
  simp only [windowsFrom, List.drop_eq_getElem_cons more, List.flatMap_cons]
  congr 2
  simp [Disk.windowOf, shardAt, more]

/-! ## Filling and reaping -/

/-- The offsets queued determine where the stream stands. -/
theorem position_eq_of_offsets {after : ShardStream}
    (offsets : after.pending.map (·.offset) = stream.pending.map (·.offset))
    (nextOffset : after.nextOffset = stream.nextOffset) : after.position = stream.position := by
  rw [position, position, ← List.head?_map, ← List.head?_map, offsets, nextOffset]

/-- Finishing an entry consumes nothing. -/
theorem position_finished {index : Nat} {request : ReadRequest} {before after : List Pending}
    {entry : Pending} (found : stream.inFlight[index]? = some request)
    (split : stream.pending = before ++ entry :: after) (completion : Completion)
    (data : List Byte) :
    position { stream.complete index data with
      pending := before ++ finishEntry stream.windowEnd completion entry :: after } =
      stream.position :=
  position_eq_of_offsets (by simp [split, finishEntry]) (by rw [complete_eq found])

/-- The open shard reads whole blocks into segments that hold them. -/
theorem block_le_segment {start : ShardStream} (sound : Sound disk stream)
    (stems : Stems start stream) (fits : BlocksFit disk start) (isOpen : stream.isOpen = true) :
    stream.block ≤ stream.segment := by
  have opened := sound.opened isOpen
  have positive : 0 < stream.block := opened.block ▸ disk.aligned _
  have holds := fits stream.next (stems.order ▸ opened.more)
  rw [← stems.options, ← stems.shardAt, ← opened.path, ← opened.block] at holds
  rw [opened.segment]
  exact (block_le_segmentOf_iff positive).mpr holds

/-- Entries that are queued are not done. -/
theorem Genuine.fill {filled : ShardStream} {entries : List Pending}
    (genuine : Genuine disk stream) (fill : Filled stream filled entries) :
    Genuine disk (filled.submit (entries.map stream.entryRequest)) := by
  obtain ⟨free, nextOffset, rfl⟩ := fill.exists_frame
  intro entry member done
  rcases List.mem_append.mp member with old | queued
  · exact genuine entry old done
  · rw [fill.waiting entry queued] at done
    cases done

/-- What a buffer holds once a read that fits it was written to it. -/
theorem bufferAt_receive_self {slot : Nat} (bound : slot < stream.buffers.length)
    (data : List Byte) :
    bufferAt { stream with
      buffers := stream.buffers.map (AlignedBuffer.receive (stream.bufferAt slot).address data) }
      slot = (stream.bufferAt slot).write data := by
  simp [bufferAt, bound, AlignedBuffer.receive]

/-- A read leaves the other buffers as they are. -/
theorem bufferAt_receive_other {slot address : Nat} (bound : slot < stream.buffers.length)
    (apart : (stream.bufferAt slot).address ≠ address) (data : List Byte) :
    bufferAt { stream with buffers := stream.buffers.map (AlignedBuffer.receive address data) }
      slot = stream.bufferAt slot := by
  simp only [bufferAt, bound, getElem?_pos, Option.getD_some] at apart
  simp [bufferAt, bound, AlignedBuffer.receive, apart]

/-- A buffer holds one segment. -/
theorem Sound.buffer_size (sound : Sound disk stream) (isOpen : stream.isOpen = true) {slot : Nat}
    (bound : slot < stream.buffers.length) : (stream.bufferAt slot).size = stream.segment := by
  have opened := sound.opened isOpen
  have member : stream.bufferAt slot ∈ stream.buffers := by simp [bufferAt, bound]
  rw [sound.sized _ member]
  exact roundUp_of_dvd (opened.block ▸ disk.aligned _) (opened.segment ▸ block_dvd_segmentOf _ _)

/-- A read that fits its buffer finishes its entry with as many bytes of the window as it
reported. -/
theorem finished_of_report {content : List Byte} {buffer : AlignedBuffer} {entry : Pending}
    {completion : Completion} (windowEnd : Nat) (fits : completion.bytes ≤ buffer.size)
    (available : completion.bytes ≤ content.length - entry.offset) :
    Finished content (finishEntry windowEnd completion entry).bytes
      (buffer.write (window content entry.offset completion.bytes))
      (finishEntry windowEnd completion entry) := by
  have dataLength : (window content entry.offset completion.bytes).length = completion.bytes := by
    rw [length_window, Nat.min_eq_left available]
  have below : min completion.bytes (windowEnd - entry.offset) ≤ completion.bytes :=
    Nat.min_le_left ..
  constructor
  · rw [finishEntry, length_window, Nat.min_eq_left (Nat.le_trans below available)]
  · rw [finishEntry, AlignedBuffer.take_write (by rwa [dataLength]) (by rwa [dataLength]),
      take_window, Nat.min_eq_left below]

/-- A full read finishes its entry. -/
theorem finished_of_read {content : List Byte} {length : Nat} {buffer : AlignedBuffer}
    {entry : Pending} {completion : Completion} (windowEnd : Nat) (fits : length ≤ buffer.size)
    (full : fullReads length (content.length - entry.offset) completion.bytes) :
    Finished content (min length (windowEnd - entry.offset))
      (buffer.write (window content entry.offset completion.bytes))
      (finishEntry windowEnd completion entry) := by
  rw [fullReads] at full
  have cut : min completion.bytes (windowEnd - entry.offset) =
      min (min length (windowEnd - entry.offset)) (content.length - entry.offset) := by
    rw [full, Nat.min_right_comm]
  have same : window content entry.offset (finishEntry windowEnd completion entry).bytes =
      window content entry.offset (min length (windowEnd - entry.offset)) := by
    rw [finishEntry, cut, window_min_available]
  obtain ⟨bytes, data⟩ := finished_of_report windowEnd
    (full ▸ Nat.le_trans (Nat.min_le_left ..) fits : completion.bytes ≤ buffer.size)
    (full ▸ Nat.min_le_right ..)
  exact ⟨bytes.trans (congrArg List.length same), data.trans same⟩

/-- A read leaves the entries that were done, and their buffers, as they are. -/
theorem forall_done_complete (finished : Pending → AlignedBuffer → Prop) {index : Nat}
    {before after : List Pending} {entry : Pending} {completion : Completion} {data : List Byte}
    (sound : Sound disk stream) (split : stream.pending = before ++ entry :: after)
    (found : stream.inFlight[index]? = some (stream.entryRequest entry))
    (old : ∀ other ∈ stream.pending, other.done = true →
      finished other (stream.bufferAt other.slot))
    (new : finished (finishEntry stream.windowEnd completion entry)
      ((stream.bufferAt entry.slot).write data)) :
    ∀ other ∈ before ++ finishEntry stream.windowEnd completion entry :: after,
      other.done = true → finished other (bufferAt { stream.complete index data with
        pending := before ++ finishEntry stream.windowEnd completion entry :: after }
          other.slot) := by
  have bound := sound.slot_lt (show entry ∈ stream.pending by simp [split])
  rw [complete_eq found]
  intro other member done
  by_cases same : other.slot = entry.slot
  · -- the slot of the finished entry is its own
    have finishes : other = finishEntry stream.windowEnd completion entry := by
      have slots := sound.distinct
      rw [split] at slots
      have distinct : ((before ++ finishEntry stream.windowEnd completion entry :: after).map
          (·.slot)).Nodup := by simpa [finishEntry] using slots
      exact List.inj_on_of_nodup_map distinct member (by simp) same
    subst finishes
    rw [← bufferAt_receive_self bound data] at new
    exact new
  · have earlier : other ∈ stream.pending := by
      rw [split]
      simp only [List.mem_append, List.mem_cons] at member ⊢
      rcases member with first | rfl | later
      · exact .inl first
      · exact absurd rfl same
      · exact .inr (.inr later)
    have apart : (stream.bufferAt other.slot).address ≠ (stream.bufferAt entry.slot).address :=
      fun equal => same (sound.slot_inj (sound.slot_lt earlier) bound equal)
    have kept := old other earlier done
    rw [← bufferAt_receive_other (sound.slot_lt earlier) apart data] at kept
    exact kept

/-- The read of an entry fits its buffer. -/
theorem entryRequest_le_buffer {entry : Pending} (sound : Sound disk stream)
    (holds : stream.block ≤ stream.segment) (pending : entry ∈ stream.pending) :
    (stream.entryRequest entry).dst.size ≤ (stream.bufferAt entry.slot).size := by
  rw [sound.buffer_size (sound.isOpen (List.ne_nil_of_mem pending)) (sound.slot_lt pending)]
  exact requestLength_le_segment holds _

/-- A full read finishes its entry with the bytes at its offset. -/
theorem Genuine.reaped {index : Nat} {before after : List Pending} {entry : Pending}
    {completion : Completion} {data : List Byte} (genuine : Genuine disk stream)
    (sound : Sound disk stream) (holds : stream.block ≤ stream.segment)
    (split : stream.pending = before ++ entry :: after)
    (found : stream.inFlight[index]? = some (stream.entryRequest entry))
    (full : fullReads (stream.entryRequest entry).dst.size
      ((disk.content stream.file.path).length - entry.offset) completion.bytes)
    (read : data = window (disk.content stream.file.path) entry.offset completion.bytes) :
    Genuine disk { stream.complete index data with
      pending := before ++ finishEntry stream.windowEnd completion entry :: after } := by
  have fits := entryRequest_le_buffer sound holds (show entry ∈ stream.pending by simp [split])
  have finished := finished_of_read stream.windowEnd fits full
  rw [← read] at finished
  have all := forall_done_complete (fun entry buffer =>
    Finished (disk.content stream.file.path) (stream.share entry.offset) buffer entry)
    sound split found genuine finished
  rw [complete_eq found] at all ⊢
  exact all

/-! ## Consuming -/

/-- Of the bytes of a finished entry, those there is room for are copied and the others
become the carry. -/
theorem takeFront_spec {content : List Byte} {entry : Pending} {share : Nat}
    (finished : Finished content share (stream.bufferAt entry.slot) entry) (room : Nat) :
    let bytes := window content entry.offset share
    ∃ carry carrySize, stream.takeFront entry room =
        (bytes.take room, bytes.length - room, { stream with
          free := stream.free.set entry.slot true
          pending := stream.pending.tail
          carry
          carrySize }) ∧
      (bytes.length ≤ room ∧ carry = stream.carry ∧ carrySize = stream.carrySize ∨
        room < bytes.length ∧ carrySize = bytes.length - room ∧ carrySize ≤ carry.length ∧
          carry.take carrySize = bytes.drop room) := by
  obtain ⟨count, data⟩ := finished
  generalize window content entry.offset share = bytes at count data
  have enough : entry.bytes ≤ (stream.bufferAt entry.slot).bytes.length := by
    have length := congrArg List.length data
    rw [List.length_take] at length
    omega
  have copied : copyN (min room entry.bytes) (stream.bufferAt entry.slot).bytes =
      bytes.take room := by
    rw [copyN_eq_take (by omega), ← data, List.take_take]
  by_cases fits : bytes.length ≤ room
  · have none : ¬ 0 < entry.bytes - min room entry.bytes := by omega
    refine ⟨stream.carry, stream.carrySize, ?_, .inl ⟨fits, rfl, rfl⟩⟩
    simp only [takeFront, copied, none, if_false, release]
    congr 2
    omega
  · have some : 0 < entry.bytes - min room entry.bytes := by omega
    have rest : copyN (entry.bytes - min room entry.bytes)
        ((stream.bufferAt entry.slot).bytes.drop (min room entry.bytes)) = bytes.drop room := by
      rw [copyN_eq_take (by rw [List.length_drop]; omega), ← List.drop_take, data,
        Nat.min_eq_left (by omega)]
    refine ⟨bytes.drop room ++ stream.carry.drop (bytes.drop room).length, bytes.length - room, ?_,
      .inr ⟨by omega, rfl, ?_, ?_⟩⟩
    · simp only [takeFront, copied, some, if_true, rest, storeCarry, release, List.length_drop]
      congr 2
      omega
    · rw [List.length_append, List.length_drop]
      omega
    · exact List.take_left' (List.length_drop ..)

/-- The front entry's share and the rest of the window after it. -/
theorem window_at_position {entry : Pending} {rest : List Pending} (sound : Sound disk stream)
    (pending : stream.pending = entry :: rest) (isOpen : stream.isOpen = true)
    (content : List Byte) :
    stream.position = entry.offset ∧ 0 < stream.share entry.offset ∧
      window content stream.position (stream.windowEnd - stream.position) =
        window content entry.offset (stream.share entry.offset) ++
          window content (stream.advance entry.offset)
            (stream.windowEnd - stream.advance entry.offset) := by
  have opened := sound.opened isOpen
  have positive : 0 < stream.block := opened.block ▸ disk.aligned _
  have front : stream.position = entry.offset := by simp [position, pending]
  have inside := opened.tiled.inside entry (pending ▸ List.mem_cons_self)
  have grows := lt_advance positive inside
  have bound : stream.share entry.offset ≤ stream.windowEnd - entry.offset := Nat.min_le_right _ _
  rw [front, window_split content entry.offset bound, advance, Nat.sub_sub]
  refine ⟨rfl, ?_, rfl⟩
  simp only [advance] at grows
  omega

/-- The entries behind the front one stay genuine. -/
theorem Genuine.takeFront {entry : Pending} {rest : List Pending} (genuine : Genuine disk stream)
    (pending : stream.pending = entry :: rest) (free : List Bool) (carry : List Byte)
    (carrySize : Nat) :
    Genuine disk { stream with free, pending := rest, carry, carrySize } :=
  fun other member done =>
    genuine other (pending ▸ List.mem_cons_of_mem _ member) done

/-- A step conserves the bytes. -/
theorem Config.Conserves.taken {entry : Pending} {rest : List Pending}
    {size asked : Nat} {before out : List Byte}
    (conserves : Config.Conserves disk size before ⟨stream, .await asked out⟩)
    (sound : ShardStream.Sound disk stream) (pending : stream.pending = entry :: rest)
    (done : entry.done = true) :
    (afterTake entry asked out (stream.takeFront entry (asked - out.length))).Conserves disk size
      before := by
  obtain ⟨rfl, ⟨genuine, stored⟩, room, none, conserved⟩ := conserves
  have isOpen := sound.isOpen (by simp [pending])
  have finished := genuine entry (pending ▸ List.mem_cons_self) done
  obtain ⟨front, positive, split⟩ := window_at_position sound pending isOpen
    (disk.content stream.file.path)
  obtain ⟨carry, carrySize, same, stores⟩ := takeFront_spec finished (asked - out.length)
  have counted := finished.bytes
  dsimp only at none conserved stored
  rw [unread_of_isOpen isOpen, split, carried_of_carrySize none, List.nil_append] at conserved
  generalize bytesEq : window (disk.content stream.file.path) entry.offset
    (stream.share entry.offset) = bytes at *
  have nextOpen : ({ stream with
      free := stream.free.set entry.slot true, pending := rest, carry, carrySize }
      : ShardStream).isOpen = true := isOpen
  have nextPosition : position { stream with
      free := stream.free.set entry.slot true, pending := rest, carry, carrySize } =
      stream.advance entry.offset := by
    rw [(sound.opened isOpen).position_taken pending, front]
  have nextGenuine := genuine.takeFront pending (stream.free.set entry.slot true) carry carrySize
  have nextUnread : unread disk { stream with
      free := stream.free.set entry.slot true, pending := rest, carry, carrySize } =
      carry.take carrySize ++ (window (disk.content stream.file.path) (stream.advance entry.offset)
        (stream.windowEnd - stream.advance entry.offset) ++
          stream.windowsFrom disk (stream.next + 1)) := by
    rw [unread_of_isOpen nextOpen, nextPosition]
    rfl
  rw [same, pending, List.tail_cons, afterTake]
  rcases stores with ⟨fits, rfl, rfl⟩ | ⟨beyond, size, bound, kept⟩
  · have notLeft : ¬ 0 < bytes.length - (asked - out.length) := by omega
    rw [if_neg notLeft, List.take_of_length_le fits]
    rw [none, List.take_zero, List.nil_append] at nextUnread
    have whole : (out ++ bytes) ++ (window (disk.content stream.file.path)
        (stream.advance entry.offset) (stream.windowEnd - stream.advance entry.offset) ++
          stream.windowsFrom disk (stream.next + 1)) = before := by
      rw [← conserved]
      simp only [List.append_assoc]
    split
    · next zero =>
      -- nothing at the offset of the entry, so nothing after it either
      have nothing : window (disk.content stream.file.path) (stream.advance entry.offset)
          (stream.windowEnd - stream.advance entry.offset) = [] := by
        rw [counted, ← bytesEq, length_window] at zero
        refine window_eq_nil _ ?_
        simp only [advance]
        omega
      refine ⟨rfl, ⟨by simp [Genuine, closeShard_eq], stored⟩, ?_, fun _ => none, ?_⟩
      · rw [List.length_append]
        omega
      · rw [unread_closeShard nextOpen (by rw [nextPosition]; exact nothing), none, nextUnread]
        exact whole
    · refine ⟨rfl, ⟨nextGenuine, stored⟩, ?_, fun _ => none, ?_⟩
      · rw [List.length_append]
        omega
      · rw [none, nextUnread]
        exact whole
  · have left : 0 < bytes.length - (asked - out.length) := by omega
    rw [if_pos left]
    have length : (out ++ bytes.take (asked - out.length)).length = asked := by
      rw [List.length_append, List.length_take]
      omega
    have whole : (out ++ bytes.take (asked - out.length)) ++ (unread disk { stream with
        free := stream.free.set entry.slot true, pending := rest, carry, carrySize }) = before := by
      rw [nextUnread, kept, ← conserved, List.append_assoc, ← List.append_assoc (bytes.take _),
        List.take_append_drop, List.append_assoc bytes]
    refine ⟨⟨nextGenuine, bound⟩, ?_, ?_⟩
    · rw [← whole, List.take_left' length]
    · rw [← whole, List.drop_left' length]

/-! ## Runs -/

variable {environment : Environment}

/-- Every step conserves the bytes of the call. -/
theorem Config.Conserves.step {start : ShardStream} {size : Nat} {bytes : List Byte}
    {before after : Config} (full : environment.reports = fullReads)
    (fits : BlocksFit environment.disk start) (sound : before.Sound environment.disk)
    (stems : before.Stems start) (conserves : before.Conserves environment.disk size bytes)
    (move : Move environment before after) : after.Conserves environment.disk size bytes := by
  cases move with
  | fail => trivial
  | @finish stream size out ends =>
      obtain ⟨rfl, holds, bound, none, conserved⟩ := conserves
      rcases Nat.lt_or_ge out.length size with short | filled
      · obtain ⟨closed, last⟩ := ends.resolve_left (Nat.not_le.mpr short)
        have nothing := carried_of_carrySize (none short)
        rw [unread_of_closed closed, nothing, windowsFrom, List.drop_eq_nil_of_le last,
          List.flatMap_nil, List.append_nil, List.append_nil] at conserved
        subst conserved
        refine ⟨holds, (List.take_of_length_le bound).symm, ?_⟩
        rw [List.drop_eq_nil_of_le bound, unread_of_closed closed, nothing, windowsFrom,
          List.drop_eq_nil_of_le last]
        rfl
      · have length := Nat.le_antisymm bound filled
        exact ⟨holds, by rw [← conserved, List.take_left' length],
          by rw [← conserved, List.drop_left' length]⟩
  | @opened stream after _ _ _ closed more begun soundAfter =>
      obtain ⟨rfl, holds, bound, none, conserved⟩ := conserves
      have soundBefore : ShardStream.Sound environment.disk stream := sound
      have empty : stream.pending = [] := (soundBefore.closed closed).2
      have carry : after.carry = stream.carry ∧ after.carrySize = stream.carrySize := by
        rw [begun]
        exact ⟨rfl, rfl⟩
      have pending : after.pending = [] := by
        rw [begun]
        exact empty
      refine ⟨rfl, ⟨by simp [Genuine, pending], ?_⟩, bound, ?_, ?_⟩
      · simpa only [carry.1, carry.2] using holds.stored
      · simpa only [carry.2] using none
      · rw [← conserved]
        exact congrArg _ (unread_begun closed more begun soundAfter empty)
  | @exhausted stream _ _ _ isOpen empty ended =>
      obtain ⟨rfl, holds, bound, none, conserved⟩ := conserves
      have nothing : window (environment.disk.content stream.file.path) stream.position
          (stream.windowEnd - stream.position) = [] := by
        have position : stream.position = stream.nextOffset := by
          simp [ShardStream.position, empty]
        rw [position, Nat.sub_eq_zero_of_le ended, window_zero]
      refine ⟨rfl, ⟨by simp [Genuine, closeShard_eq], holds.stored⟩, bound, none, ?_⟩
      rw [unread_closeShard isOpen nothing]
      exact conserved
  | @filled stream filled _ _ entries room isOpen fill =>
      obtain ⟨rfl, holds, bound, none, conserved⟩ := conserves
      have soundBefore : ShardStream.Sound environment.disk stream := sound
      have position := (soundBefore.fill_tiled isOpen fill).2
      have genuine := Genuine.fill holds.genuine fill
      obtain ⟨free, nextOffset, rfl⟩ := fill.exists_frame
      refine ⟨rfl, ⟨genuine, holds.stored⟩, room, none room, ?_⟩
      have filledOpen : (submit (entries.map stream.entryRequest) { stream with
          free, pending := stream.pending ++ entries, nextOffset }).isOpen = true := isOpen
      rw [unread_of_isOpen filledOpen]
      refine Eq.trans ?_ conserved
      rw [unread_of_isOpen isOpen, ← position]
      rfl
  | @reaped stream _ _ _ first entry rest index completion data _ _ split waiting found reports
      read =>
      obtain ⟨rfl, holds, room, none, conserved⟩ := conserves
      have isOpen := sound.1.isOpen sound.2
      have genuine := holds.genuine.reaped sound.1 (block_le_segment sound.1 stems fits isOpen)
        split found (full ▸ reports) read
      have position := position_finished found split completion data
      have same : unread environment.disk { stream.complete index data with
          pending := first ++ finishEntry stream.windowEnd completion entry :: rest } =
          stream.unread environment.disk := by
        simp only [unread, shardRest, position]
        rw [complete_eq found]
        rfl
      refine ⟨rfl, ⟨genuine, by rw [complete_eq found]; exact holds.stored⟩, room,
        by rw [complete_eq found]; exact none, ?_⟩
      rw [same]
      exact conserved
  | taken pending done => exact conserves.taken sound.1 pending done

/-- The invariant of a call of `read`. -/
structure Config.Faithful (disk : Disk) (start : ShardStream) (size : Nat) (before : List Byte)
    (config : Config) : Prop where
  sound : config.Sound disk
  stems : config.Stems start
  conserves : config.Conserves disk size before

/-- Every step keeps the invariant of the call. -/
theorem Config.Faithful.step {start : ShardStream} {size : Nat} {bytes : List Byte}
    {before after : Config} (full : environment.reports = fullReads)
    (fits : BlocksFit environment.disk start)
    (faithful : before.Faithful environment.disk start size bytes)
    (transition : Step environment before after) :
    after.Faithful environment.disk start size bytes where
  sound := faithful.sound.step transition
  stems := (move_of_step faithful.sound transition).stems faithful.stems
  conserves := faithful.conserves.step full fits faithful.sound faithful.stems
    (move_of_step faithful.sound transition)

/-- What holds of a stream between the calls of a run that started with `start`. -/
structure Between (disk : Disk) (start stream : ShardStream) : Prop where
  sound : Sound disk stream
  stems : Stems start stream
  holds : Holds disk stream

/-- A call begins with the invariant. -/
theorem Between.startRead {start : ShardStream} (between : Between disk start stream) (size : Nat) :
    (startRead size stream).Faithful disk start size (stream.unread disk) where
  sound := between.sound.startRead size
  stems := between.stems.startRead size
  conserves := between.holds.startRead size

/-- One call returns the front of what is unread. -/
theorem Between.reads {start after : ShardStream} {size : Nat} {out : List Byte}
    (between : Between environment.disk start stream) (full : environment.reports = fullReads)
    (fits : BlocksFit environment.disk start)
    (reads : Reads environment size stream (.ok out) after) :
    Between environment.disk start after ∧ out = (stream.unread environment.disk).take size ∧
      after.unread environment.disk = (stream.unread environment.disk).drop size := by
  obtain ⟨sound, stems, holds, returned, rest⟩ :=
    Reaches.preserves reads (Config.Faithful.step full fits) (between.startRead size)
  exact ⟨⟨sound, stems, holds⟩, returned, rest⟩

/-- Successive calls cut the stream into pieces of the sizes asked for. -/
theorem Between.calls {start : ShardStream} {sizes : List Nat} {outs : List (List Byte)}
    (initially : Between environment.disk start start) (full : environment.reports = fullReads)
    (fits : BlocksFit environment.disk start) (calls : Calls environment start sizes outs stream) :
    Between environment.disk start stream ∧
      outs = cut sizes (start.unread environment.disk) ∧
      stream.unread environment.disk = (start.unread environment.disk).drop sizes.sum := by
  induction calls with
  | none => exact ⟨initially, rfl, by simp⟩
  | call _ reads ih =>
      obtain ⟨between, returned, rest⟩ := ih
      obtain ⟨next, out, left⟩ := between.reads full fits reads
      refine ⟨next, ?_, ?_⟩
      · rw [cut_append, ← returned, out, rest]
        rfl
      · rw [left, rest, List.drop_drop, List.sum_append, List.sum_singleton]

/-- The stream a shard set is read as in the given order. -/
def streamOf (disk : Disk) (shards : ShardSet) (order : List Nat) : List Byte :=
  order.flatMap fun index => disk.bytesOf ((shards[index]?).getD {})

/-- A new stream is between two calls. -/
theorem between_construct (disk : Disk) (shards : ShardSet) (order : List Nat)
    (options : BatchOptions) :
    Between disk (construct shards order options) (construct shards order options) where
  sound := sound_construct ..
  stems := ⟨rfl, rfl, rfl⟩
  holds := ⟨by simp [Genuine, construct], Nat.le_refl _⟩

/-- All of the stream is unread at first. -/
theorem unread_construct {shards : ShardSet} {order : List Nat} (disk : Disk)
    (options : BatchOptions) (noOverflow : ∀ shard ∈ shards, shard.NoOverflow)
    (permutes : order.Perm (List.range shards.length)) :
    (construct shards order options).unread disk = streamOf disk shards order := by
  rw [unread_of_closed rfl]
  simp only [carried, construct, List.take_zero, List.nil_append, windowsFrom, List.drop_zero,
    streamOf]
  refine List.flatMap_congr fun index member => disk.windowOf_eq ?_
  have bound : index < shards.length := by simpa using permutes.mem_iff.mp member
  simpa [bound] using noOverflow _ (List.getElem_mem bound)

end Dsio.ShardStream
