import Dsio.Dataset.Streaming

/-!
# Segments

A shard is read in segments, each of which begins where the one before it ends. The
pending entries are some of them in a row. `preceding` and `following` divide the stream
at one of them.
-/

namespace Dsio.ShardStream

open Window

variable {disk : Disk} {stream : ShardStream}

/-- The offsets that reading from `start` on goes through, a segment at a time. -/
inductive SegmentFrom (advance : Nat → Nat) (windowEnd : Nat) : Nat → Nat → Prop where
  | here {start} (inside : start < windowEnd) : SegmentFrom advance windowEnd start start
  | later {start offset} (inside : start < windowEnd)
      (rest : SegmentFrom advance windowEnd (advance start) offset) :
      SegmentFrom advance windowEnd start offset

/-- Segments begin inside the window. -/
theorem SegmentFrom.inside {advance : Nat → Nat} {windowEnd start offset : Nat}
    (segment : SegmentFrom advance windowEnd start offset) : offset < windowEnd := by
  induction segment with
  | here inside => exact inside
  | later _ _ ih => exact ih

/-- There are segments only where the window goes on. -/
theorem SegmentFrom.begins {advance : Nat → Nat} {windowEnd start offset : Nat}
    (segment : SegmentFrom advance windowEnd start offset) : start < windowEnd := by
  cases segment with
  | here inside => exact inside
  | later inside _ => exact inside

/-- A segment other than the first is one of the rest. -/
theorem SegmentFrom.next {advance : Nat → Nat} {windowEnd start offset : Nat}
    (segment : SegmentFrom advance windowEnd start offset) (other : offset ≠ start) :
    SegmentFrom advance windowEnd (advance start) offset := by
  cases segment with
  | here => exact absurd rfl other
  | later _ rest => exact rest

/-- Segments do not begin before the first one. -/
theorem SegmentFrom.le {windowEnd start offset : Nat} (positive : 0 < stream.block)
    (ends : windowEnd = stream.windowEnd)
    (segment : SegmentFrom stream.advance windowEnd start offset) : start ≤ offset := by
  induction segment with
  | here => exact Nat.le_refl _
  | later inside _ ih => exact Nat.le_trans (Nat.le_of_lt (lt_advance positive (ends ▸ inside))) ih

/-- The entries of a tiling are segments. -/
theorem Tiled.segment {advance : Nat → Nat} {windowEnd start finish : Nat} {entries : List Pending}
    (tiled : Tiled advance windowEnd start entries finish) {entry : Pending}
    (member : entry ∈ entries) : SegmentFrom advance windowEnd start entry.offset := by
  induction entries generalizing start with
  | nil => cases member
  | cons first rest ih =>
      obtain ⟨offset, inside, more⟩ := tiled
      rcases List.mem_cons.mp member with rfl | later
      · rw [offset]
        exact .here inside
      · exact .later inside (ih more later)

/-- A segment is among the entries, or after them. -/
theorem SegmentFrom.of_tiled {advance : Nat → Nat} {windowEnd start finish offset : Nat}
    {entries : List Pending} (segment : SegmentFrom advance windowEnd start offset)
    (tiled : Tiled advance windowEnd start entries finish) :
    (∃ entry ∈ entries, entry.offset = offset) ∨ SegmentFrom advance windowEnd finish offset := by
  induction entries generalizing start with
  | nil =>
      cases tiled
      exact .inr segment
  | cons first rest ih =>
      obtain ⟨same, -, more⟩ := tiled
      cases segment with
      | here => exact .inl ⟨first, List.mem_cons_self, same⟩
      | later _ later =>
          rcases ih later more with ⟨entry, member, found⟩ | after
          · exact .inl ⟨entry, List.mem_cons_of_mem _ member, found⟩
          · exact .inr after

/-- Entries begin before the tiling ends. -/
theorem Tiled.lt_finish {start finish : Nat} {entries : List Pending}
    (tiled : Tiled stream.advance stream.windowEnd start entries finish)
    (positive : 0 < stream.block) {entry : Pending} (member : entry ∈ entries) :
    entry.offset < finish := by
  induction entries generalizing start with
  | nil => cases member
  | cons first rest ih =>
      rcases List.mem_cons.mp member with rfl | later
      · exact tiled.1 ▸ (tiled.le positive).2 (List.cons_ne_nil _ _)
      · exact ih tiled.2.2 later

/-- Among tiled entries, the first whose offset has a property that no smaller one has. -/
theorem Tiled.find?_offset (holds : Nat → Bool) {begins finish first : Nat}
    {entries : List Pending} (positive : 0 < stream.block)
    (tiled : Tiled stream.advance stream.windowEnd begins entries finish)
    (least : ∀ entry ∈ entries, holds entry.offset = true → first ≤ entry.offset)
    (found : ∃ entry ∈ entries, entry.offset = first) (has : holds first = true) :
    (entries.find? fun entry => holds entry.offset).map (·.offset) = some first := by
  induction entries generalizing begins with
  | nil => simp at found
  | cons entry rest ih =>
      obtain ⟨other, member, rfl⟩ := found
      have later : entry.offset ≤ other.offset := by
        rw [tiled.1]
        exact (tiled.segment member).le positive rfl
      cases front : holds entry.offset with
      | true =>
          have same := Nat.le_antisymm later (least entry List.mem_cons_self front)
          simp only [List.find?_cons, front, Option.map_some]
          rw [same]
      | false =>
          have behind : other ∈ rest := by
            rcases List.mem_cons.mp member with rfl | behind
            · rw [has] at front
              cases front
            · exact behind
          simp only [List.find?_cons, front]
          exact ih tiled.2.2 (fun later inside => least later (List.mem_cons_of_mem _ inside))
            ⟨other, behind, rfl⟩

/-- A stream that has this shard open. -/
def reading (disk : Disk) (options : BatchOptions) (shard : Shard) : ShardStream :=
  { construct [shard] [0] options with
    block := disk.alignment shard.path
    segment := segmentOf options (disk.alignment shard.path)
    windowEnd := shard.end }

/-- The stream reads a segment of the shard at this offset. -/
def IsSegment (disk : Disk) (options : BatchOptions) (shard : Shard) (offset : Nat) : Prop :=
  SegmentFrom (reading disk options shard).advance shard.end shard.offset offset

/-- Segments begin in their shard. -/
theorem IsSegment.le {options : BatchOptions} {shard : Shard} {offset : Nat}
    (segment : IsSegment disk options shard offset) : shard.offset ≤ offset :=
  SegmentFrom.le (disk.aligned shard.path) rfl segment

/-- An open shard advances as its options and block size say. -/
theorem Opened.advance_eq (opened : Opened disk stream) :
    stream.advance = (reading disk stream.options (stream.shardAt stream.next)).advance := by
  funext offset
  simp only [advance, share, requestLength, opened.windowEnd, opened.segment, opened.block,
    opened.path]
  rfl

/-- What is left of a shard nothing has been read of. -/
theorem Opened.isSegment_iff (opened : Opened disk stream)
    (whole : stream.position = (stream.shardAt stream.next).offset) {offset : Nat} :
    SegmentFrom stream.advance stream.windowEnd stream.position offset ↔
      IsSegment disk stream.options (stream.shardAt stream.next) offset := by
  rw [IsSegment, opened.advance_eq, opened.windowEnd, whole]

/-! ## The stream around a segment -/

/-- The bytes of the stream before the segment at `offset` of the shard at `position` of the
order. -/
def preceding (disk : Disk) (start : ShardStream) (position offset : Nat) : List Byte :=
  (start.order.take position).flatMap (fun index =>
      disk.windowOf ((start.shards[index]?).getD {})) ++
    window (disk.content (start.shardAt position).path) (start.shardAt position).offset
      (offset - (start.shardAt position).offset)

/-- The bytes of the stream from that segment on. -/
def following (disk : Disk) (start : ShardStream) (position offset : Nat) : List Byte :=
  window (disk.content (start.shardAt position).path) offset
    ((start.shardAt position).end - offset) ++ start.windowsFrom disk (position + 1)

/-- A segment divides the stream in two. -/
theorem preceding_append_following {start : ShardStream} {position offset : Nat}
    (bound : position < start.order.length)
    (segment : IsSegment disk start.options (start.shardAt position) offset) :
    preceding disk start position offset ++ following disk start position offset =
      start.windowsFrom disk 0 := by
  have begins := segment.le
  have inside := SegmentFrom.inside segment
  have shard : disk.windowOf ((start.shards[start.order[position]]?).getD {}) =
      disk.windowOf (start.shardAt position) := by simp [shardAt, bound]
  have split := window_split (disk.content (start.shardAt position).path)
    (start.shardAt position).offset
    (show offset - (start.shardAt position).offset ≤
      (start.shardAt position).end - (start.shardAt position).offset by omega)
  rw [Nat.add_sub_of_le begins, Nat.sub_sub_sub_cancel_right begins] at split
  rw [windowsFrom, List.drop_zero]
  conv_rhs => rw [← List.take_append_drop position start.order, List.drop_eq_getElem_cons bound]
  rw [List.flatMap_append, List.flatMap_cons, shard, Disk.windowOf, split, preceding, following]
  simp only [List.append_assoc]
  rfl

end Dsio.ShardStream
