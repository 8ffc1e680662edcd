import Dsio.Dataset.Streaming
import Dsio.Mmap
import Dsio.Reader

/-!
# The access paths agree

A window of a file can be read directly a block at a time, streamed as a shard set of its
own, or mapped. All three give the same bytes.
-/

namespace Dsio

open Transition Window

/-- Of a window inside its file, at a block and a page of it: the direct reader is drained
of it, the calls of the stream cut it into the sizes asked for, and the mapping shows it. -/
theorem access_paths_agree (strerror : Nat → String) (disk : Disk) {path : String}
    {offset length sysconf : Nat} {options : BatchOptions} (some : 0 < length)
    (inside : offset + length ≤ (disk.content path).length)
    (block : disk.alignment path ∣ offset) (page : pageSize sysconf ∣ offset)
    (holdsBlock : ShardStream.HoldsBlock options (disk.alignment path)) :
    (∀ opening, DirectReader.Opens (disk.content path) (disk.alignment path) path opening →
      ∃ reader, DirectReader.open strerror opening offset length = .ok reader ∧
        Inevitable (DirectReader.Drain.Step (wholeReads (disk.content path)) strerror)
          (fun drain => drain.Drained ∧ drain.bytes = window (disk.content path) offset length)
          ⟨reader.nextChunk, []⟩) ∧
    (∀ sizes outs stream, ShardStream.Calls (reliable disk)
        (ShardStream.construct [⟨path, offset, length⟩] [0] options) sizes outs stream →
      outs = cut sizes (window (disk.content path) offset length) ∧
        (length ≤ sizes.sum → outs.flatten = window (disk.content path) offset length) ∧
        ∀ size, Inevitable (ShardStream.Step (reliable disk)) ShardStream.Returned
          (ShardStream.startRead size stream)) ∧
    (∀ memory opening, MmapFile.Opens (disk.content path) offset length memory opening →
      ∀ process, ∃ mapping after,
        MmapFile.open strerror sysconf opening path offset length process =
          (.ok mapping, after) ∧
        mapping.bytes memory = window (disk.content path) offset length) ∧
    (window (disk.content path) offset length).length = length := by
  have bounded := disk.bounded path
  have whole : (window (disk.content path) offset length).length = length :=
    length_window_of_inside inside
  refine ⟨fun opening opens => ?_, fun sizes outs stream calls => ?_,
    fun memory opening opens process => ?_, whole⟩
  · obtain ⟨reader, opened, fits, descriptor, fresh, start, finish⟩ :=
      opens.window_opens (disk.aligned path) block inside (by omega) strerror
    have drains := @DirectReader.Fits.drains _ _ _ strerror
      (wholeReads_splits (disk.content path)) fits descriptor [] (by omega) (by omega)
      (by simp [fresh, start])
    rw [start, finish, Nat.add_sub_cancel_left] at drains
    exact ⟨reader, opened, drains⟩
  · obtain ⟨cuts, returns⟩ := ShardStream.calls_cut disk (.refl _) (by simpa using inside)
      (by simpa using holdsBlock) calls
    have one : ShardStream.streamOf disk [⟨path, offset, length⟩]
        (List.range [(⟨path, offset, length⟩ : Shard)].length) =
        window (disk.content path) offset length := by
      simp [ShardStream.streamOf, Disk.bytesOf]
    rw [one] at cuts
    refine ⟨cuts, fun enough => ?_, returns⟩
    rw [cuts, flatten_cut, List.take_of_length_le (by rwa [whole])]
  · exact opens.window_opens page some inside strerror path process

/-- A file of six bytes in blocks of four. -/
def sixBytes : Disk where
  content _ := [1, 2, 3, 4, 5, 6]
  alignment _ := 4
  aligned _ := by decide
  bounded _ := by decide

/-- Its first five bytes, read directly and mapped, where `mmap` maps from address 8192 on. -/
theorem sixBytes_agree :
    ∃ reader mapping after,
      DirectReader.open (fun _ => "") ⟨.ok ⟨3, "six", 4⟩, .ok 6, .ok 0⟩ 0 5 = .ok reader ∧
      Inevitable (DirectReader.Drain.Step (wholeReads [1, 2, 3, 4, 5, 6]) fun _ => "")
        (fun drain => drain.Drained ∧ drain.bytes = [1, 2, 3, 4, 5]) ⟨reader.nextChunk, []⟩ ∧
      MmapFile.open (fun _ => "") 4096 ⟨.ok 3, .ok 6, fun start _ => .ok (8192 + start)⟩ "six" 0 5
        {} = (.ok mapping, after) ∧
      mapping.bytes (fun address => [1, 2, 3, 4, 5, 6].drop (address - 8192)) =
        [1, 2, 3, 4, 5] := by
  obtain ⟨direct, -, mapped, -⟩ := @access_paths_agree (fun _ => "") sixBytes "six" 0 5 4096 {}
    (by decide) (by decide) (by decide) (by decide) (by decide)
  obtain ⟨reader, opened, drains⟩ := direct ⟨.ok ⟨3, "six", 4⟩, .ok 6, .ok 0⟩
    ⟨⟨_, rfl, by decide, rfl, rfl⟩, rfl, _, rfl⟩
  have maps : MmapFile.Opens [1, 2, 3, 4, 5, 6] 0 5
      (fun address => [1, 2, 3, 4, 5, 6].drop (address - 8192))
      ⟨.ok 3, .ok 6, fun start _ => .ok (8192 + start)⟩ := by
    refine ⟨⟨3, rfl⟩, rfl, ⟨8192, rfl⟩, ?_⟩
    rintro start count address - given
    rw [← Except.ok.inj given, Nat.add_sub_cancel_left]
    rfl
  obtain ⟨mapping, after, mapped, shown⟩ := mapped _ _ maps {}
  exact ⟨reader, mapping, after, opened, drains, mapped, shown⟩

end Dsio
