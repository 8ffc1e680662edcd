import Dsio.ManifestRoundTrip

/-!
# What a save leaves

`save` opens the manifest for truncation, checks each path only when it gets to it, and
looks at the stream before the last of its writes. So a save that fails has replaced the
manifest by the front of the new one, and a save that succeeds may lack the end of it.
-/

namespace Dsio

open Output

variable {relative : Path → Path → Except Nat Path} {device : Device} {filebuf : Filebuf}
variable {manifest : String} {shards : ShardSet}

/-! ## A save that fails -/

/-- The content of the manifest after a save; there is none if it could not be opened. -/
def contentAfter (previous : Option Text) (result : Outcome Unit × Option (OutStream Char)) :
    Option Text :=
  match result.2 with
  | none => previous
  | some out => some out.content

/-- A save leaves what its writes carry of the header and the lines before the first rejected
shard. -/
theorem contentAfter_save (relative : Path → Path → Except Nat Path) (filebuf : Filebuf)
    (manifest : String) (shards : ShardSet) (previous : Option Text) {pieces : List Text}
    (inserted : pieces =
      manifestPieces relative (Path.parent manifest.toList) (acceptedShards shards)) :
    contentAfter previous (ShardSet.save relative filebuf true manifest shards) =
      some (leaves filebuf.accepts 0 (filebuf.plan pieces).writes pieces.flatten) := by
  obtain ⟨out, holds, left, -⟩ := save_opened relative filebuf manifest shards inserted
  rw [contentAfter, left]
  exact congrArg some holds.close

/-- A save that fails keeps the manifest exactly when it cannot open it, when it does not
fail in the first place, or when the manifest was already what it leaves. A stream is free
to write any insertion out at once. -/
theorem failed_save_keeps_iff (relative : Path → Path → Except Nat Path) (filebuf : Filebuf)
    (opens : Bool) (manifest : String) (shards : ShardSet) (previous : Option Text)
    {pieces : List Text} (inserted : pieces =
      manifestPieces relative (Path.parent manifest.toList) (acceptedShards shards)) :
    ((∃ error, (ShardSet.save relative filebuf opens manifest shards).1 = .error error) →
        contentAfter previous (ShardSet.save relative filebuf opens manifest shards) =
          previous) ↔
      opens = false ∨
      ((∀ shard ∈ shards, Clean shard) ∧
        Takes filebuf.accepts 0 (filebuf.plan pieces).writes) ∨
      previous = some (leaves filebuf.accepts 0 (filebuf.plan pieces).writes pieces.flatten) := by
  cases opens with
  | false => simp [ShardSet.save, contentAfter]
  | true =>
      obtain ⟨out, holds, -, succeeds⟩ := save_opened relative filebuf manifest shards inserted
      rw [contentAfter_save relative filebuf manifest shards previous inserted]
      rw [holds.fine_iff] at succeeds
      have fails : (∃ error, (ShardSet.save relative filebuf true manifest shards).1 =
          .error error) ↔ ¬ ((∀ shard ∈ shards, Clean shard) ∧
            Takes filebuf.accepts 0 (filebuf.plan pieces).writes) := by
        rw [← succeeds]
        cases (ShardSet.save relative filebuf true manifest shards).1 <;> simp
      rw [fails, ← or_iff_not_imp_left]
      simp [eq_comm]

/-! ## A save that succeeds -/

/-- What a save that returned ok left is what its stream was closed with. -/
theorem saved_holds {opens : Bool} {out : OutStream Char} {pieces : List Text}
    (inserted : pieces = manifestPieces relative (Path.parent manifest.toList) shards)
    (saved : ShardSet.save relative filebuf opens manifest shards = (.ok (), some out)) :
    ∃ stream : OutStream Char, stream.Holds filebuf.toDevice (filebuf.plan pieces) pieces.flatten ∧
      stream.failed = false ∧ out = stream.close filebuf.toDevice := by
  cases opens with
  | false => simp [ShardSet.save] at saved
  | true =>
      obtain ⟨stream, holds, left, succeeds⟩ := save_opened relative filebuf manifest shards rfl
      rw [saved] at left succeeds
      obtain ⟨clean, fine⟩ := succeeds.mp rfl
      rw [acceptedShards_of_clean clean, ← inserted] at holds
      exact ⟨stream, holds, fine, Option.some.inj left⟩

/-- A save that succeeds has written all of the manifest exactly when the device takes the
last write, of what did not fill a buffer. -/
theorem save_complete_iff {opens : Bool} {out : OutStream Char} {text : Text}
    (lines : text = manifestText relative (Path.parent manifest.toList) shards)
    (saved : ShardSet.save relative device.plain opens manifest shards = (.ok (), some out)) :
    out.content = text ↔
      text.length % device.block ≤ device.accepts (text.length / device.block) := by
  obtain ⟨stream, holds, fine, rfl⟩ := saved_holds rfl saved
  obtain ⟨writes, rest⟩ := device.plan_plain_eq
    (manifestPieces relative (Path.parent manifest.toList) shards)
  rw [flatten_manifestPieces, ← lines] at writes rest holds
  have complete := holds.close_eq_iff fine
  rw [writes, rest] at complete
  exact complete

/-! ## Manifests that are lost -/

/-- The second shard has a tab in its path. -/
def tabbedShards : ShardSet := [⟨"a.bin", 0, 4096⟩, ⟨"b\tc.bin", 0, 4096⟩]

/-- What a save of these leaves: a manifest of the first shard. -/
def leftText : Text := manifestText noRelative [] [⟨"a.bin", 0, 4096⟩]

/-- The first shard's line is written out by the destructor. -/
theorem roomy_leaves : leaves roomy.accepts 0 (roomy.plan (manifestPieces noRelative
    (Path.parent "m.tsv".toList) (acceptedShards tabbedShards))).writes
      (manifestPieces noRelative (Path.parent "m.tsv".toList)
        (acceptedShards tabbedShards)).flatten = leftText := by
  decide +kernel

/-- The save is refused. -/
theorem tabbed_save_fails :
    ∃ error, (ShardSet.save noRelative roomy true "m.tsv" tabbedShards).1 = .error error := by
  obtain ⟨out, -, -, succeeds⟩ := save_opened noRelative roomy "m.tsv" tabbedShards rfl
  cases result : (ShardSet.save noRelative roomy true "m.tsv" tabbedShards).1 with
  | error error => exact ⟨error, rfl⟩
  | ok =>
      rw [result] at succeeds
      exact absurd (succeeds.mp rfl).1 (by decide)

/-- A buffer that the header overfills, on a disk that is full. -/
def fullFilebuf : Filebuf := (Device.mk 16 fun _ => 0).plain

/-- A manifest that is what the save leaves is kept; one on a full disk is not, when something
is written out before the stream is looked at. -/
theorem tabbed_save_keeps :
    contentAfter (some leftText) (ShardSet.save noRelative roomy true "m.tsv" tabbedShards) =
        some leftText ∧
      ¬ ((∃ error, (ShardSet.save noRelative fullFilebuf true "m.tsv" []).1 = .error error) →
        contentAfter (some leftText) (ShardSet.save noRelative fullFilebuf true "m.tsv" []) =
          some leftText) := by
  constructor
  · refine (failed_save_keeps_iff noRelative roomy true "m.tsv" tabbedShards (some leftText)
      rfl).mpr (.inr (.inr ?_)) tabbed_save_fails
    rw [roomy_leaves]
  · rw [failed_save_keeps_iff noRelative fullFilebuf true "m.tsv" [] (some leftText) rfl]
    decide +kernel

/-- The manifest is replaced by the lines before the rejected shard, and loads. -/
theorem failed_save_truncates :
    (¬ ∀ (relative : Path → Path → Except Nat Path) (filebuf : Filebuf) (opens : Bool)
      (manifest : String) (shards : ShardSet) (previous : Option Text),
      (∃ error, (ShardSet.save relative filebuf opens manifest shards).1 = .error error) →
      contentAfter previous (ShardSet.save relative filebuf opens manifest shards) = previous) ∧
    ∃ text, contentAfter none (ShardSet.save noRelative roomy true "m.tsv" tabbedShards) =
        some text ∧
      ShardSet.load "m.tsv" 4096 (some ⟨text, false⟩) = some (.ok [⟨"a.bin", 0, 4096⟩]) := by
  have left : contentAfter none (ShardSet.save noRelative roomy true "m.tsv" tabbedShards) =
      some leftText := by
    rw [contentAfter_save noRelative roomy "m.tsv" tabbedShards none rfl, roomy_leaves]
  obtain ⟨error, failed⟩ := tabbed_save_fails
  refine ⟨fun keeps => ?_, leftText, left, by decide⟩
  have same := keeps noRelative roomy true "m.tsv" tabbedShards none ⟨error, failed⟩
  rw [left] at same
  cases same

/-- A disk whose writes take this much, under a buffer of four kilobytes. -/
def shortDisk (room : Nat) : Device := ⟨4096, fun _ => room⟩

/-- The header of an empty set stays in the buffer until the stream is destroyed. -/
theorem shortDisk_saves (room : Nat) : ∃ out,
    ShardSet.save noRelative (shortDisk room).plain true "m.tsv" [] = (.ok (), some out) ∧
      out.content = (manifestText noRelative [] []).take room := by
  obtain ⟨out, holds, left, succeeds⟩ :=
    save_opened noRelative (shortDisk room).plain "m.tsv" [] rfl
  obtain ⟨writes, -⟩ := (shortDisk room).plan_plain_eq
    (manifestPieces noRelative (Path.parent "m.tsv".toList) (acceptedShards []))
  have length : (manifestText noRelative (Path.parent "m.tsv".toList)
      (acceptedShards [])).length = 25 := by decide
  have none : ((shortDisk room).plain.plan (manifestPieces noRelative
      (Path.parent "m.tsv".toList) (acceptedShards []))).writes = [] :=
    List.length_eq_zero_iff.mp (writes.trans (by
      rw [flatten_manifestPieces, length]
      exact Nat.div_eq_of_lt (Nat.lt_of_lt_of_le (by decide) (Nat.le_max_left 4096 1))))
  have fine : out.failed = false := holds.fine_iff.mpr (by rw [none]; trivial)
  refine ⟨_, Prod.ext (succeeds.mpr ⟨by simp, fine⟩) left, ?_⟩
  have content := holds.close
  rw [none, flatten_manifestPieces] at content
  exact content

/-- The header is 25 bytes long. -/
theorem shortDisk_saves_all : ∃ out,
    ShardSet.save noRelative (shortDisk 25).plain true "m.tsv" [] = (.ok (), some out) ∧
      out.content = manifestText noRelative (Path.parent "m.tsv".toList) [] := by
  obtain ⟨out, saved, -⟩ := shortDisk_saves 25
  exact ⟨out, saved, (save_complete_iff rfl saved).mpr (by decide)⟩

/-- Nothing of the manifest gets to a disk that is full, and `save` succeeds. -/
theorem save_loses_end :
    ¬ ∀ (relative : Path → Path → Except Nat Path) (device : Device) (opens : Bool)
      (manifest : String) (shards : ShardSet) (out : OutStream Char),
      ShardSet.save relative device.plain opens manifest shards = (.ok (), some out) →
      out.content = manifestText relative (Path.parent manifest.toList) shards := by
  intro complete
  obtain ⟨out, saved, nothing⟩ := shortDisk_saves 0
  have whole := complete _ _ _ _ _ _ saved
  rw [nothing] at whole
  exact absurd whole (by decide)

end Dsio
