import Dsio.Dataset.BackedRuns
import Dsio.Discover
import Dsio.ManifestRoundTrip

/-!
# Where shard sets come from

A pass over a set that was discovered in a directory delivers the files of the directory, and
a pass over a set that was saved and loaded again delivers what one over the saved set does.
-/

namespace Dsio

open Transition Window Output Pipeline ForEachBatch
open ShardStream (HoldsBlock construct streamOf twoFiles)

variable {disk : Disk} {shuffle : Nat → List Nat → List Nat} {shards : ShardSet}
variable {options : BatchOptions} {first : State ShardStream}

namespace ForEachBatch.Interleaved

end ForEachBatch.Interleaved

open ForEachBatch.Interleaved

/-! ## Directories -/

namespace ShardSet

variable {message : Nat → String} {absolute : Path → Path} {directory : String}
variable {listing files : List DirEntry}

/-- What the file of an entry holds. -/
def contentOf (disk : Disk) (absolute : Path → Path) (directory : Path) (file : DirEntry) :
    List Byte :=
  disk.content (String.ofList (absolute (file.path directory)))

/-- The size of a file has not changed since it was listed. -/
def Sized (disk : Disk) (absolute : Path → Path) (directory : Path) (file : DirEntry) : Prop :=
  file.size = .ok (contentOf disk absolute directory file).length

/-- The shard of a file has all of its bytes. -/
theorem Sized.bytesOf {directory : Path} {file : DirEntry}
    (sized : Sized disk absolute directory file) :
    disk.bytesOf (wholeFile absolute directory file) =
      contentOf disk absolute directory file := by
  have bytes : file.bytes = (contentOf disk absolute directory file).length := by
    simp only [Sized] at sized
    simp only [DirEntry.bytes, sized]
  rw [Disk.bytesOf, wholeFile, bytes]
  exact List.take_length

instance (directory : Path) (file : DirEntry) :
    Decidable (Sized disk absolute directory file) :=
  inferInstanceAs (Decidable (file.size = .ok _))

/-- Two files and a hidden one, as a directory may list them. -/
def listed : List DirEntry :=
  [⟨['b'], .ok true, .ok 2⟩, ⟨['.', 'c'], .ok true, .ok 1⟩, ⟨['a'], .ok true, .ok 3⟩]

variable {relative : Path → Path → Except Nat Path} {filebuf : Filebuf} {manifest : String}
variable {alignment : Nat} {out : OutStream Char}

end ShardSet

end Dsio
