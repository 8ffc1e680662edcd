import Mathlib.Algebra.Order.Ring.Nat

/-!
# Shards and files

The data a stream is made of: byte ranges of files, listed by a `ShardSet`, and
the files they are read from.
-/

namespace Dsio

/-- One byte range of one file. -/
structure Shard where
  path : String := ""
  offset : Nat := 0
  length : Nat := 0
deriving DecidableEq, Repr

namespace Shard

/-- `end()` adds two `uint64_t`. -/
def «end» (shard : Shard) : Nat := (shard.offset + shard.length) % 2 ^ 64

/-- `contains(position)`. -/
def contains (shard : Shard) (position : Nat) : Prop :=
  shard.offset ≤ position ∧ position < shard.end

instance (shard : Shard) (position : Nat) : Decidable (shard.contains position) :=
  inferInstanceAs (Decidable (shard.offset ≤ position ∧ position < shard.end))

/-- The sum in `end()` stays within 64 bits. -/
def NoOverflow (shard : Shard) : Prop := shard.offset + shard.length < 2 ^ 64

/-- Without overflow `end()` is exact. -/
theorem NoOverflow.end_eq {shard : Shard} (noOverflow : shard.NoOverflow) :
    shard.end = shard.offset + shard.length := Nat.mod_eq_of_lt noOverflow

end Shard

abbrev ShardSet := List Shard

/-- `total_bytes()` adds `uint64_t`s. -/
def ShardSet.totalBytes (shards : ShardSet) : Nat :=
  shards.foldl (fun total shard => (total + shard.length) % 2 ^ 64) 0

/-- A file descriptor together with the alignment it was opened with. -/
structure File where
  fd : Int := -1
  path : String := ""
  alignment : Nat := 0
deriving DecidableEq, Repr

end Dsio
