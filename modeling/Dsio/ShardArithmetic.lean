import Dsio.ManifestGrammar

/-!
# Arithmetic on loaded shards

`load` checks that each `offset + length` fits in 64 bits, and nothing checks the sum of
the lengths. So `end()` and `contains` are exact on what loads, and `total_bytes()` is
exact as far as the sum fits.
-/

namespace Dsio

/-- 64-bit addition up a list is addition, modulo 2^64. -/
theorem ShardSet.totalBytes_eq (shards : ShardSet) :
    shards.totalBytes = (shards.map (·.length)).sum % 2 ^ 64 := by
  have folds (total : Nat) (bounded : total < 2 ^ 64) :
      shards.foldl (fun total shard => (total + shard.length) % 2 ^ 64) total =
        (total + (shards.map (·.length)).sum) % 2 ^ 64 := by
    induction shards generalizing total with
    | nil => simpa using (Nat.mod_eq_of_lt bounded).symm
    | cons shard rest ih =>
        rw [List.foldl_cons, ih _ (Nat.mod_lt _ (Nat.two_pow_pos 64)), List.map_cons,
          List.sum_cons, Nat.mod_add_mod, Nat.add_assoc]
  rw [ShardSet.totalBytes, folds 0 (Nat.two_pow_pos 64), Nat.zero_add]

/-- `contains` is exact when the end does not wrap. -/
theorem Shard.NoOverflow.contains_iff {shard : Shard} (noOverflow : shard.NoOverflow)
    (position : Nat) : shard.contains position ↔
      shard.offset ≤ position ∧ position < shard.offset + shard.length := by
  rw [Shard.contains, noOverflow.end_eq]

/-- The derived quantities of a shard set are the mathematical ones. -/
structure ShardSet.Exact (shards : ShardSet) : Prop where
  ends : ∀ shard ∈ shards, shard.end = shard.offset + shard.length
  contains : ∀ shard ∈ shards, ∀ position, position < 2 ^ 64 →
    (shard.contains position ↔
      shard.offset ≤ position ∧ position < shard.offset + shard.length)
  total : shards.totalBytes = (shards.map (·.length)).sum

variable {manifest : String} {alignment : Nat} {text : Text} {shards : ShardSet}

/-- No shard that loads overflows. -/
theorem loaded_noOverflow (nonzero : 0 < alignment)
    (loads : ShardSet.load manifest alignment (some ⟨text, false⟩) = some (.ok shards)) :
    ∀ shard ∈ shards, shard.NoOverflow := by
  rcases conforms_or_first alignment (Delimited.records '\n' text) with
    conforms | ⟨before, line, after, split, conforms, wrong⟩
  · obtain ⟨entries, grammar⟩ := conforms.exists_entries
    rw [load_of_grammar nonzero manifest grammar] at loads
    cases loads
    intro shard member
    obtain ⟨⟨path, offset, length⟩, inside, rfl⟩ := List.mem_map.mp member
    obtain ⟨line, -, stands⟩ := exists_line grammar (List.reduceOption_mem_iff.mp inside)
    exact stands.bounds.2.2
  · obtain ⟨message, fails⟩ := load_of_violation nonzero manifest split conforms wrong
    rw [fails] at loads
    cases loads

/-- What loads has exact ends, and an exact total exactly when the lengths add up to less
than 2^64. -/
theorem loaded_exact_iff (nonzero : 0 < alignment)
    (loads : ShardSet.load manifest alignment (some ⟨text, false⟩) = some (.ok shards)) :
    shards.Exact ↔ (shards.map (·.length)).sum < 2 ^ 64 := by
  have noOverflow := loaded_noOverflow nonzero loads
  constructor
  · rintro ⟨-, -, total⟩
    rw [← total, ShardSet.totalBytes_eq]
    exact Nat.mod_lt _ (Nat.two_pow_pos 64)
  · intro fits
    refine ⟨fun shard member => (noOverflow shard member).end_eq,
      fun shard member position _ => (noOverflow shard member).contains_iff position, ?_⟩
    rw [ShardSet.totalBytes_eq, Nat.mod_eq_of_lt fits]

/-- A shard that ends at 2^64 - 2, and one more byte. -/
theorem largest_exact : ShardSet.Exact [⟨"a", 0, 2 ^ 64 - 2⟩, ⟨"b", 0, 1⟩] := by
  have loads : ShardSet.load "m.tsv" 1
      (some ⟨"a\t0\t18446744073709551614\nb\t0\t1\n".toList, false⟩) =
        some (.ok [⟨"a", 0, 2 ^ 64 - 2⟩, ⟨"b", 0, 1⟩]) := by
    decide
  exact (loaded_exact_iff (by decide) loads).mpr (by decide)

/-- A shard that ends at 2^64 - 1, and one more byte. -/
def hugeManifest : Text := "a\t0\t18446744073709551615\nb\t0\t1\n".toList

/-- Each of the ends fits. -/
theorem hugeManifest_loads : ShardSet.load "m.tsv" 1 (some ⟨hugeManifest, false⟩) =
    some (.ok [⟨"a", 0, 2 ^ 64 - 1⟩, ⟨"b", 0, 1⟩]) := by
  decide

/-- Its total is 0. -/
theorem total_wraps :
    ¬ ∀ (manifest : String) (alignment : Nat) (text : Text) (shards : ShardSet), 0 < alignment →
      ShardSet.load manifest alignment (some ⟨text, false⟩) = some (.ok shards) →
      shards.Exact := by
  intro always
  have total := (always _ _ _ _ Nat.one_pos hugeManifest_loads).total
  exact absurd total (by decide)

end Dsio
