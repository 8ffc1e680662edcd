import Mathlib.Data.List.Count

/-!
# Scanning regions

A scan goes through regions one after the other and asks for each in consecutive ranges, the
last of which may go past its end. It leaves a region at the end, or where nothing more is
available. However it cuts the ranges, it asks for no offset of a region twice, and it has
asked for every available offset it is past.
-/

namespace Scan

/-- Offsets from `first` to `last`, of which those below `available` have something. -/
structure Region where
  first : Nat
  last : Nat
  available : Nat

/-- A range that is asked for in one of the regions. -/
structure Ask where
  region : Nat
  offset : Nat
  size : Nat
deriving DecidableEq, Repr

def Ask.Covers (region offset : Nat) (ask : Ask) : Prop :=
  ask.region = region ∧ ask.offset ≤ offset ∧ offset < ask.offset + ask.size

instance (region offset : Nat) : DecidablePred (Ask.Covers region offset) := fun ask =>
  inferInstanceAs (Decidable
    (ask.region = region ∧ ask.offset ≤ offset ∧ offset < ask.offset + ask.size))

/-- What has been asked for, the region that is next, and how far it has been asked for if
it has been entered. -/
inductive Scans (regions : Nat → Region) : List Ask → Nat → Option Nat → Prop where
  | start : Scans regions [] 0 none
  | enter {asks next} (scans : Scans regions asks next none) :
      Scans regions asks next (some (regions next).first)
  | ask {asks next frontier} (scans : Scans regions asks next (some frontier))
      (inside : frontier < (regions next).last) (size : Nat) :
      Scans regions (asks ++ [⟨next, frontier, size⟩]) next
        (some (frontier + min size ((regions next).last - frontier)))
  | leave {asks next frontier} (scans : Scans regions asks next (some frontier))
      (through : min (regions next).last (regions next).available ≤ frontier) :
      Scans regions asks (next + 1) none

variable {regions : Nat → Region} {asks : List Ask} {next : Nat} {frontier : Option Nat}

/-- The scan is past this offset of the region. -/
def Past (next : Nat) (frontier : Option Nat) (region offset : Nat) : Prop :=
  region < next ∨ region = next ∧ ∃ reached, frontier = some reached ∧ offset < reached

/-- How often a scan has asked for an offset. -/
structure Counted (regions : Nat → Region) (asks : List Ask) (next : Nat)
    (frontier : Option Nat) (region offset : Nat) : Prop where
  past : region < next → asks.countP (Ask.Covers region offset) ≤ 1 ∧
    ((regions region).first ≤ offset → offset < (regions region).available →
      asks.countP (Ask.Covers region offset) = 1)
  here : region = next → ∀ reached, frontier = some reached →
    (regions region).first ≤ reached ∧ asks.countP (Ask.Covers region offset) =
      if (regions region).first ≤ offset ∧ offset < reached then 1 else 0
  ahead : next < region ∨ region = next ∧ frontier = none →
    asks.countP (Ask.Covers region offset) = 0

/-- Offsets inside a region are counted once at most. -/
theorem Scans.counted (scans : Scans regions asks next frontier) {region offset : Nat}
    (inside : offset < (regions region).last) :
    Counted regions asks next frontier region offset := by
  induction scans with
  | start => exact ⟨by simp, by simp, by simp⟩
  | @enter asks next scans ih =>
      refine ⟨ih.past, ?_, fun ahead => ih.ahead (.inl (by simpa using ahead))⟩
      rintro rfl reached ⟨⟩
      refine ⟨Nat.le_refl _, ?_⟩
      rw [ih.ahead (.inr ⟨rfl, rfl⟩), if_neg (by omega)]
  | @ask asks next frontier scans room size ih =>
      have others (other : region ≠ next) :
          (asks ++ [(⟨next, frontier, size⟩ : Ask)]).countP (Ask.Covers region offset) =
            asks.countP (Ask.Covers region offset) := by
        have uncovered : ¬ Ask.Covers region offset ⟨next, frontier, size⟩ :=
          fun covers => other covers.1.symm
        simp [uncovered]
      refine ⟨fun past => ?_, ?_, fun ahead => ?_⟩
      · rw [others (Nat.ne_of_lt past)]
        exact ih.past past
      · rintro rfl reached ⟨⟩
        obtain ⟨least, count⟩ := ih.here rfl frontier rfl
        refine ⟨by omega, ?_⟩
        have last : ([⟨region, frontier, size⟩] : List Ask).countP (Ask.Covers region offset) =
            if frontier ≤ offset ∧ offset < frontier + size then 1 else 0 := by
          simp [List.countP_singleton, Ask.Covers]
        rw [List.countP_append, count, last]
        split_ifs <;> omega
      · have above : next < region := ahead.resolve_right (by simp)
        rw [others (Nat.ne_of_gt above)]
        exact ih.ahead (.inl above)
  | @leave asks next frontier scans through ih =>
      refine ⟨fun past => ?_, by simp, fun ahead => ih.ahead (.inl (by omega))⟩
      rcases Nat.lt_or_eq_of_le (Nat.le_of_lt_succ past) with before | rfl
      · exact ih.past before
      · obtain ⟨-, count⟩ := ih.here rfl frontier rfl
        rw [count]
        constructor
        · split_ifs <;> omega
        · intro least available
          rw [if_pos ⟨least, by omega⟩]

/-- Nothing is asked for twice. -/
theorem Scans.countP_le_one (scans : Scans regions asks next frontier) {region offset : Nat}
    (inside : offset < (regions region).last) :
    asks.countP (Ask.Covers region offset) ≤ 1 := by
  have counted := scans.counted inside
  rcases Nat.lt_trichotomy region next with past | here | ahead
  · exact (counted.past past).1
  · cases frontier with
    | none =>
        rw [counted.ahead (.inr ⟨here, rfl⟩)]
        exact Nat.zero_le 1
    | some reached =>
        rw [(counted.here here reached rfl).2]
        split_ifs <;> omega
  · rw [counted.ahead (.inl ahead)]
    exact Nat.zero_le 1

/-- What the scan is past has been asked for. -/
theorem Scans.countP_eq_one (scans : Scans regions asks next frontier) {region offset : Nat}
    (inside : offset < (regions region).last) (least : (regions region).first ≤ offset)
    (available : offset < (regions region).available) (past : Past next frontier region offset) :
    asks.countP (Ask.Covers region offset) = 1 := by
  have counted := scans.counted inside
  rcases past with past | ⟨here, reached, rfl, below⟩
  · exact (counted.past past).2 least available
  · rw [(counted.here here reached rfl).2, if_pos ⟨least, below⟩]

end Scan
