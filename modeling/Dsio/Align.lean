import Dsio.Library.Rounding
import Dsio.Sink

/-!
# Alignment

The helpers of `align.hpp`, on words of 64 bits as a `std::size_t` has them. They mask the
low bits of the value; `open_shard` and `read_into` subtract a remainder instead.
-/

namespace Dsio

open Rounding

/-- `is_aligned`. -/
def isAligned (value alignment : BitVec 64) : Bool := value &&& (alignment - 1) == 0

/-- `align_up`. -/
def alignUp (value alignment : BitVec 64) : BitVec 64 :=
  (value + alignment - 1) &&& ~~~(alignment - 1)

/-- `align_down`. -/
def alignDown (value alignment : BitVec 64) : BitVec 64 := value &&& ~~~(alignment - 1)

/-- What the helpers assert of an alignment. -/
def Asserted (alignment : BitVec 64) : Prop := alignment ≠ 0 ∧ alignment &&& (alignment - 1) = 0

instance (alignment : BitVec 64) : Decidable (Asserted alignment) :=
  inferInstanceAs (Decidable (alignment ≠ 0 ∧ alignment &&& (alignment - 1) = 0))

/-- Some multiple of the alignment that is not below the value fits in 64 bits. -/
def Representable (value alignment : BitVec 64) : Prop :=
  ∃ multiple : Nat, alignment.toNat ∣ multiple ∧ value.toNat ≤ multiple ∧ multiple < 2 ^ 64

variable {value alignment : BitVec 64}

/-- The assertion holds of the powers of two. -/
theorem asserted_iff : Asserted alignment ↔ alignment.toNat.isPowerOfTwo :=
  isPowerOfTwo_iff.symm

/-- For powers of two `is_aligned` tests the remainder. -/
theorem isAligned_iff (power : alignment.toNat.isPowerOfTwo) :
    isAligned value alignment = true ↔ value.toNat % alignment.toNat = 0 := by
  rw [isAligned, beq_iff_eq, ← BitVec.toNat_inj, toNat_and_mask value power]
  rfl

/-- Where it can be represented, `align_up` is the least multiple from the value on. -/
theorem alignUp_isLeast (power : alignment.toNat.isPowerOfTwo)
    (representable : Representable value alignment) :
    IsLeast {multiple | alignment.toNat ∣ multiple ∧ value.toNat ≤ multiple}
      (alignUp value alignment).toNat := by
  obtain ⟨multiple, whole, above, fits⟩ := representable
  exact isLeast_add_and_not_mask power (add_mask_lt power whole above fits)

/-- An aligned value is rounded to itself, both ways. -/
theorem rounds_iff (power : alignment.toNat.isPowerOfTwo) :
    alignUp value alignment = value ∧ alignDown value alignment = value ↔
      value.toNat % alignment.toNat = 0 := by
  constructor
  · rintro ⟨-, down⟩
    have rounded := toNat_and_not_mask value power
    rw [← alignDown, down] at rounded
    have below := Nat.mod_le value.toNat alignment.toNat
    omega
  · intro aligned
    have whole : alignment.toNat ∣ value.toNat := Nat.dvd_of_mod_eq_zero aligned
    constructor
    · have least := alignUp_isLeast power ⟨value.toNat, whole, Nat.le_refl _, value.isLt⟩
      exact BitVec.eq_of_toNat_eq
        (Nat.le_antisymm (least.2 ⟨whole, Nat.le_refl _⟩) least.1.2)
    · apply BitVec.eq_of_toNat_eq
      rw [alignDown, toNat_and_not_mask value power, aligned, Nat.sub_zero]

/-- The helpers round to the multiples next to the value: down to what subtracting the
remainder gives, and up wherever that does not leave the 64 bits. -/
theorem alignment_arithmetic (power : alignment.toNat.isPowerOfTwo) (value : BitVec 64) :
    IsGreatest {multiple | alignment.toNat ∣ multiple ∧ multiple ≤ value.toNat}
      (alignDown value alignment).toNat ∧
    (alignDown value alignment).toNat = value.toNat - value.toNat % alignment.toNat ∧
    (isAligned value alignment = true ↔ value.toNat % alignment.toNat = 0) ∧
    (value.toNat % alignment.toNat = 0 ↔
      alignUp value alignment = value ∧ alignDown value alignment = value) ∧
    (Representable value alignment →
      IsLeast {multiple | alignment.toNat ∣ multiple ∧ value.toNat ≤ multiple}
        (alignUp value alignment).toNat ∧
      ∀ multiple : BitVec 64, alignment.toNat ∣ multiple.toNat →
        (value ≤ multiple ↔ alignUp value alignment ≤ multiple)) := by
  refine ⟨isGreatest_and_not_mask value power, toNat_and_not_mask value power,
    isAligned_iff power, (rounds_iff power).symm, fun representable => ?_⟩
  have least := alignUp_isLeast power representable
  exact ⟨least, fun multiple whole => le_iff_of_isLeast least whole⟩

/-- One byte past a block of 512. -/
theorem alignment_arithmetic_next :
    (alignDown 513 512).toNat = 513 - 513 % 512 ∧
      IsLeast {multiple | 512 ∣ multiple ∧ 513 ≤ multiple} (alignUp 513 512).toNat := by
  obtain ⟨-, down, -, -, up⟩ :=
    alignment_arithmetic (⟨9, rfl⟩ : (512 : BitVec 64).toNat.isPowerOfTwo) 513
  exact ⟨down, (up ⟨1024, by decide⟩).1⟩

/-! ## Where sizes are rounded down -/

/-- Subtracting the remainder, as the library does, is `align_down` of the sizes. -/
theorem alignDown_ofNat {size block : Nat} (bounded : size < 2 ^ 64) (fits : block < 2 ^ 64)
    (power : block.isPowerOfTwo) :
    (alignDown (.ofNat 64 size) (.ofNat 64 block)).toNat = size - size % block := by
  have sizeSame : (BitVec.ofNat 64 size).toNat = size := by
    rw [BitVec.toNat_ofNat, Nat.mod_eq_of_lt bounded]
  have blockSame : (BitVec.ofNat 64 block).toNat = block := by
    rw [BitVec.toNat_ofNat, Nat.mod_eq_of_lt fits]
  rw [alignDown, toNat_and_not_mask _ (by rwa [blockSame]), sizeSame, blockSame]

/-- `read_into` reads what `align_down` leaves of the region. -/
theorem Sink.readInto_alignDown {file : File} {sink : Sink} {aligned : Nat}
    {point : File.ExactPoint} (begun : Sink.readInto file sink = some (.exact aligned point))
    (bounded : sink.region < 2 ^ 64) (fits : file.alignment < 2 ^ 64)
    (power : file.alignment.isPowerOfTwo) :
    aligned = (alignDown (.ofNat 64 sink.region) (.ofNat 64 file.alignment)).toNat := by
  rw [alignDown_ofNat bounded fits power]
  exact (Sink.readInto_exact begun).1

end Dsio
