import Mathlib.Algebra.Group.Nat.Defs
import Mathlib.Order.Bounds.Basic

/-!
# Rounding to multiples

The multiples next to a number: division finds them, and for a power of two so does the
mask of its low bits, on words of any width.
-/

namespace Rounding

/-! ## Numbers -/

variable {alignment value : Nat}

/-- Dividing down gives the largest multiple that is not above. -/
theorem isGreatest_sub_mod (alignment value : Nat) :
    IsGreatest {multiple | alignment ∣ multiple ∧ multiple ≤ value}
      (value - value % alignment) := by
  refine ⟨⟨Nat.dvd_sub_mod value, Nat.sub_le ..⟩, ?_⟩
  rintro _ ⟨⟨count, rfl⟩, below⟩
  have split : value = alignment * (value / alignment) + value % alignment :=
    (Nat.div_add_mod value alignment).symm
  rcases Nat.eq_zero_or_pos alignment with rfl | positive
  · simp
  · have counts : count ≤ value / alignment := by
      rw [Nat.le_div_iff_mul_le positive, Nat.mul_comm]
      exact below
    have scaled := Nat.mul_le_mul_left alignment counts
    omega

/-- The largest multiple not above `value + alignment - 1` is the smallest that is not
below `value`. -/
theorem isLeast_of_isGreatest (positive : 0 < alignment) {rounded : Nat}
    (greatest : IsGreatest {multiple | alignment ∣ multiple ∧
      multiple ≤ value + (alignment - 1)} rounded) :
    IsLeast {multiple | alignment ∣ multiple ∧ value ≤ multiple} rounded := by
  obtain ⟨⟨whole, below⟩, largest⟩ := greatest
  constructor
  · refine ⟨whole, ?_⟩
    by_contra short
    have next : rounded + alignment ≤ rounded :=
      largest ⟨Nat.dvd_add whole (Nat.dvd_refl _), by omega⟩
    omega
  · rintro multiple ⟨divides, above⟩
    by_contra smaller
    obtain ⟨gap, rest⟩ := Nat.dvd_sub whole divides
    rcases Nat.eq_zero_or_pos gap with rfl | some
    · omega
    · have atLeast := Nat.le_mul_of_pos_right alignment some
      omega

/-- A multiple is not below a number exactly when it is not below the number rounded up. -/
theorem le_iff_of_isLeast {rounded multiple : Nat}
    (least : IsLeast {multiple | alignment ∣ multiple ∧ value ≤ multiple} rounded)
    (whole : alignment ∣ multiple) : value ≤ multiple ↔ rounded ≤ multiple := by
  constructor
  · exact fun above => least.2 ⟨whole, above⟩
  · exact fun above => Nat.le_trans least.1.2 above

/-! ## Words -/

variable {width : Nat} {word align : BitVec width}

/-- One less than a positive alignment does not wrap. -/
theorem toNat_sub_one (positive : 0 < align.toNat) : (align - 1).toNat = align.toNat - 1 := by
  have fits := align.isLt
  have some : 0 < width := by
    rcases Nat.eq_zero_or_pos width with rfl | some
    · omega
    · exact some
  have one : (1 : BitVec width).toNat = 1 := BitVec.toNat_one some
  have below : 1 ≤ align := by
    rw [BitVec.le_def, one]
    exact positive
  rw [BitVec.toNat_sub_of_le below, one]

/-- The mask of the bits below a power of two. -/
theorem toNat_mask (power : align.toNat.isPowerOfTwo) : (align - 1).toNat = align.toNat - 1 :=
  toNat_sub_one (Nat.pos_of_isPowerOfTwo power)

/-- A word is a power of two exactly when it has no bit below its highest. -/
theorem isPowerOfTwo_iff :
    align.toNat.isPowerOfTwo ↔ align ≠ 0 ∧ align &&& (align - 1) = 0 := by
  have zero : align ≠ 0 ↔ align.toNat ≠ 0 := not_congr BitVec.toNat_inj.symm
  rw [← Nat.ne_zero_and_sub_one_eq_zero_iff_isPowerOfTwo, zero]
  refine and_congr_right fun some => ?_
  rw [← BitVec.toNat_inj, BitVec.toNat_and, toNat_sub_one (Nat.pos_of_ne_zero some)]
  rfl

/-- The low bits of a word are its remainder. -/
theorem toNat_and_mask (word : BitVec width) (power : align.toNat.isPowerOfTwo) :
    (word &&& (align - 1)).toNat = word.toNat % align.toNat := by
  rw [BitVec.toNat_and, toNat_mask power]
  obtain ⟨exponent, same⟩ := power
  rw [same, Nat.and_two_pow_sub_one_eq_mod]

/-- A mask splits a word in two. -/
theorem and_not_add_and (word mask : BitVec width) :
    (word &&& ~~~mask) + (word &&& mask) = word := by
  have disjoint : (word &&& ~~~mask) &&& (word &&& mask) = 0 := by
    ext index bound
    simp only [BitVec.getElem_and, BitVec.getElem_not, BitVec.ofNat_eq_ofNat, BitVec.getElem_zero]
    cases mask[index] <;> simp
  rw [BitVec.add_eq_or_of_and_eq_zero _ _ disjoint]
  ext index bound
  simp only [BitVec.getElem_or, BitVec.getElem_and, BitVec.getElem_not]
  cases mask[index] <;> simp

/-- Without its low bits a word is divided down. -/
theorem toNat_and_not_mask (word : BitVec width) (power : align.toNat.isPowerOfTwo) :
    (word &&& ~~~(align - 1)).toNat = word.toNat - word.toNat % align.toNat := by
  have difference : word &&& ~~~(align - 1) = word - (word &&& (align - 1)) :=
    BitVec.eq_sub_iff_add_eq.mpr (and_not_add_and word _)
  have below : word &&& (align - 1) ≤ word := by
    rw [BitVec.le_def, toNat_and_mask word power]
    exact Nat.mod_le ..
  rw [difference, BitVec.toNat_sub_of_le below, toNat_and_mask word power]

/-- The mask finds the largest multiple that is not above. -/
theorem isGreatest_and_not_mask (word : BitVec width) (power : align.toNat.isPowerOfTwo) :
    IsGreatest {multiple | align.toNat ∣ multiple ∧ multiple ≤ word.toNat}
      (word &&& ~~~(align - 1)).toNat := by
  rw [toNat_and_not_mask word power]
  exact isGreatest_sub_mod align.toNat word.toNat

/-- As long as a word can be rounded up, it can be moved up by all of the mask. -/
theorem add_mask_lt (power : align.toNat.isPowerOfTwo) {multiple : Nat}
    (whole : align.toNat ∣ multiple) (above : word.toNat ≤ multiple)
    (representable : multiple < 2 ^ width) : word.toNat + (align.toNat - 1) < 2 ^ width := by
  have positive := Nat.pos_of_isPowerOfTwo power
  have fits := align.isLt
  obtain ⟨exponent, same⟩ := power
  rw [same] at fits whole ⊢
  -- the last multiple is a whole block below 2 ^ width
  have last : 2 ^ exponent ∣ 2 ^ width :=
    Nat.pow_dvd_pow 2 (Nat.le_of_lt ((Nat.pow_lt_pow_iff_right Nat.one_lt_two).mp fits))
  have room : 2 ^ exponent ≤ 2 ^ width - multiple :=
    Nat.le_of_dvd (by omega) (Nat.dvd_sub last whole)
  omega

/-- Moving up by the mask first finds the smallest multiple that is not below. -/
theorem isLeast_add_and_not_mask (power : align.toNat.isPowerOfTwo)
    (moves : word.toNat + (align.toNat - 1) < 2 ^ width) :
    IsLeast {multiple | align.toNat ∣ multiple ∧ word.toNat ≤ multiple}
      ((word + align - 1) &&& ~~~(align - 1)).toNat := by
  have moved : (word + align - 1).toNat = word.toNat + (align.toNat - 1) := by
    rw [BitVec.sub_eq_add_neg, BitVec.add_assoc, ← BitVec.sub_eq_add_neg, BitVec.toNat_add_of_lt,
      toNat_mask power]
    rwa [toNat_mask power]
  have greatest := isGreatest_and_not_mask (word + align - 1) power
  rw [moved] at greatest
  exact isLeast_of_isGreatest (Nat.pos_of_isPowerOfTwo power) greatest

end Rounding
