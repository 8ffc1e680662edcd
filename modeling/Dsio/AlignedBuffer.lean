import Mathlib.Data.List.TakeDrop
import Dsio.Outcome

/-!
# Aligned buffers

`fp::AlignedBuffer`, the memory that direct reads go to.
-/

namespace Dsio

/-- An `fp::AlignedBuffer`: the allocation, its size, and the bytes reads have left
at its start. -/
structure AlignedBuffer where
  address : Nat := 0
  size : Nat := 0
  bytes : List Byte := []
deriving DecidableEq, Repr

/-- `size` bytes rounded up to a multiple of `alignment`. -/
def roundUp (size alignment : Nat) : Nat := (size + alignment - 1) / alignment * alignment

/-- `AlignedBuffer::alloc` adds nothing to a whole number of blocks. -/
theorem roundUp_of_dvd {size alignment : Nat} (positive : 0 < alignment)
    (whole : alignment ∣ size) : roundUp size alignment = size := by
  obtain ⟨count, rfl⟩ := whole
  have quotient : (alignment * count + alignment - 1) / alignment = count := by
    rw [Nat.add_sub_assoc positive, Nat.mul_add_div positive,
      Nat.div_eq_of_lt (Nat.sub_lt positive Nat.one_pos), Nat.add_zero]
  rw [roundUp, quotient, Nat.mul_comm]

/-- The kernel writes what a read returned, as far as the buffer goes. -/
def AlignedBuffer.write (buffer : AlignedBuffer) (data : List Byte) : AlignedBuffer :=
  { buffer with bytes := (data ++ buffer.bytes.drop data.length).take buffer.size }

/-- What a buffer holds once data was read into the allocation at `address`. -/
def AlignedBuffer.receive (address : Nat) (data : List Byte) (buffer : AlignedBuffer) :
    AlignedBuffer :=
  if buffer.address = address then buffer.write data else buffer

@[simp] theorem AlignedBuffer.receive_address (address : Nat) (data : List Byte)
    (buffer : AlignedBuffer) : (buffer.receive address data).address = buffer.address := by
  simp only [receive, write]
  split <;> rfl

@[simp] theorem AlignedBuffer.receive_size (address : Nat) (data : List Byte)
    (buffer : AlignedBuffer) : (buffer.receive address data).size = buffer.size := by
  simp only [receive, write]
  split <;> rfl

/-- What was written is at the front of a buffer that has room for it. -/
theorem AlignedBuffer.take_write {buffer : AlignedBuffer} {data : List Byte} {count : Nat}
    (fits : data.length ≤ buffer.size) (within : count ≤ data.length) :
    (buffer.write data).bytes.take count = data.take count := by
  rw [write, List.take_take, Nat.min_eq_left (Nat.le_trans within fits),
    List.take_append_of_le_length within]

/-- `std::copy_n` from the start of a range; bytes never written read as 0. -/
def copyN (count : Nat) (source : List Byte) : List Byte := source.takeD count 0

/-- Copying from a range that is long enough takes its front. -/
theorem copyN_eq_take {count : Nat} {source : List Byte} (enough : count ≤ source.length) :
    copyN count source = source.take count := List.takeD_eq_take _ enough

end Dsio
