import Dsio.Library.Window

/-!
# Chunks

A sequence in pieces of one size, the last of which may be shorter. `Pieces` allows any
number of them; `chunks` is all of them, and each `Pieces` is a prefix of it.
-/

namespace Window

universe u

variable {α : Type u} {size : Nat} {content : List α} {pieces : List (List α)}

def chunks (size : Nat) (content : List α) : List (List α) :=
  (cut (List.replicate content.length size) content).filter (!·.isEmpty)

@[simp] theorem chunks_nil : chunks size ([] : List α) = [] := rfl

/-- The chunks of a content are pieces of it. -/
theorem pieces_chunks (positive : 0 < size) (content : List α) :
    Pieces size content (chunks size content) :=
  pieces_cut positive _ _ rfl

/-- Empty pieces add nothing. -/
theorem flatten_filter_isEmpty (pieces : List (List α)) :
    (pieces.filter (!·.isEmpty)).flatten = pieces.flatten := by
  induction pieces with
  | nil => rfl
  | cons piece rest ih => cases piece <;> simp [ih]

/-- The chunks make up the content. -/
theorem flatten_chunks (positive : 0 < size) (content : List α) :
    (chunks size content).flatten = content := by
  rw [chunks, flatten_filter_isEmpty, flatten_cut, List.sum_replicate_nat]
  exact List.take_of_length_le (Nat.le_mul_of_pos_right _ positive)

/-- The pieces that make up the whole content begin with any others. -/
theorem Pieces.isPrefix_of_flatten_eq {whole : List (List α)} (positive : 0 < size)
    (all : Pieces size content whole) (same : whole.flatten = content)
    (some : Pieces size content pieces) : pieces <+: whole := by
  induction some generalizing whole with
  | none => exact List.nil_prefix
  | @full content rest enough _ ih =>
      cases all with
      | none =>
          rw [← same, List.flatten_nil, List.length_nil] at enough
          omega
      | full _ more =>
          rw [List.flatten_cons] at same
          conv_rhs at same => rw [← List.take_append_drop size content]
          exact (List.prefix_cons_inj _).mpr (ih more (List.append_cancel_left same))
      | last _ short => omega
  | @last content filled short =>
      cases all with
      | none => exact absurd same.symm filled
      | full enough => omega
      | last => exact List.prefix_refl _

/-- Pieces are the first chunks. -/
theorem Pieces.isPrefix_chunks (positive : 0 < size) (some : Pieces size content pieces) :
    pieces <+: chunks size content :=
  (pieces_chunks positive content).isPrefix_of_flatten_eq positive
    (flatten_chunks positive content) some

/-- Pieces that make up the content are its chunks. -/
theorem Pieces.eq_chunks (positive : 0 < size) (all : Pieces size content pieces)
    (same : pieces.flatten = content) : pieces = chunks size content := by
  have front := all.isPrefix_chunks positive
  have back := all.isPrefix_of_flatten_eq positive same (pieces_chunks positive content)
  exact front.eq_of_length_le back.length_le

/-- Whole pieces of one content can be followed by pieces of another. -/
theorem Pieces.append {more : List α} {others : List (List α)} (all : Pieces size content pieces)
    (same : pieces.flatten = content) (whole : size ∣ content.length)
    (rest : Pieces size more others) : Pieces size (content ++ more) (pieces ++ others) := by
  induction all with
  | none =>
      rw [← same]
      exact rest
  | @full content pieces enough _ ih =>
      rw [List.flatten_cons] at same
      conv_rhs at same => rw [← List.take_append_drop size content]
      have left : size ∣ (content.drop size).length := by
        rw [List.length_drop]
        exact Nat.dvd_sub whole (Nat.dvd_refl size)
      have later := ih (List.append_cancel_left same) left
      rw [← List.drop_append_of_le_length enough] at later
      have front : content.take size = (content ++ more).take size :=
        (List.take_append_of_le_length enough).symm
      rw [List.cons_append, front]
      refine .full ?_ later
      rw [List.length_append]
      omega
  | @last content filled short =>
      have empty := Nat.eq_zero_of_dvd_of_lt whole short
      exact absurd (List.length_eq_zero_iff.mp empty) filled

end Window
