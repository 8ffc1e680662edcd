import Mathlib.Data.List.Basic

/-!
# Delimited sequences

`cutAt` finds a delimiter and gives what stands before and after it. `records` cuts a
sequence that is read one record at a time, where a delimiter ends every record but
perhaps the last.
-/

namespace Delimited

universe u

variable {α : Type u} [DecidableEq α]

/-- What stands before the first delimiter and after it, if there is one. -/
def cutAt (delimiter : α) : List α → Option (List α × List α)
  | [] => none
  | head :: rest =>
      if head = delimiter then some ([], rest)
      else (cutAt delimiter rest).map fun (before, after) => (head :: before, after)

/-- A text is cut at its first delimiter. -/
theorem cutAt_append {delimiter : α} {before : List α} (clean : delimiter ∉ before)
    (after : List α) : cutAt delimiter (before ++ delimiter :: after) = some (before, after) := by
  induction before with
  | nil => simp [cutAt]
  | cons head rest ih =>
      rw [List.mem_cons, not_or] at clean
      rw [List.cons_append, cutAt, if_neg (Ne.symm clean.1), ih clean.2, Option.map_some]

/-- A cut is at the first delimiter. -/
theorem cutAt_eq_some {delimiter : α} {text before after : List α}
    (found : cutAt delimiter text = some (before, after)) :
    text = before ++ delimiter :: after ∧ delimiter ∉ before := by
  induction text generalizing before with
  | nil => cases found
  | cons head rest ih =>
      rw [cutAt] at found
      split at found
      · next same =>
        cases found
        exact ⟨by rw [same, List.nil_append], List.not_mem_nil⟩
      · next other =>
        obtain ⟨⟨front, back⟩, later, same⟩ := Option.map_eq_some_iff.mp found
        cases same
        obtain ⟨rfl, clean⟩ := ih later
        exact ⟨rfl, by simp [Ne.symm other, clean]⟩

/-- The records of a sequence, each up to its delimiter. -/
def records (delimiter : α) : List α → List (List α)
  | [] => []
  | head :: rest =>
      if head = delimiter then [] :: records delimiter rest
      else
        match records delimiter rest with
        | [] => [[head]]
        | record :: more => (head :: record) :: more

/-- A record ends at the first delimiter. -/
theorem records_append {delimiter : α} {record : List α} (clean : delimiter ∉ record)
    (rest : List α) :
    records delimiter (record ++ delimiter :: rest) = record :: records delimiter rest := by
  induction record with
  | nil => simp [records]
  | cons head more ih =>
      rw [List.mem_cons, not_or] at clean
      rw [List.cons_append, records, if_neg (Ne.symm clean.1), ih clean.2]

/-- Records that were written with their delimiters are read back. -/
theorem records_flatMap {delimiter : α} {written : List (List α)}
    (clean : ∀ record ∈ written, delimiter ∉ record) :
    records delimiter (written.flatMap fun record => record ++ [delimiter]) = written := by
  induction written with
  | nil => rfl
  | cons record more ih =>
      have later := ih fun record member => clean record (List.mem_cons_of_mem _ member)
      rw [List.flatMap_cons, List.append_assoc, List.singleton_append,
        records_append (clean record List.mem_cons_self), later]

/-- Records have no delimiter. -/
theorem not_mem_records {delimiter : α} {text record : List α}
    (member : record ∈ records delimiter text) : delimiter ∉ record := by
  induction text generalizing record with
  | nil => cases member
  | cons head rest ih =>
      rw [records] at member
      split at member
      · rcases List.mem_cons.mp member with rfl | later
        · exact List.not_mem_nil
        · exact ih later
      · next other =>
        cases cuts : records delimiter rest with
        | nil =>
            rw [cuts] at member
            simpa [List.mem_singleton.mp member] using Ne.symm other
        | cons first more =>
            rw [cuts] at member ih
            rcases List.mem_cons.mp member with rfl | later
            · simp [Ne.symm other, ih List.mem_cons_self]
            · exact ih (List.mem_cons_of_mem _ later)

end Delimited
