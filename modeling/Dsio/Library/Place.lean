import Dsio.Library.Window

/-!
# Placing data in a sequence

`place filler content offset data` is what a writer of `data` at `offset` makes of
`content`: the elements there are replaced, the others stay, and a gap between the end of
the content and the data is filled. Writing piece by piece is writing at once.
-/

namespace Window

universe u

variable {α : Type u}

def place (filler : α) (content : List α) (offset : Nat) (data : List α) : List α :=
  if data = [] then content
  else content.take offset ++ List.replicate (offset - content.length) filler ++ data ++
    content.drop (offset + data.length)

@[simp] theorem place_nil (filler : α) (content : List α) (offset : Nat) :
    place filler content offset [] = content := if_pos rfl

variable {filler : α} {content data : List α} {offset : Nat}

/-- Placing, element by element. -/
theorem getElem?_place (some : data ≠ []) (index : Nat) :
    (place filler content offset data)[index]? =
      if index < offset then .some (content[index]?.getD filler)
      else if index < offset + data.length then data[index - offset]? else content[index]? := by
  have before : (content.take offset ++
      List.replicate (offset - content.length) filler).length = offset := by
    rw [List.length_append, List.length_take, List.length_replicate]
    omega
  rw [place, if_neg some, List.append_assoc, List.getElem?_append, before]
  split
  · next within =>
    rw [List.getElem?_append, List.length_take]
    split
    · next kept =>
      have held : index < content.length := by omega
      rw [List.getElem?_take_of_lt within, List.getElem?_eq_getElem held, Option.getD_some]
    · next gap =>
      have past : content.length ≤ index := by omega
      rw [List.getElem?_replicate_of_lt (by omega), List.getElem?_eq_none past, Option.getD_none]
  · next reached =>
    rw [List.getElem?_append]
    split
    · next inside => rw [if_pos (by omega)]
    · next behind =>
      rw [if_neg (by omega), List.getElem?_drop]
      congr 1
      omega

/-- Data placed past the end extend the content. -/
theorem length_place (some : data ≠ []) :
    (place filler content offset data).length = max content.length (offset + data.length) := by
  rw [place, if_neg some]
  simp only [List.length_append, List.length_take, List.length_replicate, List.length_drop]
  omega

/-- Data placed in two pieces, one behind the other, is placed. -/
theorem place_append (filler : α) (content : List α) (offset : Nat) (first second : List α) :
    place filler (place filler content offset first) (offset + first.length) second =
      place filler content offset (first ++ second) := by
  by_cases noFirst : first = []
  · rw [noFirst, place_nil, List.length_nil, Nat.add_zero, List.nil_append]
  by_cases noSecond : second = []
  · rw [noSecond, place_nil, List.append_nil]
  refine List.ext_getElem? fun index => ?_
  rw [getElem?_place noSecond, getElem?_place noFirst, getElem?_place (by simp [noFirst]),
    List.getElem?_append, List.length_append]
  rcases Nat.lt_or_ge index (offset + first.length) with early | late
  · rw [if_pos early, if_pos (by omega : index < offset + (first.length + second.length)),
      if_pos early]
    split
    · rfl
    · next inside =>
      rw [if_pos (by omega), List.getElem?_eq_getElem (by omega), Option.getD_some]
  · have notBefore : ¬ index < offset := by omega
    have notFirst : ¬ index < offset + first.length := by omega
    have behind : ¬ index - offset < first.length := by omega
    simp only [if_neg notBefore, if_neg notFirst, if_neg behind, Nat.add_assoc, Nat.sub_sub]

/-- What was placed is found where it was placed. -/
theorem window_place (filler : α) (content : List α) (offset : Nat) (data : List α) :
    window (place filler content offset data) offset data.length = data := by
  by_cases none : data = []
  · rw [none, List.length_nil, window_zero]
  refine List.ext_getElem? fun index => ?_
  rw [window, List.getElem?_take, List.getElem?_drop, getElem?_place none]
  split
  · next inside => rw [if_neg (by omega), if_pos (by omega), Nat.add_sub_cancel_left]
  · next outside => rw [List.getElem?_eq_none (Nat.not_lt.mp outside)]

end Window
