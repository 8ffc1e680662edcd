import Mathlib.Algebra.Order.Ring.Nat
import Mathlib.Data.List.Basic

/-!
# Windows of a sequence

`window content offset length` is what a reader of `length` elements at `offset`
finds in `content`: fewer elements, or none, where the content ends. Windows split
at any point, so what is read piece by piece is the window, also across the end.
`cut` is what successive readers of one sequence get.
-/

namespace Window

universe u

variable {α : Type u}

/-- The elements of `content` from `offset`, at most `length` of them. -/
def window (content : List α) (offset length : Nat) : List α := (content.drop offset).take length

@[simp] theorem window_zero (content : List α) (offset : Nat) : window content offset 0 = [] := by
  simp [window]

@[simp] theorem length_window (content : List α) (offset length : Nat) :
    (window content offset length).length = min length (content.length - offset) := by
  simp [window]

/-- Behind the content windows are empty. -/
theorem window_eq_nil {content : List α} {offset : Nat} (length : Nat)
    (ended : content.length ≤ offset) : window content offset length = [] := by
  simp [window, List.drop_eq_nil_of_le ended]

/-- A shorter reader at the same place gets the front of the window. -/
theorem take_window (content : List α) (offset length count : Nat) :
    (window content offset length).take count = window content offset (min count length) := by
  simp [window, List.take_take]

/-- Past the end of the content there is nothing more to read. -/
theorem window_min_available (content : List α) (offset length : Nat) :
    window content offset (min length (content.length - offset)) =
      window content offset length := by
  rw [window, window, ← List.length_drop, List.take_eq_take_iff]
  omega

/-- A window splits into its first `count` elements and the window after them. -/
theorem window_split (content : List α) (offset : Nat) {count length : Nat}
    (inside : count ≤ length) :
    window content offset length =
      window content offset count ++ window content (offset + count) (length - count) := by
  have split : (content.drop offset).take (count + (length - count)) =
      (content.drop offset).take count ++
        ((content.drop offset).drop count).take (length - count) := List.take_add
  rwa [Nat.add_sub_of_le inside, List.drop_drop] at split

/-- Without its first elements, a window starts after them. -/
theorem drop_window (content : List α) (offset length count : Nat) :
    (window content offset length).drop count = window content (offset + count) (length - count) := by
  rw [window, window, List.drop_take, List.drop_drop]

/-- A window in which the content lasts is the content itself there. -/
theorem length_window_of_inside {content : List α} {offset length : Nat}
    (inside : offset + length ≤ content.length) :
    (window content offset length).length = length := by
  rw [length_window]
  omega

/-- What readers of the given sizes get, one after the other. -/
def cut : List Nat → List α → List (List α)
  | [], _ => []
  | size :: sizes, content => content.take size :: cut sizes (content.drop size)

/-- Put together, the readers got the front of the content. -/
theorem flatten_cut (sizes : List Nat) (content : List α) :
    (cut sizes content).flatten = content.take sizes.sum := by
  induction sizes generalizing content with
  | nil => simp [cut]
  | cons size sizes ih =>
      rw [cut, List.flatten_cons, ih, List.sum_cons]
      exact List.take_add.symm

/-- Later readers go on where earlier ones stopped. -/
theorem cut_append (first second : List Nat) (content : List α) :
    cut (first ++ second) content = cut first content ++ cut second (content.drop first.sum) := by
  induction first generalizing content with
  | nil => simp [cut]
  | cons size sizes ih =>
      rw [List.cons_append, cut, cut, ih, List.cons_append, List.sum_cons, List.drop_drop]

/-- Readers of the front of a sequence do not depend on what comes after it. -/
theorem cut_append_of_le (sizes : List Nat) {front : List α} (rest : List α)
    (enough : sizes.sum ≤ front.length) : cut sizes (front ++ rest) = cut sizes front := by
  induction sizes generalizing front with
  | nil => rfl
  | cons size sizes ih =>
      rw [List.sum_cons] at enough
      have fits : size ≤ front.length := by omega
      rw [cut, cut, List.take_append_of_le_length fits, List.drop_append_of_le_length fits, ih]
      rw [List.length_drop]
      omega

/-- A reader of one size among others gets what lies behind those before it. -/
theorem eq_of_cut_replicate {size count : Nat} {content piece : List α}
    {before after : List (List α)}
    (split : cut (List.replicate count size) content = before ++ piece :: after) :
    piece = (content.drop (before.length * size)).take size := by
  induction before generalizing count content with
  | nil =>
      cases count with
      | zero => cases split
      | succ count =>
          rw [List.replicate_succ, cut, List.nil_append, List.cons.injEq] at split
          rw [List.length_nil, Nat.zero_mul, List.drop_zero]
          exact split.1.symm
  | cons _ before ih =>
      cases count with
      | zero => cases split
      | succ count =>
          rw [List.replicate_succ, cut, List.cons_append, List.cons.injEq] at split
          rw [ih split.2, List.drop_drop, List.length_cons, Nat.succ_mul, Nat.add_comm size]

/-- More readers of one size get what fewer get, and more. -/
theorem cut_replicate_isPrefix {fewer more : Nat} (ordered : fewer ≤ more) (size : Nat)
    (content : List α) :
    cut (List.replicate fewer size) content <+: cut (List.replicate more size) content := by
  obtain ⟨rest, rfl⟩ := Nat.exists_eq_add_of_le ordered
  rw [← List.replicate_append_replicate, cut_append]
  exact List.prefix_append _ _

/-! ## Pieces of one size -/

/-- Successive pieces from the front of the content, all of one size except for the one
that ends the content. -/
inductive Pieces (size : Nat) : List α → List (List α) → Prop where
  | none {content} : Pieces size content []
  | full {content rest} (enough : size ≤ content.length)
      (more : Pieces size (content.drop size) rest) :
      Pieces size content (content.take size :: rest)
  | last {content} (some : content ≠ []) (short : content.length < size) :
      Pieces size content [content]

/-- What readers of one size get are pieces, those who get nothing apart. -/
theorem pieces_cut {size : Nat} (positive : 0 < size) (count : Nat) (content : List α)
    {pieces : List (List α)}
    (kept : pieces = (cut (List.replicate count size) content).filter (!·.isEmpty)) :
    Pieces size content pieces := by
  induction count generalizing content pieces with
  | zero => exact kept ▸ .none
  | succ count ih =>
      rw [List.replicate_succ, cut, List.filter_cons] at kept
      rcases Nat.lt_or_ge content.length size with short | enough
      · have rest : content.drop size = [] := List.drop_eq_nil_of_le (Nat.le_of_lt short)
        have nothing (sizes : List Nat) :
            (cut sizes ([] : List α)).filter (!·.isEmpty) = [] := by
          induction sizes with
          | nil => rfl
          | cons _ _ ih => simpa [cut] using ih
        rw [List.take_of_length_le (Nat.le_of_lt short), rest, nothing] at kept
        by_cases empty : content = []
        · rw [kept, empty]
          exact .none
        · rw [kept, if_pos (by simpa using empty)]
          exact .last empty short
      · have filled : content.take size ≠ [] := by
          intro none
          have length := congrArg List.length none
          rw [List.length_take, List.length_nil] at length
          omega
        rw [if_pos (by simpa using filled)] at kept
        rw [kept]
        exact .full enough (ih _ rfl)

/-- The first few pieces are pieces. -/
theorem Pieces.of_isPrefix {size : Nat} {content : List α} {pieces first : List (List α)}
    (all : Pieces size content pieces) (front : first <+: pieces) : Pieces size content first := by
  induction all generalizing first with
  | none =>
      rw [List.prefix_nil.mp front]
      exact .none
  | full enough _ ih =>
      rcases List.prefix_cons_iff.mp front with rfl | ⟨rest, rfl, shorter⟩
      · exact .none
      · exact .full enough (ih shorter)
  | last some short =>
      rcases List.prefix_cons_iff.mp front with rfl | ⟨rest, rfl, shorter⟩
      · exact .none
      · rw [List.prefix_nil.mp shorter]
        exact .last some short

/-- Put together, pieces are the front of the content. -/
theorem Pieces.flatten_isPrefix {size : Nat} {content : List α} {pieces : List (List α)}
    (all : Pieces size content pieces) : pieces.flatten <+: content := by
  induction all with
  | none => exact List.nil_prefix
  | @full content rest _ _ ih =>
      rw [List.flatten_cons]
      conv_rhs => rw [← List.take_append_drop size content]
      exact (List.prefix_append_right_inj _).mpr ih
  | last => simp

/-- A piece is of the common size, or it is the last and ends the content. -/
theorem Pieces.shape {size : Nat} {content : List α} {pieces before after : List (List α)}
    {piece : List α} (positive : 0 < size) (all : Pieces size content pieces)
    (split : pieces = before ++ piece :: after) :
    piece ≠ [] ∧ (piece.length = size ∨
      piece.length < size ∧ after = [] ∧ pieces.flatten = content) := by
  induction all generalizing before with
  | none => simp at split
  | @full content rest enough _ ih =>
      have length : (content.take size).length = size := by
        rw [List.length_take]
        omega
      cases before with
      | nil =>
          obtain ⟨rfl, rfl⟩ := List.cons.inj split
          exact ⟨List.ne_nil_of_length_pos (by omega), .inl length⟩
      | cons _ before =>
          obtain ⟨rfl, rfl⟩ := List.cons.inj split
          obtain ⟨some, shape⟩ := ih rfl
          refine ⟨some, shape.imp_right fun ⟨short, ends, whole⟩ => ⟨short, ends, ?_⟩⟩
          rw [List.flatten_cons, whole, List.take_append_drop]
  | @last content some short =>
      cases before with
      | nil =>
          obtain ⟨rfl, rfl⟩ := List.cons.inj split
          exact ⟨some, .inr ⟨short, rfl, by simp⟩⟩
      | cons _ before =>
          have more := congrArg List.length (List.cons.inj split).2
          simp at more

end Window
