import Mathlib.Data.List.DropRight

/-!
# Paths

What the library uses of `std::filesystem::path` on a POSIX system. A `std::string` is the
sequence of its `char`s.
-/

namespace Dsio

abbrev Path := List Char

namespace Path

def IsAbsolute (path : Path) : Prop := path.head? = some '/'

instance (path : Path) : Decidable path.IsAbsolute :=
  inferInstanceAs (Decidable (path.head? = some '/'))

/-- `operator/`. -/
def append (base path : Path) : Path :=
  if path.IsAbsolute then path
  else if base = [] ∨ base.getLast? = some '/' then base ++ path
  else base ++ '/' :: path

/-- `parent_path()`: up to the last component, without the separators before it unless
they are the root. -/
def parent (path : Path) : Path :=
  if path.all (· = '/') then path
  else
    let front := path.rdropWhile (· ≠ '/')
    let trimmed := front.rdropWhile (· = '/')
    if trimmed = [] then front else trimmed

example : parent "data/sets//m.tsv".toList = "data/sets".toList := by decide

/-- Whatever was appended to a path to give what a relative path gives ends with it. -/
theorem isSuffix_of_append_eq {base path relative : Path} (inside : ¬ relative.IsAbsolute)
    (same : base.append path = base.append relative) : relative <:+ path := by
  have ends : relative <:+ base.append relative := by
    simp only [append, if_neg inside]
    split
    · exact List.suffix_append _ _
    · exact ⟨base ++ ['/'], by simp⟩
  by_cases absolute : path.IsAbsolute
  · rw [← same, append, if_pos absolute] at ends
    exact ends
  · simp only [append, if_neg absolute, if_neg inside] at same
    split at same
    · exact List.append_cancel_left same ▸ List.suffix_refl _
    · exact (List.cons.inj (List.append_cancel_left same)).2 ▸ List.suffix_refl _

end Path

end Dsio
