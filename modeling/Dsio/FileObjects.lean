import Dsio.Library.Moving
import Dsio.Sink

/-!
# File objects

What the public operations of `File` make of the objects of a program: default
construction, `open`, the moves, `close` and destruction.
-/

namespace Dsio

open Moving

/-- `close()`: the path and the alignment stay. -/
def File.close (file : File) : File := if 0 ≤ file.fd then { file with fd := -1 } else file

@[simp] theorem File.close_alignment (file : File) : file.close.alignment = file.alignment := by
  simp only [File.close]
  split <;> rfl

/-- How a `File` comes to be. -/
inductive FileOrigin where
  | default
  /-- By an `open` that succeeded, with the block size as its alignment. -/
  | opened (fd : Nat) (path : String) (alignment : Nat)

inductive FileAction where
  | close

/-- The `File`s of a program. A move leaves its source as a default constructed one. -/
def files : Reading FileOrigin FileAction File where
  make
    | .default => {}
    | .opened fd path alignment => ⟨fd, path, alignment⟩
  emptied := {}
  act
    | .close => File.close

/-- Which objects hold what an `open` gave, closed since or not. -/
def holdings : Reading FileOrigin FileAction Bool where
  make
    | .default => false
    | .opened .. => true
  emptied := false
  act
    | .close => id

/-- Every `open` of the history has found a positive block size. -/
def PositiveBlocks (history : List (Op FileOrigin FileAction)) : Prop :=
  ∀ fd path alignment, .create (.opened fd path alignment) ∈ history → 0 < alignment

/-- A `File` has an alignment exactly when it holds what an `open` gave: closing keeps it,
a move takes it away. -/
theorem aligned_iff_holds {history : List (Op FileOrigin FileAction)}
    (positive : PositiveBlocks history) {index : Nat} {file : File}
    (held : (run files history).held index = some file) :
    (run holdings history).held index = some true ↔ file.alignment ≠ 0 := by
  have related : Related (fun file opened => opened = true ↔ file.alignment ≠ 0)
      (run files history) (run holdings history) := by
    refine run_rel history ?_ ?_ ?_
    · intro origin created
      cases origin with
      | default => simp [files, holdings]
      | opened fd path alignment =>
          simpa [files, holdings] using Nat.pos_iff_ne_zero.mp (positive fd path alignment created)
    · simp [files, holdings]
    · rintro ⟨⟩ file opened same
      simpa [files, holdings] using same
  have same := related.held index
  rw [held] at same
  generalize (run holdings history).held index = opened at same ⊢
  cases same with
  | some same => simpa using same

end Dsio
