import Mathlib.Data.Option.Basic
import Mathlib.Logic.Function.Basic

/-!
# Objects that are moved

A table of objects that are created, moved by construction and by assignment, acted on and
destroyed; a move leaves its source empty. One history of operations can be read over
different types of values, and `run_rel` relates what two readings make of it.
-/

namespace Moving

universe u v w

inductive Op (Origin : Type u) (Action : Type v) where
  | create (origin : Origin)
  | moveConstruct (source : Nat)
  | moveAssign (target source : Nat)
  | act (target : Nat) (action : Action)
  | destroy (target : Nat)

/-- How values are made, what a move leaves of one, and how they are acted on. -/
structure Reading (Origin : Type u) (Action : Type v) (α : Type w) where
  make : Origin → α
  emptied : α
  act : Action → α → α

/-- The objects by their numbers, as long as they live. -/
structure Table (α : Type w) where
  count : Nat := 0
  held : Nat → Option α := fun _ => none

namespace Table

variable {α : Type w}

def set (index : Nat) (value : Option α) (table : Table α) : Table α :=
  { table with held := Function.update table.held index value }

def push (value : α) (table : Table α) : Table α :=
  { table.set table.count (some value) with count := table.count + 1 }

end Table

variable {Origin : Type u} {Action : Type v} {α β : Type w}

/-- One operation; one on an object that does not live does nothing. -/
def step (reading : Reading Origin Action α) (table : Table α) : Op Origin Action → Table α
  | .create origin => table.push (reading.make origin)
  | .moveConstruct source =>
      match table.held source with
      | some value => (table.set source (some reading.emptied)).push value
      | none => table
  | .moveAssign target source =>
      if target = source then table
      else
        match table.held target, table.held source with
        | some _, some value => (table.set source (some reading.emptied)).set target (some value)
        | some _, none | none, _ => table
  | .act target action => table.set target ((table.held target).map (reading.act action))
  | .destroy target => table.set target none

/-- The table after a history. -/
def run (reading : Reading Origin Action α) (history : List (Op Origin Action)) : Table α :=
  history.foldl (step reading) {}

/-- The same objects live, with related values. -/
structure Related (R : α → β → Prop) (table : Table α) (other : Table β) : Prop where
  count : table.count = other.count
  held : ∀ index, Option.Rel R (table.held index) (other.held index)

variable {R : α → β → Prop} {table : Table α} {other : Table β}

/-- Related values set at one index keep tables related. -/
theorem Related.set (related : Related R table other) (index : Nat) {value : Option α}
    {image : Option β} (values : Option.Rel R value image) :
    Related R (table.set index value) (other.set index image) where
  count := related.count
  held := by
    intro place
    simp only [Table.set, Function.update_apply]
    split
    · exact values
    · exact related.held place

/-- Related values pushed keep tables related. -/
theorem Related.push (related : Related R table other) {value : α} {image : β}
    (values : R value image) : Related R (table.push value) (other.push image) where
  count := congrArg (· + 1) related.count
  held := by
    have set := related.set table.count (.some values)
    rw [related.count] at set
    simpa only [Table.push, related.count] using set.held

variable {reading : Reading Origin Action α} {image : Reading Origin Action β}

/-- Operations that agree keep tables related. -/
theorem Related.step (related : Related R table other) (op : Op Origin Action)
    (makes : ∀ origin, op = .create origin → R (reading.make origin) (image.make origin))
    (empties : R reading.emptied image.emptied)
    (acts : ∀ action value other, R value other →
      R (reading.act action value) (image.act action other)) :
    Related R (step reading table op) (step image other op) := by
  cases op with
  | create origin => exact related.push (makes origin rfl)
  | moveConstruct source =>
      have values := related.held source
      simp only [Moving.step]
      generalize table.held source = value at values ⊢
      generalize other.held source = image at values ⊢
      cases values with
      | some values => exact (related.set source (.some empties)).push values
      | none => exact related
  | moveAssign target source =>
      simp only [Moving.step]
      split
      · exact related
      · have targets := related.held target
        have sources := related.held source
        generalize table.held target = value at targets ⊢
        generalize other.held target = image at targets ⊢
        generalize table.held source = moved at sources ⊢
        generalize other.held source = taken at sources ⊢
        cases targets with
        | none => exact related
        | some =>
            cases sources with
            | none => exact related
            | some values => exact (related.set source (.some empties)).set target (.some values)
  | act target action =>
      refine related.set target ?_
      have values := related.held target
      generalize table.held target = value at values ⊢
      generalize other.held target = image at values ⊢
      cases values with
      | none => exact .none
      | some values => exact .some (acts action _ _ values)
  | destroy target => exact related.set target .none

/-- The simulation rule: related readings of one history make related tables. -/
theorem run_rel (history : List (Op Origin Action))
    (makes : ∀ origin, .create origin ∈ history → R (reading.make origin) (image.make origin))
    (empties : R reading.emptied image.emptied)
    (acts : ∀ action value other, R value other →
      R (reading.act action value) (image.act action other)) :
    Related R (run reading history) (run image history) := by
  have folds {table : Table α} {other : Table β} (related : Related R table other) :
      Related R (history.foldl (step reading) table) (history.foldl (step image) other) := by
    induction history generalizing table other with
    | nil => exact related
    | cons op rest ih =>
        have next : Related R (step reading table op) (step image other op) :=
          related.step op (fun origin same => makes origin (same ▸ List.mem_cons_self)) empties acts
        exact ih (fun origin member => makes origin (List.mem_cons_of_mem _ member)) next
  exact folds ⟨rfl, fun _ => .none⟩

end Moving
