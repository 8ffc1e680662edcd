import Mathlib.Logic.Equiv.Basic
import Dsio.Library.Ledger
import Dsio.Library.Moving

/-!
# Objects that own

The objects of a table own handles: what an object owns is released when it is assigned
over, acted on or destroyed, and goes along when it is moved. `Account.Settled` says that
every live handle is owned by one object; each operation keeps it.
-/

namespace Moving

open Ledger

universe u v w x

variable {α : Type w} {Handle : Type x}

/-- Every live handle is owned at one place, and nothing else is owned. -/
structure Owns (live : Finset Handle) (owner : Nat → Option Handle) : Prop where
  known : ∀ index handle, owner index = some handle → handle ∈ live
  one : ∀ handle ∈ live, ∃! index, owner index = some handle

section Owns

variable {live later : Finset Handle} {owner : Nat → Option Handle}

/-- What is owned goes from one place to another, where nothing is owned. -/
theorem Owns.move (owns : Owns live owner) {source target : Nat} (free : owner target = none) :
    Owns live (Function.update (Function.update owner source none) target (owner source)) := by
  have swapped : Function.update (Function.update owner source none) target (owner source) =
      owner ∘ Equiv.swap target source := by
    rw [Equiv.comp_swap_eq_update, free]
  rw [swapped]
  constructor
  · exact fun index handle holds => owns.known _ handle holds
  · intro handle member
    exact (Equiv.bijective _).existsUnique_iff.mp (owns.one handle member)

/-- At one place what was owned is no longer live, and what is owned now has not been. -/
theorem Owns.set (owns : Owns live owner) {index : Nat} {value : Option Handle}
    (mem : ∀ handle, handle ∈ later ↔
      value = some handle ∨ handle ∈ live ∧ owner index ≠ some handle)
    (fresh : ∀ handle, value = some handle → handle ∉ live) :
    Owns later (Function.update owner index value) where
  known := by
    intro place handle holds
    rw [Function.update_apply] at holds
    rw [mem]
    split at holds
    · exact .inl holds
    · next other =>
      have old := owns.known place handle holds
      exact .inr ⟨old, fun here => other ((owns.one handle old).unique holds here)⟩
  one := by
    intro handle member
    rcases (mem handle).mp member with here | ⟨old, apart⟩
    · refine ⟨index, (Function.update_self ..).trans here, fun place holds => ?_⟩
      by_contra other
      dsimp only at holds
      rw [Function.update_of_ne other] at holds
      exact fresh handle here (owns.known place handle holds)
    · obtain ⟨place, holds, only⟩ := owns.one handle old
      have other : place ≠ index := by
        rintro rfl
        exact apart holds
      refine ⟨place, (Function.update_of_ne other ..).trans holds, fun another again => ?_⟩
      dsimp only at again
      rw [Function.update_apply] at again
      split at again
      · exact absurd old (fresh handle again)
      · exact only another again

variable [DecidableEq Handle]

/-- What stays live when this is released. -/
def remaining (live : Finset Handle) (released : Option Handle) : Finset Handle :=
  released.elim live live.erase

/-- A fresh handle given to an index that has none is owned once. -/
theorem Owns.acquire (owns : Owns live owner) {index : Nat} {handle : Handle}
    (free : owner index = none) (fresh : handle ∉ live) :
    Owns (insert handle live) (Function.update owner index (some handle)) := by
  refine owns.set (fun owned => ?_) ?_
  · rw [Finset.mem_insert, free, Option.some.injEq, eq_comm]
    simp
  · rintro _ ⟨⟩
    exact fresh

/-- An index that gives its handle up leaves the other handles owned. -/
theorem Owns.release (owns : Owns live owner) (index : Nat) :
    Owns (remaining live (owner index)) (Function.update owner index none) := by
  refine owns.set (fun owned => ?_) (by rintro _ ⟨⟩)
  cases owner index with
  | none => simp [remaining]
  | some handle =>
      rw [remaining, Option.elim_some, Finset.mem_erase, and_comm, ne_comm]
      simp

end Owns

/-! ## Tables -/

/-- What each object owns. -/
def owners (handle : α → Option Handle) (table : Table α) (index : Nat) : Option Handle :=
  (table.held index).bind handle

/-- The numbers from the count on are free. -/
def Table.Fresh (table : Table α) : Prop := ∀ index, table.count ≤ index → table.held index = none

variable {handle : α → Option Handle} {table : Table α}

/-- Setting an entry changes the owner at its index. -/
theorem owners_set (handle : α → Option Handle) (table : Table α) (index : Nat)
    (value : Option α) : owners handle (table.set index value) =
      Function.update (owners handle table) index (value.bind handle) := by
  funext place
  simp only [owners, Table.set, Function.update_apply]
  split <;> rfl

/-- A new entry owns its handle at the end of the table. -/
theorem owners_push (handle : α → Option Handle) (table : Table α) (value : α) :
    owners handle (table.push value) =
      Function.update (owners handle table) table.count (handle value) :=
  owners_set handle table table.count (some value)

/-- Nothing is owned at the end of a table. -/
theorem Table.Fresh.owners_count (fresh : table.Fresh) :
    owners handle table table.count = none := by
  rw [owners, fresh table.count (Nat.le_refl _)]
  rfl

/-- What a table holds is below its count. -/
theorem Table.Fresh.lt (fresh : table.Fresh) {index : Nat} {value : α}
    (held : table.held index = some value) : index < table.count := by
  by_contra beyond
  rw [fresh index (Nat.not_lt.mp beyond)] at held
  cases held

/-- Setting an entry of a table adds none behind its end. -/
theorem Table.Fresh.set (fresh : table.Fresh) {index : Nat} {value : Option α}
    (inside : value ≠ none → index < table.count) : (table.set index value).Fresh := by
  intro place beyond
  simp only [Table.set, Function.update_apply] at beyond ⊢
  split
  · next same =>
    by_contra some
    have before := inside some
    omega
  · exact fresh place beyond

/-- A new entry moves the end of the table behind it. -/
theorem Table.Fresh.push (fresh : table.Fresh) (value : α) : (table.push value).Fresh := by
  intro place beyond
  have above : table.count + 1 ≤ place := beyond
  simp only [Table.push, Table.set, Function.update_apply]
  rw [if_neg (by omega)]
  exact fresh place (by omega)

/-! ## Operations -/

variable {Origin : Type u} {Action : Type v}

/-- What an operation lets go of: the object assigned over, acted on or destroyed. -/
def dropped (table : Table α) : Op Origin Action → Option α
  | .create _ | .moveConstruct _ => none
  | .moveAssign target source =>
      if target = source ∨ table.held source = none then none else table.held target
  | .act target _ | .destroy target => table.held target

/-- Values that start empty, are left empty by a move, and are emptied by every action. -/
structure Empties (handle : α → Option Handle) (reading : Reading Origin Action α) : Prop where
  emptied : handle reading.emptied = none
  acted : ∀ action value, handle (reading.act action value) = none

variable {reading : Reading Origin Action α}

/-- No operation puts an entry behind the end of its table. -/
theorem Table.Fresh.step (fresh : table.Fresh) (op : Op Origin Action) :
    (step reading table op).Fresh := by
  cases op with
  | create origin => exact fresh.push _
  | moveConstruct source =>
      simp only [Moving.step]
      split
      · next held => exact (fresh.set fun _ => fresh.lt held).push _
      · exact fresh
  | moveAssign target source =>
      simp only [Moving.step]
      split
      · exact fresh
      · split
        · next old value targets sources =>
          exact (fresh.set fun _ => fresh.lt sources).set fun _ => fresh.lt targets
        · exact fresh
        · exact fresh
  | act target action =>
      refine fresh.set fun some => ?_
      cases held : table.held target with
      | none => exact absurd (by rw [held]; rfl) some
      | some value => exact fresh.lt held
  | destroy target => exact fresh.set fun some => absurd rfl some

/-- What is live is owned at one place after every operation, but for what it dropped. -/
theorem Owns.step [DecidableEq Handle] {live : Finset Handle} (empties : Empties handle reading)
    (fresh : table.Fresh) (owns : Owns live (owners handle table)) (op : Op Origin Action)
    (makes : ∀ origin, op = .create origin → handle (reading.make origin) = none) :
    Owns (remaining live ((dropped table op).bind handle))
      (owners handle (step reading table op)) := by
  cases op with
  | create origin =>
      have released := owns.release table.count
      rw [fresh.owners_count] at released
      simpa only [Moving.step, dropped, owners_push, makes origin rfl, Option.bind_none]
        using released
  | moveConstruct source =>
      simp only [Moving.step, dropped]
      split
      · next value held =>
        have goes : handle value = owners handle table source := by
          rw [owners, held]
          rfl
        simp only [owners_push, owners_set, Option.bind_some, empties.emptied, goes]
        exact owns.move fresh.owners_count
      · exact owns
  | moveAssign target source =>
      by_cases itself : target = source
      · simp only [Moving.step, dropped, if_pos itself, if_pos (Or.inl itself)]
        exact owns
      cases sources : table.held source with
      | none =>
          simp only [Moving.step, dropped, if_neg itself, sources, or_true, if_true]
          cases table.held target <;> exact owns
      | some value =>
          have moves : ¬ (target = source ∨ table.held source = none) := by simp [itself, sources]
          simp only [dropped, if_neg moves, Moving.step, if_neg itself]
          rw [sources]
          cases targets : table.held target with
          | none => exact owns
          | some old =>
              have lets : handle old = owners handle table target := by
                rw [owners, targets]
                rfl
              have goes : handle value = owners handle table source := by
                rw [owners, sources]
                rfl
              have free : Function.update (owners handle table) target none target = none :=
                Function.update_self ..
              have moved := @Owns.move _ _ _ (owns.release target) source target free
              rw [Function.update_of_ne (Ne.symm itself), Function.update_comm itself,
                Function.update_idem] at moved
              simpa only [owners_set, Option.bind_some, empties.emptied, goes, lets] using moved
  | act target action =>
      have released := owns.release target
      have nothing : ((table.held target).map (reading.act action)).bind handle = none := by
        cases table.held target with
        | none => rfl
        | some value => exact empties.acted action value
      simp only [Moving.step, owners_set, nothing]
      exact released
  | destroy target =>
      have released := owns.release target
      simp only [Moving.step, owners_set, Option.bind_none]
      exact released

/-- What is released was owned. -/
theorem owned_of_dropped {op : Op Origin Action} {owned : Handle}
    (released : (dropped table op).bind handle = some owned) :
    ∃ index, owners handle table index = some owned := by
  cases op with
  | create | moveConstruct => cases released
  | moveAssign target source =>
      simp only [dropped] at released
      split at released
      · cases released
      · exact ⟨target, released⟩
  | act target | destroy target => exact ⟨target, released⟩

/-! ## Accounts -/

/-- Objects, and the calls made through them. -/
structure Account (α : Type w) (Handle : Type x) where
  table : Table α := {}
  log : List (Entry Handle) := []

namespace Account

variable {account : Account α Handle} {live : Finset Handle}

/-- The object with this number owns this handle. -/
def Holds (handle : α → Option Handle) (account : Account α Handle) (index : Nat)
    (owned : Handle) : Prop := owners handle account.table index = some owned

/-- The handle an operation releases. -/
def released (handle : α → Option Handle) (account : Account α Handle) (op : Op Origin Action) :
    Option Handle := (dropped account.table op).bind handle

def operate (handle : α → Option Handle) (reading : Reading Origin Action α) (op : Op Origin Action)
    (account : Account α Handle) : Account α Handle where
  table := step reading account.table op
  log := account.log ++ (account.released handle op).toList.map .release

/-- A new object, with what it owns. -/
def acquire (handle : α → Option Handle) (value : α) (account : Account α Handle) :
    Account α Handle where
  table := account.table.push value
  log := account.log ++ (handle value).toList.map .acquire

/-- A call with what an object owns. -/
def use (handle : α → Option Handle) (index : Nat) (account : Account α Handle) :
    Account α Handle :=
  { account with log := account.log ++ (owners handle account.table index).toList.map .use }

/-- Each acquired handle is owned by one object until it is released, once; it is used and
released only by then, and no object owns a handle that is not acquired. -/
structure Once (handle : α → Option Handle) (account : Account α Handle) : Prop where
  settles : Settles account.log fun owned => ∃! index, account.Holds handle index owned
  one : ∀ index owned, account.Holds handle index owned →
    ∃! index, account.Holds handle index owned

/-- Beside the objects, what is open in all belongs to others: nothing else is left behind,
and no object owns what is theirs. -/
structure Accounted (handle : α → Option Handle) (account : Account α Handle)
    (whole others : List Handle) : Prop extends Once handle account where
  mem : ∀ owned, owned ∈ whole ↔ owned ∈ others ∨ ∃ index, account.Holds handle index owned
  apart : ∀ owned ∈ others, ∀ index, ¬ account.Holds handle index owned

variable [DecidableEq Handle]

/-- These are the live handles of the log and of the objects. -/
structure Settled (handle : α → Option Handle) (account : Account α Handle)
    (live : Finset Handle) : Prop where
  fresh : account.table.Fresh
  replays : replay account.log = some live
  owns : Owns live (owners handle account.table)

/-- Without objects nothing is live. -/
theorem settled_empty (handle : α → Option Handle) : Settled handle {} ∅ where
  fresh := fun _ _ => rfl
  replays := rfl
  owns := ⟨by rintro index owned ⟨⟩, by simp⟩

/-- What settles owns each handle once. -/
theorem Settled.once (settled : Settled handle account live) : account.Once handle where
  settles := by
    have settles := settles_of_replay settled.replays
    have same : (fun owned => ∃! index, account.Holds handle index owned) = (· ∈ live) := by
      funext owned
      refine propext ⟨?_, settled.owns.one owned⟩
      rintro ⟨index, holds, -⟩
      exact settled.owns.known index owned holds
    rwa [same]
  one := fun index owned holds => settled.owns.one owned (settled.owns.known index owned holds)

/-- Shares of the live handles are accounted for. -/
theorem Settled.accounted (settled : Settled handle account live) {whole others : List Handle}
    (shares : Shares whole others live) : account.Accounted handle whole others where
  toOnce := settled.once
  mem := by
    intro owned
    rw [shares.mem]
    refine or_congr_right ⟨fun member => ?_, ?_⟩
    · exact (settled.owns.one owned member).exists
    · rintro ⟨index, holds⟩
      exact settled.owns.known index owned holds
  apart := fun owned theirs index holds =>
    shares.apart owned theirs (settled.owns.known index owned holds)

/-- Only live handles are released. -/
theorem Settled.mem_of_released (settled : Settled handle account live) {op : Op Origin Action}
    {owned : Handle} (released : account.released handle op = some owned) : owned ∈ live := by
  obtain ⟨index, holds⟩ := owned_of_dropped released
  exact settled.owns.known index owned holds

/-- An operation that makes nothing owning settles with the handle it released gone. -/
theorem Settled.operate (empties : Empties handle reading)
    (settled : Settled handle account live) (op : Op Origin Action)
    (makes : ∀ origin, op = .create origin → handle (reading.make origin) = none) :
    Settled handle (account.operate handle reading op)
      (remaining live (account.released handle op)) where
  fresh := settled.fresh.step op
  replays := by
    rw [Account.operate, replay_option settled.replays]
    cases released : account.released handle op with
    | none => rfl
    | some owned => exact if_pos (settled.mem_of_released released)
  owns := settled.owns.step empties settled.fresh op makes

/-- A new object that owns a fresh handle settles with that handle live. -/
theorem Settled.acquire (settled : Settled handle account live) {value : α} {owned : Handle}
    (owning : handle value = some owned) (free : owned ∉ live) :
    Settled handle (account.acquire handle value) (insert owned live) where
  fresh := settled.fresh.push value
  replays := by
    rw [Account.acquire, replay_option settled.replays, owning]
    exact if_neg free
  owns := by
    simp only [Account.acquire, owners_push, owning]
    exact settled.owns.acquire settled.fresh.owners_count free

/-- A new object that owns nothing. -/
theorem Settled.push (settled : Settled handle account live) {value : α}
    (empty : handle value = none) : Settled handle (account.acquire handle value) live where
  fresh := settled.fresh.push value
  replays := by
    rw [Account.acquire, replay_option settled.replays, empty]
    rfl
  owns := by
    have released := settled.owns.release account.table.count
    rw [settled.fresh.owners_count] at released
    simp only [Account.acquire, owners_push, empty]
    exact released

/-- A use changes no ownership. -/
theorem Settled.use (settled : Settled handle account live) (index : Nat) :
    Settled handle (account.use handle index) live where
  fresh := settled.fresh
  replays := by
    rw [Account.use, replay_option settled.replays]
    cases holds : owners handle account.table index with
    | none => rfl
    | some owned => exact if_pos (settled.owns.known index owned holds)
  owns := settled.owns

end Account

end Moving
