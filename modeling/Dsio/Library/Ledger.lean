import Mathlib.Data.Finset.Insert
import Mathlib.Data.Finset.Erase

/-!
# Ledgers

A log of what is done with handles: they are acquired, used and released, and a released
handle may be acquired again. `replay` follows which of them are live, and stops at a call
out of turn; `settles_of_replay` says what a log that replays amounts to.
-/

namespace Ledger

universe u

inductive Entry (Handle : Type u) where
  | acquire (handle : Handle)
  | use (handle : Handle)
  | release (handle : Handle)
deriving DecidableEq

variable {Handle : Type u}

/-- A handle is neither acquired nor released here. -/
def Unbroken (handle : Handle) (entries : List (Entry Handle)) : Prop :=
  .acquire handle ∉ entries ∧ .release handle ∉ entries

/-- A handle was acquired, and has not been acquired or released since. -/
def Acquired (handle : Handle) (log : List (Entry Handle)) : Prop :=
  ∃ first middle, log = first ++ .acquire handle :: middle ∧ Unbroken handle middle

/-- Each acquired handle is released once or is live still; a handle is used and released
only where it is acquired. -/
structure Settles (log : List (Entry Handle)) (live : Handle → Prop) : Prop where
  acquired : ∀ before handle after, log = before ++ .acquire handle :: after →
    (∃ middle rest, after = middle ++ .release handle :: rest ∧ Unbroken handle middle) ∨
      Unbroken handle after ∧ live handle
  called : ∀ before entry after handle, log = before ++ entry :: after →
    entry = .use handle ∨ entry = .release handle → Acquired handle before
  live : ∀ handle, live handle → Acquired handle log

/-- An entry about another handle leaves what follows unbroken. -/
theorem Unbroken.cons {handle : Handle} {entry : Entry Handle} {rest : List (Entry Handle)}
    (unbroken : Unbroken handle rest) (notAcquired : entry ≠ .acquire handle)
    (notReleased : entry ≠ .release handle) : Unbroken handle (entry :: rest) :=
  ⟨by simpa using ⟨notAcquired.symm, unbroken.1⟩, by simpa using ⟨notReleased.symm, unbroken.2⟩⟩

/-- An entry about another handle leaves a handle acquired. -/
theorem Acquired.concat {handle : Handle} {log : List (Entry Handle)} {entry : Entry Handle}
    (acquired : Acquired handle log) (notAcquired : entry ≠ .acquire handle)
    (notReleased : entry ≠ .release handle) : Acquired handle (log ++ [entry]) := by
  obtain ⟨first, middle, rfl, unbroken⟩ := acquired
  refine ⟨first, middle ++ [entry], by simp, ?_, ?_⟩
  · simpa using ⟨unbroken.1, notAcquired.symm⟩
  · simpa using ⟨unbroken.2, notReleased.symm⟩

/-! ## One table, two parties -/

/-- All that is open belongs to the others or is live here, and to no two of them. -/
structure Shares (whole others : List Handle) (live : Finset Handle) : Prop where
  nodup : whole.Nodup
  othersNodup : others.Nodup
  mem : ∀ handle, handle ∈ whole ↔ handle ∈ others ∨ handle ∈ live
  apart : ∀ handle ∈ others, handle ∉ live

variable {whole others : List Handle} {live : Finset Handle} {handle : Handle}

/-- At first nothing has been acquired. -/
theorem shares_empty (nodup : whole.Nodup) : Shares whole whole ∅ where
  nodup := nodup
  othersNodup := nodup
  mem := by simp
  apart := by simp

/-- The others open something. -/
theorem Shares.lend (shares : Shares whole others live) (fresh : handle ∉ whole) :
    Shares (handle :: whole) (handle :: others) live where
  nodup := List.nodup_cons.mpr ⟨fresh, shares.nodup⟩
  othersNodup :=
    List.nodup_cons.mpr ⟨fun member => fresh ((shares.mem handle).mpr (.inl member)),
      shares.othersNodup⟩
  mem := by
    intro other
    rw [List.mem_cons, List.mem_cons, shares.mem, or_assoc]
  apart := by
    intro other member inside
    rcases List.mem_cons.mp member with rfl | old
    · exact fresh ((shares.mem other).mpr (.inr inside))
    · exact shares.apart other old inside

/-- The others close something of theirs. -/
theorem Shares.giveBack [BEq Handle] [LawfulBEq Handle] (shares : Shares whole others live)
    (theirs : handle ∈ others) :
    Shares (whole.erase handle) (others.erase handle) live where
  nodup := shares.nodup.erase handle
  othersNodup := shares.othersNodup.erase handle
  mem := by
    intro other
    have apart := shares.apart handle theirs
    rw [shares.nodup.mem_erase_iff, shares.othersNodup.mem_erase_iff, shares.mem]
    constructor
    · rintro ⟨different, member | member⟩
      · exact .inl ⟨different, member⟩
      · exact .inr member
    · rintro (⟨different, member⟩ | member)
      · exact ⟨different, .inl member⟩
      · exact ⟨fun same => apart (same ▸ member), .inr member⟩
  apart := fun other member => shares.apart other (List.mem_of_mem_erase member)

variable [DecidableEq Handle]

/-- A fresh handle becomes a share. -/
theorem Shares.acquire (shares : Shares whole others live) (fresh : handle ∉ whole) :
    Shares (handle :: whole) others (insert handle live) where
  nodup := List.nodup_cons.mpr ⟨fresh, shares.nodup⟩
  othersNodup := shares.othersNodup
  mem := by
    intro other
    rw [List.mem_cons, Finset.mem_insert, shares.mem]
    exact or_left_comm
  apart := by
    intro other member
    have apart := shares.apart other member
    have known := (shares.mem other).mpr (.inl member)
    rw [Finset.mem_insert, not_or]
    exact ⟨fun same => fresh (same ▸ known), apart⟩

/-- A handle that is released leaves its share. -/
theorem Shares.release [BEq Handle] [LawfulBEq Handle] (shares : Shares whole others live)
    (holds : handle ∈ live) :
    Shares (whole.erase handle) others (live.erase handle) where
  nodup := shares.nodup.erase handle
  othersNodup := shares.othersNodup
  mem := by
    intro other
    have apart := shares.apart other
    rw [shares.nodup.mem_erase_iff, Finset.mem_erase, shares.mem]
    constructor
    · rintro ⟨different, member | member⟩
      · exact .inl member
      · exact .inr ⟨different, member⟩
    · rintro (member | ⟨different, member⟩)
      · exact ⟨fun same => apart member (same ▸ holds), .inl member⟩
      · exact ⟨different, .inr member⟩
  apart := fun other member inside => shares.apart other member (Finset.mem_of_mem_erase inside)

/-! ## Following a log -/

/-- The live handles after a call; there are none for a call out of turn. -/
def Entry.next (live : Finset Handle) : Entry Handle → Option (Finset Handle)
  | .acquire handle => if handle ∈ live then none else some (insert handle live)
  | .use handle => if handle ∈ live then some live else none
  | .release handle => if handle ∈ live then some (live.erase handle) else none

def replayFrom (live : Finset Handle) : List (Entry Handle) → Option (Finset Handle)
  | [] => some live
  | entry :: rest => (entry.next live).bind fun next => replayFrom next rest

/-- The handles that are live after a log. -/
def replay (log : List (Entry Handle)) : Option (Finset Handle) := replayFrom ∅ log

/-- What an entry can do to the live handles. -/
theorem Entry.next_cases {entry : Entry Handle} {live later : Finset Handle}
    (stepped : entry.next live = some later) :
    (∃ handle, entry = .acquire handle ∧ handle ∉ live ∧ later = insert handle live) ∨
    (∃ handle, entry = .use handle ∧ handle ∈ live ∧ later = live) ∨
    (∃ handle, entry = .release handle ∧ handle ∈ live ∧ later = live.erase handle) := by
  cases entry with
  | acquire handle =>
      simp only [next] at stepped
      split at stepped
      · cases stepped
      · next fresh =>
        cases stepped
        exact .inl ⟨handle, rfl, fresh, rfl⟩
  | use handle =>
      simp only [next] at stepped
      split at stepped
      · next holds =>
        cases stepped
        exact .inr (.inl ⟨handle, rfl, holds, rfl⟩)
      · cases stepped
  | release handle =>
      simp only [next] at stepped
      split at stepped
      · next holds =>
        cases stepped
        exact .inr (.inr ⟨handle, rfl, holds, rfl⟩)
      · cases stepped

/-- A log replays from where its front ends. -/
theorem replayFrom_append (live : Finset Handle) (first second : List (Entry Handle)) :
    replayFrom live (first ++ second) =
      (replayFrom live first).bind fun next => replayFrom next second := by
  induction first generalizing live with
  | nil => rfl
  | cons entry rest ih =>
      rw [List.cons_append, replayFrom, replayFrom, Option.bind_assoc]
      exact congrArg _ (funext fun next => ih next)

/-- One more entry is replayed at the end. -/
theorem replay_concat {log : List (Entry Handle)} {live : Finset Handle}
    (replays : replay log = some live) (entry : Entry Handle) :
    replay (log ++ [entry]) = entry.next live := by
  rw [replay, replayFrom_append, ← replay, replays]
  simp [replayFrom]

/-- A call that is made if there is a handle to make it with. -/
theorem replay_option {log : List (Entry Handle)} {live : Finset Handle}
    (replays : replay log = some live) (call : Handle → Entry Handle) (optional : Option Handle) :
    replay (log ++ optional.toList.map call) =
      optional.elim (some live) fun handle => (call handle).next live := by
  cases optional with
  | none => simpa using replays
  | some handle => exact replay_concat replays (call handle)

/-- A live handle is released at some time, or stays live. -/
theorem released_or_live {handle : Handle} {entries : List (Entry Handle)}
    {live later : Finset Handle} (replays : replayFrom live entries = some later)
    (holds : handle ∈ live) :
    (∃ middle rest, entries = middle ++ .release handle :: rest ∧ Unbroken handle middle) ∨
      Unbroken handle entries ∧ handle ∈ later := by
  induction entries generalizing live with
  | nil =>
      cases replays
      exact .inr ⟨by simp [Unbroken], holds⟩
  | cons entry rest ih =>
      obtain ⟨next, stepped, replays⟩ := Option.bind_eq_some_iff.mp replays
      by_cases same : entry = .release handle
      · exact .inl ⟨[], rest, by rw [same, List.nil_append], by simp [Unbroken]⟩
      have other : entry ≠ .acquire handle := by
        rintro rfl
        rw [Entry.next, if_pos holds] at stepped
        cases stepped
      have still : handle ∈ next := by
        rcases Entry.next_cases stepped with
          ⟨owned, rfl, -, rfl⟩ | ⟨owned, rfl, -, rfl⟩ | ⟨owned, rfl, -, rfl⟩
        · exact Finset.mem_insert_of_mem holds
        · exact holds
        · exact Finset.mem_erase.mpr ⟨fun equal => same (equal ▸ rfl), holds⟩
      rcases ih replays still with ⟨middle, later, rfl, unbroken⟩ | ⟨unbroken, live⟩
      · exact .inl ⟨entry :: middle, later, rfl, unbroken.cons other same⟩
      · exact .inr ⟨unbroken.cons other same, live⟩

/-- A live handle has been acquired. -/
theorem acquired_of_live {handle : Handle} {log : List (Entry Handle)} {live : Finset Handle}
    (replays : replay log = some live) (holds : handle ∈ live) : Acquired handle log := by
  induction log using List.reverseRecOn generalizing live with
  | nil =>
      cases replays
      cases holds
  | append_singleton log entry ih =>
      rw [replay, replayFrom_append] at replays
      obtain ⟨before, earlier, last⟩ := Option.bind_eq_some_iff.mp replays
      have stepped : entry.next before = some live := by simpa [replayFrom] using last
      rcases Entry.next_cases stepped with
        ⟨owned, rfl, -, rfl⟩ | ⟨owned, rfl, -, rfl⟩ | ⟨owned, rfl, -, rfl⟩
      · by_cases same : owned = handle
        · exact ⟨log, [], by rw [same], by simp [Unbroken]⟩
        · have held := (Finset.mem_insert.mp holds).resolve_left (Ne.symm same)
          exact (ih earlier held).concat (by simpa using same) (by simp)
      · exact (ih earlier holds).concat (by simp) (by simp)
      · obtain ⟨apart, held⟩ := Finset.mem_erase.mp holds
        exact (ih earlier held).concat (by simp) (by simpa using Ne.symm apart)

/-- What a log that replays amounts to. -/
theorem settles_of_replay {log : List (Entry Handle)} {live : Finset Handle}
    (replays : replay log = some live) : Settles log (· ∈ live) where
  acquired := by
    rintro before handle after rfl
    rw [replay, replayFrom_append] at replays
    obtain ⟨earlier, -, rest⟩ := Option.bind_eq_some_iff.mp replays
    obtain ⟨next, stepped, replays⟩ := Option.bind_eq_some_iff.mp rest
    rcases Entry.next_cases stepped with
      ⟨owned, same, -, rfl⟩ | ⟨owned, same, -⟩ | ⟨owned, same, -⟩
    · cases same
      exact released_or_live replays (Finset.mem_insert_self ..)
    · cases same
    · cases same
  called := by
    rintro before entry after handle rfl calls
    rw [replay, replayFrom_append] at replays
    obtain ⟨earlier, start, rest⟩ := Option.bind_eq_some_iff.mp replays
    obtain ⟨next, stepped, -⟩ := Option.bind_eq_some_iff.mp rest
    refine acquired_of_live start ?_
    rcases Entry.next_cases stepped with
      ⟨owned, rfl, -⟩ | ⟨owned, rfl, holds, -⟩ | ⟨owned, rfl, holds, -⟩
    · simp at calls
    · simp only [Entry.use.injEq, reduceCtorEq, or_false] at calls
      exact calls ▸ holds
    · simp only [Entry.release.injEq, reduceCtorEq, false_or] at calls
      exact calls ▸ holds
  live := fun _ holds => acquired_of_live replays holds

end Ledger
