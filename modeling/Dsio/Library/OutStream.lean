import Mathlib.Algebra.BigOperators.Group.List.Basic
import Mathlib.Algebra.Order.Ring.Nat
import Mathlib.Logic.Function.Iterate

/-!
# Buffered output

An `OutStream` collects what is inserted into it and writes it out when its buffer is full,
and once more when it is closed. A `Device` says how much of each write is taken. A write
that is cut short is remembered: nothing is inserted after it, and what it was to empty out
of the buffer is tried again by the close. A `Filebuf` is also free to write an insertion out
at once, together with what is buffered. `Plan` has the writes that insertions come to, by
their sizes, and `leaves` what these leave on a device.
-/

namespace Output

universe u

variable {α : Type u}

structure Device where
  bufferSize : Nat
  /-- How many elements the write with this number takes. -/
  accepts : Nat → Nat

/-- How much a full buffer holds; without a buffer every element is written out. -/
def Device.block (device : Device) : Nat := max device.bufferSize 1

structure Filebuf extends Device where
  /-- Whether an insertion of `size` elements behind `buffered` is written out with them. -/
  eager (buffered size : Nat) : Bool

/-- A buffer that is written out only when it is full. -/
def Device.plain (device : Device) : Filebuf := ⟨device, fun _ _ => false⟩

/-! ## Streams -/

structure OutStream (α : Type u) where
  content : List α := []
  buffer : List α := []
  writes : Nat := 0
  failed : Bool := false

namespace OutStream

/-- Writes a text out, the first `kept` elements of which stay in the buffer if the write is
cut short. -/
def write (device : Device) (text : List α) (kept : Nat) (out : OutStream α) : OutStream α where
  content := out.content ++ text.take (device.accepts out.writes)
  buffer := if text.length ≤ device.accepts out.writes then [] else text.take kept
  writes := out.writes + 1
  failed := out.failed || decide (device.accepts out.writes < text.length)

def put (device : Device) (out : OutStream α) (element : α) : OutStream α :=
  if out.failed then out
  else
    let filled := out.buffer ++ [element]
    if filled.length < device.bufferSize then { out with buffer := filled }
    else out.write device filled filled.length

/-- `operator<<`, with what it inserts. -/
def insert (filebuf : Filebuf) (out : OutStream α) (piece : List α) : OutStream α :=
  if out.failed then out
  else if filebuf.eager out.buffer.length piece.length then
    out.write filebuf.toDevice (out.buffer ++ piece) out.buffer.length
  else piece.foldl (put filebuf.toDevice) out

def insertAll (filebuf : Filebuf) (pieces : List (List α)) (out : OutStream α) : OutStream α :=
  pieces.foldl (insert filebuf) out

/-- Writes out what is left, when there is anything. -/
def close (device : Device) (out : OutStream α) : OutStream α :=
  if out.buffer = [] then out else out.write device out.buffer 0

end OutStream

/-! ## The writes that insertions come to -/

/-- A write: its size, and how much of it stays in the buffer if it is cut short. -/
structure Write where
  size : Nat
  kept : Nat
deriving DecidableEq

/-- The writes so far, and how much is buffered behind them. -/
structure Plan where
  writes : List Write := []
  buffered : Nat := 0
deriving DecidableEq

namespace Plan

def put (device : Device) (plan : Plan) : Plan :=
  if plan.buffered + 1 < device.bufferSize then { plan with buffered := plan.buffered + 1 }
  else ⟨plan.writes ++ [⟨plan.buffered + 1, plan.buffered + 1⟩], 0⟩

def insert (filebuf : Filebuf) (plan : Plan) (size : Nat) : Plan :=
  if filebuf.eager plan.buffered size then
    ⟨plan.writes ++ [⟨plan.buffered + size, plan.buffered⟩], 0⟩
  else (put filebuf.toDevice)^[size] plan

def insertAll (filebuf : Filebuf) (sizes : List Nat) (plan : Plan) : Plan :=
  sizes.foldl (insert filebuf) plan

end Plan

/-- The writes that these insertions into a fresh stream come to. -/
def Filebuf.plan (filebuf : Filebuf) (pieces : List (List α)) : Plan :=
  Plan.insertAll filebuf (pieces.map List.length) {}

def total (writes : List Write) : Nat := (writes.map Write.size).sum

/-- From the write with this number on, these are taken whole. -/
def Takes (accepts : Nat → Nat) : Nat → List Write → Prop
  | _, [] => True
  | number, write :: rest => write.size ≤ accepts number ∧ Takes accepts (number + 1) rest

instance Takes.decidable (accepts : Nat → Nat) :
    (number : Nat) → (writes : List Write) → Decidable (Takes accepts number writes)
  | _, [] => isTrue trivial
  | number, write :: rest =>
      have := decidable accepts (number + 1) rest
      inferInstanceAs (Decidable (write.size ≤ accepts number ∧ Takes accepts (number + 1) rest))

/-- What gets to the device of a text that these writes and the one of the close carry. -/
def leaves (accepts : Nat → Nat) : Nat → List Write → List α → List α
  | number, [], text => text.take (accepts number)
  | number, write :: rest, text =>
      if write.size ≤ accepts number then
        text.take write.size ++ leaves accepts (number + 1) rest (text.drop write.size)
      else text.take (accepts number) ++ (text.take write.kept).take (accepts (number + 1))

variable {accepts : Nat → Nat} {number : Nat} {writes more : List Write} {text behind : List α}

@[simp] theorem total_append (writes more : List Write) :
    total (writes ++ more) = total writes + total more := by
  simp [total]

/-- Writes are taken whole when those in front and those behind are. -/
theorem takes_append : Takes accepts number (writes ++ more) ↔
    Takes accepts number writes ∧ Takes accepts (number + writes.length) more := by
  induction writes generalizing number with
  | nil => simp [Takes]
  | cons write rest ih =>
      have position : number + 1 + rest.length = number + (rest.length + 1) := by omega
      simp only [List.cons_append, Takes, ih, List.length_cons, position, and_assoc]

/-- Writes that are taken whole carry the front of the text. -/
theorem leaves_append_of_takes (takes : Takes accepts number writes) (text : List α) :
    leaves accepts number (writes ++ more) text = text.take (total writes) ++
      leaves accepts (number + writes.length) more (text.drop (total writes)) := by
  induction writes generalizing number text with
  | nil => simp [total]
  | cons write rest ih =>
      obtain ⟨enough, takes⟩ := takes
      have position : number + 1 + rest.length = number + (rest.length + 1) := by omega
      have sizes : total (write :: rest) = write.size + total rest := by simp [total]
      rw [List.cons_append, leaves, if_pos enough, ih takes, List.drop_drop, List.length_cons,
        position, sizes, List.take_add, List.append_assoc]

/-- After a write that is cut short nothing else gets there. -/
theorem leaves_append_of_not_takes (cut : ¬ Takes accepts number writes)
    (within : total writes ≤ text.length) (kept : ∀ write ∈ writes, write.kept ≤ write.size) :
    leaves accepts number (writes ++ more) (text ++ behind) =
      leaves accepts number writes text := by
  induction writes generalizing number text with
  | nil => exact absurd trivial cut
  | cons write rest ih =>
      have sizes : total (write :: rest) = write.size + total rest := by simp [total]
      rw [sizes] at within
      have small := kept write List.mem_cons_self
      rw [List.cons_append, leaves, leaves]
      split
      · next enough =>
        have cutLater : ¬ Takes accepts (number + 1) rest := fun takes => cut ⟨enough, takes⟩
        have fits : total rest ≤ (text.drop write.size).length := by
          rw [List.length_drop]
          omega
        rw [List.take_append_of_le_length (by omega), List.drop_append_of_le_length (by omega),
          ih cutLater fits fun other member => kept other (List.mem_cons_of_mem _ member)]
      · rw [List.take_append_of_le_length (by omega), List.take_append_of_le_length (by omega)]

/-! ## What a stream leaves -/

/-- The writes carry all of a text of this length but for what is buffered. -/
structure Plan.Carries (plan : Plan) (length : Nat) : Prop where
  length : total plan.writes + plan.buffered = length
  kept : ∀ write ∈ plan.writes, write.kept ≤ write.size

/-- A write puts one more in the plan, behind what has been buffered. -/
theorem Plan.Carries.write {plan : Plan} {length more kept : Nat} (carries : plan.Carries length)
    (within : kept ≤ plan.buffered + more) :
    Plan.Carries ⟨plan.writes ++ [⟨plan.buffered + more, kept⟩], 0⟩ (length + more) where
  length := by
    have sum := carries.length
    have single : total [⟨plan.buffered + more, kept⟩] = plan.buffered + more := by simp [total]
    rw [total_append, single, Nat.add_zero, ← Nat.add_assoc, sum]
  kept := by
    intro write member
    rcases List.mem_append.mp member with old | new
    · exact carries.kept write old
    · rw [List.mem_singleton.mp new]
      exact within

/-- What is put fills the buffer or is one more write. -/
theorem Plan.put_follows (device : Device) (plan : Plan) :
    ∃ more, (plan.put device).writes = plan.writes ++ more := by
  rw [Plan.put]
  split
  · exact ⟨[], (List.append_nil _).symm⟩
  · exact ⟨_, rfl⟩

/-- One element more is carried or buffered. -/
theorem Plan.Carries.put {plan : Plan} {length : Nat} (carries : plan.Carries length)
    (device : Device) : (plan.put device).Carries (length + 1) := by
  rw [Plan.put]
  split
  · exact ⟨by rw [← carries.length, Nat.add_assoc], carries.kept⟩
  · exact carries.write (Nat.le_refl _)

/-- Elements put one after the other only add writes. -/
theorem Plan.puts_follow (device : Device) (size : Nat) (plan : Plan) :
    ∃ more, ((Plan.put device)^[size] plan).writes = plan.writes ++ more := by
  induction size generalizing plan with
  | zero => exact ⟨[], (List.append_nil _).symm⟩
  | succ size ih =>
      obtain ⟨first, same⟩ := plan.put_follows device
      obtain ⟨others, later⟩ := ih (plan.put device)
      exact ⟨first ++ others, by rw [Function.iterate_succ_apply, later, same, List.append_assoc]⟩

/-- All elements put are carried or buffered. -/
theorem Plan.Carries.puts {plan : Plan} {length : Nat} (carries : plan.Carries length)
    (device : Device) (size : Nat) : ((Plan.put device)^[size] plan).Carries (length + size) := by
  induction size generalizing plan length with
  | zero => exact carries
  | succ size ih =>
      have next := ih (carries.put device)
      rwa [Nat.add_assoc, Nat.add_comm 1] at next

/-- An insertion only adds writes. -/
theorem Plan.insert_follows (filebuf : Filebuf) (size : Nat) (plan : Plan) :
    ∃ more, (plan.insert filebuf size).writes = plan.writes ++ more := by
  rw [Plan.insert]
  split
  · exact ⟨_, rfl⟩
  · exact plan.puts_follow filebuf.toDevice size

/-- All of an insertion is carried or buffered. -/
theorem Plan.Carries.insert {plan : Plan} {length : Nat} (carries : plan.Carries length)
    (filebuf : Filebuf) (size : Nat) : (plan.insert filebuf size).Carries (length + size) := by
  rw [Plan.insert]
  split
  · exact carries.write (Nat.le_add_right ..)
  · exact carries.puts filebuf.toDevice size

namespace OutStream

/-- A fresh stream that this text was inserted into: all writes so far were whole, or one was
cut short. -/
inductive Holds (device : Device) (plan : Plan) (text : List α) (out : OutStream α) : Prop where
  | going (fine : out.failed = false) (whole : out.content ++ out.buffer = text)
      (buffered : out.buffer.length = plan.buffered) (count : out.writes = plan.writes.length)
      (carries : plan.Carries text.length) (takes : Takes device.accepts 0 plan.writes)
  | cut (broken : out.failed = true) (cut : ¬ Takes device.accepts 0 plan.writes)
      (left : out.content ++ out.buffer.take (device.accepts out.writes) =
        leaves device.accepts 0 plan.writes text)
      (carries : plan.Carries text.length)

variable {device : Device} {filebuf : Filebuf} {plan : Plan} {out : OutStream α}

/-- A fresh stream holds nothing. -/
theorem holds_fresh (device : Device) : Holds device {} ([] : List α) {} :=
  .going rfl rfl rfl rfl ⟨rfl, nofun⟩ trivial

/-- The buffer is written out together with a piece. -/
theorem Holds.write (fine : out.failed = false) (whole : out.content ++ out.buffer = text)
    (buffered : out.buffer.length = plan.buffered) (count : out.writes = plan.writes.length)
    (carries : plan.Carries text.length) (takes : Takes device.accepts 0 plan.writes)
    (piece : List α) {kept : Nat} (within : kept ≤ plan.buffered + piece.length) :
    (out.write device (out.buffer ++ piece) kept).Holds device
      ⟨plan.writes ++ [⟨plan.buffered + piece.length, kept⟩], 0⟩ (text ++ piece) := by
  have next := List.length_append ▸ carries.write within
  have written : out.content.length = total plan.writes := by
    have sum := carries.length
    rw [← whole, List.length_append, buffered] at sum
    omega
  have size : (out.buffer ++ piece).length = plan.buffered + piece.length := by
    rw [List.length_append, buffered]
  have extended : out.content ++ (out.buffer ++ piece) = text ++ piece := by
    rw [← List.append_assoc, whole]
  rcases Nat.lt_or_ge (device.accepts out.writes) (plan.buffered + piece.length) with short | enough
  · have cut : ¬ Takes device.accepts 0
        (plan.writes ++ [⟨plan.buffered + piece.length, kept⟩]) := by
      rw [takes_append, Nat.zero_add, ← count]
      rintro ⟨-, enough, -⟩
      exact absurd short (Nat.not_lt.mpr enough)
    refine .cut ?_ cut ?_ next
    · simp only [OutStream.write, fine, size, Bool.false_or, decide_eq_true_eq]
      exact short
    · have front : (text ++ piece).take (total plan.writes) = out.content := by
        rw [← extended, ← written, List.take_left']
        rfl
      have rest : (text ++ piece).drop (total plan.writes) = out.buffer ++ piece := by
        rw [← extended, ← written, List.drop_left']
        rfl
      rw [leaves_append_of_takes takes, front, rest, Nat.zero_add, ← count, leaves,
        if_neg (Nat.not_le.mpr short)]
      simp only [OutStream.write, size, if_neg (Nat.not_le.mpr short), List.append_assoc]
  · refine .going ?_ ?_ ?_ ?_ next ?_
    · simp only [OutStream.write, fine, size, Bool.false_or, decide_eq_false_iff_not]
      exact Nat.not_lt.mpr enough
    · simp only [OutStream.write, size, if_pos enough, List.append_nil]
      rw [List.take_of_length_le (size ▸ enough), extended]
    · simp only [OutStream.write, size, if_pos enough, List.length_nil]
    · simp only [OutStream.write, List.length_append, List.length_singleton, count]
    · rw [takes_append, Nat.zero_add, ← count]
      exact ⟨takes, enough, trivial⟩

/-- What comes after a write that was cut short changes nothing. -/
theorem Holds.later (broken : out.failed = true) (cut : ¬ Takes device.accepts 0 plan.writes)
    (left : out.content ++ out.buffer.take (device.accepts out.writes) =
      leaves device.accepts 0 plan.writes text)
    (carries : plan.Carries text.length) {next : Plan} {piece : List α}
    (follows : ∃ more, next.writes = plan.writes ++ more)
    (nextCarries : next.Carries (text.length + piece.length)) :
    out.Holds device next (text ++ piece) := by
  obtain ⟨more, same⟩ := follows
  have within : total plan.writes ≤ text.length := by
    have sum := carries.length
    omega
  refine .cut broken ?_ ?_ (List.length_append ▸ nextCarries)
  · rw [same, takes_append]
    exact fun takes => cut takes.1
  · rw [same, leaves_append_of_not_takes cut within carries.kept, left]

/-- A stream and its plan put an element alike. -/
theorem Holds.put (holds : out.Holds device plan text) (element : α) :
    (out.put device element).Holds device (plan.put device) (text ++ [element]) := by
  cases holds with
  | cut broken cut left carries =>
      rw [OutStream.put, if_pos broken]
      exact .later broken cut left carries (plan.put_follows device) (carries.put device)
  | going fine whole buffered count carries takes =>
      have next : (plan.put device).Carries (text ++ [element]).length :=
        List.length_append ▸ carries.put device
      have size : (out.buffer ++ [element]).length = plan.buffered + 1 := by
        rw [List.length_append, buffered, List.length_singleton]
      simp only [OutStream.put, fine, Bool.false_eq_true, if_false, size]
      simp only [Plan.put] at next ⊢
      split
      · next room =>
        rw [if_pos room] at next
        exact .going rfl (by rw [← List.append_assoc, whole]) size count next takes
      · exact .write fine whole buffered count carries takes [element] (Nat.le_refl _)

/-- A stream and its plan put the elements of a piece alike. -/
theorem Holds.puts (holds : out.Holds device plan text) (piece : List α) :
    (piece.foldl (OutStream.put device) out).Holds device
      ((Plan.put device)^[piece.length] plan) (text ++ piece) := by
  induction piece generalizing out plan text with
  | nil => simpa using holds
  | cons element rest ih =>
      have next := ih (holds.put element)
      rwa [List.append_assoc, List.singleton_append] at next

/-- A stream and its plan insert a piece alike. -/
theorem Holds.insert (holds : out.Holds filebuf.toDevice plan text) (piece : List α) :
    (out.insert filebuf piece).Holds filebuf.toDevice (plan.insert filebuf piece.length)
      (text ++ piece) := by
  cases holds with
  | cut broken cut left carries =>
      rw [OutStream.insert, if_pos broken]
      exact .later broken cut left carries (plan.insert_follows filebuf _)
        (carries.insert filebuf _)
  | going fine whole buffered count carries takes =>
      simp only [OutStream.insert, fine, Bool.false_eq_true, if_false, Plan.insert, buffered]
      split
      · exact .write fine whole buffered count carries takes piece (Nat.le_add_right ..)
      · exact (Holds.going fine whole buffered count carries takes).puts piece

/-- A stream and its plan insert all pieces alike. -/
theorem Holds.insertAll (holds : out.Holds filebuf.toDevice plan text) (pieces : List (List α)) :
    (out.insertAll filebuf pieces).Holds filebuf.toDevice
      (plan.insertAll filebuf (pieces.map List.length)) (text ++ pieces.flatten) := by
  induction pieces generalizing out plan text with
  | nil => simpa [OutStream.insertAll, Plan.insertAll] using holds
  | cons piece rest ih =>
      have next := ih (holds.insert piece)
      rwa [List.append_assoc] at next

/-- The stream has failed exactly when a write was cut short. -/
theorem Holds.fine_iff (holds : out.Holds device plan text) :
    out.failed = false ↔ Takes device.accepts 0 plan.writes := by
  cases holds with
  | going fine _ _ _ _ takes => exact ⟨fun _ => takes, fun _ => fine⟩
  | cut broken cut => simp [broken, cut]

/-- Closing a stream writes out what is buffered, as far as it is taken. -/
theorem close_content (device : Device) (out : OutStream α) : (out.close device).content =
    out.content ++ out.buffer.take (device.accepts out.writes) := by
  rw [OutStream.close]
  split
  · next empty => rw [empty, List.take_nil, List.append_nil]
  · rfl

/-- Closed, a stream has left on the device what its writes carry. -/
theorem Holds.close (holds : out.Holds device plan text) :
    (out.close device).content = leaves device.accepts 0 plan.writes text := by
  rw [close_content]
  cases holds with
  | cut _ _ left => exact left
  | going fine whole buffered count carries takes =>
      have written : out.content.length = total plan.writes := by
        have sum := carries.length
        rw [← whole, List.length_append, buffered] at sum
        omega
      have split := @leaves_append_of_takes _ _ _ _ [] takes text
      rw [List.append_nil, Nat.zero_add, ← count, ← written, ← whole, List.take_left' rfl,
        List.drop_left' rfl] at split
      rw [← whole, split]
      rfl

/-- A stream without a failure has written all exactly when the write of its close is whole. -/
theorem Holds.close_eq_iff (holds : out.Holds device plan text) (fine : out.failed = false) :
    (out.close device).content = text ↔ plan.buffered ≤ device.accepts plan.writes.length := by
  rw [close_content]
  cases holds with
  | cut broken => simp [broken] at fine
  | going fine whole buffered count =>
      rw [← whole, List.append_cancel_left_eq, List.take_eq_self_iff, buffered, count]

/-- A stream is closed without a failure exactly when it had none and all has been written. -/
theorem Holds.close_fine_iff (holds : out.Holds device plan text) :
    (out.close device).failed = false ↔
      out.failed = false ∧ plan.buffered ≤ device.accepts plan.writes.length := by
  rw [OutStream.close]
  cases holds with
  | cut broken => split <;> simp [OutStream.write, broken]
  | going fine whole buffered count =>
      rw [← buffered, ← count]
      split
      · next empty => simp [fine, empty]
      · simp [OutStream.write, fine]

end OutStream

/-- Insertions behind others. -/
theorem Filebuf.plan_append (filebuf : Filebuf) (pieces more : List (List α)) :
    filebuf.plan (pieces ++ more) =
      (filebuf.plan pieces).insertAll filebuf (more.map List.length) := by
  simp only [plan, Plan.insertAll, List.map_append, List.foldl_append]

/-! ## Buffers that are written when they are full -/

/-- By induction on the puts: the buffer stays below its size. -/
theorem Plan.iterate_put (device : Device) (size : Nat) :
    ((Plan.put device)^[size] {}).writes.length * device.block +
        ((Plan.put device)^[size] {}).buffered = size ∧
      ((Plan.put device)^[size] {}).buffered < device.block := by
  induction size with
  | zero => exact ⟨by simp, Nat.lt_of_lt_of_le Nat.one_pos (Nat.le_max_right ..)⟩
  | succ size ih =>
      rw [Function.iterate_succ_apply']
      generalize (Plan.put device)^[size] {} = plan at ih ⊢
      obtain ⟨sum, room⟩ := ih
      have block : device.block = max device.bufferSize 1 := rfl
      rw [Plan.put]
      split
      · next more =>
        refine ⟨?_, ?_⟩ <;> dsimp only <;> omega
      · next full =>
        have filled : plan.buffered + 1 = device.block := by omega
        refine ⟨?_, by dsimp only; omega⟩
        rw [List.length_append, List.length_singleton, Nat.succ_mul, ← filled, Nat.add_zero,
          filled, ← filled, ← Nat.add_assoc, filled, sum]

/-- How the pieces were inserted does not matter. -/
theorem Device.plan_plain (device : Device) (pieces : List (List α)) :
    device.plain.plan pieces = (Plan.put device)^[pieces.flatten.length] {} := by
  have inserts (plan : Plan) : Plan.insertAll device.plain (pieces.map List.length) plan =
      (Plan.put device)^[pieces.flatten.length] plan := by
    induction pieces generalizing plan with
    | nil => rfl
    | cons piece rest ih =>
        rw [List.flatten_cons, List.length_append, Nat.add_comm, Function.iterate_add_apply]
        exact ih _
  exact inserts {}

/-- The writes are of full buffers, and the close has what does not fill one. -/
theorem Device.plan_plain_eq (device : Device) (pieces : List (List α)) :
    (device.plain.plan pieces).writes.length = pieces.flatten.length / device.block ∧
      (device.plain.plan pieces).buffered = pieces.flatten.length % device.block := by
  obtain ⟨sum, room⟩ := Plan.iterate_put device pieces.flatten.length
  rw [← device.plan_plain] at sum room
  have positive : 0 < device.block := Nat.lt_of_le_of_lt (Nat.zero_le _) room
  obtain ⟨writes, rest⟩ := (Nat.div_mod_unique positive).mpr
    ⟨(Nat.add_comm _ _).trans ((congrArg (· + _) (Nat.mul_comm _ _)).trans sum), room⟩
  exact ⟨writes.symm, rest.symm⟩

end Output
