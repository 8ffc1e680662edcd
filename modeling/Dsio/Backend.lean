import Dsio.Outcome

/-!
# Batched asynchronous reads

The vocabulary of `backend.hpp`. A `Backend` is a base class with two
implementations: `Dsio.ThreadBackend` and `Dsio.UringBackend`. `ReapContract` is
what the comment of `Backend::reap` promises of both.
-/

namespace Dsio

/-- A `std::span<std::byte>`: the allocation it starts at, and its size. -/
structure Span where
  address : Nat
  size : Nat
deriving DecidableEq, Repr

structure ReadRequest where
  offset : Nat
  dst : Span
  token : Nat
deriving DecidableEq, Repr

/-- `error` is an errno value; 0 on success. -/
structure Completion where
  token : Nat := 0
  bytes : Nat := 0
  error : Nat := 0
deriving DecidableEq, Repr

structure BackendOptions where
  queueDepth : Nat := 64
  threads : Nat := 0
deriving DecidableEq, Repr

/-- `EAGAIN`. -/
def eagain : Nat := 11

/-- What `reap(out, min)` promises with `inFlight` requests in flight: the count
it returns and `in_flight()` afterwards. -/
structure ReapContract (inFlight size min count after : Nat) : Prop where
  enough : Min.min (Min.min min size) inFlight ≤ count
  fits : count ≤ Min.min size inFlight
  left : after = inFlight - count

end Dsio
