/-!
# Outcomes

`fp::Outcome<T>` holds a value or an `fp::Error`: a message and, for a failed
system call, its errno.
-/

namespace Dsio

abbrev Byte := UInt8

/-- `fp::Error`; `code` is the errno of its `std::error_code`. -/
structure Error where
  message : String
  code : Option Nat := none
deriving DecidableEq, Repr

/-- `fp::Outcome<T>`. -/
abbrev Outcome (α : Type) := Except Error α

/-- What a call can throw: the catch clauses of the library name
`std::runtime_error`, so only that distinction is kept. -/
inductive Exception where
  | runtimeError (what : String)
  | other (what : String)
deriving DecidableEq, Repr

end Dsio
