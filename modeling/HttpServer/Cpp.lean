import Mathlib.Algebra.Group.Nat.Defs
import Mathlib.Data.Nat.Notation

/-!
# The C++ runtime under the model

Byte strings, the exceptions of the standard library that the modelled code can
raise, and the size limit of its containers. A `std::string`, a
`std::string_view` and the bytes of a buffer are all lists of octets; a
function that may throw returns an `Except StdException`.
-/

/-- A byte string: the contents of a `std::string` or of a memory region. -/
abbrev Bytes := List UInt8

/-- A string literal of the source, all of whose characters are ASCII. -/
def lit (s : String) : Bytes := s.toList.map fun c => UInt8.ofNat c.toNat

/-- The exceptions of the standard library that the modelled functions can
raise. -/
inductive StdException
  /-- `std::invalid_argument` -/
  | invalidArgument
  /-- `std::out_of_range` -/
  | outOfRange
  /-- `std::length_error` -/
  | lengthError
  /-- `std::bad_function_call` -/
  | badFunctionCall
  /-- An exception of a callback the server was configured with. -/
  | userException (code : ℕ)
  deriving DecidableEq, Repr

/-- `max_size()` of a `std::vector` of one-byte elements: the largest
difference of two pointers. Growing beyond it throws `std::length_error`. -/
def vectorMaxSize : ℕ := 2 ^ 63 - 1
