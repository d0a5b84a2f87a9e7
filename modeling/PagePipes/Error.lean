import PagePipes.Key

set_option autoImplicit false

/-!
# Errors

Every operation of the library fails with one of nine kinds of error. `Code` is the coarser class
that a caller over the network sees, with its status number.
-/
namespace PagePipes

inductive Code
  | canceled
  | unknown
  | invalidArgument
  | deadlineExceeded
  | notFound
  | alreadyExists
  | permissionDenied
  | resourceExhausted
  | failedPrecondition
  | aborted
  | outOfRange
  | unimplemented
  | internal
  | unavailable
  | dataLoss
  | unauthenticated
  deriving DecidableEq, Repr

namespace Code

def text : Code → String
  | .canceled => "canceled"
  | .unknown => "unknown"
  | .invalidArgument => "invalid argument"
  | .deadlineExceeded => "deadline exceeded"
  | .notFound => "not found"
  | .alreadyExists => "already exists"
  | .permissionDenied => "permission denied"
  | .resourceExhausted => "resource exhausted"
  | .failedPrecondition => "failed precondition"
  | .aborted => "aborted"
  | .outOfRange => "out of range"
  | .unimplemented => "unimplemented"
  | .internal => "internal"
  | .unavailable => "unavailable"
  | .dataLoss => "data loss"
  | .unauthenticated => "unauthenticated"

def httpStatus : Code → Nat
  | .notFound => 404
  | .alreadyExists => 409
  | .aborted => 409
  | .invalidArgument => 400
  | .failedPrecondition => 412
  | .unimplemented => 501
  | .internal => 500
  | .dataLoss => 500
  | .unknown => 500
  | .unavailable => 503
  | .canceled => 499
  | .deadlineExceeded => 504
  | .resourceExhausted => 507
  | .outOfRange => 416
  | .unauthenticated => 401
  | .permissionDenied => 403

end Code

inductive Error
  | invalidArgument (reason : String)
  | notFound (what : String)
  /-- A bare name that several digests carry. -/
  | ambiguous (name : String) (count : Nat)
  | alreadyExists (what : String)
  | failedPrecondition (reason : String)
  /-- A resource that cannot be ordered, and a dependency of it on the way round. -/
  | cycle (source target : Key)
  | deadlineExceeded (what : String)
  | unavailable (what : String)
  | internal (what : String)
  deriving DecidableEq, Repr

namespace Error

def code : Error → Code
  | .invalidArgument _ => .invalidArgument
  | .notFound _ => .notFound
  | .ambiguous _ _ => .failedPrecondition
  | .alreadyExists _ => .alreadyExists
  | .failedPrecondition _ => .failedPrecondition
  | .cycle _ _ => .failedPrecondition
  | .deadlineExceeded _ => .deadlineExceeded
  | .unavailable _ => .unavailable
  | .internal _ => .internal

def message : Error → String
  | .invalidArgument reason => "invalid argument: " ++ reason
  | .notFound what => "not found: " ++ what
  | .ambiguous name count =>
    "ambiguous reference: " ++ name ++ " matches " ++ toString count ++ " digests"
  | .alreadyExists what => "already exists: " ++ what
  | .failedPrecondition reason => "failed precondition: " ++ reason
  | .cycle source target => "cycle detected: " ++ source.text ++ " -> " ++ target.text
  | .deadlineExceeded what => "deadline exceeded: " ++ what
  | .unavailable what => "unavailable: " ++ what
  | .internal what => "internal: " ++ what

end Error

abbrev Result (α : Type) := Except Error α

end PagePipes
