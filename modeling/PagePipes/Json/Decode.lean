import PagePipes.Error
import PagePipes.Json.Document

set_option autoImplicit false

/-!
# Decoding documents

A decoder takes a document to a domain value or to the first fault in the order of the text. A
record is written as an object, or as an array of its fields in declaration order; trailing fields
that have a default may be left out of the array. Fields of other names are skipped, a repeated
field is a fault, and a missing field is reported once the object has ended.
-/
namespace PagePipes

/-- Why a document is not what a decoder asks for. The first three are faults of the text, the
others of what it says. -/
inductive DecodeFault
  | broken
  | expectedValue
  | trailingItems
  | invalidType
  | invalidValue
  | invalidLength
  | missingField (name : String)
  | repeatedField (name : String)
  | unknownVariant (name : String) (expected : List String)
  | custom (message : String)
  deriving DecidableEq, Repr

namespace DecodeFault

/-- Names in a list of alternatives stand between grave accents. -/
def marked (name : String) : String := "\x60" ++ name ++ "\x60"

def message : DecodeFault → String
  | .broken => "malformed JSON"
  | .expectedValue => "expected value"
  | .trailingItems => "trailing characters"
  | .invalidType => "invalid type"
  | .invalidValue => "invalid value"
  | .invalidLength => "invalid length"
  | .missingField name => "missing field " ++ marked name
  | .repeatedField name => "duplicate field " ++ marked name
  | .unknownVariant name expected =>
    "unknown variant " ++ marked name ++ ", expected one of "
      ++ String.intercalate ", " (expected.map marked)
  | .custom message => message

def isSyntax : DecodeFault → Bool
  | .broken | .expectedValue | .trailingItems => true
  | _ => false

end DecodeFault

/-- Where a document comes from: a text, or a value that was read before. -/
inductive Origin
  | text
  | value
  deriving DecidableEq, Repr

abbrev Decoder (α : Type) := Document → Except DecodeFault α

namespace Decoder

def mismatch : Document → DecodeFault
  | .broken | .number none | .text none => .broken
  | _ => .invalidType

def bool : Decoder Bool
  | .bool b => .ok b
  | d => .error (mismatch d)

def string : Decoder String
  | .text (some s) => .ok s
  | d => .error (mismatch d)

def natural : Decoder Nat
  | .number (some (.int n)) => if n < 0 then .error .invalidValue else .ok n.toNat
  | d => .error (mismatch d)

def json : Decoder Json := fun d =>
  match d.toJson? with
  | some j => .ok j
  | none => .error .broken

/-- Null stands for a missing value. -/
def option {α : Type} (inner : Decoder α) : Decoder (Option α)
  | .null => .ok none
  | d => (inner d).map some

/-- A deep array is a fault of the text; anything else is no array. -/
def list {α : Type} (inner : Decoder α) : Decoder (List α)
  | .array items closed => do
    let xs ← items.mapM inner
    if closed then .ok xs else .error .broken
  | .deep _ => .error .broken
  | d => .error (mismatch d)

/-- A name out of a list of alternatives. The name may also be the only key of an object whose
value is null. -/
def variant {α : Type} (origin : Origin) (alternatives : List (String × α)) : Decoder α :=
  let pick (name : String) : Except DecodeFault α :=
    match alternatives.lookup name with
    | some a => .ok a
    | none => .error (.unknownVariant name (alternatives.map (·.1)))
  fun d => match d, origin with
    | .text (some s), _ => pick s
    | .text none, _ => .error .broken
    | .broken, _ => .error .broken
    | .object ((key, content) :: more) closed, _ => do
      if origin = .value ∧ !more.isEmpty then throw .invalidValue
      let a ← match key with
        | some name => pick name
        | none => throw .broken
      match content with
      | .null => pure ()
      | other => throw (mismatch other)
      if !closed && more.isEmpty then throw .broken
      if !more.isEmpty then throw .expectedValue
      return a
    | .object [] closed, .text => .error (if closed then .expectedValue else .broken)
    | .object [] _, .value => .error .invalidValue
    | _, .text => .error .expectedValue
    | _, .value => .error .invalidType

def once {α : Type} (slot : Option α) (name : String) (value : Except DecodeFault α) :
    Except DecodeFault (Option α) :=
  if slot.isSome then .error (.repeatedField name) else value.map some

def need {α : Type} (name : String) (slot : Option α) : Except DecodeFault α :=
  match slot with
  | some a => .ok a
  | none => .error (.missingField name)

/-- The fields of a record in declaration order; each says whether it may be left out. -/
abbrev Layout := List (String × Bool)

def objectFields {σ : Type} (layout : Layout)
    (step : σ → String → Document → Except DecodeFault σ) :
    σ → List (Option String × Document) → Except DecodeFault σ
  | s, [] => .ok s
  | s, (key, d) :: rest =>
    match key with
    | none => .error .broken
    | some name =>
      if (layout.lookup name).isSome then do
        objectFields layout step (← step s name d) rest
      else if d.isWhole then objectFields layout step s rest
      else .error .broken

/-- Steps through the items of an array as the fields of the layout. -/
def arrayFields {σ : Type} (origin : Origin) (closed : Bool)
    (step : σ → String → Document → Except DecodeFault σ) :
    Layout → σ → List Document → Except DecodeFault σ
  | [], s, [] => if closed then .ok s else .error .broken
  | [], _, d :: _ =>
    .error (match origin with
      | .value => .invalidLength
      | .text => if closed && d.isWhole then .trailingItems else .broken)
  | (_, optional) :: layout, s, [] =>
    if !closed then .error .broken
    else if optional then arrayFields origin closed step layout s []
    else .error .invalidLength
  | (name, _) :: layout, s, d :: rest => do
    arrayFields origin closed step layout (← step s name d) rest

/-- A record, from its object or array form. -/
def record {σ : Type} (origin : Origin) (layout : Layout)
    (step : σ → String → Document → Except DecodeFault σ) (initial : σ) : Decoder σ
  | .object fields closed => do
    let s ← objectFields layout step initial fields
    if closed then .ok s else .error .broken
  | .array items closed => arrayFields origin closed step layout initial items
  | .deep _ => .error .broken
  | d => .error (mismatch d)

def ofValue {α : Type} (decoder : Origin → Decoder α) (j : Json) : Result α :=
  match decoder .value (.ofJson j) with
  | .ok a => .ok a
  | .error fault => .error (.invalidArgument fault.message)

/-- Decodes a text. A text that is not JSON from end to end is malformed, whatever else may be
wrong with it; a text that a decoder accepts may hold members that no value can hold. -/
def ofText {α : Type} (decoder : Origin → Decoder α) (s : String) : Result α :=
  let (d, ended) := Document.read s
  let malformed : Result α := .error (.invalidArgument DecodeFault.broken.message)
  match decoder .text d with
  | .ok a => if ended then .ok a else malformed
  | .error fault =>
    if ended && d.toJson?.isSome then .error (.invalidArgument fault.message) else malformed

end Decoder
end PagePipes
