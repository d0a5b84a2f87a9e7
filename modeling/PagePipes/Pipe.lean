import PagePipes.Action

set_option autoImplicit false

/-!
# Pipes

A pipe is a chain of actions that produces a value of its point. An action may stand for the chain
of another pipe; such an action is a reference.
-/
namespace PagePipes

structure Pipe where
  actions : List Action := []
  point : Point := {}
  deriving DecidableEq

namespace Pipe

/-- A list is encoded only when it is not empty. -/
def listField (name : String) (items : List Json) : List (String × Json) :=
  if items.isEmpty then [] else [(name, .arr items)]

def toJson (p : Pipe) : Json :=
  .obj (listField "actions" (p.actions.map Action.toJson) ++ [("point", p.point.toJson)])

def digest (p : Pipe) : String := Checksum.Sha1.digestText p.toJson.compact

/-- The well-formed references, in action order. -/
def references (p : Pipe) : List Key :=
  (p.actions.filter (·.is .pipe)).filterMap fun a => a.reference.toOption

theorem length_references (p : Pipe) : p.references.length ≤ p.actions.length :=
  Nat.le_trans (List.length_filterMap_le _ _) (List.length_filter_le _ _)

def isFlat (p : Pipe) : Bool := !p.actions.any (·.is .pipe)

def validateAction (i : Nat) (a : Action) : Result Unit := do
  match a.validate with
  | .ok () => pure ()
  | .error e => throw (.invalidArgument ("action " ++ toString i ++ ": " ++ e.message))
  if a.is .exchange then
    throw (.invalidArgument
      ("action " ++ toString i ++ ": exchange actions are added by the planner"))

def validateFrom : Nat → List Action → Result Unit
  | _, [] => .ok ()
  | i, a :: rest => do
    validateAction i a
    validateFrom (i + 1) rest

def validate (p : Pipe) : Result Unit :=
  if p.actions.isEmpty then .error (.invalidArgument "pipe must have at least one action")
  else validateFrom 0 p.actions

/-- Points a reference at the key that a resolver finds for it. -/
def qualifyAction (resolve : Key → Result Key) (a : Action) : Result Action := do
  if a.is .pipe then
    return a.setKey (← resolve (← a.reference))
  else return a

def qualify (resolve : Key → Result Key) (p : Pipe) : Result Pipe :=
  return { p with actions := ← p.actions.mapM (qualifyAction resolve) }

structure Draft where
  actions : Option (List Action) := none
  point : Option Point := none

def layout : Decoder.Layout := [("actions", true), ("point", true)]

open Decoder in
def decoder (origin : Origin) : Decoder Pipe := fun d => do
  let step (s : Draft) (name : String) (d : Document) : Except DecodeFault Draft :=
    match name with
    | "actions" => return { s with actions := ← once s.actions name (list Action.decoder d) }
    | _ => return { s with point := ← once s.point name (Point.decoder origin d) }
  let s ← record origin layout step {} d
  return ⟨s.actions.getD [], s.point.getD {}⟩

end Pipe
end PagePipes
