import PagePipes.Action

set_option autoImplicit false

/-!
# Plans

A plan is a list of steps. Each step applies an action to the value of an earlier step, or to the
page when its input is zero; steps are numbered from one. The roots read the page, and the
exchanges report values.
-/
namespace PagePipes

structure PlanStep where
  input : Nat
  action : Action
  deriving DecidableEq

def PlanStep.toJson (s : PlanStep) : Json :=
  .obj [("input", .ofNat s.input), ("action", s.action.toJson)]

structure Plan where
  roots : List Nat := []
  exchanges : List Nat := []
  steps : List PlanStep := []
  deriving DecidableEq

namespace Plan

def toJson (p : Plan) : Json :=
  .obj [("roots", .arr (p.roots.map .ofNat)), ("exchanges", .arr (p.exchanges.map .ofNat)),
    ("steps", .arr (p.steps.map PlanStep.toJson))]

def step? (p : Plan) : Nat → Option PlanStep
  | 0 => none
  | i + 1 => p.steps[i]?

def target (p : Plan) (i : Nat) : Result Key :=
  match p.step? i with
  | none => .error (.invalidArgument ("exchange index out of range: " ++ toString i))
  | some s => s.action.reference

def targets (p : Plan) : Result (List Key) := p.exchanges.mapM p.target

/-- Checks that steps from a position on read from steps before them. -/
def validateInputs : Nat → List PlanStep → Result Unit
  | _, [] => .ok ()
  | i, s :: rest =>
    if i < s.input then
      .error (.invalidArgument ("step " ++ toString (i + 1) ++ " reads from step "
        ++ toString s.input ++ " which is not emitted before it"))
    else validateInputs (i + 1) rest

def validateRoot (p : Plan) (i : Nat) : Result Unit :=
  if ((p.step? i).map (·.input == 0)).getD false then .ok ()
  else .error (.invalidArgument ("root " ++ toString i ++ " is not a root step"))

def validateExchange (p : Plan) (i : Nat) : Result Unit :=
  if ((p.step? i).map (·.action.is .exchange)).getD false then .ok ()
  else .error (.invalidArgument ("exchange " ++ toString i ++ " is not an exchange step"))

def validate (p : Plan) : Result Unit := do
  validateInputs 0 p.steps
  p.roots.forM p.validateRoot
  p.exchanges.forM p.validateExchange

structure StepDraft where
  input : Option Nat := none
  action : Option Action := none

def stepLayout : Decoder.Layout := [("input", true), ("action", false)]

open Decoder in
def stepDecoder (origin : Origin) : Decoder PlanStep := fun d => do
  let step (s : StepDraft) (name : String) (d : Document) : Except DecodeFault StepDraft :=
    match name with
    | "input" => return { s with input := ← once s.input name (natural d) }
    | _ => return { s with action := ← once s.action name (Action.decoder d) }
  let s ← record origin stepLayout step {} d
  return ⟨s.input.getD 0, ← need "action" s.action⟩

structure Draft where
  roots : Option (List Nat) := none
  exchanges : Option (List Nat) := none
  steps : Option (List PlanStep) := none

def layout : Decoder.Layout := [("roots", true), ("exchanges", true), ("steps", true)]

open Decoder in
def decoder (origin : Origin) : Decoder Plan := fun d => do
  let step (s : Draft) (name : String) (d : Document) : Except DecodeFault Draft :=
    match name with
    | "roots" => return { s with roots := ← once s.roots name (list natural d) }
    | "exchanges" => return { s with exchanges := ← once s.exchanges name (list natural d) }
    | _ => return { s with steps := ← once s.steps name (list (stepDecoder origin) d) }
  let s ← record origin layout step {} d
  return ⟨s.roots.getD [], s.exchanges.getD [], s.steps.getD []⟩

end Plan
end PagePipes
