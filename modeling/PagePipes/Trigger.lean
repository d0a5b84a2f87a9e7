import PagePipes.Key.Decode
import PagePipes.Planner
import PagePipes.Url.Parser
import PagePipes.Uuid

set_option autoImplicit false

/-!
# Triggers

A trigger asks which pipes apply to a page. They are planned together, and the plan is stored under
a fresh identifier under which clients report the values.
-/
namespace PagePipes

structure MatchedPipe where
  name : Key
  pipe : Pipe
  deriving DecidableEq

def MatchedPipe.toJson (m : MatchedPipe) : Json :=
  .obj [("name", m.name.toJson), ("pipe", m.pipe.toJson)]

/-- What planning reads from a store. -/
structure PipeSource where
  /-- The pipes that apply to a page, in the order in which they are found. -/
  matched : Url → Result (List MatchedPipe)
  referenced : Key → Result (Key.Map Pipe)

namespace Trigger

structure Request where
  url : String
  includePipes : Bool := false
  includePlan : Bool := true
  deriving DecidableEq, Repr

structure Response where
  pipes : Option (List MatchedPipe)
  plan : Option Plan
  uuid : Uuid
  deriving DecidableEq

def Response.toJson (r : Response) : Json :=
  .obj ((r.pipes.toList.map fun ms => ("pipes", .arr (ms.map MatchedPipe.toJson)))
    ++ (r.plan.toList.map fun p => ("plan", p.toJson))
    ++ [("storage", .obj [("uuid", .str r.uuid.text)])])

/-- What the pipes of a page are planned to. -/
structure Outcome where
  matched : List MatchedPipe
  plan : Plan
  planned : List PlannedPipe
  deriving DecidableEq

def parseUrl (s : String) : Result Url :=
  match Url.parse s with
  | .ok u => .ok u
  | .error fault =>
    .error (.invalidArgument
      ("invalid url " ++ Text.Quoted.text s ++ ": " ++ fault.message))

def addMatched (source : PipeSource) (planner : Planner) (m : MatchedPipe) : Result Planner := do
  let table ← source.referenced m.name
  (table.toList.foldl (fun p e => p.provide e.1 e.2) planner).add m.name m.pipe

def outcome (source : PipeSource) (u : Url) : Result Outcome := do
  let matched ← source.matched u
  let planner ← matched.foldlM (addMatched source) {}
  return ⟨matched, planner.build, planner.planned⟩

def response (request : Request) (uuid : Uuid) (o : Outcome) : Response :=
  { pipes := if request.includePipes then some o.matched else none
    plan := if request.includePlan then some o.plan else none
    uuid }

structure Draft where
  url : Option String := none
  includePipes : Option Bool := none
  includePlan : Option Bool := none

def layout : Decoder.Layout :=
  [("url", false), ("include_pipes", true), ("include_plan", true)]

open Decoder in
def Request.decoder (origin : Origin) : Decoder Request := fun d => do
  let step (s : Draft) (name : String) (d : Document) : Except DecodeFault Draft :=
    match name with
    | "url" => return { s with url := ← once s.url name (string d) }
    | "include_pipes" => return { s with includePipes := ← once s.includePipes name (bool d) }
    | _ => return { s with includePlan := ← once s.includePlan name (bool d) }
  let s ← record origin layout step {} d
  return ⟨← need "url" s.url, s.includePipes.getD false, s.includePlan.getD true⟩

end Trigger
end PagePipes
