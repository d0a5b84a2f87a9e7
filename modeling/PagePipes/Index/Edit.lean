import PagePipes.Index

set_option autoImplicit false

/-!
# Edits in place

An edit adds a resource to an index or takes a key out of it. It goes about its work in place: it
writes one map after the other, and what is written before an error stays written.
-/
namespace PagePipes

namespace Index

def alreadyIndexed (r : Resource) : Error := .alreadyExists
  (r.kind.text ++ " " ++ r.key.text ++ " is already indexed with different metadata")

def putName (ix : Index) (k : Key) : Index :=
  { ix with names := ix.names.insert k.name ((ix.keysOf k.name).insert k) }

/-- What an addition does about the resource that it finds under its key. -/
def settle (r : Resource) : Option Resource → ExceptT Error (StateM Index) Key
  | some existing => if existing = r then return r.key else throw (alreadyIndexed r)
  | none => do
    modify (·.putSpec r.key r.spec)
    modify (·.putName r.key)
    modify fun ix => { ix with resources := ix.resources.insert r.key r }
    return r.key

def addInPlace (r : Resource) : ExceptT Error (StateM Index) Key := do
  liftM r.validate
  settle r (← get).resources[r.key]?

def removeInPlace (k : Key) : StateM Index (Option Resource) := do
  match (← get).resources[k]? with
  | none => return none
  | some r =>
    modify fun ix => { ix with resources := ix.resources.erase k }
    modify fun ix => { ix with pipes := ix.pipes.erase k }
    modify fun ix => { ix with views := ix.views.erase k }
    modify fun ix => { ix with rules := ix.rules.erase k }
    modify fun ix => { ix with names := dropName ix.names k }
    return some r

end Index

inductive Edit
  | add (resource : Resource)
  | remove (key : Key)
  deriving DecidableEq

/-- Goes about an edit; an addition may fail. -/
def Edit.inPlace : Edit → StateM Index Unit
  | .add r => discard (Index.addInPlace r).run
  | .remove k => discard (Index.removeInPlace k)

/-- The index after a list of edits of an empty one. -/
def Index.ofEdits (es : List Edit) : Index := ((es.forM Edit.inPlace).run .empty).2

end PagePipes
