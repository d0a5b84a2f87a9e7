import PagePipes.Index.Qualified
import PagePipes.Trigger

set_option autoImplicit false

/-!
# Stores in memory

A store in memory is a qualified index with the set of its disabled pipes and the plans made so
far. A page is matched against every rule of the index.
-/
namespace PagePipes

structure StoredPlan where
  plan : Plan
  pipes : List PlannedPipe
  deriving DecidableEq

structure MemoryStore where
  index : Index
  disabled : KeySet := ∅
  plans : List (Uuid × StoredPlan) := []

namespace MemoryStore

def ofIndex (ix : Index) : Result MemoryStore := return { index := ← ix.qualified }

def setDisabled (s : MemoryStore) (k : Key) (disabled : Bool) : Result MemoryStore :=
  if k ∈ s.index.pipes then
    .ok { s with disabled := if disabled then s.disabled.insert k else s.disabled.erase k }
  else .error (Index.pipeNotFound k)

def plan? (s : MemoryStore) (u : Uuid) : Option StoredPlan := s.plans.lookup u

/-- The enabled pipes of the rules that apply to a page. -/
def matchedKeys (s : MemoryStore) (u : Url) : KeySet :=
  Std.ExtTreeSet.ofList <|
    (s.index.rules.toList.filter (·.2.applies u)).flatMap fun r =>
      r.2.pipes.filter (· ∉ s.disabled)

def matched (s : MemoryStore) (u : Url) : Result (List MatchedPipe) :=
  (s.matchedKeys u).toList.mapM fun k =>
    match s.index.pipes[k]? with
    | some p => .ok ⟨k, p⟩
    | none => .error (Index.pipeNotFound k)

def source (s : MemoryStore) : PipeSource := ⟨s.matched, s.index.referencedPipes⟩

/-- Plans the pipes of a page and keeps the plan under the identifier. -/
def trigger (s : MemoryStore) (uuid : Uuid) (request : Trigger.Request) :
    Result (MemoryStore × Trigger.Response) := do
  let u ← Trigger.parseUrl request.url
  let o ← Trigger.outcome s.source u
  return ({ s with plans := (uuid, ⟨o.plan, o.planned⟩) :: s.plans },
    Trigger.response request uuid o)

end MemoryStore
end PagePipes
