import PagePipes.Index

set_option autoImplicit false

/-!
# Qualified indexes

To qualify an index is to point every reference at a digest. Resources are taken with dependencies
first and qualified against those before them. A pipe that changes gets a new digest; references to
its old key follow it.
-/
namespace PagePipes

/-- Old keys with the keys that took their place. -/
abbrev Renaming := Key.Map Key

namespace Renaming

def key (m : Renaming) (k : Key) : Key := (m[k]?).getD k

/-- A pipe action keeps its name and takes the digest of the new key. -/
def action (m : Renaming) (a : Action) : Action :=
  if a.is .pipe then
    match a.reference.toOption.bind (m[·]?) with
    | some k =>
      match k.digest with
      | some d => a.setString "digest" d
      | none => a
    | none => a
  else a

def spec (m : Renaming) : Spec → Spec
  | .pipe p => .pipe { p with actions := p.actions.map m.action }
  | .view v => .view { v with columns := v.columns.map fun c => { c with pipe := m.key c.pipe } }
  | .rule r => .rule { r with pipes := r.pipes.map m.key }

def resource (m : Renaming) (r : Resource) : Resource := { r with spec := m.spec r.spec }

end Renaming

namespace Index

/-- The index being built and the keys renamed on the way. -/
structure Qualifying where
  index : Index := .empty
  renamed : Renaming := ∅

def qualifyNext (ix : Index) (s : Qualifying) (k : Key) : Result Qualifying :=
  match ix.resources[k]? with
  | none => .ok s
  | some r => do
    let q ← (s.renamed.resource r).qualify s.index.resolve
    let (index, newKey) ← s.index.add q
    return ⟨index, if newKey = k then s.renamed else s.renamed.insert k newKey⟩

def qualified (ix : Index) : Result Index := do
  let t := ix.traversal
  let s ← t.emitted.foldlM (qualifyNext ix) ({} : Qualifying)
  match t.error? with
  | some e => throw e
  | none => return s.index

end Index
end PagePipes
