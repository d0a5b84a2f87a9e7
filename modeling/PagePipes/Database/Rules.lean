import PagePipes.Database.Pipes

set_option autoImplicit false

/-!
# Stored rules

Rules that ask the same share one condition. Every link between a condition and a pipe belongs to
the rule resource that made it, or to the rules interface, so removing one rule never takes away a
link of another. A condition goes when its last link and its last resource are gone.
-/
namespace PagePipes

def Predicate.condition (p : Predicate) : Condition :=
  ⟨p.hostname.getD "", p.pattern.getD "", p.always⟩

namespace Database

def qualifyRule (db : Database) (r : Rule) : Result Rule := do
  let ix ← db.dependencyIndex r.references
  r.qualify ix.resolve

def insertCondition (db : Database) (c : Condition) : Database :=
  { db with conditions := insertNew c db.conditions }

def linkPipes (db : Database) (c : Condition) (owner : Option Key) (pipes : List Key) :
    Result Database :=
  pipes.foldlM (fun db k => do
    db.needPipe k
    return { db with links := insertNew ⟨k, c, owner⟩ db.links }) db

def usesCondition (db : Database) (c : Condition) : Bool :=
  db.links.any (·.condition == c) || db.resources.any (·.subject == .rule c)

def pruneCondition (db : Database) (c : Condition) : Database :=
  if db.usesCondition c then db
  else { db with conditions := db.conditions.filter (· ≠ c) }

/-- Removes the links of a rule resource, then their condition if nothing uses it. -/
def unlinkOwner (db : Database) (c : Condition) (owner : Key) : Database :=
  let links := db.links.filter fun l => !(l.condition == c && l.owner == some owner)
  pruneCondition { db with links } c

/-- Stores a rule through the rules interface and answers it with every reference qualified. -/
def createRule (db : Database) (r : Rule) : Result (Database × Rule) := do
  let r := r.normalized
  r.validate
  let r ← db.qualifyRule r
  let c := r.predicate.condition
  let db ← (db.insertCondition c).linkPipes c none r.pipes
  return (db, r)

/-- Removes the links that the rules interface made between a rule's predicate and its pipes. -/
def deleteRule (db : Database) (r : Rule) : Result Database := do
  let r ← db.qualifyRule r.normalized
  let c := r.predicate.condition
  if c ∉ db.conditions then throw (.notFound "no rule with this predicate")
  r.pipes.forM db.needPipe
  let named (l : Link) : Bool := l.condition == c && l.owner.isNone && l.pipe ∈ r.pipes
  if !db.links.any named then
    throw (.notFound "none of these pipes are linked to this predicate through the rules API")
  return pruneCondition { db with links := db.links.filter fun l => !named l } c

end Database
end PagePipes
