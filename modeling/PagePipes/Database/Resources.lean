import PagePipes.Database.Rules
import PagePipes.Database.Views
import PagePipes.Index.Qualified
import PagePipes.Resource.Envelope

set_option autoImplicit false

/-!
# Stored resources

A stored resource is its envelope and the row that it stands for: a pipe, a view or the condition of
a rule. Its key has the digest of its spec after every reference has been qualified. Storing the
same resource again changes nothing.
-/
namespace PagePipes

namespace ResourceRow

def kind (r : ResourceRow) : Kind := r.subject.kind

/-- The envelope around the stored spec. -/
def toJson (r : ResourceRow) (spec : Json) : Json :=
  .obj [("api_version", .str r.version), ("kind", .str r.kind.text),
    ("metadata", .obj [
      ("description", (r.description.map Json.str).getD .null),
      ("labels", .arr (r.labels.map Json.str)),
      ("name", .str r.key.name)]),
    ("spec", spec)]

def resource (r : ResourceRow) : Result Resource := do
  let spec ← Decoder.ofText (fun _ => Decoder.json) r.spec
  Resource.ofJsonText (r.toJson spec).compact

end ResourceRow

structure StoredResource where
  id : Key
  resource : Resource
  deriving DecidableEq

def StoredResource.toJson (s : StoredResource) : Json :=
  .obj [("id", s.id.toJson), ("resource", s.resource.toJson)]

namespace Database

/-- The rows that a key may mean. -/
def resourceRows (db : Database) (k : Key) : List ResourceRow :=
  if k.isQualified then db.resources.filter (·.key == k)
  else db.resources.filter (·.key.name == k.name)

def resourceRow? (db : Database) (k : Key) : Result (Option ResourceRow) :=
  match db.resourceRows k with
  | [] => .ok none
  | [only] => .ok (some only)
  | many => .error (.ambiguous k.name many.length)

def resourceRow (db : Database) (k : Key) : Result ResourceRow := do
  match ← db.resourceRow? k with
  | some r => return r
  | none => throw (.notFound ("resource not found: " ++ k.text))

def qualifyResource (db : Database) (r : Resource) : Result Resource := do
  let ix ← db.dependencyIndex r.references
  r.qualify ix.resolve

def insertSubject (db : Database) (u : Uuid) (k : Key) : Spec → Result (Database × Subject)
  | .pipe p => .ok (db.insertPipe k p, .pipe)
  | .view v => do
    let (db, stored) ← db.insertView u v
    return (db, .view stored.uuid)
  | .rule r =>
    let c := r.predicate.condition
    .ok (db.insertCondition c, .rule c)

/-- The labels of a resource, each once. -/
def distinct (labels : List String) : List String :=
  labels.foldl (fun acc l => insertNew l acc) []

def linkSubject (db : Database) (k : Key) : Spec → Result Database
  | .rule r => db.linkPipes r.predicate.condition (some k) r.pipes
  | _ => .ok db

/-- Stores a resource and answers its key; a view takes the fresh identifier. -/
def createResource (db : Database) (u : Uuid) (r : Resource) : Result (Database × Key) := do
  r.validate
  let r ← db.qualifyResource r
  let k := r.key
  match ← db.resourceRow? k with
  | some row =>
    if (← row.resource) = r then return (db, k)
    throw (.alreadyExists
      (r.kind.text ++ " " ++ k.text ++ " is already stored with different metadata"))
  | none =>
    let (db, subject) ← db.insertSubject u k r.spec
    let row : ResourceRow :=
      ⟨r.version, k, r.metadata.description, distinct r.metadata.labels, r.spec.toJson.compact,
        subject⟩
    let db ← { db with resources := db.resources ++ [row] }.linkSubject k r.spec
    return (db, k)

def storedResource (db : Database) (k : Key) : Result StoredResource := do
  let row ← db.resourceRow k
  return ⟨row.key, ← row.resource⟩

def listResources (db : Database) (kind : Option Kind) : Result (List StoredResource) :=
  let rows := db.resources.filter fun r => (kind.map (· == r.kind)).getD true
  (rows.mergeSort fun a b => listedBefore a.key b.key).mapM fun row => do
    let r ← row.resource
    return ⟨r.key, r⟩

/-! ## Removal -/

/-- Whether a stored action names a pipe; both texts have to be the same to the letter. -/
def namesPipe (k : Key) (a : Action) : Bool :=
  a.is .pipe && a.string? "name" == some k.name && a.string? "digest" == k.digest

/-- The function of the store that lists the actions of stored specs. An SQL view of the same name
hides it. -/
def actionSource : String := "json_each"

def actionsNaming (db : Database) (k : Key) : Nat :=
  ((db.pipes.filterMap (·.pipe.toOption)).flatMap (·.actions)).countP (namesPipe k)

/-- Refuses to go on while something refers to a pipe. -/
def checkUnreferenced (db : Database) (k : Key) : Result Unit := do
  let views := db.viewPipes.countP (·.2 == k)
  let rules := db.links.countP (·.pipe == k)
  if db.hasObject actionSource then
    throw (.internal ("'" ++ actionSource ++ "' is not a function"))
  let pipes := db.actionsNaming k
  let plans := db.plans.countP fun p => p.pipes.any (·.name == k)
  if 0 < plans then
    throw (.failedPrecondition
      ("pipe " ++ k.text ++ " appears in " ++ toString plans
        ++ " trigger plan(s) and keeps its results; disable it instead"))
  if 0 < views + rules + pipes then
    throw (.failedPrecondition
      ("pipe " ++ k.text ++ " is still referenced by " ++ toString views ++ " view(s), "
        ++ toString rules ++ " rule(s), and " ++ toString pipes ++ " pipe(s)"))

def deleteSubject (db : Database) (k : Key) : Subject → Result Database
  | .pipe => .ok { db with pipes := db.pipes.filter (·.key ≠ k) }
  | .view u => db.deleteView u
  | .rule c => .ok (db.unlinkOwner c k)

/-- Removes a resource and the row that it stands for; a pipe has to be unreferenced. -/
def deleteResource (db : Database) (k : Key) : Result Database := do
  let row ← db.resourceRow k
  discard row.resource
  if row.subject = .pipe then db.checkUnreferenced row.key
  { db with resources := db.resources.filter (· ≠ row) }.deleteSubject row.key row.subject

/-! ## Indexes -/

/-- Stores the resources of an index, those that others refer to first. The resources that need an
identifier draw it from a supply. -/
def createAll (ix : Index) (fresh : Nat → Uuid) :
    Nat → Database → List Key → Result (Database × List Key)
  | _, db, [] => .ok (db, [])
  | n, db, k :: rest =>
    match ix.resources[k]? with
    | none => createAll ix fresh n db rest
    | some r => do
      let (db, id) ← db.createResource (fresh n) r
      let (db, ids) ← createAll ix fresh (n + 1) db rest
      return (db, id :: ids)

/-- Stores every resource of an index or none of them. -/
def putIndex (db : Database) (fresh : Nat → Uuid) (ix : Index) : Result (Database × List Key) := do
  let q ← ix.qualified
  let t := q.traversal
  let (db, ids) ← createAll q fresh 0 db t.emitted
  match t.error? with
  | some e => throw e
  | none => return (db, ids)

end Database
end PagePipes
