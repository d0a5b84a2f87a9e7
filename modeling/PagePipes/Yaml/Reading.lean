import PagePipes.Json.Decode
import PagePipes.Yaml.Meaning
import PagePipes.Yaml.Node

set_option autoImplicit false

/-!
# Reading values out of nodes

A document is read as a value, or field by field as a record; a fault then carries the path of the
node at which it was found. Aliases are followed where they stand. How deep collections go and how
often aliases are followed is limited, so an alias inside its own node is refused.
-/
namespace PagePipes.Yaml

/-- A step from a collection to a member of it. -/
inductive Step
  | field (name : String)
  | item (index : Nat)
  /-- The value of a key that is an alias. -/
  | unnamed
  deriving DecidableEq, Repr

abbrev Path := List Step

namespace Path

/-- A step written behind the path before it; the root has no text. -/
def extend (before : Option String) : Step → String
  | .field name => (before.elim "" (· ++ ".")) ++ name
  | .item i => before.getD "." ++ "[" ++ toString i ++ "]"
  | .unnamed => (before.elim "" (· ++ ".")) ++ "?"

def text? (p : Path) : Option String := p.foldl (fun before s => some (extend before s)) none

end Path

inductive ReadFault
  | unreadable
  | misplaced (path : Path) (fault : DecodeFault)
  deriving DecidableEq, Repr

namespace ReadFault

def message : ReadFault → String
  | .unreadable => "malformed YAML"
  | .misplaced path fault =>
    match path.text? with
    | some p => p ++ ": " ++ fault.message
    | none => fault.message

end ReadFault

/-- Reading counts the aliases that it follows. -/
abbrev Reading := StateT Nat (Except ReadFault)

namespace Reading

def depthLimit : Nat := 128

/-- Aliases are followed this many times for every mark of a document. -/
def aliasFactor : Nat := 100

def unreadable {α : Type} : Reading α := throw .unreadable

def fault {α : Type} (path : Path) (f : DecodeFault) : Reading α := throw (.misplaced path f)

/-- The node that is meant where a node stands. -/
def follow (d : Document) : Node → Reading Node
  | .aliasOf place => do
    let followed := (← get) + 1
    set followed
    if aliasFactor * d.root.marks < followed then unreadable
    match d.resolve place with
    | some n => return n
    | none => unreadable
  | n => return n

/-! ## Values -/

def coreTag (name : String) : String := "tag:yaml.org,2002:" ++ name

def ofOption {α : Type} : Option α → Reading α
  | some a => return a
  | none => unreadable

/-- The value of a scalar. A tag of the core types asks for that type, a local tag is refused, and
any other makes the scalar a text. -/
def scalar (tag : Option String) (plain : Bool) (text : String) : Reading Json :=
  match tag with
  | none => if plain then ofOption ((Meaning.ofPlain text).toJson? text) else return .str text
  | some t =>
    if t.startsWith "!" then unreadable
    else if t = coreTag "bool" then ofOption ((Meaning.bool? text).map Json.bool)
    else if t = coreTag "int" then
      ofOption (((Meaning.integer? text).bind Meaning.ofInteger?).bind (·.toJson? text))
    else if t = coreTag "float" then
      ofOption ((Meaning.float? text).bind fun x => (Meaning.float x).toJson? text)
    else if t = coreTag "null" then ofOption (if Meaning.isNull text then some .null else none)
    else return .str text

def refuseLocal (tag : Option String) : Reading Unit :=
  if tag.any (·.startsWith "!") then unreadable else return

def string (d : Document) (path : Path) (n : Node) : Reading String := do
  match ← follow d n with
  | .scalar _ _ text => return text
  | _ => fault path .invalidType

/-- The value of a node, with collections up to a depth. Of keys that repeat the last counts. -/
def json (d : Document) : (depth : Nat) → Node → Reading Json
  | depth, n => do
    match ← follow d n with
    | .scalar tag plain text => scalar tag plain text
    | .sequence tag items =>
      refuseLocal tag
      match depth with
      | 0 => unreadable
      | depth + 1 => return .arr (← items.mapM (json d depth))
    | .mapping tag entries =>
      refuseLocal tag
      match depth with
      | 0 => unreadable
      | depth + 1 =>
        let fields ← entries.mapM fun (k, v) => do
          match ← follow d k with
          | .scalar _ _ key => return (key, ← json d depth v)
          | _ => unreadable
        return .obj (Json.sortFields fields)
    | .aliasOf _ => unreadable

/-! ## Records -/

/-- An empty plain scalar, or one that is null, stands for a missing value. -/
def option {α : Type} (d : Document) (inner : Node → Reading α) (n : Node) :
    Reading (Option α) := do
  let n ← follow d n
  match n with
  | .scalar tag true text =>
    match tag with
    | none =>
      if text.isEmpty || Meaning.isNull text then return none else return some (← inner n)
    | some t =>
      if t = coreTag "null" then
        if Meaning.isNull text then return none else unreadable
      else return some (← inner n)
  | _ => return some (← inner n)

def list {α : Type} (d : Document) (path : Path) (inner : Path → Node → Reading α) (n : Node) :
    Reading (List α) := do
  match ← follow d n with
  | .sequence _ items => (items.zipIdx).mapM fun (n, i) => inner (path ++ [.item i]) n
  | .scalar _ true "" => return []
  | _ => fault path .invalidType

/-- Steps through the fields of a mapping; fields that the record does not have are passed over. -/
def fields {σ : Type} (d : Document) (path : Path) (names : List String)
    (step : σ → String → Path → Node → Reading σ) : σ → List (Node × Node) → Reading σ
  | s, [] => return s
  | s, (k, v) :: rest => do
    let name ← string d path k
    if names.contains name then
      let here := match k with
        | .scalar _ _ _ => .field name
        | _ => .unnamed
      fields d path names step (← step s name (path ++ [here]) v) rest
    else fields d path names step s rest

def record {σ : Type} (d : Document) (path : Path) (names : List String)
    (step : σ → String → Path → Node → Reading σ) (initial : σ) (n : Node) : Reading σ := do
  match ← follow d n with
  | .mapping _ entries => fields d path names step initial entries
  | .scalar _ true "" => return initial
  | _ => fault path .invalidType

def once {α : Type} (path : Path) (slot : Option α) (name : String) (value : Reading α) :
    Reading (Option α) := do
  if slot.isSome then fault path (.repeatedField name) else return some (← value)

def need {α : Type} (path : Path) (name : String) (slot : Option α) : Reading α :=
  match slot with
  | some a => return a
  | none => fault path (.missingField name)

end Reading

def Document.toJson? (d : Document) : Option Json :=
  match (Reading.json d Reading.depthLimit d.root).run 0 with
  | .ok (j, _) => some j
  | .error _ => none

end PagePipes.Yaml
