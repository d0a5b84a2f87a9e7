import PagePipes.Yaml.Token

set_option autoImplicit false

/-!
# Nodes

Tokens make up one document: a tree of scalars, sequences and mappings. A node that carries an
anchor is also kept in a table, in which an alias is looked up. A name may be given to several
nodes; what an alias means is settled when the document has ended.
-/
namespace PagePipes.Yaml

inductive Node
  | scalar (tag : Option String) (plain : Bool) (text : String)
  | sequence (tag : Option String) (items : List Node)
  | mapping (tag : Option String) (entries : List (Node × Node))
  | aliasOf (place : Nat)
  deriving Repr, Inhabited

namespace Node

def missing : Node := .scalar none true ""

mutual

/-- The number of marks that the node takes: one for a scalar or an alias, two for the ends of a
collection. -/
def marks : Node → Nat
  | .scalar _ _ _ | .aliasOf _ => 1
  | .sequence _ items => 2 + marksOfItems items
  | .mapping _ entries => 2 + marksOfEntries entries

def marksOfItems : List Node → Nat
  | [] => 0
  | n :: rest => marks n + marksOfItems rest

def marksOfEntries : List (Node × Node) → Nat
  | [] => 0
  | (k, v) :: rest => marks k + marks v + marksOfEntries rest

end

end Node

/-- A node with an anchor. Of the nodes with one place the one with the latest anchor is meant. -/
structure Anchored where
  place : Nat
  serial : Nat
  node : Node
  deriving Repr

structure Document where
  root : Node
  anchored : List Anchored := []
  deriving Repr

namespace Document

def resolve (d : Document) (place : Nat) : Option Node :=
  ((d.anchored.filter (·.place == place)).foldl (fun (best : Option Anchored) a =>
    match best with
    | some b => if b.serial < a.serial then some a else best
    | none => some a) none).map (·.node)

end Document

/-! ## From tokens to nodes -/

structure Builder where
  tokens : List Token
  stems : List (String × String) := []
  places : List (String × Nat) := []
  serial : Nat := 0
  anchored : List Anchored := []

abbrev Build := StateT Builder Option

namespace Build

def peek : Build Token := do
  match (← get).tokens with
  | t :: _ => return t
  | [] => failure

def skip : Build Unit := modify fun b => { b with tokens := b.tokens.drop 1 }

def register (name : String) : Build (Nat × Nat) := do
  let b ← get
  let place := b.places.length
  let places := if (b.places.lookup name).isSome then
      b.places.map fun e => if e.1 = name then (name, place) else e
    else b.places ++ [(name, place)]
  set { b with places, serial := b.serial + 1 }
  return (place, b.serial)

def keep (mark : Option (Nat × Nat)) (n : Node) : Build Node := do
  match mark with
  | some (place, serial) =>
    modify fun b => { b with anchored := ⟨place, serial, n⟩ :: b.anchored }
  | none => pure ()
  return n

def properties : Build (Option String × Option (String × String)) := do
  match ← peek with
  | .anchor name =>
    skip
    match ← peek with
    | .tag handle suffix =>
      skip
      return (some name, some (handle, suffix))
    | _ => return (some name, none)
  | .tag handle suffix =>
    skip
    match ← peek with
    | .anchor name =>
      skip
      return (some name, some (handle, suffix))
    | _ => return (none, some (handle, suffix))
  | _ => return (none, none)

def fullTag (t : Option (String × String)) : Build (Option String) := do
  match t with
  | none => return none
  | some ("", suffix) => return some suffix
  | some (handle, suffix) =>
    match (← get).stems.lookup handle with
    | some stem => return some (stem ++ suffix)
    | none => failure

/-- The bare tag says nothing about a scalar. -/
def scalarTag (tag : Option String) : Option String := tag.filter (· ≠ "!")

def endsBlockItem : Token → Bool
  | .entry | .blockEnd => true
  | _ => false

def endsIndentlessItem : Token → Bool
  | .entry | .key | .value | .blockEnd => true
  | _ => false

def endsBlockKey : Token → Bool
  | .key | .value | .blockEnd => true
  | _ => false

def endsFlowKey (close : Token) (t : Token) : Bool := t == .value || t == .flowEntry || t == close

def endsFlowValue (close : Token) (t : Token) : Bool := t == .flowEntry || t == close

/-- Takes the separator before an item of a flow collection that is not the first. -/
def separator (first : Bool) : Build Unit := do
  if !first then
    if (← peek) = .flowEntry then skip else failure

mutual

/-- A node. In block context it may be a block collection, and behind a key also a sequence that is
not indented. -/
def node : Nat → (block indentless : Bool) → Build Node
  | 0, _, _ => failure
  | fuel + 1, block, indentless => do
    match ← peek with
    | .aliasOf name =>
      skip
      match (← get).places.lookup name with
      | some place => return .aliasOf place
      | none => failure
    | _ =>
      let (name, short) ← properties
      let tag ← fullTag short
      let t ← peek
      if indentless && t == .entry then
        let mark ← name.mapM register
        keep mark (.sequence tag (← indentlessItems fuel))
      else match t with
        | .scalar text plain =>
          skip
          keep (← name.mapM register) (.scalar (scalarTag tag) plain text)
        | .flowSequenceStart =>
          skip
          let mark ← name.mapM register
          keep mark (.sequence tag (← flowItems fuel true))
        | .flowMappingStart =>
          skip
          let mark ← name.mapM register
          keep mark (.mapping tag (← flowEntries fuel true))
        | .sequenceStart =>
          if !block then failure
          skip
          let mark ← name.mapM register
          keep mark (.sequence tag (← blockItems fuel))
        | .mappingStart =>
          if !block then failure
          skip
          let mark ← name.mapM register
          keep mark (.mapping tag (← blockEntries fuel))
        | _ =>
          if name.isNone && tag.isNone then failure
          keep (← name.mapM register) (.scalar tag true "")

def blockItems : Nat → Build (List Node)
  | 0 => failure
  | fuel + 1 => do
    match ← peek with
    | .entry =>
      skip
      let n ← if endsBlockItem (← peek) then pure Node.missing else node fuel true false
      return n :: (← blockItems fuel)
    | .blockEnd =>
      skip
      return []
    | _ => failure

def indentlessItems : Nat → Build (List Node)
  | 0 => failure
  | fuel + 1 => do
    if (← peek) = .entry then
      skip
      let n ← if endsIndentlessItem (← peek) then pure Node.missing else node fuel true false
      return n :: (← indentlessItems fuel)
    else return []

def blockEntries : Nat → Build (List (Node × Node))
  | 0 => failure
  | fuel + 1 => do
    match ← peek with
    | .key =>
      skip
      let k ← if endsBlockKey (← peek) then pure Node.missing else node fuel true true
      let v ← blockValue fuel
      return (k, v) :: (← blockEntries fuel)
    | .blockEnd =>
      skip
      return []
    | _ => failure

def blockValue : Nat → Build Node
  | 0 => failure
  | fuel + 1 => do
    if (← peek) = .value then
      skip
      if endsBlockKey (← peek) then return Node.missing else node fuel true true
    else return Node.missing

/-- The items of a flow sequence up to its end; a key makes a mapping of one entry. -/
def flowItems : Nat → (first : Bool) → Build (List Node)
  | 0, _ => failure
  | fuel + 1, first => do
    if (← peek) = .flowSequenceEnd then
      skip
      return []
    separator first
    match ← peek with
    | .flowSequenceEnd =>
      skip
      return []
    | .key =>
      skip
      let k ← if endsFlowKey .flowSequenceEnd (← peek) then do
          skip
          pure Node.missing
        else node fuel false false
      let v ← flowValue fuel .flowSequenceEnd
      return .mapping none [(k, v)] :: (← flowItems fuel false)
    | _ =>
      let n ← node fuel false false
      return n :: (← flowItems fuel false)

/-- The entries of a flow mapping up to its end; a node without a key mark has no value. -/
def flowEntries : Nat → (first : Bool) → Build (List (Node × Node))
  | 0, _ => failure
  | fuel + 1, first => do
    if (← peek) = .flowMappingEnd then
      skip
      return []
    separator first
    match ← peek with
    | .flowMappingEnd =>
      skip
      return []
    | .key =>
      skip
      let k ← if endsFlowKey .flowMappingEnd (← peek) then pure Node.missing
        else node fuel false false
      let v ← flowValue fuel .flowMappingEnd
      return (k, v) :: (← flowEntries fuel false)
    | _ =>
      let k ← node fuel false false
      return (k, Node.missing) :: (← flowEntries fuel false)

def flowValue : Nat → (close : Token) → Build Node
  | 0, _ => failure
  | fuel + 1, close => do
    if (← peek) = .value then
      skip
      if endsFlowValue close (← peek) then return Node.missing else node fuel false false
    else return Node.missing

end

/-! ## Documents -/

/-- Directives before a document; each handle and the version are given at most once. -/
def directives : Nat → (versioned : Bool) → Build Unit
  | 0, _ => failure
  | fuel + 1, versioned => do
    match ← peek with
    | .version major minor =>
      if versioned || major != 1 || (minor != 1 && minor != 2) then failure
      skip
      directives fuel true
    | .tagHandle handle stem =>
      if ((← get).stems.lookup handle).isSome then failure
      skip
      modify fun b => { b with stems := (handle, stem) :: b.stems }
      directives fuel versioned
    | _ => return

def standardStems : List (String × String) := [("!", "!"), ("!!", "tag:yaml.org,2002:")]

def isDirective : Token → Bool
  | .version _ _ | .tagHandle _ _ => true
  | _ => false

def endsContent (t : Token) : Bool :=
  isDirective t || t == .documentStart || t == .documentEnd || t == .streamEnd

def root (fuel : Nat) : Build Node := do
  let t ← peek
  if isDirective t || t == .documentStart then
    directives fuel false
    modify fun b => { b with stems := b.stems ++ standardStems }
    if (← peek) != .documentStart then failure
    skip
    if endsContent (← peek) then return Node.missing
  else modify fun b => { b with stems := standardStems }
  node fuel true false

def close : Nat → Build Unit
  | 0 => failure
  | fuel + 1 => do
    match ← peek with
    | .documentEnd =>
      skip
      close fuel
    | .streamEnd => return
    | _ => failure

def document (fuel : Nat) : Build (Option Document) := do
  if (← peek) = .streamEnd then return none
  let n ← root fuel
  close fuel
  return some ⟨n, (← get).anchored⟩

end Build

/-- The only document of a text; `some none` when the text is empty. -/
def Document.ofText? (text : String) : Option (Option Document) := do
  let tokens ← Token.ofText? text
  let fuel := 4 * tokens.length + 4
  (Build.document fuel { tokens }).map (·.1)

end PagePipes.Yaml
