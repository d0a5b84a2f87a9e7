import PagePipes.Files.Basic

set_option autoImplicit false

/-!
# Trees of files

A tree of files in memory. A path is followed name by name from the root or from the current
folder; two dots lead to the folder above.
-/
namespace PagePipes

inductive FileEntry
  | file (content : ByteArray)
  | folder

def FileEntry.isFolder : FileEntry → Bool
  | .file _ => false
  | .folder => true

structure FileTree where
  /-- The names on the way to the current folder. -/
  current : List String := []
  /-- Folders that are there even if they are empty. -/
  folders : List (List String) := []
  files : List (List String × ByteArray) := []

namespace FileTree

def entry? (t : FileTree) (names : List String) : Option FileEntry :=
  match t.files.lookup names with
  | some content => some (.file content)
  | none =>
    if names.isEmpty || t.folders.any (names.isPrefixOf ·)
        || t.files.any (names.isPrefixOf ·.1) then
      some .folder
    else none

/-- The fault of a step from where there is no folder. -/
def stepFault (t : FileTree) (names : List String) : Option FileFault :=
  match t.entry? names with
  | some .folder => none
  | some (.file _) => some .notFolder
  | none => some .missing

def follow (t : FileTree) (names : List String) : List String → Except FileFault (List String)
  | [] => .ok names
  | part :: rest =>
    match t.stepFault names with
    | some fault => .error fault
    | none =>
      let next := if part = "." then names else if part = ".." then names.dropLast
        else names ++ [part]
      follow t next rest

/-- Where a path leads; a slash at its end asks for a folder. -/
def locate (t : FileTree) (path : String) : Except FileFault (List String) :=
  if path.isEmpty then .error .missing
  else
    let parts := (path.splitOn "/").filter (· != "")
    let parts := if path.endsWith "/" then parts ++ ["."] else parts
    t.follow (if Files.Path.isAbsolute path then [] else t.current) parts

def find? (t : FileTree) (path : String) : Option FileEntry :=
  (t.locate path).toOption.bind t.entry?

def read (t : FileTree) (path : String) : Except FileFault ByteArray := do
  match t.entry? (← t.locate path) with
  | some (.file content) => return content
  | some .folder => throw .isFolder
  | none => throw .missing

def below (t : FileTree) (path : String) : List (List String) :=
  match t.locate path with
  | .ok names =>
    (t.files.filter fun f => names.isPrefixOf f.1).map fun f => f.1.drop names.length
  | .error _ => []

def makeFolders (t : FileTree) (path : String) : Except FileFault FileTree := do
  if path.isEmpty then return t
  let start := if Files.Path.isAbsolute path then [] else t.current
  let names := (Files.Path.names path).foldl (fun names part =>
    if part = ".." then names.dropLast else names ++ [part]) start
  match t.entry? names with
  | some .folder => return t
  | some (.file _) => throw .exists
  | none =>
    if (List.range names.length).any fun n => t.stepFault (names.take n) == some .notFolder then
      throw .notFolder
    return { t with folders := t.folders ++ [names] }

def write (t : FileTree) (path : String) (content : ByteArray) : Except FileFault FileTree := do
  let names ← t.locate path
  match t.entry? names with
  | some .folder => throw .isFolder
  | _ =>
    if (t.entry? names.dropLast).isNone then throw .missing
    return { t with files := (names, content) :: t.files.filter (·.1 ≠ names) }

def change (step : FileTree → Except FileFault FileTree) :
    StateM FileTree (Except FileFault Unit) := do
  match step (← get) with
  | .ok t =>
    set t
    return .ok ()
  | .error fault => return .error fault

def operations : Files (StateM FileTree) where
  present path := return ((← get).find? path).isSome
  isFolder path := return ((← get).find? path).any (·.isFolder)
  read path := return (← get).read path
  below path := return (← get).below path
  makeFolders path := change (·.makeFolders path)
  write path content := change (·.write path content)

end FileTree
end PagePipes
