import PagePipes.Failure
import PagePipes.Index
import PagePipes.Resource.Yaml

set_option autoImplicit false

/-!
# Loading resources from files

A file holds one resource, in the format that its extension names. Of a folder every such file is
loaded, at any depth, in the order of the paths; a file that cannot be loaded is counted and passed
over. What lies in the folders of tools is left alone.
-/
namespace PagePipes

namespace Resource

def ofFormat? (extension : String) : Option (String → Result Resource) :=
  match extension with
  | "json" => some ofJsonText
  | "yaml" | "yml" => some ofYamlText
  | _ => none

end Resource

/-- An index made from files, with the number of files in it and of those passed over. -/
structure Loaded where
  index : Index := .empty
  loaded : Nat := 0
  skipped : Nat := 0

namespace Loaded

/-- Endings of the names of resource files. -/
def endings : List String := [".json", ".yaml", ".yml"]

def foreignFolders : List String := [".git", "target", "node_modules"]

/-- Whether a file below a folder is loaded, by the names on the way to it. -/
def isWanted (names : List String) : Bool :=
  endings.any (fun e => (String.intercalate "/" names).endsWith e)
    && !names.dropLast.any foreignFolders.contains

/-- The order of paths is the order of their names, one after the other. -/
def namesLe : List String → List String → Bool
  | [], _ => true
  | _ :: _, [] => false
  | a :: as, b :: bs => if a = b then namesLe as bs else decide (a < b)

variable {m : Type → Type} [Monad m]

def loadFile (files : Files m) (path : String) : Attempt m Resource := do
  let text ← Attempt.ofFiles (.unreadableResource path) (files.readText path)
  let extension := Files.Path.extension path
  match Resource.ofFormat? extension with
  | none => throw (.unsupportedExtension extension)
  | some read =>
    match read text with
    | .ok r => return r
    | .error e => throw (.malformedResource path e)

def addFile (files : Files m) (ix : Index) (path : String) : Attempt m Index := do
  let r ← loadFile files path
  return (← Attempt.ofResult (ix.add r)).1

def addFolder (files : Files m) (ix : Index) (root : String) : Attempt m Loaded := do
  if !(← ExceptT.lift (files.present root)) then throw (.missingFolder root)
  let wanted := ((← ExceptT.lift (files.below root)).filter isWanted).mergeSort namesLe
  wanted.foldlM (fun (l : Loaded) names => do
    let path := Files.Path.join root (String.intercalate "/" names)
    match ← ExceptT.lift (addFile files l.index path).run with
    | .ok ix => return { l with index := ix, loaded := l.loaded + 1 }
    | .error _ => return { l with skipped := l.skipped + 1 }) { index := ix }

def load (files : Files m) (path : String) : Attempt m Loaded := do
  if ← ExceptT.lift (files.isFolder path) then addFolder files .empty path
  else return { index := ← addFile files .empty path, loaded := 1 }

end Loaded
end PagePipes
