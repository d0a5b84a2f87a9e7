import PagePipes.Files.Path

set_option autoImplicit false

/-!
# Files

What a program asks of a file system, in any monad.
-/
namespace PagePipes

inductive FileFault
  | missing
  | denied
  | exists
  | notFolder
  | isFolder
  | notText
  deriving DecidableEq, Repr

namespace FileFault

def message : FileFault → String
  | .missing => "No such file or directory (os error 2)"
  | .denied => "Permission denied (os error 13)"
  | .exists => "File exists (os error 17)"
  | .notFolder => "Not a directory (os error 20)"
  | .isFolder => "Is a directory (os error 21)"
  | .notText => "stream did not contain valid UTF-8"

end FileFault

structure Files (m : Type → Type) where
  present : String → m Bool
  isFolder : String → m Bool
  read : String → m (Except FileFault ByteArray)
  /-- The names on the paths of all files below a folder, in any order. -/
  below : String → m (List (List String))
  /-- Makes a folder and the folders that it stands in, where they are missing. -/
  makeFolders : String → m (Except FileFault Unit)
  write : String → ByteArray → m (Except FileFault Unit)

namespace Files

/-- The same operations in another monad. -/
def lift {m n : Type → Type} (step : {α : Type} → m α → n α) (files : Files m) : Files n where
  present path := step (files.present path)
  isFolder path := step (files.isFolder path)
  read path := step (files.read path)
  below path := step (files.below path)
  makeFolders path := step (files.makeFolders path)
  write path content := step (files.write path content)

variable {m : Type → Type} [Monad m]

def readText (files : Files m) (path : String) : m (Except FileFault String) := do
  match ← files.read path with
  | .error fault => return .error fault
  | .ok bytes =>
    match String.fromUTF8? bytes with
    | some s => return .ok s
    | none => return .error .notText

end Files
end PagePipes
