import PagePipes.Database.Journal
import PagePipes.Settings
import PagePipes.Url.Percent

set_option autoImplicit false

/-!
# Sessions

A session has a database open: one in memory, or the one whose journal is in a file. Every change
that succeeds is added to the journal.
-/
namespace PagePipes

structure Session where
  /-- The path of the journal and its text so far. -/
  journal : Option (String × String) := none
  database : Database := .empty

namespace Session

/-- The file that a database path names: escapes are read, and what follows a question mark is
dropped. The empty path and `:memory:` name a database in memory. -/
def file? (path : String) : Option String := do
  let name ← Url.Percent.decode? (path.toList.takeWhile (· != '?'))
  if name.isEmpty || name = ":memory:".toList then none else some (String.ofList name)

variable {m : Type → Type} [Monad m]

def openFile (files : Files m) (path : String) : Attempt m Session := do
  let text ← match ← ExceptT.lift (files.readText path) with
    | .ok text => pure text
    | .error .notText => throw .noDatabase
    | .error _ =>
      Attempt.ofFiles (fun _ => .unopenedDatabase) (files.write path ByteArray.empty)
      pure ""
  match Journal.database? text with
  | some db => return ⟨some (path, text), db⟩
  | none => throw .noDatabase

def start (files : Files m) (s : Settings) : Attempt m Session := do
  match s.storage.kind, s.storage.path with
  | .file, some path =>
    match Files.Path.parent? path with
    | some folder => Attempt.ofFiles .file (files.makeFolders folder)
    | none => pure ()
    match file? path with
    | some file => openFile files file
    | none => return {}
  | _, _ => return {}

def make (files : Files m) (s : Session) (c : Change) : Attempt m c.Answer := do
  let (_, answer) ← Attempt.ofResult (c.apply s.database)
  match s.journal with
  | some (path, text) =>
    Attempt.ofFiles (fun _ => .unopenedDatabase)
      (files.write path (text ++ Journal.line c).toUTF8)
  | none => pure ()
  return answer

end Session
end PagePipes
