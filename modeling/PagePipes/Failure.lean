import PagePipes.Error
import PagePipes.Files.Basic
import PagePipes.Text.Quoted

set_option autoImplicit false

/-!
# Failures of commands

A command fails with an error of the library, with a file that cannot be used, or with a setting
that makes no sense. The report of a failure says what was being done and then what went wrong.
-/
namespace PagePipes

inductive Failure
  | library (error : Error)
  | file (fault : FileFault)
  | unreadableFile (path : String) (fault : FileFault)
  | unreadableResource (path : String) (fault : FileFault)
  | unreadableSettings (path : String) (fault : FileFault)
  | unsupportedExtension (extension : String)
  | malformedResource (path : String) (error : Error)
  | malformedSettings (path : String)
  | missingFolder (path : String)
  | unsettled (path : String) (error : Error)
  | zeroSetting (name : String)
  | checksumMismatch (path expected : String)
  | noDatabase
  | unopenedDatabase
  | noHome
  deriving DecidableEq, Repr

namespace Failure

def fileIsNoDatabase : String := "(code: 26) file is not a database"

def fileCannotOpen : String := "(code: 14) unable to open database file"

def fromDatabase (text : String) : String := "error returned from database: " ++ text

/-- What was being done, when something went wrong in it, or else what went wrong. -/
def message : Failure → String
  | .library e => e.message
  | .file fault => fault.message
  | .unreadableFile path _ => "Failed to read file: " ++ path
  | .unreadableResource path _ => "Failed to read resource file: " ++ path
  | .unreadableSettings path _ => "Failed to read config file: " ++ path
  | .unsupportedExtension e => "Unsupported resource file extension: " ++ Text.Quoted.text e
  | .malformedResource path _ => "Failed to parse resource file: " ++ path
  | .malformedSettings path => "Failed to parse config file: " ++ path
  | .missingFolder path => "Resource directory does not exist: " ++ path
  | .unsettled path _ => "Failed to qualify resources under " ++ path
  | .zeroSetting name => name ++ " must be > 0"
  | .checksumMismatch path expected => "checksum mismatch for " ++ path ++ ": " ++ expected
  | .noDatabase => fromDatabase fileIsNoDatabase
  | .unopenedDatabase => fromDatabase fileCannotOpen
  | .noHome => "Could not determine home directory; set NUGGIT_DIR"

/-- What went wrong in what was being done. -/
def cause? : Failure → Option String
  | .unreadableFile _ fault | .unreadableResource _ fault | .unreadableSettings _ fault =>
    some fault.message
  | .malformedResource _ e | .unsettled _ e => some e.message
  | .noDatabase => some fileIsNoDatabase
  | .unopenedDatabase => some fileCannotOpen
  | _ => none

def error? : Failure → Option Error
  | .library e | .malformedResource _ e | .unsettled _ e => some e
  | _ => none

def report (f : Failure) : String :=
  "Error: " ++ f.message ++ match f.cause? with
    | some cause => "\n\nCaused by:\n    " ++ cause
    | none => ""

end Failure

/-- Steps that may fail. -/
abbrev Attempt (m : Type → Type) := ExceptT Failure m

namespace Attempt

variable {m : Type → Type} [Monad m] {α : Type}

def ofResult (r : Result α) : Attempt m α :=
  match r with
  | .ok a => pure a
  | .error e => throw (.library e)

def ofFiles (wording : FileFault → Failure) (step : m (Except FileFault α)) : Attempt m α := do
  match ← ExceptT.lift step with
  | .ok a => pure a
  | .error fault => throw (wording fault)

end Attempt
end PagePipes
