import PagePipes.Command.Run

set_option autoImplicit false

/-!
# The command line

Connects the commands to the file system, the environment and the standard streams.
-/
namespace PagePipes.CommandLine

def located (path : String) := do return (← IO.currentDir) / path

/-- The fault that an error of the system stands for at a path. -/
def faultAt (path : String) : IO.Error → IO FileFault
  | .permissionDenied .. => return .denied
  | .alreadyExists .. => return .exists
  | _ => do
    if ← (← located path).isDir then return .isFolder
    if ← (← located path).pathExists then return .notFolder
    return .missing

def attempt {α : Type} (path : String) (step : IO α) : IO (Except FileFault α) := do
  try return .ok (← step)
  catch e => return .error (← faultAt path e)

def filesBelow (path : String) : IO (List (List String)) := do
  let mut found := []
  let mut folders := [(([] : List String), ← located path)]
  repeat
    match folders with
    | [] => break
    | (names, folder) :: rest =>
      folders := rest
      for entry in ← folder.readDir do
        let inner := names ++ [entry.fileName]
        if ← entry.path.isDir then folders := (inner, entry.path) :: folders
        else found := inner :: found
  return found

def randomUuid : IO Uuid := do
  let bytes ← IO.getRandomBytes 16
  let n := bytes.toList.foldl (fun n b => n * 256 + b.toNat) 0
  let low := n % (1 <<< 62)
  let middle := (n >>> 64) % (1 <<< 12)
  let high := n >>> 80
  return ⟨(high <<< 80) + (4 <<< 76) + (middle <<< 64) + (1 <<< 63) + low⟩

def system : Host IO where
  present path := do (← located path).pathExists
  isFolder path := do (← located path).isDir
  read path := attempt path do IO.FS.readBinFile (← located path)
  below := filesBelow
  makeFolders path := attempt path do IO.FS.createDirAll (← located path)
  write path content := attempt path do IO.FS.writeBinFile (← located path) content
  fresh := randomUuid
  environment name := IO.getEnv name

end PagePipes.CommandLine

def main (args : List String) : IO UInt32 := do
  let o ← PagePipes.Invocation.outcome PagePipes.CommandLine.system args
  IO.print o.output
  match o.report with
  | some text => IO.eprintln text
  | none => pure ()
  return UInt32.ofNat o.code
