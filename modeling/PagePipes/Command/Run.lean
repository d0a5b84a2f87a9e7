import PagePipes.Checksum.Sums
import PagePipes.Command.Arguments
import PagePipes.Command.Session
import PagePipes.Program
import PagePipes.Resource.Load
import PagePipes.Store.Memory

set_option autoImplicit false

/-!
# Running commands

A command prints as it goes and may then still fail. What it prints and how it ends is its outcome.
-/
namespace PagePipes

/-- What commands ask of the system that they run on. -/
structure Host (m : Type → Type) extends Files m where
  fresh : m Uuid
  environment : String → m (Option String)

/-- How a command ends: its exit code, what it printed, and the report of its failure. -/
structure Outcome where
  code : Nat
  output : String := ""
  report : Option String := none
  deriving DecidableEq, Repr

/-- Steps of a command; the state is what was printed. -/
abbrev Run (m : Type → Type) := Attempt (StateT String m)

namespace Run

variable {m : Type → Type} [Monad m] {α : Type}

def lift (step : Attempt m α) : Run m α := ExceptT.mk (StateT.lift step.run)

def line (s : String) : Run m Unit := modify (· ++ s ++ "\n")

def print (s : String) : Run m Unit := modify (· ++ s)

end Run

namespace Command

variable {m : Type → Type} [Monad m]

def session (host : Host m) (folder : String) : Run m Session :=
  Run.lift do Session.start host.toFiles (← Settings.load host.toFiles folder)

/-- The resources under a path, their references settled. -/
def settled (host : Host m) (path : String) : Run m Index := do
  let l ← Run.lift (Loaded.load host.toFiles path)
  match l.index.qualified with
  | .ok ix => return ix
  | .error e => throw (.unsettled path e)

/-- Runs a step for the resources of an index, those that others refer to first, and fails if some
refer to each other. -/
def forResources (ix : Index) (step : Nat → Key → Resource → Run m Unit) : Run m Unit := do
  let t := ix.traversal
  t.emitted.zipIdx.forM fun (k, n) =>
    match ix.resources[k]? with
    | some r => step n k r
    | none => pure ()
  match t.error? with
  | some e => throw (.library e)
  | none => pure ()

def printResource (format : Format) (n : Nat) (r : Resource) : Run m Unit :=
  match format with
  | .json => Run.line r.toJson.pretty
  | .yaml => do
    if n != 0 then Run.line "---"
    Run.print r.toYaml

def digestLine (k : Key) (r : Resource) : String := r.kind.text ++ "\t" ++ k.text

def indexLine (k : Key) (r : Resource) : String :=
  "  " ++ k.text ++ if r.references.isEmpty then ""
    else " <- " ++ String.intercalate ", " (r.references.map Key.text)

def indexSummary (ix : Index) (skipped : Nat) : String :=
  toString ix.resources.size ++ " resources (" ++ toString ix.pipes.size ++ " pipes, "
    ++ toString ix.views.size ++ " views, " ++ toString ix.rules.size ++ " rules), "
    ++ toString skipped ++ " files skipped"

def rule (a : RuleArguments) : Result Rule := do
  return { predicate := ⟨a.hostname, a.pattern, a.always⟩, pipes := ← a.pipes.mapM Key.parse }

def draw (host : Host m) : Nat → m (List Uuid)
  | 0 => return []
  | n + 1 => return (← host.fresh) :: (← draw host n)

def run (host : Host m) (folder : String) : Command → Run m Unit
  | .init => do
    let settings ← Run.lift (Settings.load host.toFiles folder)
    discard (Run.lift (Session.start host.toFiles settings))
    Run.line ("Database initialized" ++ match settings.storage.path with
      | some path => " at " ++ path
      | none => "")
  | .printResources path format => do
    forResources (← settled host path) fun n _ r => printResource format n r
  | .printDigests path => do
    forResources (← settled host path) fun _ k r => Run.line (digestLine k r)
  | .printIndex path => do
    let l ← Run.lift (Loaded.load host.toFiles path)
    let ix ← Attempt.ofResult l.index.qualified
    Run.line (indexSummary ix l.skipped)
    forResources ix fun _ k r => Run.line (indexLine k r)
  | .putResources path => do
    let l ← Run.lift (Loaded.load host.toFiles path)
    let s ← session host folder
    let resources := l.index.resources.toList.map (·.2)
    let fresh ← Run.lift (ExceptT.lift (draw host resources.length))
    let stored : List Key ← Run.lift (s.make host.toFiles (.putIndex fresh resources))
    stored.forM fun k => Run.line k.text
    Run.line ("Stored " ++ toString stored.length ++ " resources (" ++ toString l.skipped
      ++ " files skipped)")
  | .setDisabled name disabled => do
    let k ← Attempt.ofResult (Key.parse name)
    let s ← session host folder
    let k : Key ← Run.lift (s.make host.toFiles (.setDisabled k disabled))
    Run.line ((if disabled then "disabled " else "enabled ") ++ k.text)
  | .createRule a => do
    let s ← session host folder
    let r : Rule ← Run.lift (s.make host.toFiles (.createRule (← Attempt.ofResult (rule a))))
    Run.line r.toJson.pretty
  | .deleteRule a => do
    let s ← session host folder
    discard (Run.lift (s.make host.toFiles (.deleteRule (← Attempt.ofResult (rule a)))))
    Run.line "Rule deleted"
  | .trigger url resources includePipes includePlan => do
    let request : Trigger.Request := ⟨url, includePipes, includePlan⟩
    let fresh ← Run.lift (ExceptT.lift host.fresh)
    let response : Trigger.Response ← match resources with
      | some path => do
        let l ← Run.lift (Loaded.load host.toFiles path)
        let store ← Attempt.ofResult (MemoryStore.ofIndex l.index)
        pure (← Attempt.ofResult (store.trigger fresh request)).2
      | none => do
        let s ← session host folder
        Run.lift (s.make host.toFiles (.trigger fresh request))
    Run.line response.toJson.pretty
  | .sum path expected => do
    let bytes ← Run.lift (Attempt.ofFiles (.unreadableFile path) (host.read path))
    let sums := Checksum.Sums.of bytes
    Run.line ("crc32c  " ++ sums.crc32c)
    Run.line ("sha1    " ++ sums.sha1)
    Run.line ("sha256  " ++ sums.sha256)
    match expected with
    | some text =>
      if sums.matchesText text then Run.line "OK" else throw (.checksumMismatch path text)
    | none => pure ()
  | .version => Run.line Program.versionLine

end Command

namespace Invocation

variable {m : Type → Type} [Monad m]

def homeFolder (host : Host m) : Attempt m String := do
  match ← ExceptT.lift (host.environment "HOME") with
  | some home => if home.isEmpty then throw .noHome else return Files.Path.join home ".nuggit"
  | none => throw .noHome

/-- The folder of an invocation: the one that is named, by an argument or in the environment, or
else one under the home folder. -/
def workFolder (host : Host m) (i : Invocation) : Attempt m String := do
  match i.folder <|> (← ExceptT.lift (host.environment "NUGGIT_DIR")) with
  | some folder => return folder
  | none => homeFolder host

def usage : String :=
  "Usage: " ++ Program.name ++ " [--" ++ folderOption ++ " FOLDER] COMMAND\n\nCommands:\n"
    ++ String.join (names.map fun (name, inner) =>
      "  " ++ name ++ (if inner.isEmpty then "" else " (" ++ String.intercalate ", " inner ++ ")")
        ++ "\n")

def outcome (host : Host m) (args : List String) : m Outcome := do
  match ofArguments args with
  | .error .wrong => return { code := 2, report := some usage }
  | .error .version => return { code := 0, output := Program.versionLine ++ "\n" }
  | .error .help => return { code := 0, output := usage }
  | .ok i =>
    let steps : Run m Unit := do i.command.run host (← Run.lift (i.workFolder host))
    match ← steps.run.run "" with
    | (.ok (), output) => return { code := 0, output }
    | (.error failure, output) =>
      return { code := 1, output, report := some failure.report }

end Invocation
end PagePipes
