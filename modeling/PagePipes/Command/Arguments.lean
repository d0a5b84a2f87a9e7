import PagePipes.Command.Basic

set_option autoImplicit false

/-!
# Arguments

Arguments name a command, then its operands and options in any order. An option has its value in
the next argument or behind an equals sign, and is given at most once; behind two hyphens
everything is an operand. The folder may be named at every level; the innermost one counts.
-/
namespace PagePipes

inductive Misuse
  | wrong
  | help
  | version
  deriving DecidableEq, Repr

inductive Argument
  | operand (text : String)
  | named (name : String) (value : Option String)
  | short (letters : List Char)
  | escape
  deriving DecidableEq, Repr

def Argument.ofText (s : String) : Argument :=
  match s.toList with
  | ['-', '-'] => .escape
  | '-' :: '-' :: cs =>
    let name := cs.takeWhile (· != '=')
    .named (String.ofList name)
      (if name.length = cs.length then none else some (String.ofList (cs.drop (name.length + 1))))
  | ['-'] => .operand s
  | '-' :: cs => .short cs
  | _ => .operand s

/-- Whether a text may be a value. -/
abbrev Check := String → Bool

def anyText : Check := fun _ => true

def isPath : Check := (!·.isEmpty)

inductive Operands
  | none
  | one (check : Check)
  | several (check : Check)

def Operands.allows : Operands → (given : Nat) → String → Bool
  | .none, _, _ => false
  | .one check, n, s => n == 0 && check s
  | .several check, _, s => check s

def Operands.suffices : Operands → (given : Nat) → Bool
  | .none, _ => true
  | .one _, n | .several _, n => n != 0

def folderOption : String := "nuggit-dir"

structure Shape where
  operands : Operands := .none
  flags : List String := []
  options : List (String × Check) := []

namespace Shape

def check? (s : Shape) (name : String) : Option Check :=
  if name = folderOption then some isPath else s.options.lookup name

end Shape

structure Given where
  operands : List String := []
  flags : List String := []
  options : List (String × String) := []
  deriving Repr

namespace Given

def option? (g : Given) (name : String) : Option String := g.options.lookup name

def has (g : Given) (flag : String) : Bool := g.flags.contains flag

def addOperand (shape : Shape) (g : Given) (s : String) : Except Misuse Given :=
  if shape.operands.allows g.operands.length s then
    .ok { g with operands := g.operands ++ [s] }
  else .error .wrong

def addFlag (g : Given) (name : String) : Except Misuse Given :=
  if g.has name then .error .wrong else .ok { g with flags := name :: g.flags }

def addOption (g : Given) (check : Check) (name value : String) : Except Misuse Given :=
  if (g.option? name).isSome || !check value then .error .wrong
  else .ok { g with options := (name, value) :: g.options }

/-- Letters ask for help, or, at the top level, for the version. -/
def ofLetters (top : Bool) : List Char → Misuse
  | 'h' :: _ => .help
  | 'V' :: _ => if top then .version else .wrong
  | _ => .wrong

def read (shape : Shape) (g : Given) : List String → Except Misuse Given
  | [] => if shape.operands.suffices g.operands.length then .ok g else .error .wrong
  | arg :: rest =>
    match Argument.ofText arg with
    | .operand s => do read shape (← g.addOperand shape s) rest
    | .escape => do
      let g ← rest.foldlM (addOperand shape) g
      if shape.operands.suffices g.operands.length then return g else throw .wrong
    | .short cs => .error (ofLetters false cs)
    | .named name value =>
      if shape.flags.contains name then
        if value.isSome then .error .wrong else do read shape (← g.addFlag name) rest
      else match shape.check? name, value with
        | none, _ => .error (if name = "help" ∧ value.isNone then .help else .wrong)
        | some check, some v => do read shape (← g.addOption check name v) rest
        | some check, none =>
          match rest with
          | [] => .error .wrong
          | v :: rest =>
            match Argument.ofText v with
            | .operand v => do read shape (← g.addOption check name v) rest
            | _ => .error .wrong

/-- Reads arguments up to the name of a command. -/
def readName (top : Bool) (g : Given) : List String → Except Misuse (Given × String × List String)
  | [] => .error .wrong
  | arg :: rest =>
    match Argument.ofText arg with
    | .operand s => .ok (g, s, rest)
    | .escape => .error .wrong
    | .short cs => .error (ofLetters top cs)
    | .named name value =>
      if name = folderOption then
        match value with
        | some v => do readName top (← g.addOption isPath name v) rest
        | none =>
          match rest with
          | [] => .error .wrong
          | v :: rest =>
            match Argument.ofText v with
            | .operand v => do readName top (← g.addOption isPath name v) rest
            | _ => .error .wrong
      else if name = "help" ∧ value.isNone then .error .help
      else if top ∧ name = "version" ∧ value.isNone then .error .version
      else .error .wrong

end Given

namespace Invocation

def pathShape : Shape := { operands := .one isPath }

def textShape : Shape := { operands := .one anyText }

def formatShape : Shape :=
  { operands := .one isPath, options := [("format", fun s => (Format.ofText? s).isSome)] }

def ruleShape : Shape :=
  { operands := .several anyText, flags := ["always"],
    options := [("hostname", anyText), ("url-pattern", anyText)] }

def triggerShape : Shape :=
  { operands := .one anyText, flags := ["include-pipes", "no-plan"], options := [("dir", isPath)] }

def sumShape : Shape := { operands := .one isPath, options := [("check", anyText)] }

def names : List (String × List String) :=
  [("init", []), ("resources", ["cat", "digest", "index", "put"]),
    ("pipe", ["enable", "disable"]), ("rule", ["create", "delete"]), ("trigger", []),
    ("sum", []), ("version", [])]

def isTopic : List String → Bool
  | [] | ["help"] => true
  | [name] => (names.lookup name).isSome
  | [name, inner] =>
    match names.lookup name with
    | some inners => inners.contains inner || (inner == "help" && !inners.isEmpty)
    | none => false
  | _ => false

def helpOn (topic : List String) : Misuse := if isTopic topic then .help else .wrong

def ruleArguments (g : Given) : RuleArguments :=
  ⟨g.operands, g.option? "hostname", g.option? "url-pattern", g.has "always"⟩

def format (g : Given) : Format := ((g.option? "format").bind Format.ofText?).getD .yaml

/-- What the command of a name takes, and how it is made of its arguments. -/
def form? (name : String) : Option (Shape × (Given → Command)) :=
  let operand (g : Given) : String := g.operands.headD ""
  match name with
  | "init" => some ({}, fun _ => .init)
  | "version" => some ({}, fun _ => .version)
  | "resources cat" => some (formatShape, fun g => .printResources (operand g) (format g))
  | "resources digest" => some (pathShape, fun g => .printDigests (operand g))
  | "resources index" => some (pathShape, fun g => .printIndex (operand g))
  | "resources put" => some (pathShape, fun g => .putResources (operand g))
  | "pipe enable" => some (textShape, fun g => .setDisabled (operand g) false)
  | "pipe disable" => some (textShape, fun g => .setDisabled (operand g) true)
  | "rule create" => some (ruleShape, fun g => .createRule (ruleArguments g))
  | "rule delete" => some (ruleShape, fun g => .deleteRule (ruleArguments g))
  | "trigger" => some (triggerShape, fun g =>
      .trigger (operand g) (g.option? "dir") (g.has "include-pipes") (!g.has "no-plan"))
  | "sum" => some (sumShape, fun g => .sum (operand g) (g.option? "check"))
  | _ => none

def readCommand (name : String) (args : List String) : Except Misuse (Given × Command) := do
  match form? name with
  | some (shape, make) =>
    let g ← Given.read shape {} args
    return (g, make g)
  | none => throw .wrong

def ofArguments (args : List String) : Except Misuse Invocation := do
  let (outer, name, rest) ← Given.readName true {} args
  if name = "help" then throw (helpOn rest)
  match names.lookup name with
  | none => throw .wrong
  | some [] =>
    let (g, c) ← readCommand name rest
    return ⟨g.option? folderOption <|> outer.option? folderOption, c⟩
  | some _ =>
    let (middle, inner, rest) ← Given.readName false {} rest
    if inner = "help" then throw (helpOn (name :: rest))
    let (g, c) ← readCommand (name ++ " " ++ inner) rest
    return ⟨g.option? folderOption <|> middle.option? folderOption <|> outer.option? folderOption,
      c⟩

end Invocation
end PagePipes
