set_option autoImplicit false

/-!
# Commands

What the program can be told to do.
-/
namespace PagePipes

inductive Format
  | json
  | yaml
  deriving DecidableEq, Repr

def Format.ofText? : String → Option Format
  | "json" => some .json
  | "yaml" => some .yaml
  | _ => none

/-- What a rule asks of a page and which pipes it attaches; nothing of it is checked yet. -/
structure RuleArguments where
  pipes : List String
  hostname : Option String := none
  pattern : Option String := none
  always : Bool := false
  deriving DecidableEq, Repr

inductive Command
  | init
  /-- Prints the resources under a path, their references settled. -/
  | printResources (path : String) (format : Format)
  | printDigests (path : String)
  | printIndex (path : String)
  | putResources (path : String)
  | setDisabled (pipe : String) (disabled : Bool)
  | createRule (rule : RuleArguments)
  | deleteRule (rule : RuleArguments)
  /-- Plans the pipes of a page, with the stored rules or with those under a path. -/
  | trigger (url : String) (resources : Option String) (includePipes includePlan : Bool)
  | sum (path : String) (expected : Option String)
  | version
  deriving DecidableEq, Repr

structure Invocation where
  folder : Option String
  command : Command
  deriving DecidableEq, Repr

end PagePipes
