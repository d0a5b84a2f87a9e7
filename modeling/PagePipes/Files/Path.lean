set_option autoImplicit false

/-!
# Paths

A path is a text: names between slashes, from the root when it begins with one. Empty names and
single dots mean nothing.
-/
namespace PagePipes.Files.Path

def isAbsolute (path : String) : Bool := path.startsWith "/"

/-- The names on a path, two dots among them. -/
def names (path : String) : List String :=
  (path.splitOn "/").filter fun n => n != "" && n != "."

def ofNames (absolute : Bool) (ns : List String) : String :=
  (if absolute then "/" else "") ++ String.intercalate "/" ns

def join (base path : String) : String :=
  if isAbsolute path then path
  else if base.isEmpty || base.endsWith "/" then base ++ path
  else base ++ "/" ++ path

/-- The folder that a path stands in; a path without names has none. -/
def parent? (path : String) : Option String :=
  match names path with
  | [] => none
  | ns => some (ofNames (isAbsolute path) ns.dropLast)

/-- What follows the last dot of a name, unless the name begins with it. -/
def extensionOf (name : String) : String :=
  match (name.splitOn ".").reverse with
  | last :: first :: more => if more.isEmpty && first.isEmpty || name == ".." then "" else last
  | _ => ""

def extension (path : String) : String :=
  match (names path).getLast? with
  | some name => extensionOf name
  | none => ""

end PagePipes.Files.Path
