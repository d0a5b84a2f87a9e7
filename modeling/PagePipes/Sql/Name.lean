import PagePipes.Point
import PagePipes.Uuid

set_option autoImplicit false

/-!
# Names in SQL

A name is quoted by doubling the quotes inside it. Generated tables and views have names of
lower-case letters, digits and underscores that begin with a letter.
-/
namespace PagePipes.Sql

/-- Writes a text between quotes, with every quote inside it twice. -/
def quoteWith (mark : Char) (s : String) : String :=
  String.ofList (mark :: (s.toList.flatMap (fun c => if c = mark then [mark, mark] else [c])
    ++ [mark]))

def quoteName (s : String) : String := quoteWith '"' s

def quoteText (s : String) : String := quoteWith '\'' s

def safeChar (c : Char) : Char :=
  let c := c.toLower
  if ('a' ≤ c ∧ c ≤ 'z') ∨ ('0' ≤ c ∧ c ≤ '9') then c else '_'

/-- The text with every character that is no ASCII letter or digit as an underscore. -/
def safe (s : String) : String := String.ofList (s.toList.map safeChar)

def tableName (name digest : String) : String := "collection_" ++ safe name ++ "__" ++ safe digest

def viewName (u : Uuid) : String := "view_" ++ u.identifier

def columnType (p : Point) : String :=
  if p.repeated then "TEXT"
  else match p.scalar with
    | .bytes => "BLOB"
    | .string => "TEXT"
    | .bool => "BOOLEAN"
    | .int64 | .uint64 => "INTEGER"
    | .float64 => "REAL"

def columnDefinition (name : String) (p : Point) : String :=
  let column := quoteName name
  column ++ " " ++ columnType p ++ (if p.nullable then "" else " NOT NULL")
    ++ (if p.repeated then
        " CHECK (json_valid(" ++ column ++ ") AND json_type(" ++ column ++ ") = 'array')"
      else if p.scalar = .uint64 then " CHECK (" ++ column ++ " >= 0)"
      else "")

end PagePipes.Sql
