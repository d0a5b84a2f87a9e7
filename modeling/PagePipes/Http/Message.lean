import PagePipes.Json.Decode
import PagePipes.Json.Printer
import PagePipes.Text.Utf8
import PagePipes.Url.Percent

set_option autoImplicit false

/-!
# HTTP messages

A request is a method, a target and perhaps a body with its media type. A response is a status and
perhaps a body.
-/
namespace PagePipes.Http

structure Request where
  method : String
  /-- The path and, behind a question mark, the query. -/
  target : String
  mediaType : Option String := none
  body : String := ""
  deriving DecidableEq, Repr

inductive Body
  | empty
  | json (value : Json)
  | text (value : String)
  deriving DecidableEq, Repr

structure Response where
  status : Nat
  body : Body := .empty
  deriving DecidableEq, Repr

def Response.ofError (e : Error) : Response :=
  ⟨e.code.httpStatus, .json (.obj [("status", .str e.code.text), ("reason", .str e.message)])⟩

/-! ## Targets -/

def isPathEnd (c : Char) : Bool := c == '?' || c == '#'

namespace Request

def path (r : Request) : List Char := r.target.toList.takeWhile (!isPathEnd ·)

def query (r : Request) : List Char :=
  match r.target.toList.dropWhile (!isPathEnd ·) with
  | '?' :: rest => rest.takeWhile (· ≠ '#')
  | _ => []

end Request

def pieces (mark : Char) : List Char → List (List Char)
  | [] => [[]]
  | c :: rest =>
    if c = mark then [] :: pieces mark rest
    else match pieces mark rest with
      | [] => [[c]]
      | p :: ps => (c :: p) :: ps

/-- A name or a value in a query: a plus sign is a space, and escapes are read. -/
def formText (cs : List Char) : String :=
  let bytes := (String.ofList (cs.map fun c => if c = '+' then ' ' else c)).toUTF8.toList
  String.ofList (Text.Utf8.decode (Url.Percent.decodeBytes bytes))

def queryFields (query : List Char) : List (String × String) :=
  ((pieces '&' query).filter (!·.isEmpty)).map fun p =>
    (formText (p.takeWhile (· ≠ '=')), formText ((p.dropWhile (· ≠ '=')).drop 1))

/-! ## Media types -/

def isToken (c : Char) : Bool :=
  c.isAlphanum || "!#$%&'*+-.^_\x60|~".toList.contains c

/-- The end of a parameter that stands in quotes: blanks and a semicolon. -/
def afterQuoted (cs : List Char) : Option (List Char) :=
  match cs.dropWhile (· = ' ') with
  | [] => some []
  | ';' :: rest => some rest
  | _ => none

def parameter (cs : List Char) : Option (List Char) :=
  let cs := cs.dropWhile (· = ' ')
  let name := cs.takeWhile isToken
  match name, cs.dropWhile isToken with
  | _ :: _, '=' :: '"' :: rest =>
    match rest.takeWhile (· ≠ '"'), rest.dropWhile (· ≠ '"') with
    | _ :: _, '"' :: rest => afterQuoted rest
    | _, _ => none
  | _ :: _, '=' :: rest =>
    match rest.dropWhile isToken with
    | [] => some []
    | ';' :: after => if rest.head? = some ';' then none else some after
    | _ => none
  | _, _ => none

/-- Whether a list of parameters is well formed. One parameter at least is taken at each turn. -/
def parameters : Nat → List Char → Bool
  | _, [] => true
  | 0, _ => false
  | fuel + 1, cs =>
    match parameter cs with
    | some rest => parameters fuel rest
    | none => false

/-- Whether a media type is JSON: its subtype or its suffix says so. -/
def isJsonMedia (s : String) : Bool :=
  let cs := s.toList
  let kind := cs.takeWhile isToken
  match cs.dropWhile isToken with
  | '/' :: rest =>
    let sub := (rest.takeWhile isToken).map Char.toLower
    let wellFormed := match rest.dropWhile isToken with
      | [] => true
      | ';' :: after => !sub.isEmpty && parameters s.length after
      | _ => false
    let suffixes := pieces '+' sub
    wellFormed && kind.map Char.toLower == "application".toList
      && (suffixes.head? == some "json".toList
        || (1 < suffixes.length && suffixes.getLast? == some "json".toList))
  | _ => false

/-! ## Bodies -/

/-- The most bytes that a body may have. -/
def bodyLimit : Nat := 2097152

def mediaTypeText : String := "Expected request with \x60Content-Type: application/json\x60"

/-- Decodes a JSON body. Faults are taken in the order of the text, and what follows the value is
looked at last. -/
def decodeBody {α : Type} (decoder : Decoder α) (r : Request) : Result α :=
  let fault (text : String) : Result α := .error (.invalidArgument text)
  let notJson := "Failed to parse the request body as JSON"
  if !(r.mediaType.map isJsonMedia).getD false then fault mediaTypeText
  else if bodyLimit < r.body.utf8ByteSize then
    fault "Failed to buffer the request body: length limit exceeded"
  else
    let (d, ended) := Document.read r.body
    match decoder d with
    | .ok a => if ended then .ok a else fault notJson
    | .error f =>
      fault (if f.isSyntax then notJson
        else "Failed to deserialize the JSON body into the target type")

end PagePipes.Http
