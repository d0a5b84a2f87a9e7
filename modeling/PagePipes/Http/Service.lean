import PagePipes.Database.Exchange
import PagePipes.Database.Resources
import PagePipes.Http.Message
import PagePipes.Program

set_option autoImplicit false

/-!
# The HTTP interface

Each path has an endpoint, and each endpoint its methods. A request runs one operation on a
database; a failed one leaves it as it was and answers the status of its error.
-/
namespace PagePipes.Http

/-- A path; the parts that name something are still escaped. -/
inductive Endpoint
  | health
  | resources
  | resource (id : List Char)
  | pipes
  | pipe (id : List Char)
  | rules
  | views
  | viewRows (uuid : List Char)
  | trigger
  | exchange
  deriving DecidableEq, Repr

namespace Endpoint

/-- A part at the end of a path must not be empty. -/
def ofPath? (path : List Char) : Option Endpoint :=
  match (pieces '/' path).map String.ofList with
  | ["", "health"] => some .health
  | ["", "api", "resources"] => some .resources
  | ["", "api", "resources", id] => if id = "" then none else some (.resource id.toList)
  | ["", "api", "pipes"] => some .pipes
  | ["", "api", "pipes", id] => if id = "" then none else some (.pipe id.toList)
  | ["", "api", "rules"] => some .rules
  | ["", "api", "views"] => some .views
  | ["", "api", "views", uuid, "rows"] => some (.viewRows uuid.toList)
  | ["", "api", "trigger", "implicit"] => some .trigger
  | ["", "api", "trigger", "exchange"] => some .exchange
  | _ => none

end Endpoint

/-- What a request draws from outside: fresh identifiers and the time. -/
structure Supply where
  uuid : Uuid
  timestamp : String
  deriving DecidableEq, Repr

abbrev Answer := Result (Database × Response)

def ok (db : Database) (j : Json) : Answer := .ok (db, ⟨200, .json j⟩)

def noContent (db : Database) : Answer := .ok (db, ⟨204, .empty⟩)

/-- Reads an escaped part of a path; a part that is no text is refused before the operation. -/
def withPart (db : Database) (name : String) (part : List Char) (run : String → Answer) : Answer :=
  match Url.Percent.decode? part with
  | some cs => run (String.ofList cs)
  | none =>
    .ok (db, ⟨400, .text ("Invalid URL: Invalid UTF-8 in " ++ DecodeFault.marked name)⟩)

def resourceDecoder : Decoder Resource := fun d => do
  match (← Envelope.decoder .text d).toResource with
  | .ok r => return r
  | .error e => throw (.custom e.message)

def listResources (db : Database) (query : List Char) : Answer := do
  match (queryFields query).filter (·.1 == "kind") with
  | [] => ok db (resourceList (← db.listResources none))
  | [(_, kind)] => ok db (resourceList (← db.listResources (← Kind.parse kind)))
  | _ =>
    return (db, ⟨400, .text ("Failed to deserialize query string: "
      ++ (DecodeFault.repeatedField "kind").message)⟩)
where
  resourceList (rs : List StoredResource) : Json :=
    .obj [("resources", .arr (rs.map StoredResource.toJson))]

def statusSuffixes : List (String × Bool) := [(":disable", true), (":enable", false)]

/-- Splits the name of a pipe from what is to happen to it. -/
def splitStatus (id : String) : Result (String × Bool) :=
  match statusSuffixes.find? (fun s => s.1.toList.isSuffixOf id.toList) with
  | some (mark, disabled) =>
    .ok (String.ofList (id.toList.take (id.length - mark.length)), disabled)
  | none => .error (.invalidArgument
    ("expected \x7bname@digest\x7d:disable or \x7bname@digest\x7d:enable, got "
      ++ Text.Quoted.text id))

def setStatus (db : Database) (id : String) : Answer := do
  let (id, disabled) ← splitStatus id
  let (db, k) ← db.setDisabled (← Key.parse id) disabled
  ok db (.obj [("name", k.toJson), ("disabled", .bool disabled)])

def viewRows (db : Database) (s : String) : Answer := do
  match Uuid.parse? s with
  | none => throw (.invalidArgument ("invalid view uuid " ++ Text.Quoted.text s))
  | some u => ok db (.obj [("rows", .arr (← db.viewRowsJson u))])

def run (db : Database) (supply : Supply) (r : Request) (method : String) :
    Endpoint → Option Answer
  | .health =>
    if method = "GET" then
      some (ok db (.obj [("status", .str "ok"), ("version", .str Program.version)]))
    else none
  | .resources =>
    match method with
    | "GET" => some (listResources db r.query)
    | "POST" => some do
      let (db, k) ← db.createResource supply.uuid (← decodeBody resourceDecoder r)
      ok db (.obj [("id", k.toJson)])
    | _ => none
  | .resource id =>
    match method with
    | "GET" => some <| withPart db "id" id fun s => do
      ok db (← db.storedResource (← Key.parse s)).toJson
    | "DELETE" => some <| withPart db "id" id fun s => do
      noContent (← db.deleteResource (← Key.parse s))
    | _ => none
  | .pipes =>
    if method = "GET" then some do
      ok db (.obj [("pipes", .arr ((← db.listPipes).map PipeEntry.toJson))])
    else none
  | .pipe id =>
    match method with
    | "GET" => some <| withPart db "id" id fun s => do
      ok db (← db.pipeEntry (← Key.parse s)).toJson
    | "POST" => some <| withPart db "id" id (setStatus db)
    | _ => none
  | .rules =>
    match method with
    | "POST" => some do
      let (db, rule) ← db.createRule (← decodeBody (Rule.decoder .text) r)
      ok db rule.toJson
    | "DELETE" => some do noContent (← db.deleteRule (← decodeBody (Rule.decoder .text) r))
    | _ => none
  | .views =>
    if method = "POST" then some do
      let (db, v) ← db.createView supply.uuid (← decodeBody (View.decoder .text) r)
      ok db v.toJson
    else none
  | .viewRows uuid =>
    if method = "GET" then some (withPart db "uuid" uuid (viewRows db)) else none
  | .trigger =>
    if method = "POST" then some do
      let request ← decodeBody (Trigger.Request.decoder .text) r
      let (db, response) ← db.trigger supply.uuid request
      ok db response.toJson
    else none
  | .exchange =>
    if method = "POST" then some do
      let report ← decodeBody (Report.decoder .text) r
      let (db, receipt) ← db.exchange supply.timestamp report
      ok db receipt.toJson
    else none

/-- Answers a request by the method's rules: asking for options is always allowed, and asking for
the head of a page runs as asking for the page and drops the body. -/
def respond (db : Database) (supply : Supply) (r : Request) : Database × Response :=
  if r.method = "OPTIONS" then (db, ⟨200, .empty⟩)
  else match Endpoint.ofPath? r.path with
    | none => (db, ⟨404, .empty⟩)
    | some e =>
      let isHead := r.method == "HEAD"
      match run db supply r (if isHead then "GET" else r.method) e with
      | none => (db, ⟨405, .empty⟩)
      | some answer =>
        let (db, response) := match answer with
          | .ok result => result
          | .error error => (db, Response.ofError error)
        (db, if isHead then { response with body := .empty } else response)

end PagePipes.Http
