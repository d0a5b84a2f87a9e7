import PagePipes.Database.Change
import PagePipes.Resource.Envelope

set_option autoImplicit false

/-!
# Journals

A database is kept in a file as the journal of its changes: one JSON value a line, in the order in
which they were made. Reading the journal makes the changes again.
-/
namespace PagePipes

def PipeResult.toJson (r : PipeResult) : Json :=
  .obj [("pipe", r.pipe.toJson), ("result", r.result)]

def Report.toJson (r : Report) : Json :=
  .obj [("uuid", .str r.uuid.text), ("url", .str r.url),
    ("results", .arr (r.results.map PipeResult.toJson))]

def Trigger.Request.toJson (r : Trigger.Request) : Json :=
  .obj [("url", .str r.url), ("include_pipes", .bool r.includePipes),
    ("include_plan", .bool r.includePlan)]

def Resource.ofJson? (j : Json) : Option Resource :=
  (Decoder.ofValue Envelope.decoder j >>= Envelope.toResource).toOption

namespace Change

def uuidJson (u : Uuid) : Json := .str u.text

/-- The name of the change, what it draws from outside, and what it is about. -/
def toJson : Change → Json
  | .createResource u r => .arr [.str "create_resource", uuidJson u, r.toJson]
  | .deleteResource k => .arr [.str "delete_resource", k.toJson]
  | .putIndex us rs =>
    .arr [.str "put_index", .arr (us.map uuidJson), .arr (rs.map Resource.toJson)]
  | .setDisabled k disabled => .arr [.str "set_disabled", k.toJson, .bool disabled]
  | .createRule r => .arr [.str "create_rule", r.toJson]
  | .deleteRule r => .arr [.str "delete_rule", r.toJson]
  | .createView u v => .arr [.str "create_view", uuidJson u, v.toJson]
  | .trigger u r => .arr [.str "trigger", uuidJson u, r.toJson]
  | .exchange time r => .arr [.str "exchange", .str time, r.toJson]

def uuid? : Json → Option Uuid
  | .str s => Uuid.parse? s
  | _ => none

def key? (j : Json) : Option Key := (Decoder.ofValue (fun _ => Key.decoder) j).toOption

def decoded? {α : Type} (decoder : Origin → Decoder α) (j : Json) : Option α :=
  (Decoder.ofValue decoder j).toOption

def ofJson? : Json → Option Change
  | .arr [.str "create_resource", u, r] =>
    return .createResource (← uuid? u) (← Resource.ofJson? r)
  | .arr [.str "delete_resource", k] => .deleteResource <$> key? k
  | .arr [.str "put_index", .arr us, .arr rs] =>
    return .putIndex (← us.mapM uuid?) (← rs.mapM Resource.ofJson?)
  | .arr [.str "set_disabled", k, .bool disabled] => return .setDisabled (← key? k) disabled
  | .arr [.str "create_rule", r] => .createRule <$> decoded? Rule.decoder r
  | .arr [.str "delete_rule", r] => .deleteRule <$> decoded? Rule.decoder r
  | .arr [.str "create_view", u, v] =>
    return .createView (← uuid? u) (← decoded? View.decoder v)
  | .arr [.str "trigger", u, r] =>
    return .trigger (← uuid? u) (← decoded? Trigger.Request.decoder r)
  | .arr [.str "exchange", .str time, r] => .exchange time <$> decoded? Report.decoder r
  | _ => none

end Change

namespace Journal

def line (c : Change) : String := c.toJson.compact ++ "\n"

def changes? (text : String) : Option (List Change) :=
  ((text.splitOn "\n").filter (· ≠ "")).mapM fun l => (Json.parse? l).bind Change.ofJson?

def database? (text : String) : Option Database := (changes? text).map Database.ofChanges

end Journal
end PagePipes
