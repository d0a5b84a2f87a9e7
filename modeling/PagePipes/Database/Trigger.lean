import PagePipes.Database.Rules
import PagePipes.Trigger

set_option autoImplicit false

/-!
# Triggers on stored rules

A page is matched against the links of every stored pipe that is not disabled. What it triggers is
planned and the plan is stored.
-/
namespace PagePipes

namespace Condition

def brokenPattern (fault : Regex.Fault) : Error :=
  .internal ("stored url pattern does not compile: " ++ fault.message)

def regex? (c : Condition) : Result (Option Regex) :=
  if c.pattern = "" then .ok none
  else match Regex.parse c.pattern with
    | .ok r => .ok (some r)
    | .error fault => .error (brokenPattern fault)

/-- Whether a condition is looked at for a host. -/
def mayApply (c : Condition) (host : String) : Bool :=
  c.always || c.hostname == host || c.hostname == ""

def applies (c : Condition) (u : Url) : Result Bool := do
  return Predicate.accepts c.always (some c.hostname) (← c.regex?) u

end Condition

namespace Database

def conditionsOf (db : Database) (k : Key) : List Condition :=
  (db.links.filter (·.pipe == k)).map (·.condition)

/-- The host by which rules are found, in lower case. -/
def hostOf (u : Url) : String := Key.lower (u.hostText?.getD "")

/-- Whether a stored rule attaches a pipe to a page. Every condition that the host does not rule
out is looked at, so a pattern that cannot be read is reported even when another one matches. -/
def attaches (db : Database) (u : Url) (k : Key) : Result Bool := do
  let answers ← ((db.conditionsOf k).filter (·.mayApply (hostOf u))).mapM (·.applies u)
  return answers.contains true

/-- The enabled pipes that a stored rule attaches to a page, by name and then by digest. -/
def matched (db : Database) (u : Url) : Result (List MatchedPipe) := do
  let rows ← (db.listedPipes.filter (!·.disabled)).filterM (db.attaches u ·.key)
  rows.mapM fun r => return ⟨r.key, ← r.pipe⟩

def source (db : Database) : PipeSource := ⟨db.matched, db.referencedPipes⟩

/-- Stores a plan and the pipes that it was made for. -/
def storePlan (db : Database) (u : Uuid) (plan : Plan) (pipes : List PlannedPipe) :
    Result Database := do
  if db.plans.any (·.uuid == u) then
    throw (.alreadyExists "UNIQUE constraint failed: TriggerPlans.UUID")
  pipes.forM fun p => db.needPipe p.name
  return { db with plans := db.plans ++ [⟨u, plan.toJson.compact, pipes, false⟩] }

/-- Plans the pipes of a page and stores the plan under a fresh identifier. -/
def trigger (db : Database) (u : Uuid) (request : Trigger.Request) :
    Result (Database × Trigger.Response) := do
  let url ← Trigger.parseUrl request.url
  let o ← Trigger.outcome db.source url
  let db ← db.storePlan u o.plan o.planned
  return (db, Trigger.response request u o)

def planRow? (db : Database) (u : Uuid) : Option PlanRow := db.plans.find? (·.uuid == u)

def planNotFound (u : Uuid) : Error := .notFound ("plan not found: " ++ u.text)

/-- The stored plan and whether its values have been reported. -/
def plan (db : Database) (u : Uuid) : Result (Plan × Bool) :=
  match db.planRow? u with
  | some r => return (← Decoder.ofText Plan.decoder r.text, r.finished)
  | none => .error (planNotFound u)

end Database
end PagePipes
