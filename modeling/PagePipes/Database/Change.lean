import PagePipes.Database.Exchange
import PagePipes.Database.Resources

set_option autoImplicit false

/-!
# Changes

A change is one operation on a database together with what it draws from outside, so that applying
it to a database always comes to the same. Each change has its own kind of answer.
-/
namespace PagePipes

inductive Change
  | createResource (fresh : Uuid) (resource : Resource)
  | deleteResource (name : Key)
  /-- Stores an index, given by its resources; identifiers are drawn in order. -/
  | putIndex (fresh : List Uuid) (resources : List Resource)
  | setDisabled (name : Key) (disabled : Bool)
  | createRule (rule : Rule)
  | deleteRule (rule : Rule)
  | createView (fresh : Uuid) (view : View)
  | trigger (fresh : Uuid) (request : Trigger.Request)
  | exchange (timestamp : String) (report : Report)
  deriving DecidableEq

namespace Change

def Answer : Change → Type
  | .createResource _ _ => Key
  | .deleteResource _ => Unit
  | .putIndex _ _ => List Key
  | .setDisabled _ _ => Key
  | .createRule _ => Rule
  | .deleteRule _ => Unit
  | .createView _ _ => StoredView
  | .trigger _ _ => Trigger.Response
  | .exchange _ _ => Receipt

def indexOf (resources : List Resource) : Result Index :=
  resources.foldlM (fun ix r => do return (← ix.add r).1) .empty

def apply (db : Database) : (c : Change) → Result (Database × c.Answer)
  | .createResource u r => db.createResource u r
  | .deleteResource k => do return (← db.deleteResource k, ())
  | .putIndex us rs => do db.putIndex (fun n => us.getD n ⟨0⟩) (← indexOf rs)
  | .setDisabled k disabled => db.setDisabled k disabled
  | .createRule r => db.createRule r
  | .deleteRule r => do return (← db.deleteRule r, ())
  | .createView u v => db.createView u v
  | .trigger u request => db.trigger u request
  | .exchange time report => db.exchange time report

/-- The database after a change that need not succeed. -/
def after (db : Database) (c : Change) : Database :=
  match c.apply db with
  | .ok (db, _) => db
  | .error _ => db

end Change

def Database.ofChanges (cs : List Change) : Database := cs.foldl Change.after .empty

end PagePipes
