import PagePipes.Key.Parse
import PagePipes.Json.Decode

set_option autoImplicit false

/-!
# Keys in documents

A key is encoded as its written form and decoded by reading it.
-/
namespace PagePipes.Key

def toJson (k : Key) : Json := .str k.text

def decoder : Decoder Key := fun d => do
  let s ← Decoder.string d
  match parse s with
  | .ok k => return k
  | .error e => throw (.custom e.message)

end PagePipes.Key
