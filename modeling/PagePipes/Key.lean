import Std.Data.ExtTreeMap
import PagePipes.Text.Quoted

set_option autoImplicit false

/-!
# Keys

A resource is named by a key: a name alone, or a name with the digest of its spec. A key without a
digest asks for whatever resource has that name; a key with one is exact. Keys are ordered by
digest first, a missing digest before all others, and then by name.
-/
namespace PagePipes

structure Key where
  name : String
  digest : Option String
  deriving DecidableEq, Repr, Inhabited

namespace Key

def bare (name : String) : Key := ⟨name, none⟩

def exact (name digest : String) : Key := ⟨name, some digest⟩

/-- A key is qualified when it carries a digest. -/
def isQualified (k : Key) : Bool := k.digest.isSome

def qualify (k : Key) (digest : String) : Key := exact k.name digest

def unqualified (k : Key) : Key := bare k.name

/-- The written form: `name` or `name@digest`. -/
def text (k : Key) : String :=
  match k.digest with
  | some d => k.name ++ "@" ++ d
  | none => k.name

instance : ToString Key := ⟨text⟩

instance : Ord Key := ⟨compareLex (compareOn digest) (compareOn name)⟩

instance : Std.TransOrd Key :=
  inferInstanceAs (Std.TransCmp (compareLex (compareOn digest) (compareOn name)))

instance : Std.LawfulEqOrd Key where
  compare_self := Std.ReflCmp.compare_self
  eq_of_compare := by
    intro a b h
    have h' : compareLex (compareOn digest) (compareOn name) a b = .eq := h
    rw [compareLex_eq_eq] at h'
    obtain ⟨hd, hn⟩ := h'
    have hd' : a.digest = b.digest := Std.LawfulEqCmp.eq_of_compare hd
    have hn' : a.name = b.name := Std.LawfulEqCmp.eq_of_compare hn
    cases a
    cases b
    simp_all

@[simp] theorem isQualified_exact (n d : String) : (exact n d).isQualified = true := rfl

@[simp] theorem isQualified_bare (n : String) : (bare n).isQualified = false := rfl

@[simp] theorem name_qualify (k : Key) (d : String) : (k.qualify d).name = k.name := rfl

@[simp] theorem name_unqualified (k : Key) : k.unqualified.name = k.name := rfl

abbrev Map (α : Type) := Std.ExtTreeMap Key α

end Key
end PagePipes
