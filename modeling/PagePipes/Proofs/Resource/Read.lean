import PagePipes.Proofs.Resource.Written
import PagePipes.Proofs.Repointing

set_option autoImplicit false

/-!
# Resources as readers make them

The values in the actions of a pipe that was read can be written and read again, and a rule that was
read is normalized. Pointing a resource at other pipes keeps that.
-/
namespace PagePipes

def Spec.AsRead : Spec → Prop
  | .pipe p => p.Readable
  | .view _ => True
  | .rule x => x.predicate.normalized = x.predicate

def Resource.AsRead (r : Resource) : Prop := r.spec.AsRead

variable {target : Key → Key → Prop}

theorem Action.Repointed.readable {a b : Action} (h : Action.Repointed target a b)
    (ha : a.Readable) : b.Readable := by
  cases h with
  | stay => exact ha
  | move => exact ha.setKey

theorem Resource.Repointed.asRead {r q : Resource} (h : Resource.Repointed target r q)
    (hr : r.AsRead) : q.AsRead := by
  obtain ⟨-, -, hspec⟩ := h
  unfold Resource.AsRead at hr ⊢
  revert hr hspec
  generalize r.spec = s, q.spec = t
  intro hr hspec
  cases hspec with
  | pipe _ actions =>
    intro b hb
    obtain ⟨a, ha, hab⟩ := Result.exists_of_forall₂ actions.flip hb
    exact Action.Repointed.readable hab (hr a ha)
  | view => trivial
  | rule predicate =>
    rw [Spec.AsRead, predicate]
    exact hr

end PagePipes
