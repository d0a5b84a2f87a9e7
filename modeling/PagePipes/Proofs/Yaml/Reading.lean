import PagePipes.Proofs.Json.Nesting
import PagePipes.Yaml.Reading

set_option autoImplicit false

/-!
# Values of nodes

A value that is read out of nodes holds integers of 64 bits and sorted objects, and no more
containers stand inside one another than the reader goes down.
-/
namespace PagePipes.Yaml

theorem Meaning.within_of_toJson? {m : Meaning} {text : String} {j : Json} {n : Nat}
    (hfits : ∀ i, m = .int i → (Number.int i).Fits) (h : m.toJson? text = some j) :
    j.Within n := by
  cases m with
  | int i =>
    cases h
    exact .plain (hfits i rfl) trivial rfl
  | float x =>
    cases h
    split_ifs <;> exact .plain trivial trivial rfl
  | wide i => cases h
  | _ =>
    cases h
    exact .plain trivial trivial rfl

theorem Meaning.fits_of_ofInteger? {n i : Int} (h : ofInteger? n = some (.int i)) :
    (Number.int i).Fits := by
  unfold ofInteger? at h
  split_ifs at h with hfits <;> cases h
  exact hfits

theorem Meaning.fits_of_ofPlain {text : String} {i : Int} (h : ofPlain text = .int i) :
    (Number.int i).Fits := by
  unfold ofPlain at h
  split at h
  · cases h
  · split at h
    · cases h
    · split at h
      · next m hm =>
        obtain ⟨n, -, hn⟩ := Option.bind_eq_some_iff.1 hm
        exact fits_of_ofInteger? (h ▸ hn)
      · split at h
        · cases h
        · split at h <;> cases h

namespace Reading

variable {α β : Type} {P : α → Prop} {Q : β → Prop}

/-- Whatever the reading answers, it has the property. -/
def Gives (x : Reading α) (P : α → Prop) : Prop := ∀ i a k, x.run i = .ok (a, k) → P a

theorem Gives.pure {a : α} (h : P a) : Gives (pure a) P := fun i b k hb => by
  cases hb
  exact h

theorem Gives.throw {e : ReadFault} : Gives (throw e : Reading α) P := fun i a k h => by
  cases h

theorem Gives.bind {x : Reading α} {f : α → Reading β} (hx : Gives x P)
    (hf : ∀ a, P a → Gives (f a) Q) : Gives (x >>= f) Q := by
  intro i b k h
  obtain ⟨⟨a, j⟩, ha, hb⟩ := Result.bind_eq_ok.1 h
  exact hf a (hx i a j ha) j b k hb

theorem Gives.trivial {x : Reading α} : Gives x fun _ => True := fun _ _ _ _ => True.intro

theorem Gives.mapM {f : α → Reading β} {xs : List α} (h : ∀ x ∈ xs, Gives (f x) Q) :
    Gives (xs.mapM f) fun ys => ∀ y ∈ ys, Q y := by
  induction xs with
  | nil => exact .pure (by simp)
  | cons x xs ih =>
    obtain ⟨hx, hxs⟩ := List.forall_mem_cons.1 h
    rw [List.mapM_cons]
    exact hx.bind fun y hy => (ih hxs).bind fun ys hys => .pure (List.forall_mem_cons.2 ⟨hy, hys⟩)

theorem gives_ofOption {o : Option α} (h : ∀ a, o = some a → P a) : Gives (ofOption o) P := by
  cases o with
  | none => exact .throw
  | some a => exact .pure (h a rfl)

theorem gives_scalar {tag : Option String} {plain : Bool} {text : String} {n : Nat} :
    Gives (scalar tag plain text) (Json.Within n) := by
  have htext : (Json.str text).Within n := .plain True.intro True.intro rfl
  unfold scalar
  split
  · split_ifs
    · exact gives_ofOption fun j hj =>
        Meaning.within_of_toJson? (fun i => Meaning.fits_of_ofPlain) hj
    · exact .pure htext
  · split_ifs
    · exact .throw
    · refine gives_ofOption fun j hj => ?_
      obtain ⟨b, -, rfl⟩ := Option.map_eq_some_iff.1 hj
      exact .plain True.intro True.intro rfl
    · refine gives_ofOption fun j hj => ?_
      obtain ⟨m, hm, hj⟩ := Option.bind_eq_some_iff.1 hj
      obtain ⟨i, -, hi⟩ := Option.bind_eq_some_iff.1 hm
      exact Meaning.within_of_toJson? (fun k hk => Meaning.fits_of_ofInteger? (hk ▸ hi)) hj
    · refine gives_ofOption fun j hj => ?_
      obtain ⟨x, -, hj⟩ := Option.bind_eq_some_iff.1 hj
      exact Meaning.within_of_toJson? (fun i hi => by cases hi) hj
    · refine gives_ofOption fun j hj => ?_
      cases hj
      exact .plain True.intro True.intro rfl
    · exact .throw
    · exact .pure htext

/-- The value of a node has no more containers inside one another than it was read with. -/
theorem gives_json {d : Document} {depth : Nat} {n : Node} :
    Gives (json d depth n) (Json.Within depth) := by
  induction depth generalizing n with
  | zero =>
    rw [json]
    refine Gives.trivial.bind fun m _ => ?_
    split
    · exact gives_scalar
    · exact Gives.trivial.bind fun _ _ => .throw
    · exact Gives.trivial.bind fun _ _ => .throw
    · exact .throw
  | succ depth ih =>
    rw [json]
    refine Gives.trivial.bind fun m _ => ?_
    split
    · exact gives_scalar
    · refine Gives.trivial.bind fun _ _ => ?_
      exact (Gives.mapM fun _ _ => ih).bind fun items hitems => .pure (.arr hitems)
    · refine Gives.trivial.bind fun _ _ => ?_
      refine (Gives.mapM (Q := fun f : String × Json => f.2.Within depth) fun e _ => ?_).bind
        fun fields hfields => .pure (.obj hfields)
      refine Gives.trivial.bind fun key _ => ?_
      split
      · exact ih.bind fun j hj => .pure hj
      · exact .throw
    · exact .throw

section Record

variable {d : Document} {path : Path} {names : List String}
  {step : α → String → Path → Node → Reading α}
  (hstep : ∀ s name here n, P s → Gives (step s name here n) P)
include hstep

theorem gives_fields {s : α} {entries : List (Node × Node)} (hs : P s) :
    Gives (fields d path names step s entries) P := by
  induction entries generalizing s with
  | nil => exact .pure hs
  | cons e entries ih =>
    obtain ⟨k, v⟩ := e
    rw [fields]
    refine Gives.trivial.bind fun name _ => ?_
    split_ifs
    · exact (hstep _ _ _ _ hs).bind fun next hnext => ih hnext
    · exact ih hs

theorem gives_record {s : α} {n : Node} (hs : P s) : Gives (record d path names step s n) P := by
  unfold record
  refine Gives.trivial.bind fun m _ => ?_
  split
  · exact gives_fields hstep hs
  · exact .pure hs
  · exact .throw

end Record

theorem gives_once {slot : Option α} {path : Path} {name : String} {value : Reading α}
    (h : Gives value P) : Gives (once path slot name value) fun o => ∃ a, o = some a ∧ P a := by
  unfold once
  split_ifs
  · exact .throw
  · exact h.bind fun a ha => .pure ⟨a, rfl, ha⟩

end Reading

end PagePipes.Yaml
