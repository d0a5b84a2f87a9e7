import PagePipes.Proofs.Index.Coherent

set_option autoImplicit false

/-!
# Bare names in an index

What a bare name resolves to is chosen among the pipes of that name; views and rules that share the
name do not count.
-/
namespace PagePipes

/-- What a bare name comes to, given the keys that it may mean. -/
def choose (k : Key) : List Key → Result Key
  | [] => .error (Index.pipeNotFound k)
  | [only] => .ok only
  | many => .error (.ambiguous k.name many.length)

theorem choose_perm {k : Key} {keys others : List Key} (h : keys.Perm others) :
    choose k keys = choose k others := by
  match keys, others, h with
  | [], _, h => rw [List.nil_perm.1 h]
  | [only], _, h => rw [List.singleton_perm.1 h]
  | a :: b :: keys, [], h => cases h.eq_nil
  | a :: b :: keys, [c], h => cases h.length_eq
  | a :: b :: keys, c :: d :: others, h => simp only [choose, h.length_eq]

section choose

variable {k t : Key} {keys : List Key}

theorem choose_eq_ok : choose k keys = .ok t ↔ keys = [t] := by
  rcases keys with _ | ⟨a, _ | ⟨b, rest⟩⟩ <;> simp [choose]

theorem choose_eq_missing : choose k keys = .error (Index.pipeNotFound k) ↔ keys = [] := by
  rcases keys with _ | ⟨a, _ | ⟨b, rest⟩⟩ <;> simp [choose, Index.pipeNotFound]

theorem choose_eq_ambiguous {count : Nat} :
    choose k keys = .error (.ambiguous k.name count) ↔ 2 ≤ count ∧ count = keys.length := by
  rcases keys with _ | ⟨a, _ | ⟨b, rest⟩⟩ <;> simp [choose, Index.pipeNotFound] <;> omega

end choose

namespace Index

variable {ix : Index} {k : Key} {n : String}

theorem resolve_eq_choose (hk : k.isQualified = false) :
    ix.resolve k = choose k (ix.pipesNamed k.name) := by
  rw [resolve, if_neg (by simp [hk]), ← pipesNamed]
  generalize ix.pipesNamed k.name = keys
  rcases keys with _ | ⟨a, _ | ⟨b, rest⟩⟩ <;> rfl

def pipeKeys (ix : Index) (n : String) : List Key := ix.pipes.keys.filter (·.name = n)

theorem mem_pipeKeys : k ∈ ix.pipeKeys n ↔ k ∈ ix.pipes ∧ k.name = n := by
  simp [pipeKeys, Std.ExtTreeMap.mem_keys]

theorem nodup_pipeKeys : (ix.pipeKeys n).Nodup := Std.ExtTreeMap.nodup_keys.filter _

theorem Coherent.pipesNamed_perm (hc : Coherent ix) (n : String) :
    (ix.pipesNamed n).Perm (ix.pipeKeys n) :=
  (List.perm_ext_iff_of_nodup pipesNamed_nodup nodup_pipeKeys).2 fun k => by
    rw [hc.mem_pipesNamed, mem_pipeKeys]

/-- A bare name resolves to the only pipe that has it. It is missing when there is none, and ambiguous
with the number of the pipes when there are several. -/
structure ResolvesPipes (ix : Index) (n : String) : Prop where
  found : ∀ k, ix.resolve (.bare n) = .ok k ↔
    (k ∈ ix.pipes ∧ k.name = n) ∧ ∀ j ∈ ix.pipes, j.name = n → j = k
  missing : ix.resolve (.bare n) = .error (pipeNotFound (.bare n)) ↔ ∀ k ∈ ix.pipes, k.name ≠ n
  ambiguous : ∀ count, ix.resolve (.bare n) = .error (.ambiguous n count) ↔
    2 ≤ count ∧ count = (ix.pipeKeys n).length

theorem Coherent.resolvesPipes (hc : Coherent ix) (n : String) : ResolvesPipes ix n := by
  have hresolve : ix.resolve (.bare n) = choose (.bare n) (ix.pipeKeys n) :=
    (resolve_eq_choose rfl).trans (choose_perm (hc.pipesNamed_perm n))
  constructor
  case found =>
    intro k
    have hsingle : ix.pipeKeys n = [k] ↔ ∀ j, j ∈ ix.pipeKeys n ↔ j = k := by
      rw [← List.perm_singleton, List.perm_ext_iff_of_nodup nodup_pipeKeys (List.nodup_singleton k)]
      simp only [List.mem_singleton]
    rw [hresolve, choose_eq_ok, hsingle]
    simp only [mem_pipeKeys]
    constructor
    · exact fun h => ⟨(h k).2 rfl, fun j hj hn => (h j).1 ⟨hj, hn⟩⟩
    · rintro ⟨hk, honly⟩ j
      exact ⟨fun hj => honly j hj.1 hj.2, fun hj => hj ▸ hk⟩
  case missing =>
    rw [hresolve, choose_eq_missing, List.eq_nil_iff_forall_not_mem]
    simp only [mem_pipeKeys, not_and, ne_eq]
  case ambiguous =>
    intro count
    rw [hresolve]
    exact choose_eq_ambiguous

end Index
end PagePipes
