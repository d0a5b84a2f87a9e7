import PagePipes.Pipe

set_option autoImplicit false

/-!
# Flattening

To flatten a pipe is to put in the place of every reference the flattened actions of the pipe that
it names. A table holds the pipes that may be named. While a pipe is being expanded it is taken out
of the pipes that are still open, so a reference back to it is a cycle; every pipe is expanded once
and kept for its later occurrences.
-/
namespace PagePipes.Pipe

/-- The flattened actions of the pipes expanded so far. -/
abbrev Memo := Key.Map (List Action)

/-- How many pipes a map has, and actions of pipes. -/
def load (m : Key.Map Pipe) : Nat := m.toList.length + (m.toList.flatMap fun e => e.2.actions).length

theorem nodup_toList {α : Type} (m : Key.Map α) : m.toList.Nodup := by
  refine Std.ExtTreeMap.distinct_keys_toList.imp fun h heq => h ?_
  rw [heq]
  exact Std.ReflCmp.compare_self

theorem toList_perm_erase {α : Type} {m : Key.Map α} {k : Key} {a : α} (h : m[k]? = some a) :
    m.toList.Perm ((k, a) :: (m.erase k).toList) := by
  have hfresh : (k, a) ∉ (m.erase k).toList := by
    rw [Std.ExtTreeMap.mem_toList_iff_getElem?_eq_some]
    simp
  refine (List.perm_ext_iff_of_nodup (nodup_toList m)
    (List.nodup_cons.2 ⟨hfresh, nodup_toList _⟩)).2 fun e => ?_
  obtain ⟨j, b⟩ := e
  rw [List.mem_cons, Std.ExtTreeMap.mem_toList_iff_getElem?_eq_some,
    Std.ExtTreeMap.mem_toList_iff_getElem?_eq_some, Std.ExtTreeMap.getElem?_erase]
  by_cases hk : k = j
  · subst hk
    simp [h, eq_comm]
  · simp [hk, Ne.symm hk]

theorem load_erase {m : Key.Map Pipe} {k : Key} {p : Pipe} (h : m[k]? = some p) :
    load m = p.actions.length + 1 + load (m.erase k) := by
  have hperm := toList_perm_erase h
  have hactions := (hperm.flatMap_right fun e => e.2.actions).length_eq
  simp only [List.flatMap_cons, List.length_append] at hactions
  rw [load, load, hperm.length_eq, hactions, List.length_cons]
  omega

/-- The failure of a reference to a pipe that is not open. -/
def closedReference (table : Key.Map Pipe) (k : Key) : Error :=
  if k ∈ table then .failedPrecondition ("pipe reference cycle through " ++ k.text)
  else .invalidArgument ("referenced pipe not provided: " ++ k.text)

/-- Expands actions from left to right, with the pipes of the table that are still open. -/
def expand (table : Key.Map Pipe) (stillOpen : Key.Map Pipe) :
    List Action → Memo → Result (List Action × Memo)
  | [], memo => .ok ([], memo)
  | a :: rest, memo => do
    if !a.is .pipe then
      let (out, memo) ← expand table stillOpen rest memo
      return (a :: out, memo)
    let k ← a.reference
    match memo[k]? with
    | some flat =>
      let (out, memo) ← expand table stillOpen rest memo
      return (flat ++ out, memo)
    | none =>
      if !k.isQualified then
        throw (.invalidArgument ("cannot flatten unqualified reference: " ++ k.text))
      match _h : stillOpen[k]? with
      | none => throw (closedReference table k)
      | some p =>
        let (flat, memo) ← expand table (stillOpen.erase k) p.actions memo
        let (out, memo) ← expand table stillOpen rest (memo.insert k flat)
        return (flat ++ out, memo)
termination_by actions => load stillOpen + actions.length
decreasing_by
  · simp
  · simp
  · rw [load_erase _h, List.length_cons]
    omega
  · simp

def flatten (table : Key.Map Pipe) (p : Pipe) : Result Pipe :=
  (expand table table p.actions ∅).map fun r => { p with actions := r.1 }

end PagePipes.Pipe
