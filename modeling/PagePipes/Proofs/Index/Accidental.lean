import PagePipes.Proofs.Index.Qualification

set_option autoImplicit false

/-!
# References settled by accident

An index may be qualified although a reference in it has no one meaning. The reference is then
resolved among the resources that the traversal happens to emit before its own, and these may settle
it: a digest that no pipe has may be the new digest of one of them, and of the many pipes of a name
they may hold one alone, or several that become one. There is no third way.
-/
namespace PagePipes.Index

variable {ix out : Index} {r : Resource} {k j t ref : Key}

/-- A reference in the resource of a key that the index gives no one meaning, but the resources
before do. -/
inductive Accidental (ix : Index) (k : Key) : Key → Prop
  | digest {ref j : Key} (hq : ref.isQualified = true) (absent : ref ∉ ix.pipes)
      (before : j ∈ ix.emittedBefore k) (pipe : j ∈ ix.pipes) (becomes : ix.newKey j = ref) :
      Accidental ix k ref
  | name {ref j : Key} (hq : ref.isQualified = false)
      (many : 1 < (ix.pipesNamed ref.name).length)
      (before : j ∈ ix.emittedBefore k) (named : j ∈ ix.pipesNamed ref.name)
      (same : ∀ i ∈ ix.emittedBefore k, i ∈ ix.pipesNamed ref.name → ix.newKey i = ix.newKey j) :
      Accidental ix k ref

theorem mem_pipes_of_newKey_eq (hc : Coherent ix) (h : ix.qualified = .ok out)
    (hk : k ∈ ix.resources) (hj : j ∈ ix.pipes) (heq : ix.newKey j = ix.newKey k) :
    k ∈ ix.pipes := by
  obtain ⟨r, hr⟩ := Lookup.exists_of_mem hk
  obtain ⟨p, hp, hkind⟩ := hc.mem_pipes.1 hj
  obtain ⟨q, hq, hrq⟩ := repointed_of_qualified hc h hr
  obtain ⟨q', hq', hpq⟩ := repointed_of_qualified hc h hp
  rw [heq] at hq'
  cases hq.symm.trans hq'
  exact hc.mem_pipes.2 ⟨r, hr, by rw [← hrq.kind_eq, hpq.kind_eq, hkind]⟩

theorem Accidental.not_resolve (h : Accidental ix k ref) : ¬ ∃ t, ix.resolve ref = .ok t := by
  rintro ⟨t, ht⟩
  cases h with
  | digest hq absent => exact absent ((resolve_qualified hq).1 ht).1
  | name hq many =>
    rw [(resolve_bare hq).1 ht, List.length_singleton] at many
    omega

theorem Means.resolve_or_accidental (hc : Coherent ix) (h : ix.qualified = .ok out)
    (hmeans : Means ix ix.newKey (ix.emittedBefore k) ref t) :
    (∃ u, ix.resolve ref = .ok u) ∨ Accidental ix k ref := by
  obtain ⟨⟨j, hj, hpipe, hnew⟩, hmeans⟩ := hmeans
  split at hmeans
  · next hq =>
    by_cases hmem : ref ∈ ix.pipes
    · exact .inl ⟨ref, (resolve_qualified hq).2 ⟨hmem, rfl⟩⟩
    · have hbefore : ref ∉ ix.emittedBefore k := by
        intro href
        rw [if_pos href] at hmeans
        exact hmem (mem_pipes_of_newKey_eq hc h
          (mem_resources_of_emitted (mem_emitted_of_before href)) hpipe (hnew.trans hmeans))
      rw [if_neg hbefore] at hmeans
      exact .inr (.digest hq hmem hj hpipe (hnew.trans hmeans))
  · next hq =>
    obtain ⟨hname, hall⟩ := hmeans
    have hjname : j.name = ref.name := by
      rw [← hname, ← hnew, name_newKey_of_qualified hc h (hc.mem_resources_of_pipes hpipe)]
    have hjnamed : j ∈ ix.pipesNamed ref.name := hc.mem_pipesNamed.2 ⟨hpipe, hjname⟩
    have hq : ref.isQualified = false := by simpa using hq
    -- with one pipe of the name it resolves, and with several those before are one
    cases hpipes : ix.pipesNamed ref.name with
    | nil => simp [hpipes] at hjnamed
    | cons first rest =>
      cases rest with
      | nil => exact .inl ⟨first, (resolve_bare hq).2 hpipes⟩
      | cons second rest =>
        refine .inr (.name hq (by simp [hpipes]) hj hjnamed fun i hi hinamed => ?_)
        obtain ⟨hipipe, hiname⟩ := hc.mem_pipesNamed.1 hinamed
        exact (hall i hi hipipe hiname).trans hnew.symm

/-- In an index that can be qualified, the references that do not resolve are those that the
resources before settle by accident. -/
theorem resolves_iff_not_accidental (hb : Built ix) (h : ix.qualified = .ok out)
    (hr : ix.resources[k]? = some r) (href : ref ∈ r.references) :
    (∃ t, ix.resolve ref = .ok t) ↔ ¬ Accidental ix k ref := by
  constructor
  · exact fun hresolve haccident => haccident.not_resolve hresolve
  · intro hnot
    obtain ⟨q, -, hrq⟩ := repointed_of_qualified hb.coherent h hr
    obtain ⟨t, -, hmeans⟩ := Result.exists_of_forall₂ hrq.references href
    exact (hmeans.resolve_or_accidental hb.coherent h).resolve_right hnot

/-- Two pipes of one name and a pipe that refers to the name, with a digest between theirs. -/
def twoTitles : List Resource :=
  [Resource.ofSpec "title" (.pipe ⟨[Action.ofKind .document], {}⟩),
    Resource.ofSpec "title" (.pipe ⟨[Action.ofArgument .selector "h1"], {}⟩),
    Resource.ofSpec "page" (.pipe ⟨[Action.pipe (.bare "title")], {}⟩)]

/-- An index with an ambiguous reference that can be qualified. -/
theorem two_titles_settled_by_accident :
    ∃ ix out r, ofResources twoTitles = .ok ix ∧ ix.qualified = .ok out ∧
      ix.resources[Key.exact "page" "abca5e841d26bbeeb329429132f06603bf20a888"]? = some r ∧
      Key.bare "title" ∈ r.references ∧ ix.resolve (.bare "title") = .error (.ambiguous "title" 2) ∧
      Accidental ix (.exact "page" "abca5e841d26bbeeb329429132f06603bf20a888") (.bare "title") := by
  let page := Key.exact "page" "abca5e841d26bbeeb329429132f06603bf20a888"
  have hrun : (ofResources twoTitles).toOption.any (fun ix => ix.qualified.toOption.any (fun _ =>
      (ix.resources[page]?).any (·.references.contains (.bare "title")) &&
        decide (ix.resolve (.bare "title") = .error (.ambiguous "title" 2)))) = true := by
    decide +kernel
  obtain ⟨ix, hix, hrun⟩ := Result.exists_ok_of_any hrun
  obtain ⟨out, hout, hrun⟩ := Result.exists_ok_of_any hrun
  obtain ⟨hpage, hresolve⟩ := Bool.and_eq_true_iff.1 hrun
  obtain ⟨r, hr, href⟩ := (Option.any_eq_true _ _).1 hpage
  have href : Key.bare "title" ∈ r.references := by simpa using href
  have hresolve := of_decide_eq_true hresolve
  refine ⟨ix, out, r, hix, hout, hr, href, hresolve, ?_⟩
  by_contra hnot
  obtain ⟨t, ht⟩ := (resolves_iff_not_accidental (Built.ofResources hix) hout hr href).2 hnot
  cases hresolve.symm.trans ht

end PagePipes.Index
