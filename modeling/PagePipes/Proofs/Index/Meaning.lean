import PagePipes.Proofs.Index.Grounded

set_option autoImplicit false

/-!
# The meaning of a qualified index

When every reference of an index resolves, qualification renames the keys of its resources and
points every reference at the new key of what it meant. The result is grounded, so every pipe of it
can be flattened, and its actions are those that the old pipe inlines to.
-/
namespace PagePipes.Index

variable {ix out : Index} {r : Resource} {k t u ref : Key}

/-- Every reference of every resource has a meaning. -/
def Resolved (ix : Index) : Prop :=
  ∀ (k : Key) (r : Resource), ix.resources[k]? = some r → ∀ ref ∈ r.references,
    ∃ t, ix.resolve ref = .ok t

instance : Decidable (Resolved ix) :=
  decidable_of_iff
    (∀ e ∈ ix.resources.toList, ∀ ref ∈ e.2.references, (ix.resolve ref).toOption.isSome = true) <| by
    simp only [Prod.forall, Std.ExtTreeMap.mem_toList_iff_getElem?_eq_some]
    refine forall₂_congr fun k r => forall_congr' fun _ => forall₂_congr fun ref _ => ?_
    cases ix.resolve ref <;> simp [Except.toOption]

/-- The pipe that a reference means. -/
def source (ix : Index) (ref : Key) : Option Pipe :=
  (ix.resolve ref).toOption.bind fun t => ix.pipes[t]?

/-- The new key of what a reference means. -/
def Moved (ix : Index) (ref t : Key) : Prop := ∃ u, ix.resolve ref = .ok u ∧ t = ix.newKey u

theorem source_eq_some {p : Pipe} (hu : ix.resolve ref = .ok u) (hp : ix.pipes[u]? = some p) :
    ix.source ref = some p := by
  simp [source, hu, hp, Except.toOption]

theorem Means.eq_newKey {f : Key → Key} {before : List Key} (hc : Coherent ix)
    (h : Means ix f before ref t) (hu : ix.resolve ref = .ok u) (hbefore : u ∈ before) :
    t = f u := by
  obtain ⟨-, h⟩ := h
  split at h
  · next hq =>
    obtain ⟨-, rfl⟩ := (resolve_qualified hq).1 hu
    rwa [if_pos hbefore] at h
  · obtain ⟨hpipe, hname⟩ := hc.mem_pipes_of_resolve hu
    exact (h.2 u hbefore hpipe hname).symm

/-- In an index whose references resolve, every resource is pointed at the new keys of what its
references mean. -/
theorem moved_of_qualified (hc : Coherent ix) (hres : Resolved ix) (h : ix.qualified = .ok out)
    (hr : ix.resources[k]? = some r) :
    ∃ q, out.resources[ix.newKey k]? = some q ∧ Resource.Repointed (Moved ix) r q := by
  obtain ⟨q, hq, hrq⟩ := repointed_of_qualified hc h hr
  have hk : k ∈ ix.resources := Lookup.mem hr
  refine ⟨q, hq, hrq.imp fun ref href t hmeans => ?_⟩
  obtain ⟨u, hu⟩ := hres k r hr ref href
  have hbefore := mem_emittedBefore_of_resolve hc ((mem_emitted h).2 hk) hr href hu
  exact ⟨u, hu, hmeans.eq_newKey hc hu hbefore⟩

/-- The pipe of a key stands under the new key, pointed at the new keys of what it refers to. -/
theorem pipe_of_qualified (hc : Coherent ix) (hres : Resolved ix) (h : ix.qualified = .ok out)
    {p : Pipe} (hp : ix.pipes[k]? = some p) :
    ∃ q, out.pipes[ix.newKey k]? = some q ∧ q.point = p.point ∧
      List.Forall₂ (Action.Repointed (Moved ix)) p.actions q.actions := by
  obtain ⟨⟨version, metadata, spec⟩, hr, hspec⟩ := hc.getElem?_pipes.1 hp
  obtain ⟨⟨version', metadata', spec'⟩, hq, hrq⟩ := moved_of_qualified hc hres h hr
  have hspecs : Spec.Repointed (Moved ix) spec spec' := hrq.spec
  cases hspec
  cases hspecs with
  | @pipe _ q point actions =>
    exact ⟨q, (hc.qualified h).getElem?_pipes.2 ⟨_, hq, rfl⟩, point, actions⟩

/-- What the moved pipe inlines to among the collected references is what the old one inlines to
in the old index. -/
theorem inlines_source_of_moved (hc : Coherent ix) (hres : Resolved ix)
    (h : ix.qualified = .ok out) {m : Key.Map Pipe}
    (hsub : ∀ (j : Key) (q : Pipe), m[j]? = some q → out.pipes[j]? = some q)
    {actions moved flat : List Action} (hmoved : List.Forall₂ (Action.Repointed (Moved ix)) actions moved)
    (hflat : Pipe.Inlines (Pipe.named m) moved flat) : Pipe.Inlines ix.source actions flat := by
  refine hflat.transfer (fun a b hab hb => hab.eq_of_not_pipe hb) ?_ hmoved
  intro a b v q hab hb hv hq
  obtain ⟨ha, ref, href, u, hu, rfl⟩ := hab.reference hb hv
  obtain ⟨p, hp⟩ := Lookup.exists_of_mem (hc.mem_pipes_of_resolve hu).1
  obtain ⟨q', hq', -, hactions⟩ := pipe_of_qualified hc hres h hp
  cases (hsub _ _ (Pipe.named_eq_some.1 hq).2).symm.trans hq'
  exact ⟨ha, ref, p, href, source_eq_some hu hp, hactions⟩

theorem qualified_preserves_meaning (hb : Built ix) (hres : Resolved ix)
    (h : ix.qualified = .ok out) :
    ∃ rho : Key → Key,
      (∀ k ∈ ix.resources, (rho k).name = k.name ∧ (rho k).isQualified = true) ∧
      (∀ t, t ∈ out.resources ↔ ∃ k ∈ ix.resources, rho k = t) ∧
      (∀ (k : Key) (r : Resource), ix.resources[k]? = some r →
        ∃ q, out.resources[rho k]? = some q ∧
          r.Repointed (fun ref t => ∃ u, ix.resolve ref = .ok u ∧ t = rho u) q) ∧
      ∀ (k : Key) (p : Pipe), ix.pipes[k]? = some p →
        ∃ q m flat, out.pipes[rho k]? = some q ∧ out.referencedPipes (rho k) = .ok m ∧
          q.flatten m = .ok flat ∧ flat.point = p.point ∧
          ∀ actions, Pipe.Inlines ix.source p.actions actions ↔ actions = flat.actions := by
  have hc := hb.coherent
  have hstands : ∀ k ∈ ix.resources, ix.newKey k ∈ out.resources := by
    intro k hk
    obtain ⟨r, hr⟩ := Lookup.exists_of_mem hk
    obtain ⟨q, hq, -⟩ := moved_of_qualified hc hres h hr
    exact Lookup.mem hq
  refine ⟨ix.newKey, fun k hk => ?_, fun t => ?_, fun k r hr => ?_, fun k p hp => ?_⟩
  · exact ⟨name_newKey_of_qualified hc h hk, (hc.qualified h).isQualified (hstands k hk)⟩
  · constructor
    · exact exists_newKey_of_qualified hc h
    · rintro ⟨k, hk, rfl⟩
      exact hstands k hk
  · exact moved_of_qualified hc hres h hr
  · obtain ⟨q, hq, hpoint, hactions⟩ := pipe_of_qualified hc hres h hp
    have hout := hc.qualified h
    have hg := grounded_of_qualified hc h
    obtain ⟨m, hm⟩ := referencedPipes_succeeds (hg.closed hout) hq
    obtain ⟨flat, hflat⟩ := hg.flatten hout hq hm
    obtain ⟨hinlines, hflatpoint⟩ := Pipe.inlines_of_flatten hflat
    have hsource := inlines_source_of_moved hc hres h (referencedPipes_eq_ok hq hm).1 hactions
      hinlines
    refine ⟨q, m, flat, hq, hm, hflat, hflatpoint.trans hpoint, fun actions => ?_⟩
    constructor
    · exact fun hother => hother.unique hsource
    · rintro rfl
      exact hsource

def titlePage : List Resource :=
  [Resource.ofSpec "title" (.pipe ⟨[Action.ofKind .document], {}⟩),
    Resource.ofSpec "page" (.pipe ⟨[Action.pipe (.bare "title")], {}⟩)]

/-- The page of the qualified index flattens to the actions of the title. -/
theorem title_page_keeps_meaning :
    ∃ ix out k q m flat, ofResources titlePage = .ok ix ∧ Resolved ix ∧ ix.qualified = .ok out ∧
      out.pipes[k]? = some q ∧ k.name = "page" ∧ out.referencedPipes k = .ok m ∧
      q.flatten m = .ok flat ∧ flat.actions = [Action.ofKind .document] := by
  let page := Key.exact "page" "abca5e841d26bbeeb329429132f06603bf20a888"
  have hrun : (ofResources titlePage).toOption.any (fun ix => ix.qualified.toOption.any (fun _ =>
      decide (Resolved ix) && decide (ix.pipes[page]? = some ⟨[Action.pipe (.bare "title")], {}⟩) &&
        decide (ix.source (.bare "title") = some ⟨[Action.ofKind .document], {}⟩))) = true := by
    decide +kernel
  obtain ⟨ix, hix, hrun⟩ := Result.exists_ok_of_any hrun
  obtain ⟨out, hout, hrun⟩ := Result.exists_ok_of_any hrun
  simp only [Bool.and_eq_true, decide_eq_true_eq] at hrun
  obtain ⟨⟨hres, hpage⟩, htitle⟩ := hrun
  have hb := Built.ofResources hix
  obtain ⟨rho, hname, -, -, hpipes⟩ := qualified_preserves_meaning hb hres hout
  obtain ⟨q, m, flat, hq, hm, hflat, -, hinlines⟩ := hpipes page _ hpage
  have hmem : page ∈ ix.resources :=
    hb.coherent.mem_resources_of_pipes (Lookup.mem hpage)
  refine ⟨ix, out, rho page, q, m, flat, hix, hres, hout, hq, (hname page hmem).1, hm, hflat, ?_⟩
  have hpipe : (Action.pipe (.bare "title")).reference = .ok (.bare "title") := by decide +kernel
  have hdocument : Pipe.Inlines ix.source [Action.ofKind .document] [Action.ofKind .document] :=
    .keep (by decide +kernel) .nil
  exact ((hinlines _).1 (.inline (by decide +kernel) hpipe htitle hdocument .nil)).symm

end PagePipes.Index
