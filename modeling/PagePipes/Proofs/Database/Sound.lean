import PagePipes.Proofs.Database.Operations
import PagePipes.Proofs.Database.Tables
import PagePipes.Proofs.Index.Qualification
import PagePipes.Proofs.Resource.Read

set_option autoImplicit false

/-!
# Sound databases

The tables of a database are sound at first and after each operation, whether it succeeds or not, as
long as the resources that are stored were read. A new pipe refers to pipes that are there already,
so references never go round in a circle; a pipe is only removed when no link, view or action names
it; and a rule resource takes with it just the links that it owns.
-/
namespace PagePipes

structure Database.Sound (db : Database) : Prop where
  pipes : SoundPipes db.pipes
  views : SoundViews db.Stores db.views db.viewPipes
  rules : SoundRules db.Stores db.links db.resources

/-! ## Valid resources -/

namespace View

variable {v w : View}

/-- Columns are valid when their aliases are identifiers and neither a pipe nor a name comes twice. -/
theorem validateColumns_eq_ok {pipes : List Key} {names : List String} {columns : List Column} :
    validateColumns pipes names columns = .ok () ↔
      (∀ c ∈ columns, ∀ a, c.aliasName = some a → isIdentifier a = true) ∧
      ((columns.map (·.pipe)).Nodup ∧ ∀ c ∈ columns, c.pipe ∉ pipes) ∧
      ((columns.map Column.name).Nodup ∧ ∀ c ∈ columns, c.name ∉ names) := by
  induction columns generalizing pipes names with
  | nil => simp [validateColumns]
  | cons c rest ih =>
    have hcons : validateColumns pipes names (c :: rest) = .ok () ↔
        (∀ a, c.aliasName = some a → isIdentifier a = true) ∧ c.pipe ∉ pipes ∧ c.name ∉ names ∧
          validateColumns (c.pipe :: pipes) (c.name :: names) rest = .ok () := by
      rw [validateColumns]
      by_cases hpipe : c.pipe ∈ pipes <;> by_cases hname : c.name ∈ names <;>
        cases ha : c.aliasName with
        | none => simp_all
        | some a => cases hi : isIdentifier a <;> simp_all [validateIdentifier]
    rw [hcons, ih]
    simp only [List.map_cons, List.nodup_cons, List.mem_map, List.mem_cons, not_or,
      not_exists, not_and]
    grind

theorem validate_eq_ok : v.validate = .ok () ↔ v.columns ≠ [] ∧
    (∀ a, v.aliasName = some a → validateAlias a = .ok ()) ∧
    (∀ c ∈ v.columns, ∀ a, c.aliasName = some a → isIdentifier a = true) ∧
    v.references.Nodup ∧ (v.columns.map Column.name).Nodup := by
  have hsteps : v.validate = .ok () ↔ v.columns ≠ [] ∧
      (∀ a, v.aliasName = some a → validateAlias a = .ok ()) ∧ validateColumns [] [] v.columns = .ok () := by
    unfold validate
    cases hcolumns : v.columns with
    | nil => simp
    | cons c rest =>
      cases ha : v.aliasName with
      | none => simp
      | some a => cases hv : validateAlias a <;> simp_all
  rw [hsteps, validateColumns_eq_ok, references]
  simp

theorem names_of_validate (h : v.validate = .ok ()) : (v.columns.map Column.name).Nodup :=
  (validate_eq_ok.1 h).2.2.2.2

theorem aliases_of_validate (h : v.validate = .ok ()) :
    ∀ c ∈ v.columns, ∀ a, c.aliasName = some a → isIdentifier a = true :=
  (validate_eq_ok.1 h).2.2.1

theorem names_of_repointed {db : Database}
    (h : List.Forall₂ (Column.Repointed db.Resolves) v.columns w.columns) :
    w.columns.map Column.name = v.columns.map Column.name := by
  refine Result.map_eq_of_forall₂ h.flip fun d c hcd => ?_
  obtain ⟨haliasName, hpipe⟩ := hcd
  rw [Column.name, Column.name, haliasName, hpipe.name_eq]

end View

/-! ## Steps -/

namespace Database.Sound

variable {db next : Database} {u : Uuid} {k : Key}

theorem empty : Database.empty.Sound := ⟨.nil, .nil, .nil⟩

theorem setDisabled {t : Key} {disabled : Bool} (hs : db.Sound)
    (h : db.setDisabled k disabled = .ok (next, t)) : next.Sound := by
  obtain ⟨-, rfl⟩ := setDisabled_eq_ok.1 h
  have hkeys : ∀ row : PipeRow, (if row.key = t then { row with disabled } else row).key = row.key ∧
      (if row.key = t then { row with disabled } else row).spec = row.spec := fun row => by
    split <;> exact ⟨rfl, rfl⟩
  have hstores : ∀ j, db.Stores j → ∃ row ∈ db.pipes.map fun r =>
      if r.key = t then { r with disabled } else r, row.key = j := by
    rintro _ ⟨row, hrow, rfl⟩
    exact ⟨_, List.mem_map_of_mem hrow, (hkeys row).1⟩
  exact ⟨hs.pipes.map hkeys, hs.views.mono fun e _ he => hstores e.2 he,
    hs.rules.mono fun l _ hl => hstores l.pipe hl⟩

theorem insertView {v : View} {stored : StoredView} (hs : db.Sound)
    (h : db.insertView u v = .ok (next, stored)) (hnames : (v.columns.map Column.name).Nodup)
    (hresolves : ∀ t ∈ v.references, t.isQualified = true ∧ t.Valid) : next.Sound := by
  obtain ⟨-, -, hnodup, hstored, points, c, tables, -, -, -, rfl⟩ := insertView_eq_ok h
  exact ⟨hs.pipes, hs.views.concat hstored hresolves hnames hnodup, hs.rules⟩

theorem createView {v : View} {stored : StoredView} (hs : db.Sound)
    (h : db.createView u v = .ok (next, stored)) : next.Sound := by
  obtain ⟨hvalid, w, -, hcolumns, h⟩ := createView_eq_ok h
  refine hs.insertView h ?_ fun t ht => ?_
  · rw [View.names_of_repointed hcolumns]
    exact View.names_of_validate hvalid
  · obtain ⟨d, hd, rfl⟩ := List.mem_map.1 ht
    obtain ⟨c, -, hcd⟩ := Result.exists_of_forall₂ hcolumns.flip hd
    exact ⟨hcd.2.qualified, hcd.2.valid⟩

theorem createRule {r q : Rule} (hs : db.Sound) (h : db.createRule r = .ok (next, q)) :
    next.Sound := by
  obtain ⟨hvalid, hpredicate, hpipes, conditions, links, rfl, hlinks⟩ := createRule_eq_ok h
  refine ⟨hs.pipes, hs.views, hs.rules.relink (fun l hl => ?_) fun l hl => ?_⟩
  · simp [hlinks, hl]
  · obtain hl | ⟨hcondition, -, hpipe⟩ := (hlinks l).1 hl
    · exact hs.rules.sound l hl
    · obtain ⟨t, -, ht⟩ := Result.exists_of_forall₂ hpipes.flip hpipe
      refine ⟨ht.stores, q.predicate, ?_, hcondition⟩
      rw [hpredicate]
      exact ⟨r.predicate.normalized_normalized, hvalid⟩

theorem deleteRule {r : Rule} (hs : db.Sound) (h : db.deleteRule r = .ok next) : next.Sound := by
  obtain ⟨q, -, conditions, links, rfl, hlinks⟩ := deleteRule_eq_ok h
  refine ⟨hs.pipes, hs.views, hs.rules.relink (fun l hl => ?_) fun l hl => ?_⟩
  · simp [hlinks, hl]
  · exact hs.rules.sound l ((hlinks l).1 hl).1

theorem insertPipe {p : Pipe} (hs : db.Sound) (hk : k.isQualified = true) (hvalid : k.Valid)
    (hread : p.Readable) (hpointed : p.Pointed) (hstored : ∀ t ∈ p.references, db.Stores t) :
    (db.insertPipe k p).Sound := by
  obtain ⟨-, heq⟩ | ⟨hfresh, heq⟩ := insertPipe_eq db k p
  · rwa [heq]
  · rw [heq]
    have hreads : PipeRow.pipe ⟨k, p.toJson.compact, false⟩ = .ok p.reread := Pipe.ofText_compact hread
    have hgrows : ∀ t, db.Stores t → ∃ row ∈ db.pipes ++ [⟨k, p.toJson.compact, false⟩], row.key = t := by
      rintro t ⟨row, hrow, rfl⟩
      exact ⟨row, List.mem_append_left _ hrow, rfl⟩
    refine ⟨hs.pipes.concat ⟨hvalid, hk, _, hreads, hpointed.reread⟩ hfresh fun q hq t ht => ?_,
      hs.views.mono fun e _ he => hgrows e.2 he, hs.rules.mono fun l _ hl => hgrows l.pipe hl⟩
    cases hreads.symm.trans hq
    rw [Pipe.references_reread] at ht
    exact hstored t ht

theorem standsForRule {q : Resource} {x : Rule} {links : List Link} (hq : q.spec = .rule x)
    (hsettled : x.predicate.Settled) (hname : Key.validateName q.name = .ok ())
    (hresolves : ∀ t ∈ x.pipes, t.isQualified = true ∧ t.Valid)
    (hlinks : ∀ l : Link, l.owner = some q.key → (l ∈ links ↔
      l.condition = x.predicate.condition ∧ l.pipe ∈ x.pipes)) :
    (q.row (.rule x.predicate.condition)).StandsForRule links x := by
  have hrule : x.normalized = x := by rw [Rule.normalized, hsettled.normalized]
  have hreadable : (Spec.rule x).Readable := fun t ht => (hresolves t ht).2
  have hspec : (q.row (.rule x.predicate.condition)).spec = (Spec.rule x).toJson.compact := by
    rw [Resource.row, hq]
  have hreads := ResourceRow.resource_eq hspec rfl hname hreadable
    (x.depth_sortedJson.trans_lt (by decide))
  rw [Spec.reread, hrule] at hreads
  exact ⟨⟨_, hreads⟩, rfl, hsettled, fun t ht => (hresolves t ht).1, hlinks⟩

theorem concatResource {row : ResourceRow} (hs : db.Sound) (hkind : row.kind ≠ .rule)
    (hfresh : ∀ r ∈ db.resources, r.key ≠ row.key) :
    Sound { db with resources := db.resources ++ [row] } :=
  ⟨hs.pipes, hs.views, hs.rules.concat hfresh hkind⟩

theorem created {r q : Resource} (hs : db.Sound) (hread : r.AsRead) (hvalid : r.validate = .ok ())
    (hrq : Resource.Repointed db.Resolves r q) (hfresh : ∀ row ∈ db.resources, row.key ≠ q.key)
    (h : Created db u q next) : next.Sound := by
  obtain ⟨-, hname, hspec⟩ := Resource.validate_eq_ok.1 hvalid
  have hqname : Key.validateName q.name = .ok () := by rwa [Resource.name, hrq.metadata]
  have hqread := hrq.asRead hread
  have hresolves : ∀ t ∈ q.references, db.Stores t ∧ t.isQualified = true ∧ t.Valid := fun t ht => by
    obtain ⟨k, -, hkt⟩ := resolves_of_mem_references hrq ht
    exact ⟨hkt.stores, hkt.qualified, hkt.valid⟩
  rw [Resource.references] at hresolves
  rw [Resource.AsRead] at hqread
  cases h with
  | @pipe p hq =>
    obtain ⟨p₀, -, -, hactions⟩ := hrq.of_pipe hq
    rw [hq] at hresolves hqread
    have hinserted := hs.insertPipe (k := q.key) rfl (Resource.valid_key hqname) hqread
      (Pipe.pointed_of_repointed (fun _ _ ht => ht.qualified) hactions) fun t ht => (hresolves t ht).1
    obtain ⟨pipes, hframe⟩ := insertPipe_frame db q.key p
    rw [hframe] at hinserted ⊢
    exact hinserted.concatResource (by simp [ResourceRow.kind, Resource.row, Subject.kind]) hfresh
  | @view v viewed stored hq hv =>
    obtain ⟨v₀, hr, -, hcolumns⟩ := hrq.of_view hq
    rw [hq] at hresolves
    rw [hr] at hspec
    have hnames : (v.columns.map Column.name).Nodup := by
      rw [View.names_of_repointed hcolumns]
      exact View.names_of_validate hspec
    have hviewed := hs.insertView hv hnames fun t ht => (hresolves t ht).2
    obtain ⟨views, viewPipes, objects, rfl⟩ := insertView_frame hv
    exact hviewed.concatResource (by simp [ResourceRow.kind, Resource.row, Subject.kind]) hfresh
  | @rule x conditions links hq hstored hlinks =>
    obtain ⟨y, hr, hpredicate, -, -⟩ := hrq.of_rule hq
    rw [hq] at hresolves hqread
    rw [hr] at hspec
    have hsettled : x.predicate.Settled := ⟨hqread, hpredicate ▸ hspec⟩
    exact ⟨hs.pipes, hs.views, hs.rules.concat_rule hfresh rfl hlinks
      (standsForRule hq hsettled hqname fun t ht => (hresolves t ht).2) hstored hsettled⟩

theorem createResource {r : Resource} (hs : db.Sound) (hread : r.AsRead)
    (h : db.createResource u r = .ok (next, k)) : next.Sound := by
  obtain ⟨hvalid, q, hq, rfl, ⟨rfl, -⟩ | ⟨hfresh, hcreated⟩⟩ := createResource_eq_ok h
  · exact hs
  · exact hs.created hread hvalid (qualifyResource_eq_ok hq) hfresh hcreated

theorem deleteResource (hs : db.Sound) (h : db.deleteResource k = .ok next) : next.Sound := by
  obtain ⟨row, hrow, hdeleted⟩ := deleteResource_eq_ok h
  cases hdeleted with
  | pipe hsubject hfree =>
    obtain ⟨hviewed, hlinked, hnamed, -⟩ := checkUnreferenced_eq_ok hfree
    have hkept : ∀ t, t ≠ row.key → db.Stores t →
        ∃ r ∈ db.pipes.filter (·.key ≠ row.key), r.key = t := by
      rintro t hne ⟨r, hr, rfl⟩
      exact ⟨r, List.mem_filter.2 ⟨hr, decide_eq_true hne⟩, rfl⟩
    have hkind : row.kind ≠ .rule := by simp [ResourceRow.kind, hsubject, Subject.kind]
    refine ⟨hs.pipes.remove hnamed, hs.views.mono fun e he => hkept e.2 (hviewed e he), ?_⟩
    refine (hs.rules.remove hrow fun l => ?_).mono fun l hl => hkept l.pipe (hlinked l hl)
    exact ⟨fun hl => ⟨hl, hs.rules.owner_ne hrow hkind hl⟩, And.left⟩
  | view hsubject =>
    have hkind : row.kind ≠ .rule := by simp [ResourceRow.kind, hsubject, Subject.kind]
    refine ⟨hs.pipes, hs.views.remove, hs.rules.remove hrow fun l => ?_⟩
    exact ⟨fun hl => ⟨hl, hs.rules.owner_ne hrow hkind hl⟩, And.left⟩
  | @rule c conditions links hsubject hlinks =>
    refine ⟨hs.pipes, hs.views, hs.rules.remove hrow fun l => ?_⟩
    obtain ⟨x, hx⟩ := hs.rules.rules row hrow (by simp [ResourceRow.kind, hsubject, Subject.kind])
    have hc : c = x.predicate.condition := Subject.rule.inj (hsubject.symm.trans hx.subject)
    rw [hlinks, hc]
    -- the links of the row all have its condition
    refine and_congr_right fun hl => not_congr ⟨And.right, fun ho => ⟨?_, ho⟩⟩
    exact ((hx.links l ho).1 hl).1

theorem trigger {request : Trigger.Request} {response : Trigger.Response} (hs : db.Sound)
    (h : db.trigger u request = .ok (next, response)) : next.Sound := by
  obtain ⟨plans, rfl⟩ := trigger_frame h
  exact ⟨hs.pipes, hs.views, hs.rules⟩

theorem exchange {time : String} {report : Report} {receipt : Receipt} (hs : db.Sound)
    (h : db.exchange time report = .ok (next, receipt)) : next.Sound := by
  obtain ⟨events, objects, plans, rfl⟩ := exchange_frame h
  exact ⟨hs.pipes, hs.views, hs.rules⟩

/-! ## Runs -/

theorem createAll {ix : Index} {fresh : Nat → Uuid} {n : Nat} {keys ids : List Key} (hs : db.Sound)
    (hread : ∀ k ∈ keys, ∀ r, ix.resources[k]? = some r → r.AsRead)
    (h : createAll ix fresh n db keys = .ok (next, ids)) : next.Sound :=
  createAll_keeps hs (fun k hk r hr _ _ _ _ hs h => hs.createResource (hread k hk r hr) h) h

/-- Resources as read stay so when their index is qualified. -/
theorem asRead_of_qualified {ix out : Index} (hc : ix.Coherent)
    (hread : ∀ (k : Key) (r : Resource), ix.resources[k]? = some r → r.AsRead)
    (h : ix.qualified = .ok out) {k : Key} {r : Resource} (hr : out.resources[k]? = some r) :
    r.AsRead := by
  obtain ⟨j, hj, rfl⟩ := Index.exists_newKey_of_qualified hc h (Lookup.mem hr)
  obtain ⟨s, hsj⟩ := Lookup.exists_of_mem hj
  obtain ⟨q, hq, hsq⟩ := Index.repointed_of_qualified hc h hsj
  cases hr.symm.trans hq
  exact hsq.asRead (hread j s hsj)

theorem putIndex {ix : Index} {fresh : Nat → Uuid} {ids : List Key} (hs : db.Sound) (hc : ix.Coherent)
    (hread : ∀ (k : Key) (r : Resource), ix.resources[k]? = some r → r.AsRead)
    (h : db.putIndex fresh ix = .ok (next, ids)) : next.Sound := by
  obtain ⟨q, hq, -, hall⟩ := putIndex_eq_ok.1 h
  exact hs.createAll (fun k _ r hr => asRead_of_qualified hc hread hq hr) hall

end Database.Sound

/-- The resources that a change stores are as readers make them. -/
def Change.AsRead : Change → Prop
  | .createResource _ r => r.AsRead
  | .putIndex _ rs => ∀ r ∈ rs, r.AsRead
  | _ => True

namespace Change

variable {db : Database} {c : Change} {cs : List Change}

theorem built_indexOf {rs : List Resource} {ix : Index} (h : indexOf rs = .ok ix) :
    ix.Built ∧ ∀ (k : Key) (r : Resource), ix.resources[k]? = some r → r ∈ rs := by
  refine Result.foldlM_preserves (fun ix : Index =>
    ix.Built ∧ ∀ (k : Key) (r : Resource), ix.resources[k]? = some r → r ∈ rs)
    ⟨.empty, fun k r h => by simp [Index.empty] at h⟩ (fun ix r next hmem hix hnext => ?_) h
  obtain ⟨⟨added, k⟩, hadd, hnext⟩ := Result.bind_eq_ok.1 hnext
  cases Result.pure_eq_ok.1 hnext
  obtain ⟨hnew, hkept, honly⟩ := Index.resources_of_add hadd
  refine ⟨hix.1.add hadd, fun j q hq => ?_⟩
  obtain rfl | hj := honly j (Lookup.mem hq)
  · cases hq.symm.trans hnew
    exact hmem
  · obtain ⟨p, hp⟩ := Lookup.exists_of_mem hj
    cases hq.symm.trans (hkept j p hp)
    exact hix.2 j q hp

theorem sound_after (hs : db.Sound) (hc : c.AsRead) : (after db c).Sound := by
  obtain ⟨-, hsame⟩ | hleads := after_cases db c
  · rwa [hsame]
  · cases hleads with
    | createResource h => exact hs.createResource hc h
    | deleteResource h => exact hs.deleteResource h
    | putIndex hix h =>
      obtain ⟨hbuilt, hmem⟩ := built_indexOf hix
      exact hs.putIndex hbuilt.coherent (fun k r hr => hc r (hmem k r hr)) h
    | setDisabled h => exact hs.setDisabled h
    | createRule h => exact hs.createRule h
    | deleteRule h => exact hs.deleteRule h
    | createView h => exact hs.createView h
    | trigger h => exact hs.trigger h
    | exchange h => exact hs.exchange h

end Change

theorem Database.ofChanges_concat (cs : List Change) (c : Change) :
    Database.ofChanges (cs ++ [c]) = Change.after (Database.ofChanges cs) c := by
  simp [Database.ofChanges]

theorem Database.sound_ofChanges {cs : List Change} (h : ∀ c ∈ cs, c.AsRead) :
    (Database.ofChanges cs).Sound := by
  induction cs using List.reverseRecOn with
  | nil => exact .empty
  | append_singleton cs c ih =>
    rw [ofChanges_concat]
    exact Change.sound_after (ih fun d hd => h d (List.mem_append_left _ hd)) (h c (by simp))

end PagePipes
