import PagePipes.Proofs.Database.Stored
import PagePipes.Proofs.Predicates
import PagePipes.Proofs.Resource.Written

set_option autoImplicit false

/-!
# Sound tables

What holds of the rows of the tables. Every text can be decoded, every reference is the key of a
stored pipe, and references between pipes go down in rank. The links that a rule resource owns are
those that its rule asks for. For each way in which rows come and go, the tables stay sound.
-/
namespace PagePipes

/-- Every reference in the pipe has a digest and is written to the letter. -/
def Pipe.Pointed (p : Pipe) : Prop :=
  ∀ a ∈ p.actions, a.is .pipe = true →
    ∃ k, a.reference = .ok k ∧ k.isQualified = true ∧ Database.namesPipe k a = true

namespace Pipe

variable {p : Pipe} {k : Key}

theorem Pointed.namesPipe (h : p.Pointed) (hk : k ∈ p.references) :
    ∃ a ∈ p.actions, Database.namesPipe k a = true := by
  obtain ⟨a, ha, hpipe, hka⟩ := mem_references.1 hk
  obtain ⟨t, hta, -, hnames⟩ := h a ha hpipe
  cases hka.symm.trans hta
  exact ⟨a, ha, hnames⟩

theorem Pointed.reread (h : p.Pointed) : p.reread.Pointed := by
  rw [Pointed, Pipe.reread, List.forall_mem_map]
  intro a ha hpipe
  rw [Action.is_reread] at hpipe
  obtain ⟨k, hk, hq, hnames⟩ := h a ha hpipe
  exact ⟨k, by rwa [Action.reference_reread], hq, by simpa [Database.namesPipe] using hnames⟩

theorem pointed_of_repointed {target : Key → Key → Prop} {actions : List Action}
    (hq : ∀ k t, target k t → t.isQualified = true)
    (h : List.Forall₂ (Action.Repointed target) actions p.actions) : p.Pointed := by
  intro b hb hpipe
  obtain ⟨a, -, hab⟩ := Result.exists_of_forall₂ h.flip hb
  cases hab with
  | stay ha => rw [ha] at hpipe; cases hpipe
  | @move k t ha hk ht href =>
    have hqt := hq k t ht
    refine ⟨t, href, hqt, ?_⟩
    obtain ⟨name, _ | digest⟩ := t
    · cases hqt
    · rw [Database.namesPipe, hpipe]
      simp [Action.setKey]

end Pipe

/-! ## Tables -/

structure PipeRow.Sound (row : PipeRow) : Prop where
  valid : row.key.Valid
  qualified : row.key.isQualified = true
  reads : ∃ p, row.pipe = .ok p ∧ p.Pointed

structure SoundPipes (rows : List PipeRow) : Prop where
  keys : (rows.map (·.key)).Nodup
  each : ∀ row ∈ rows, row.Sound
  ranked : ∃ rank : Key → Nat, ∀ row ∈ rows, ∀ p, row.pipe = .ok p → ∀ k ∈ p.references,
    (∃ row ∈ rows, row.key = k) ∧ rank k < rank row.key

structure ViewRow.Sound (viewPipes : List (Uuid × Key)) (row : ViewRow) (v : View) : Prop where
  reads : row.view = .ok v
  names : (v.columns.map Column.name).Nodup
  references : v.references.Nodup
  linked : ∀ k ∈ v.references, k.isQualified = true ∧ (row.uuid, k) ∈ viewPipes

structure SoundViews (stored : Key → Prop) (rows : List ViewRow) (viewPipes : List (Uuid × Key)) :
    Prop where
  each : ∀ row ∈ rows, ∃ v, row.Sound viewPipes v
  stored : ∀ e ∈ viewPipes, stored e.2

/-- A row that stands for a rule: its text says the rule, and it owns the links of the rule. -/
structure ResourceRow.StandsForRule (links : List Link) (row : ResourceRow) (x : Rule) : Prop where
  reads : ∃ metadata, row.resource = .ok ⟨row.version, metadata, .rule x⟩
  subject : row.subject = .rule x.predicate.condition
  settled : x.predicate.Settled
  qualified : ∀ k ∈ x.pipes, k.isQualified = true
  links : ∀ l : Link, l.owner = some row.key →
    (l ∈ links ↔ l.condition = x.predicate.condition ∧ l.pipe ∈ x.pipes)

theorem ResourceRow.StandsForRule.congr {links links' : List Link} {row : ResourceRow} {x : Rule}
    (h : row.StandsForRule links x)
    (hsame : ∀ l : Link, l.owner = some row.key → (l ∈ links' ↔ l ∈ links)) :
    row.StandsForRule links' x :=
  ⟨h.reads, h.subject, h.settled, h.qualified, fun l hl => (hsame l hl).trans (h.links l hl)⟩

structure SoundRules (stored : Key → Prop) (links : List Link) (rows : List ResourceRow) : Prop where
  sound : ∀ l ∈ links, stored l.pipe ∧ ∃ p : Predicate, p.Settled ∧ l.condition = p.condition
  keys : (rows.map (·.key)).Nodup
  rules : ∀ row ∈ rows, row.kind = .rule → ∃ x, row.StandsForRule links x
  owners : ∀ l ∈ links, ∀ k, l.owner = some k → ∃ row ∈ rows, row.key = k ∧ row.kind = .rule

namespace SoundPipes

variable {rows : List PipeRow} {row : PipeRow} {k : Key}

theorem nil : SoundPipes [] where
  keys := List.nodup_nil
  each := by simp
  ranked := ⟨fun _ => 0, by simp⟩

/-- A new pipe refers to pipes that are there, so it may come last in rank. -/
theorem concat (h : SoundPipes rows) (hrow : row.Sound) (hfresh : ¬ ∃ r ∈ rows, r.key = row.key)
    (hstored : ∀ p, row.pipe = .ok p → ∀ k ∈ p.references, ∃ r ∈ rows, r.key = k) :
    SoundPipes (rows ++ [row]) where
  keys := by
    rw [List.map_append]
    refine List.nodup_append.2 ⟨h.keys, List.nodup_singleton _, ?_⟩
    rintro k hk _ hrow rfl
    obtain rfl := List.mem_singleton.1 hrow
    exact hfresh (List.mem_map.1 hk)
  each := by
    simp only [List.mem_append, List.mem_singleton]
    rintro r (hr | rfl)
    · exact h.each r hr
    · exact hrow
  ranked := by
    obtain ⟨rank, hrank⟩ := h.ranked
    have hbound : ∀ r ∈ rows, rank r.key ≤ (rows.map (rank ·.key)).sum := fun r hr =>
      List.single_le_sum (by simp) _ (List.mem_map_of_mem hr)
    refine ⟨fun k => if k = row.key then (rows.map (rank ·.key)).sum + 1 else rank k, ?_⟩
    have hold : ∀ k, (∃ r ∈ rows, r.key = k) → k ≠ row.key := fun k hk hne => hfresh (hne ▸ hk)
    simp only [List.mem_append, List.mem_singleton]
    rintro r (hr | rfl) p hp k hk
    · obtain ⟨⟨s, hs, rfl⟩, hlt⟩ := hrank r hr p hp k hk
      rw [if_neg (hold s.key ⟨s, hs, rfl⟩), if_neg (hold r.key ⟨r, hr, rfl⟩)]
      exact ⟨⟨s, .inl hs, rfl⟩, hlt⟩
    · obtain ⟨s, hs, rfl⟩ := hstored p hp k hk
      rw [if_neg (hold s.key ⟨s, hs, rfl⟩), if_pos rfl]
      exact ⟨⟨s, .inl hs, rfl⟩, Nat.lt_succ_of_le (hbound s hs)⟩

theorem remove (h : SoundPipes rows)
    (hfree : ∀ row ∈ rows, ∀ p, row.pipe = .ok p → ∀ a ∈ p.actions, Database.namesPipe k a = false) :
    SoundPipes (rows.filter (·.key ≠ k)) where
  keys := h.keys.sublist (List.filter_sublist.map _)
  each row hrow := h.each row (List.mem_filter.1 hrow).1
  ranked := by
    obtain ⟨rank, hrank⟩ := h.ranked
    refine ⟨rank, fun row hrow p hp t ht => ?_⟩
    replace hrow := (List.mem_filter.1 hrow).1
    obtain ⟨⟨s, hs, rfl⟩, hlt⟩ := hrank row hrow p hp t ht
    refine ⟨⟨s, List.mem_filter.2 ⟨hs, ?_⟩, rfl⟩, hlt⟩
    obtain ⟨q, hq, hpointed⟩ := (h.each row hrow).reads
    cases hp.symm.trans hq
    obtain ⟨a, ha, hnames⟩ := hpointed.namesPipe ht
    rw [decide_eq_true_eq]
    rintro rfl
    exact Bool.false_ne_true ((hfree row hrow p hp a ha).symm.trans hnames)

theorem map (h : SoundPipes rows) {f : PipeRow → PipeRow}
    (hf : ∀ row, (f row).key = row.key ∧ (f row).spec = row.spec) : SoundPipes (rows.map f) := by
  have hpipe : ∀ row, (f row).pipe = row.pipe := fun row => by rw [PipeRow.pipe, (hf row).2, PipeRow.pipe]
  refine ⟨?_, List.forall_mem_map.2 fun row hrow => ?_, ?_⟩
  · simpa [Function.comp_def, (hf _).1] using h.keys
  · obtain ⟨hvalid, hq, hreads⟩ := h.each row hrow
    exact ⟨by rwa [(hf row).1], by rwa [(hf row).1], by rwa [hpipe]⟩
  · obtain ⟨rank, hrank⟩ := h.ranked
    refine ⟨rank, List.forall_mem_map.2 fun row hrow p hp k hk => ?_⟩
    rw [hpipe] at hp
    obtain ⟨⟨s, hs, rfl⟩, hlt⟩ := hrank row hrow p hp k hk
    exact ⟨⟨f s, List.mem_map_of_mem hs, (hf s).1⟩, by rwa [(hf row).1]⟩

end SoundPipes

namespace SoundViews

variable {stored stored' : Key → Prop} {rows : List ViewRow} {viewPipes : List (Uuid × Key)}
  {u : Uuid} {v : View}

theorem nil : SoundViews stored [] [] := ⟨by simp, by simp⟩

theorem mono (h : SoundViews stored rows viewPipes)
    (hstored : ∀ e ∈ viewPipes, stored e.2 → stored' e.2) : SoundViews stored' rows viewPipes :=
  ⟨h.each, fun e he => hstored e he (h.stored e he)⟩

theorem concat (h : SoundViews stored rows viewPipes) (hstored : ∀ k ∈ v.references, stored k)
    (hvalid : ∀ k ∈ v.references, k.isQualified = true ∧ k.Valid)
    (hnames : (v.columns.map Column.name).Nodup) (hreferences : v.references.Nodup) :
    SoundViews stored (rows ++ [⟨u, v.digest, v.toJson.compact⟩])
      (viewPipes ++ v.references.map (u, ·)) where
  each := by
    simp only [List.mem_append, List.mem_singleton]
    rintro row (hrow | rfl)
    · obtain ⟨w, hreads, hnames, hreferences, hlinked⟩ := h.each row hrow
      refine ⟨w, hreads, hnames, hreferences, fun k hk => ⟨(hlinked k hk).1, ?_⟩⟩
      exact List.mem_append_left _ (hlinked k hk).2
    · refine ⟨v, View.ofText_compact fun k hk => (hvalid k hk).2, hnames, hreferences, fun k hk => ?_⟩
      exact ⟨(hvalid k hk).1, List.mem_append_right _ (List.mem_map_of_mem hk)⟩
  stored := by
    simp only [List.mem_append, List.mem_map]
    rintro e (he | ⟨k, hk, rfl⟩)
    · exact h.stored e he
    · exact hstored k hk

theorem remove (h : SoundViews stored rows viewPipes) :
    SoundViews stored (rows.filter (·.uuid ≠ u)) (viewPipes.filter (·.1 ≠ u)) where
  each row hrow := by
    obtain ⟨hrow, hu⟩ := List.mem_filter.1 hrow
    obtain ⟨v, hreads, hnames, hreferences, hlinked⟩ := h.each row hrow
    refine ⟨v, hreads, hnames, hreferences, fun k hk => ?_⟩
    exact ⟨(hlinked k hk).1, List.mem_filter.2 ⟨(hlinked k hk).2, hu⟩⟩
  stored e he := h.stored e (List.mem_filter.1 he).1

end SoundViews

namespace SoundRules

variable {stored stored' : Key → Prop} {links links' : List Link} {rows : List ResourceRow}
  {row : ResourceRow} {x : Rule}

theorem nil : SoundRules stored [] [] := ⟨by simp, List.nodup_nil, by simp, by simp⟩

theorem mono (h : SoundRules stored links rows) (hstored : ∀ l ∈ links, stored l.pipe → stored' l.pipe) :
    SoundRules stored' links rows :=
  ⟨fun l hl => ⟨hstored l hl (h.sound l hl).1, (h.sound l hl).2⟩, h.keys, h.rules, h.owners⟩

theorem eq_of_key (h : SoundRules stored links rows) {other : ResourceRow} (hrow : row ∈ rows)
    (hother : other ∈ rows) (hkey : row.key = other.key) : row = other :=
  List.inj_on_of_nodup_map h.keys hrow hother hkey

theorem relink (h : SoundRules stored links rows)
    (hsame : ∀ l : Link, l.owner ≠ none → (l ∈ links' ↔ l ∈ links))
    (hsound : ∀ l ∈ links', stored l.pipe ∧ ∃ p : Predicate, p.Settled ∧ l.condition = p.condition) :
    SoundRules stored links' rows where
  sound := hsound
  keys := h.keys
  rules row hrow hkind := by
    obtain ⟨x, hx⟩ := h.rules row hrow hkind
    exact ⟨x, hx.congr fun l hl => hsame l (by simp [hl])⟩
  owners l hl k hk := h.owners l ((hsame l (by simp [hk])).1 hl) k hk

theorem keys_concat (h : SoundRules stored links rows) (hfresh : ∀ r ∈ rows, r.key ≠ row.key) :
    ((rows ++ [row]).map (·.key)).Nodup := by
  rw [List.map_append]
  refine List.nodup_append.2 ⟨h.keys, List.nodup_singleton _, ?_⟩
  rintro k hk _ hrow rfl
  obtain rfl := List.mem_singleton.1 hrow
  obtain ⟨r, hr, hkey⟩ := List.mem_map.1 hk
  exact hfresh r hr hkey

theorem concat (h : SoundRules stored links rows) (hfresh : ∀ r ∈ rows, r.key ≠ row.key)
    (hkind : row.kind ≠ .rule) : SoundRules stored links (rows ++ [row]) where
  sound := h.sound
  keys := h.keys_concat hfresh
  rules := by
    simp only [List.mem_append, List.mem_singleton]
    rintro r (hr | rfl) hrule
    · exact h.rules r hr hrule
    · exact absurd hrule hkind
  owners l hl k hk := by
    obtain ⟨r, hr, hkey⟩ := h.owners l hl k hk
    exact ⟨r, List.mem_append_left _ hr, hkey⟩

/-- A new rule resource owns the links that were made for it, and no others. -/
theorem concat_rule (h : SoundRules stored links rows) (hfresh : ∀ r ∈ rows, r.key ≠ row.key)
    (hkind : row.kind = .rule)
    (hlinks : ∀ l : Link, l ∈ links' ↔ l ∈ links ∨
      (l.condition = x.predicate.condition ∧ l.owner = some row.key ∧ l.pipe ∈ x.pipes))
    (hx : (∀ l : Link, l.owner = some row.key → (l ∈ links' ↔
      l.condition = x.predicate.condition ∧ l.pipe ∈ x.pipes)) → row.StandsForRule links' x)
    (hstored : ∀ k ∈ x.pipes, stored k) (hsettled : x.predicate.Settled) :
    SoundRules stored links' (rows ++ [row]) where
  sound l hl := by
    obtain hl | ⟨hcondition, -, hpipe⟩ := (hlinks l).1 hl
    · exact h.sound l hl
    · exact ⟨hstored _ hpipe, _, hsettled, hcondition⟩
  keys := h.keys_concat hfresh
  rules := by
    simp only [List.mem_append, List.mem_singleton]
    rintro r (hr | rfl) hrule
    · obtain ⟨y, hy⟩ := h.rules r hr hrule
      refine ⟨y, hy.congr fun l hl => ?_⟩
      have hother : l.owner ≠ some row.key := fun ho =>
        hfresh r hr (Option.some.inj (hl.symm.trans ho))
      simp [hlinks, hother]
    · refine ⟨x, hx fun l hl => ?_⟩
      have hnew : l ∉ links := fun hmem => by
        obtain ⟨other, hother, hkey, -⟩ := h.owners l hmem r.key hl
        exact hfresh other hother hkey
      simp [hlinks, hnew, hl]
  owners l hl k hk := by
    obtain hl | ⟨-, howner, -⟩ := (hlinks l).1 hl
    · obtain ⟨r, hr, hkey⟩ := h.owners l hl k hk
      exact ⟨r, List.mem_append_left _ hr, hkey⟩
    · exact ⟨row, by simp, Option.some.inj (howner.symm.trans hk), hkind⟩

theorem remove (h : SoundRules stored links rows) (hrow : row ∈ rows)
    (hlinks : ∀ l : Link, l ∈ links' ↔ l ∈ links ∧ l.owner ≠ some row.key) :
    SoundRules stored links' (rows.filter (· ≠ row)) where
  sound l hl := h.sound l ((hlinks l).1 hl).1
  keys := h.keys.sublist (List.filter_sublist.map _)
  rules r hr hrule := by
    obtain ⟨hr, hne⟩ := List.mem_filter.1 hr
    obtain ⟨x, hx⟩ := h.rules r hr hrule
    refine ⟨x, hx.congr fun l hl => ?_⟩
    have hother : l.owner ≠ some row.key := fun ho =>
      of_decide_eq_true hne (h.eq_of_key hr hrow (Option.some.inj (hl.symm.trans ho)))
    simp [hlinks, hother]
  owners l hl k hk := by
    obtain ⟨hl, hother⟩ := (hlinks l).1 hl
    obtain ⟨r, hr, rfl, hrule⟩ := h.owners l hl k hk
    refine ⟨r, List.mem_filter.2 ⟨hr, decide_eq_true ?_⟩, rfl, hrule⟩
    rintro rfl
    exact hother hk

theorem owner_ne (h : SoundRules stored links rows) (hrow : row ∈ rows) (hkind : row.kind ≠ .rule)
    {l : Link} (hl : l ∈ links) : l.owner ≠ some row.key := by
  intro ho
  obtain ⟨r, hr, hkey, hrule⟩ := h.owners l hl row.key ho
  exact hkind (h.eq_of_key hr hrow hkey ▸ hrule)

end SoundRules

end PagePipes
