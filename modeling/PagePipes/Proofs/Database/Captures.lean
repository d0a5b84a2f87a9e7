import PagePipes.Database.Relation
import PagePipes.Proofs.Database.Removal

set_option autoImplicit false

/-!
# Relations that an alias captures

The check of an alias knows the tables of the schema by their names and all other relations by how
their names begin, but for the function that lists stored actions. So that function is the only
relation of the store whose name an alias can have.
-/
namespace PagePipes

/-- The tables that no alias may name are those of the schema. -/
theorem View.storeTables_eq : storeTables = Table.all.map (Key.lower ·.name) := by decide

theorem Database.names_counts (db : Database) : db.counts.map (·.1) = Table.all.map (·.name) := rfl

theorem Key.begins_lower_append {s : String} (t : String) (h : lower s = s) :
    s.toList <+: (lower (s ++ t)).toList := by
  rw [lower_append, h, String.toList_append]
  exact List.prefix_append _ _

namespace Relation

/-- The check of an alias knows every relation, but for the function. -/
theorem known (r : Relation) : Key.lower r.name ∈ View.storeTables ∨
    (∃ start ∈ View.reservedStarts, start.toList <+: (Key.lower r.name).toList) ∨ r = .actions := by
  cases r with
  | table t =>
    rw [View.storeTables_eq]
    exact .inl (List.mem_map_of_mem t.mem_all)
  | index i => exact .inr (.inl ⟨"idx_", by decide, by cases i <;> decide +kernel⟩)
  | uniqueIndex owner number =>
    refine .inr (.inl ⟨"sqlite_", by decide, ?_⟩)
    have hname : name (uniqueIndex owner number) =
        "sqlite_" ++ ("autoindex_" ++ owner ++ "_" ++ toString number) := by
      rw [← String.append_assoc, ← String.append_assoc, ← String.append_assoc]
      rfl
    rw [hname]
    exact Key.begins_lower_append _ (by decide)
  | rowNumbers | catalogue => exact .inr (.inl ⟨"sqlite_", by decide, by decide +kernel⟩)
  | view u => exact .inr (.inl ⟨"view_", by decide, Key.begins_lower_append _ (by decide)⟩)
  | collection name digest =>
    refine .inr (.inl ⟨"collection_", by decide, ?_⟩)
    have hname : Relation.name (collection name digest) =
        "collection_" ++ (Sql.safe name ++ "__" ++ Sql.safe digest) := by
      rw [← String.append_assoc, ← String.append_assoc]
      rfl
    rw [hname]
    exact Key.begins_lower_append _ (by decide)
  | actions => exact .inr (.inr rfl)

/-- An accepted alias names a relation only as the function that lists stored actions. -/
theorem named_iff {a : String} (h : View.validateAlias a = .ok ()) (r : Relation) :
    Key.lower a = Key.lower r.name ↔ a = Database.actionSource ∧ r = .actions := by
  rw [View.lower_of_isIdentifier (View.isIdentifier_of_validateAlias h)]
  constructor
  · intro heq
    obtain htable | ⟨start, hstart, hbegins⟩ | rfl := r.known
    · exact absurd (heq ▸ htable) (View.not_storeTable_of_validateAlias h)
    · exact absurd (heq ▸ hbegins) (View.not_reserved_of_validateAlias h start hstart)
    · exact ⟨heq.trans (by decide), rfl⟩
  · rintro ⟨rfl, rfl⟩
    decide

end Relation

namespace Database

variable {cs : List Change}

/-- A relation is captured just when it is the function that lists stored actions, and some stored view
has its name. -/
theorem captures_iff (hread : ∀ c ∈ cs, c.AsRead) (r : Relation) :
    (ofChanges cs).Captures r ↔ (ofChanges cs).HidesActions ∧ r = .actions := by
  have ha := soundAliases_ofChanges hread
  have hhides : (ofChanges cs).hasObject actionSource = true ↔ (ofChanges cs).HidesActions :=
    ha.hasObject_iff ⟨by decide, by decide⟩
  constructor
  · rintro ⟨name, u, hmade, heq⟩
    have hstored : (name, u) ∈ (ofChanges cs).aliases := ha.made ▸ mem_aliasViewsOf.2 hmade
    obtain ⟨rfl, hr⟩ := (Relation.named_iff (ha.valid _ hstored) r).1 heq
    exact ⟨hhides.1 (hasObject_of_aliasView hmade), hr⟩
  · rintro ⟨⟨row, hrow, v, hv, halias⟩, rfl⟩
    have hstored : (actionSource, row.uuid) ∈ (ofChanges cs).aliases :=
      mem_aliases.2 ⟨row, hrow, rfl, by rw [ViewRow.alias?_eq hv, halias]⟩
    exact ⟨_, _, mem_aliasViewsOf.1 (ha.made ▸ hstored), rfl⟩

/-- An accepted alias has the name of no relation of the store, whatever its case, unless it names the
function that lists stored actions; that name is accepted. In a database the function is captured while
some stored view has that alias, and no other relation ever is. -/
theorem alias_captures_only_actions {a : String} (ha : View.validateAlias a = .ok ())
    (hread : ∀ c ∈ cs, c.AsRead) (r : Relation) :
    (Key.lower a = Key.lower r.name ↔ a = actionSource ∧ r = .actions) ∧
    View.validateAlias actionSource = .ok () ∧
    ((ofChanges cs).Captures r ↔ (ofChanges cs).HidesActions ∧ r = .actions) :=
  ⟨Relation.named_iff ha r, by decide, captures_iff hread r⟩

theorem hidden_title_captures_actions : View.validateAlias actionSource = .ok () ∧
    (∀ c ∈ hiddenTitle, c.AsRead) ∧ Key.lower actionSource = Key.lower Relation.actions.name ∧
    (ofChanges hiddenTitle).Captures .actions ∧ ¬ (ofChanges hiddenTitle).Captures .catalogue := by
  have haccepted : View.validateAlias actionSource = .ok () := by decide
  have hstored : (ofChanges hiddenTitle).views.any (fun row => row.view.toOption.any fun v =>
      decide (v.aliasName = some actionSource)) = true := by decide +kernel
  obtain ⟨row, hrow, h⟩ := List.any_eq_true.1 hstored
  obtain ⟨v, hv, halias⟩ := Result.exists_ok_of_any h
  have hhides : (ofChanges hiddenTitle).HidesActions := ⟨row, hrow, v, hv, of_decide_eq_true halias⟩
  obtain ⟨hname, -, hactions⟩ := alias_captures_only_actions haccepted asRead_hiddenTitle .actions
  obtain ⟨-, -, hcatalogue⟩ := alias_captures_only_actions haccepted asRead_hiddenTitle .catalogue
  refine ⟨haccepted, asRead_hiddenTitle, hname.2 ⟨rfl, rfl⟩, hactions.2 ⟨hhides, rfl⟩, fun hcaptured => ?_⟩
  cases (hcatalogue.1 hcaptured).2

end Database
end PagePipes
