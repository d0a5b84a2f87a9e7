import PagePipes.Database.Views
import PagePipes.Proofs.Database.Stored

set_option autoImplicit false

/-!
# Joined rows

An event has at most one value for a pipe, and a stored pipe is the only one of its key. So joining
the events to the values of a pipe gives every event once, with its value or with null, and after any
number of joins there is still one row for each event.
-/
namespace PagePipes

/-- The value that an event has for a pipe; null when it has none. -/
def Event.valueOf (e : Event) (k : Key) : Sql.Value := (e.results.lookup k).getD .null

namespace Database

variable {db : Database} {k : Key} {e : Event} {n : Nat} {columns : List Sql.CollectionColumn}

/-- Only the members that pass a test matter to a union when all others have nothing in it. -/
theorem flatMap_filter_eq {α β : Type} {p : α → Bool} {f : α → List β} {xs : List α}
    (h : ∀ x ∈ xs, p x = false → f x = []) : (xs.filter p).flatMap f = xs.flatMap f := by
  induction xs with
  | nil => rfl
  | cons x xs ih =>
    obtain ⟨hx, hxs⟩ := List.forall_mem_cons.1 h
    rw [List.filter_cons, List.flatMap_cons, ← ih hxs]
    cases hp : p x with
    | true => rfl
    | false => simp [hx hp]

/-- No event has two values for one pipe. -/
def DistinctResults (db : Database) : Prop := ∀ e ∈ db.events, (e.results.map (·.1)).Nodup

theorem mem_of_zipIdx {x : Event × Nat} (h : x ∈ db.events.zipIdx 1) : x.1 ∈ db.events := by
  rw [← List.zipIdx_map_fst 1 db.events]
  exact List.mem_map_of_mem h

theorem filter_resultRows (hdb : db.DistinctResults) (hn : (e, n) ∈ db.events.zipIdx 1) (k : Key) :
    (db.resultRows.filter fun r => r.event == n && some r.pipe == some k) =
      (e.results.lookup k).toList.map fun v => ⟨n, k, v⟩ := by
  have hnumbers : ((db.events.zipIdx 1).map Prod.snd).Nodup := by
    rw [List.zipIdx_map_snd]
    exact List.nodup_range' 1
  have hone : (db.events.zipIdx 1).filter (·.2 == n) = [(e, n)] := Lookup.filter_key hnumbers hn
  -- the rows of other events have another number
  rw [resultRows, List.filter_flatMap, ← flatMap_filter_eq (p := (·.2 == n)), hone]
  · have hresults : (fun r : ResultRow => r.event == n && some r.pipe == some k) ∘
        (fun entry : Key × Sql.Value => ⟨n, entry.1, entry.2⟩) = (·.1 == k) := by
      funext entry
      simp
    rw [List.flatMap_singleton, List.filter_map, hresults, Lookup.filter_lookup (hdb e (mem_of_zipIdx hn)),
      List.map_map]
    rfl
  · rintro ⟨e', m⟩ - hm
    rw [List.filter_eq_nil_iff, List.forall_mem_map]
    intro entry _
    simp_all

theorem leftJoin_eq (hdb : db.DistinctResults) (f : Event → List Sql.Value) (k : Key) :
    leftJoin db.resultRows (some k) ((db.events.zipIdx 1).map fun (e, n) => ⟨n, e, f e⟩) =
      (db.events.zipIdx 1).map fun (e, n) => ⟨n, e, f e ++ [e.valueOf k]⟩ := by
  rw [leftJoin, List.flatMap_map, ← List.flatMap_pure_eq_map]
  refine List.flatMap_congr fun x hx => ?_
  simp only [filter_resultRows hdb hx]
  cases hk : x.1.results.lookup k <;> simp [Event.valueOf, hk]

theorem key_of_pipeRow? (hk : db.Stores k) : (db.pipeRow? k).map (·.key) = some k := by
  obtain ⟨row, hrow⟩ := Option.isSome_iff_exists.1 (hasPipe_iff.2 hk)
  have hkey : row.key = k := by simpa using List.find?_some hrow
  rw [hrow, Option.map_some, hkey]

/-- After all joins there is one row for each event, with its value for each column. -/
theorem joinedRows_eq (hdb : db.DistinctResults) (hstored : ∀ c ∈ columns, db.Stores c.pipe) :
    db.joinedRows columns = (db.events.zipIdx 1).map fun (e, n) =>
      ⟨n, e, columns.map fun c => e.valueOf c.pipe⟩ := by
  have hjoined : ∀ f : Event → List Sql.Value, columns.foldl
      (fun rows c => leftJoin db.resultRows ((db.pipeRow? c.pipe).map (·.key)) rows)
      ((db.events.zipIdx 1).map fun (e, n) => ⟨n, e, f e⟩) =
        (db.events.zipIdx 1).map fun (e, n) => ⟨n, e, f e ++ columns.map fun c => e.valueOf c.pipe⟩ := by
    induction columns with
    | nil => simp
    | cons c columns ih =>
      intro f
      obtain ⟨hc, hcolumns⟩ := List.forall_mem_cons.1 hstored
      rw [List.foldl_cons, key_of_pipeRow? hc, leftJoin_eq hdb,
        ih hcolumns fun e => f e ++ [e.valueOf c.pipe]]
      simp
  have hordered : (db.events.zipIdx 1).Pairwise fun a b => decide (a.2 ≤ b.2) = true := by
    have hnumbers : ((db.events.zipIdx 1).map Prod.snd).Pairwise (· ≤ ·) := by
      rw [List.zipIdx_map_snd]
      exact List.pairwise_le_range' 1
    exact (List.pairwise_map.1 hnumbers).imp fun h => decide_eq_true h
  rw [joinedRows]
  simp only
  rw [hjoined fun _ => []]
  exact List.mergeSort_of_pairwise (List.pairwise_map.2 hordered)

/-! ## Selected columns -/

/-- The columns of an SQL view with the values of an event. -/
def eventRow (columns : List Sql.CollectionColumn) (e : Event) : List (String × Sql.Value) :=
  let names := columns.map (·.name)
  columns.map (fun c => (c.name, e.valueOf c.pipe))
    ++ [(freshName names "Timestamp", .text e.timestamp), (freshName names "URL", .text e.url)]

theorem selectRow_eq (h : ∀ c ∈ columns, (e.valueOf c.pipe).isOf c.point = true) :
    selectRow columns ⟨n, e, columns.map fun c => e.valueOf c.pipe⟩ = .ok (eventRow columns e) := by
  have hcells : (columns.map fun c => (c, e.valueOf c.pipe)).mapM (fun cell =>
      show Result (String × Sql.Value) from return (cell.1.name, ← cell.2.cast cell.1.point)) =
        .ok (columns.map fun c => (c.name, e.valueOf c.pipe)) := by
    rw [Result.mapM_eq_ok, List.forall₂_map_left_iff, List.forall₂_map_right_iff, List.forall₂_same]
    intro c hc
    simp only [Sql.Value.cast, h c hc, ↓reduceIte, Result.ok_bind]
    rfl
  rw [selectRow, ← List.map_prod_left_eq_zip]
  simp only
  rw [hcells]
  rfl

/-- When every value is of the point of its column, each event is one row, in the order of the events. -/
theorem rows_of_joinedRows (hdb : db.DistinctResults) (hstored : ∀ c ∈ columns, db.Stores c.pipe)
    (hof : ∀ e ∈ db.events, ∀ c ∈ columns, (e.valueOf c.pipe).isOf c.point = true) :
    (db.joinedRows columns).mapM (selectRow columns) = .ok (db.events.map (eventRow columns)) := by
  have hevents : db.events.map (eventRow columns) =
      (db.events.zipIdx 1).map fun (e, _) => eventRow columns e := by
    rw [← List.zipIdx_map_fst 1 db.events, List.map_map, List.zipIdx_map_fst]
    rfl
  rw [joinedRows_eq hdb hstored, hevents, Result.mapM_eq_ok, List.forall₂_map_left_iff,
    List.forall₂_map_right_iff, List.forall₂_same]
  exact fun x hx => selectRow_eq (hof x.1 (mem_of_zipIdx hx))

end Database
end PagePipes
