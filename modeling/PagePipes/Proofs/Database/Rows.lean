import PagePipes.Proofs.Database.Steps
import PagePipes.Proofs.Planner.Reading

set_option autoImplicit false

/-!
# Rows of pipes along steps

A step leaves the stored pipes alone, adds one, switches one off or on, or removes one that nothing
refers to. So a pipe that is still needed keeps its spec, and every row was made for a valid pipe,
which has no exchanges of its own.
-/
namespace PagePipes

theorem Pipe.plain_of_validate {p : Pipe} (h : p.validate = .ok ()) : p.Plain :=
  fun a ha => ((validate_eq_ok.1 h).2 a ha).2

/-- A row made for a valid pipe: its text is that of the pipe, and so is its digest. -/
structure PipeRow.MadeFor (row : PipeRow) (q : Pipe) : Prop where
  valid : q.validate = .ok ()
  readable : q.Readable
  named : Key.validateName row.key.name = .ok ()
  spec : row.spec = q.toJson.compact
  digest : row.key.digest = some q.digest

theorem PipeRow.MadeFor.pipe_eq {row : PipeRow} {q : Pipe} (h : row.MadeFor q) :
    row.pipe = .ok q.reread := by
  rw [PipeRow.pipe, h.spec]
  exact Pipe.ofText_compact h.readable

/-- A row of the same pipe; it may be switched otherwise. -/
def PipeRow.Same (r s : PipeRow) : Prop := s.key = r.key ∧ s.spec = r.spec

theorem PipeRow.Same.pipe_eq {r s : PipeRow} (h : r.Same s) : s.pipe = r.pipe := by
  rw [PipeRow.pipe, h.2, PipeRow.pipe]

namespace Database

variable {db next : Database} {k : Key} {p : Pipe}

/-! ## What a step makes of the rows -/

/-- What a step makes of the stored pipes. -/
inductive PipesStep (db : Database) : List PipeRow → Prop
  | same : PipesStep db db.pipes
  | added {r q : Resource} {p : Pipe} (hread : r.AsRead) (hvalid : r.validate = .ok ())
      (hrq : Resource.Repointed db.Resolves r q) (hq : q.spec = .pipe p) (hnew : ¬ db.Stores q.key) :
      PipesStep db (db.pipes ++ [⟨q.key, p.toJson.compact, false⟩])
  | switched (t : Key) (disabled : Bool) :
      PipesStep db (db.pipes.map fun r => if r.key = t then { r with disabled } else r)
  | removed {k : Key} (hfree : db.checkUnreferenced k = .ok ()) :
      PipesStep db (db.pipes.filter (·.key ≠ k))

theorem pipesStep_of_created {u : Uuid} {r q : Resource} (hread : r.AsRead)
    (hvalid : r.validate = .ok ()) (hrq : Resource.Repointed db.Resolves r q)
    (h : Created db u q next) : PipesStep db next.pipes := by
  cases h with
  | @pipe p hq =>
    obtain ⟨-, h⟩ | ⟨hnew, h⟩ := insertPipe_eq db q.key p
    · rw [h]
      exact .same
    · rw [h]
      exact .added hread hvalid hrq hq hnew
  | @view v viewed stored hq hv =>
    obtain ⟨views, viewPipes, objects, rfl⟩ := insertView_frame hv
    exact .same
  | rule hq hstored hlinks => exact .same

theorem Step.pipes (h : Step db next) : PipesStep db next.pipes := by
  cases h with
  | createResource hread h =>
    obtain ⟨hvalid, q, hq, -, ⟨rfl, -⟩ | ⟨-, hcreated⟩⟩ := createResource_eq_ok h
    · exact .same
    · exact pipesStep_of_created hread hvalid (qualifyResource_eq_ok hq) hcreated
  | deleteResource h =>
    obtain ⟨row, -, hdeleted⟩ := deleteResource_eq_ok h
    cases hdeleted with
    | pipe hsubject hfree => exact .removed hfree
    | view hsubject => exact .same
    | rule hsubject hlinks => exact .same
  | setDisabled h =>
    obtain ⟨-, rfl⟩ := setDisabled_eq_ok.1 h
    exact .switched _ _
  | createRule h =>
    obtain ⟨conditions, links, rfl⟩ := createRule_frame h
    exact .same
  | deleteRule h =>
    obtain ⟨conditions, links, rfl⟩ := deleteRule_frame h
    exact .same
  | createView h =>
    obtain ⟨views, viewPipes, objects, rfl⟩ := createView_frame h
    exact .same
  | trigger h =>
    obtain ⟨plans, rfl⟩ := trigger_frame h
    exact .same
  | exchange h =>
    obtain ⟨events, objects, plans, rfl⟩ := exchange_frame h
    exact .same

/-- Something refers to the pipe, so it cannot be removed. -/
def Needed (db : Database) (k : Key) : Prop := db.checkUnreferenced k ≠ .ok ()

theorem needed_of_planned {plan : PlanRow} {p : PlannedPipe} (hplan : plan ∈ db.plans)
    (hp : p ∈ plan.pipes) : db.Needed p.name := fun hfree => by
  obtain ⟨-, -, -, hplans⟩ := checkUnreferenced_eq_ok hfree
  exact hplans plan hplan p hp rfl

theorem needed_of_linked {u : Uuid} (h : (u, k) ∈ db.viewPipes) : db.Needed k := fun hfree =>
  (checkUnreferenced_eq_ok hfree).1 (u, k) h rfl

/-- A row stays, or the pipe is removed because nothing refers to it. -/
theorem PipesStep.kept_or_removed {rows : List PipeRow} {row : PipeRow} (h : PipesStep db rows)
    (hrow : row ∈ db.pipes) :
    (∃ s ∈ rows, row.Same s) ∨ (¬ db.Needed row.key ∧ ∀ s ∈ rows, s.key ≠ row.key) := by
  cases h with
  | same => exact .inl ⟨row, hrow, rfl, rfl⟩
  | added => exact .inl ⟨row, List.mem_append_left _ hrow, rfl, rfl⟩
  | switched t disabled =>
    refine .inl ⟨_, List.mem_map_of_mem hrow, ?_⟩
    split <;> exact ⟨rfl, rfl⟩
  | @removed k hfree =>
    by_cases heq : row.key = k
    · subst heq
      exact .inr ⟨not_not_intro hfree, fun s hs => of_decide_eq_true (List.mem_filter.1 hs).2⟩
    · exact .inl ⟨row, List.mem_filter.2 ⟨hrow, decide_eq_true heq⟩, rfl, rfl⟩

theorem PipesStep.keeps {rows : List PipeRow} {row : PipeRow} (h : PipesStep db rows)
    (hrow : row ∈ db.pipes) (hneeded : db.Needed row.key) : ∃ s ∈ rows, row.Same s :=
  (h.kept_or_removed hrow).resolve_right fun hremoved => hremoved.1 hneeded

theorem Step.pipe_eq (hs : db.Sound) (h : Step db next) (hneeded : db.Needed k)
    (hp : db.pipe k = .ok p) : next.pipe k = .ok p := by
  obtain ⟨row, hrow, rfl, hrowp⟩ := (pipe_eq_ok_iff hs.pipes.keys).1 hp
  obtain ⟨s, hsmem, hsame⟩ := h.pipes.keeps hrow hneeded
  exact (pipe_eq_ok_iff (h.sound hs).pipes.keys).2 ⟨s, hsmem, hsame.1, hsame.pipe_eq.trans hrowp⟩

theorem Sound.pipe_of_stores (hs : db.Sound) (hk : db.Stores k) : ∃ p, db.pipe k = .ok p := by
  obtain ⟨row, hrow, rfl⟩ := hk
  obtain ⟨p, hp, -⟩ := (hs.pipes.each row hrow).reads
  exact ⟨p, (pipe_eq_ok_iff hs.pipes.keys).2 ⟨row, hrow, rfl, hp⟩⟩

theorem Step.stores (hs : db.Sound) (h : Step db next) (hneeded : db.Needed k) (hk : db.Stores k) :
    next.Stores k := by
  obtain ⟨p, hp⟩ := hs.pipe_of_stores hk
  exact stores_of_pipe (h.pipe_eq hs hneeded hp)

/-! ## Rows are made for valid pipes -/

def MadePipes (db : Database) : Prop := ∀ row ∈ db.pipes, ∃ q, row.MadeFor q

theorem MadePipes.step (h : MadePipes db) (hstep : Step db next) : MadePipes next := by
  have hpipes := hstep.pipes
  unfold MadePipes
  generalize next.pipes = rows at hpipes
  cases hpipes with
  | same => exact h
  | @added r q p hread hvalid hrq hq hnew =>
    refine List.forall_mem_append.2 ⟨h, List.forall_mem_singleton.2 ⟨p, ?_⟩⟩
    have hreadable := hrq.asRead hread
    obtain ⟨-, hname, hp⟩ := Resource.validate_eq_ok.1 hvalid
    obtain ⟨p₀, hr, -, hactions⟩ := hrq.of_pipe hq
    rw [Resource.AsRead, hq] at hreadable
    rw [hr] at hp
    refine ⟨Pipe.validate_of_repointed hactions hp, hreadable, ?_, rfl, ?_⟩
    · rwa [Resource.key, Key.exact, Resource.name, hrq.metadata]
    · rw [Resource.key, hq]
      rfl
  | switched t disabled =>
    refine List.forall_mem_map.2 fun row hrow => ?_
    obtain ⟨q, hq⟩ := h row hrow
    refine ⟨q, ?_⟩
    split
    · exact ⟨hq.valid, hq.readable, hq.named, hq.spec, hq.digest⟩
    · exact hq
  | removed hfree => exact fun row hrow => h row (List.mem_filter.1 hrow).1

theorem madePipes_ofChanges {cs : List Change} (h : ∀ c ∈ cs, c.AsRead) : MadePipes (ofChanges cs) :=
  ofChanges_keeps h (by simp [MadePipes, empty]) fun _ hmade hstep => hmade.step hstep

/-- No stored pipe has an exchange of its own. -/
def PlainPipes (db : Database) : Prop := ∀ row ∈ db.pipes, ∀ p, row.pipe = .ok p → p.Plain

theorem plainPipes_ofChanges {cs : List Change} (h : ∀ c ∈ cs, c.AsRead) :
    PlainPipes (ofChanges cs) := by
  intro row hrow p hp
  obtain ⟨q, hq⟩ := madePipes_ofChanges h row hrow
  cases hq.pipe_eq.symm.trans hp
  exact Pipe.plain_of_validate (Pipe.validate_reread hq.valid)

end Database
end PagePipes
