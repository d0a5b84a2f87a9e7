import PagePipes.Database.Trigger
import PagePipes.Proofs.WrittenKeys

set_option autoImplicit false

/-!
# Predicates and stored conditions

A condition keeps a normalized predicate with an empty text for what is not asked. It says when the
predicate applies, no two normalized predicates have one condition, and the lookup by host passes
over no condition that applies.
-/
namespace PagePipes

/-- A character that lowering changes comes to lie behind the capitals. -/
theorem Key.toLower_eq_or_lt (c : Char) : c.toLower = c ∨ 'Z' < c.toLower := by
  by_cases hc : c.val ≥ 'A'.val ∧ c.val ≤ 'Z'.val
  · have hraised : c.toLower.val = c.val + ('a'.val - 'A'.val) := congrArg Char.val (dif_pos hc)
    have hlow := UInt32.le_iff_toNat_le.1 hc.1
    have hhigh := UInt32.le_iff_toNat_le.1 hc.2
    refine .inr (UInt32.lt_iff_toNat_lt.2 ?_)
    rw [hraised, UInt32.toNat_add]
    simp at *
    omega
  · exact .inl (dif_neg hc)

theorem Key.lower_lower (s : String) : lower (lower s) = lower s := by
  have hchar : ∀ c : Char, c.toLower.toLower = c.toLower := fun c => by
    obtain h | h := toLower_eq_or_lt c
    · rw [h, h]
    · exact toLower_eq_of_lower (.inl h)
  simp [lower, Function.comp_def, hchar]

theorem Key.lower_append (s t : String) : lower (s ++ t) = lower s ++ lower t := by
  simp [lower, String.toList_append]

namespace Predicate

variable {p q : Predicate} {u : Url}

@[simp] theorem nonempty_nonempty (s : Option String) : nonempty (nonempty s) = nonempty s := by
  simp [nonempty, Option.filter_filter]

@[simp] theorem nonempty_lowered (s : Option String) :
    nonempty ((nonempty s).map Key.lower) = (nonempty s).map Key.lower := by
  cases s with
  | none => rfl
  | some t =>
    by_cases ht : t = ""
    · simp [nonempty, Option.filter_some, ht]
    · have hlower : Key.lower t ≠ "" := by simpa [Key.lower] using ht
      simp [nonempty, Option.filter_some, ht, hlower]

theorem normalized_normalized (p : Predicate) : p.normalized.normalized = p.normalized := by
  have htwice : Key.lower ∘ Key.lower = Key.lower := funext Key.lower_lower
  simp [normalized, htwice]

/-- A predicate as rules are stored with. -/
structure Settled (p : Predicate) : Prop where
  normalized : p.normalized = p
  valid : p.validate = .ok ()

/-- What a normalized predicate sets is not empty, and its hostname is lowered. -/
theorem normalized_eq (h : p.normalized = p) :
    (∀ s, p.hostname = some s → s ≠ "" ∧ Key.lower s = s) ∧ ∀ s, p.pattern = some s → s ≠ "" := by
  obtain ⟨hostname, pattern, always⟩ := p
  simp only [normalized, Predicate.mk.injEq, and_true] at h
  obtain ⟨hhostname, hpattern⟩ := h
  constructor
  · rintro s rfl
    by_cases hs : s = ""
    · simp [nonempty, hs] at hhostname
    · exact ⟨hs, by simpa [nonempty, hs] using hhostname⟩
  · rintro s rfl rfl
    simp [nonempty] at hpattern

/-- The condition of a predicate can be read when the predicate is valid. -/
theorem condition_reads (h : p.validate = .ok ()) : ∃ pattern, p.condition.regex? = .ok pattern := by
  unfold validate at h
  unfold condition Condition.regex?
  cases hp : p.pattern with
  | none => exact ⟨none, rfl⟩
  | some s =>
    cases hs : Regex.parse s with
    | error fault =>
      simp only [hp, hs] at h
      split at h <;> simp_all
    | ok r => by_cases hempty : s = "" <;> simp [hempty, hs]

theorem condition_injective (hp : p.normalized = p) (hq : q.normalized = q)
    (h : p.condition = q.condition) : p = q := by
  obtain ⟨hph, hpp⟩ := normalized_eq hp
  obtain ⟨hqh, hqp⟩ := normalized_eq hq
  have hgetD : ∀ s t : Option String, (∀ x, s = some x → x ≠ "") → (∀ x, t = some x → x ≠ "") →
      s.getD "" = t.getD "" → s = t := by
    rintro (_ | s) (_ | t) hs ht hst <;> simp_all
  obtain ⟨hhostname, hpattern, halways⟩ := Condition.mk.inj h
  have hsame := hgetD _ _ (fun s hs => (hph s hs).1) (fun s hs => (hqh s hs).1) hhostname
  cases p
  cases q
  exact Predicate.mk.injEq .. ▸ ⟨hsame, hgetD _ _ hpp hqp hpattern, halways⟩

/-- A condition whose pattern can be read answers what its normalized predicate does. -/
theorem applies_condition_of_reads {pattern : Option Regex} (hp : p.normalized = p)
    (hpattern : p.condition.regex? = .ok pattern) : p.condition.applies u = .ok (p.applies u) := by
  have hnonempty : nonempty (some (p.hostname.getD "")) = nonempty p.hostname := by
    cases p.hostname <;> simp [nonempty]
  have haccepts : accepts p.condition.always (some p.condition.hostname) pattern u =
      accepts p.always p.hostname pattern u := by
    simp only [accepts, condition, hnonempty]
  rw [Condition.applies, hpattern, Result.ok_bind, haccepts, applies]
  cases hs : p.pattern with
  | none =>
    simp only [condition, Condition.regex?, hs, Option.getD_none, ↓reduceIte, Except.ok.injEq] at hpattern
    rw [← hpattern]
    rfl
  | some s =>
    have hne := (normalized_eq hp).2 s hs
    cases hparse : Regex.parse s with
    | error fault => simp [condition, Condition.regex?, hs, hne, hparse] at hpattern
    | ok r =>
      simp only [condition, Condition.regex?, hs, Option.getD_some, hne, ↓reduceIte, hparse,
        Except.ok.injEq] at hpattern
      simp only [← hpattern, hparse]
      rfl

theorem applies_condition (hp : p.Settled) : p.condition.applies u = .ok (p.applies u) := by
  obtain ⟨pattern, hpattern⟩ := condition_reads hp.valid
  exact applies_condition_of_reads hp.normalized hpattern

/-- The lookup by host passes over no condition that applies. -/
theorem mayApply_of_applies (hp : p.Settled) (h : p.applies u = true) :
    p.condition.mayApply (Database.hostOf u) = true := by
  have haccepts : ∃ pattern, accepts p.always p.hostname pattern u = true := by
    unfold applies at h
    cases hs : p.pattern with
    | none => exact ⟨none, by simpa [hs] using h⟩
    | some s =>
      cases hparse : Regex.parse s with
      | error fault => simp [hs, hparse] at h
      | ok r => exact ⟨some r, by simpa [hs, hparse] using h⟩
  obtain ⟨pattern, haccepts⟩ := haccepts
  unfold accepts at haccepts
  cases ha : p.always with
  | true => simp [Condition.mayApply, condition, ha]
  | false =>
    cases hh : p.hostname with
    | none => simp [Condition.mayApply, condition, ha, hh]
    | some s =>
      obtain ⟨hne, hlower⟩ := (normalized_eq hp.normalized).1 s hh
      have hsome : nonempty (some s) = some s := by simp [nonempty, Option.filter_some, hne]
      simp only [ha, hh, hsome, Bool.false_eq_true, ↓reduceIte, Option.isNone_some, Bool.false_and,
        Bool.and_eq_true] at haccepts
      cases hu : u.hostText? with
      | none => simp [hu] at haccepts
      | some host =>
        have hsame : Key.lower host = s := by simpa [hu, sameHost, hlower] using haccepts.1
        simp [Condition.mayApply, condition, ha, hh, Database.hostOf, hu, hsame]

end Predicate
end PagePipes
