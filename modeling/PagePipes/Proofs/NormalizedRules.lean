import PagePipes.Proofs.Predicates

set_option autoImplicit false

/-!
# Normalized rules

Lowering the hostname of a rule and dropping what is empty leaves it to apply to the same URLs, with
one exception. The empty pattern matches every URL, so a rule that asks for it and for nothing else
applies everywhere; without the pattern it asks for nothing, and such a rule applies nowhere.
-/
namespace PagePipes

theorem Regex.parse_empty : parse "" = .ok .empty := rfl

namespace Predicate

variable {p : Predicate} {u : Url}

/-- The predicate asks for the empty pattern and for nothing else. -/
structure Blank (p : Predicate) : Prop where
  always : p.always = false
  hostname : nonempty p.hostname = none
  pattern : p.pattern = some ""

theorem sameHost_lower (a b : String) : sameHost a (Key.lower b) = sameHost a b := by
  rw [sameHost, Key.lower_lower, sameHost]

theorem accepts_lowered (always : Bool) (hostname : Option String) (pattern : Option Regex) (u : Url) :
    accepts always ((nonempty hostname).map Key.lower) pattern u = accepts always hostname pattern u := by
  simp only [accepts, nonempty_lowered]
  cases nonempty hostname with
  | none => rfl
  | some host => simp only [Option.map_some, Option.isNone_some, sameHost_lower]

/-- The empty pattern restricts nothing, but it is something to ask for. -/
theorem accepts_empty (always : Bool) (hostname : Option String) (u : Url) :
    accepts always hostname (some .empty) u =
      (accepts always hostname none u || (nonempty hostname).isNone) := by
  simp only [accepts]
  cases always <;> cases nonempty hostname <;> simp [Regex.isMatch_empty]

theorem applies_of_pattern_eq_empty (h : p.pattern = some "") :
    p.applies u = accepts p.always p.hostname (some .empty) u := by
  simp only [applies, h, Regex.parse_empty]

theorem normalized_applies_of_pattern_eq_empty (h : p.pattern = some "") :
    p.normalized.applies u = accepts p.always p.hostname none u := by
  have hdropped : p.normalized.pattern = none := by simp [normalized, h, nonempty, Option.filter_some]
  simp only [applies, hdropped]
  exact accepts_lowered ..

/-- A pattern that is not empty is kept as it is. -/
theorem normalized_applies_of_pattern_ne_empty (h : p.pattern ≠ some "") :
    p.normalized.applies u = p.applies u := by
  have hkept : p.normalized.pattern = p.pattern := by
    unfold normalized
    cases hp : p.pattern with
    | none => rfl
    | some s =>
      have hne : s ≠ "" := fun hs => h (hs ▸ hp)
      simp [nonempty, Option.filter_some, hne]
  have haccepts : ∀ pattern, accepts p.normalized.always p.normalized.hostname pattern u =
      accepts p.always p.hostname pattern u := fun pattern => accepts_lowered ..
  simp only [applies, hkept, haccepts]

theorem Blank.applies (h : p.Blank) : p.applies u = true := by
  rw [applies_of_pattern_eq_empty h.pattern, accepts_empty, h.hostname]
  exact Bool.or_true _

theorem Blank.normalized_applies (h : p.Blank) : p.normalized.applies u = false := by
  rw [normalized_applies_of_pattern_eq_empty h.pattern]
  simp [accepts, h.always, h.hostname]

theorem normalized_applies (h : ¬ p.Blank) : p.normalized.applies u = p.applies u := by
  by_cases hp : p.pattern = some ""
  · rw [normalized_applies_of_pattern_eq_empty hp, applies_of_pattern_eq_empty hp, accepts_empty]
    by_cases halways : p.always = true
    · simp [accepts, halways]
    · have hhost : (nonempty p.hostname).isNone = false := by
        rw [Option.isNone_eq_false_iff, Option.isSome_iff_ne_none]
        exact fun hnone => h ⟨Bool.eq_false_iff.2 halways, hnone, hp⟩
      rw [hhost, Bool.or_false]
  · exact normalized_applies_of_pattern_ne_empty hp

/-- The stored pattern of a predicate is that of the normalized one. -/
theorem regex_condition_normalized (p : Predicate) :
    p.normalized.condition.regex? = p.condition.regex? := by
  have hpattern : p.normalized.condition.pattern = p.condition.pattern := by
    unfold normalized condition
    cases p.pattern with
    | none => rfl
    | some s => by_cases hs : s = "" <;> simp [nonempty, Option.filter_some, hs]
  rw [Condition.regex?, hpattern, Condition.regex?]

end Predicate

namespace Rule

variable {r : Rule}

/-- A rule that asks for the empty pattern at a host in capitals. -/
def capitalHost : Rule := { predicate := { hostname := some "Example.COM", pattern := some "" } }

end Rule
end PagePipes
