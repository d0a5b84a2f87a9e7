import PagePipes.Proofs.Json.Values

set_option autoImplicit false

/-!
# Compact text is read in one way

A text that begins with the compact text of a value begins with that of no other value: the first
character tells the kind of the value, the numeral of a number states the number, every escape is one
step of the reader, and a comma or a closing bracket tells whether another part follows. So compact
text is injective. A number that is not finite is written as null and is left out.
-/
namespace PagePipes

/-- A number that has a text of its own. -/
def Number.Finite : Number → Prop
  | .int _ => True
  | .float x => x.isFinite = true

namespace Json

mutual

/-- Every number inside the value is finite. -/
def Finite : Json → Prop
  | .num n => n.Finite
  | .arr items => FiniteItems items
  | .obj fields => FiniteFields fields
  | _ => True

def FiniteItems : List Json → Prop
  | [] => True
  | j :: rest => Finite j ∧ FiniteItems rest

def FiniteFields : List (String × Json) → Prop
  | [] => True
  | (_, j) :: rest => Finite j ∧ FiniteFields rest

end

variable {items : List Json} {fields : List (String × Json)}

theorem finiteItems_iff : FiniteItems items ↔ ∀ j ∈ items, j.Finite := by
  induction items with
  | nil => simp [FiniteItems]
  | cons j items ih => simp [FiniteItems, ih]

theorem finiteFields_iff : FiniteFields fields ↔ ∀ f ∈ fields, f.2.Finite := by
  induction fields with
  | nil => simp [FiniteFields]
  | cons f fields ih => simp [FiniteFields, ih]

end Json

namespace Document

/-! ## Numbers -/

section number

variable {a b : Number} {n : Numeral} {rest rest' : List Char}

/-- The numeral states the number exactly, not only up to rounding. -/
def States (n : Numeral) : Number → Prop
  | .int i => n = ⟨decide (i < 0), Nat.toDigits 10 i.natAbs, [], none⟩
  | .float x => n.IsDecimal ∧ n.negative = x.isNegative ∧
      (n.significand : ℚ) * 10 ^ n.scale = Decimal.Shortest.decimalValue x

theorem exists_states (h : a.Finite) :
    ∃ n, Spells (Json.numberText a).toList n ∧ States n a := by
  cases a with
  | int i => exact ⟨_, spells_int i, rfl⟩
  | float x =>
    obtain ⟨s, e, ⟨n, hn, hdecimal, hsign, rfl, rfl⟩, hvalue, -⟩ := spells_float h
    exact ⟨n, hn, hdecimal, hsign, hvalue⟩

theorem States.unique (ha : a.Finite) (hb : b.Finite) (h : States n a) (h' : States n b) : a = b := by
  cases a with
  | int i =>
    have hi : n = ⟨decide (i < 0), Nat.toDigits 10 i.natAbs, [], none⟩ := h
    cases b with
    | int j =>
      obtain ⟨hsign, hdigits, -⟩ := (Numeral.mk.injEq ..).mp (hi.symm.trans h')
      have habs : i.natAbs = j.natAbs := by
        rw [← digitsValue_toDigits i.natAbs, hdigits, digitsValue_toDigits]
      rw [decide_eq_decide] at hsign
      congr 1
      omega
    | float y =>
      have hdecimal := h'.1
      simp [hi, Numeral.IsDecimal] at hdecimal
  | float x =>
    obtain ⟨hdecimal, hsign, hvalue⟩ := h
    cases b with
    | int j =>
      have hj : n = ⟨decide (j < 0), Nat.toDigits 10 j.natAbs, [], none⟩ := h'
      simp [hj, Numeral.IsDecimal] at hdecimal
    | float y =>
      rw [Decimal.Shortest.eq_of_decimalValue ha hb (hsign.symm.trans h'.2.1)
        (hvalue.symm.trans h'.2.2)]

/-- Different finite numbers have different texts, and neither is the beginning of the other in front
of what ends a number. -/
theorem numberText_append_inj (ha : a.Finite) (hb : b.Finite) (hrest : EndsNumber rest)
    (hrest' : EndsNumber rest')
    (h : (Json.numberText a).toList ++ rest = (Json.numberText b).toList ++ rest') :
    a = b ∧ rest = rest' := by
  obtain ⟨n, hn, hstates⟩ := exists_states ha
  obtain ⟨n', hn', hstates'⟩ := exists_states hb
  have hread := hn rest hrest
  rw [h, hn' rest' hrest', Option.some.injEq, Prod.mk.injEq] at hread
  obtain ⟨rfl, rfl⟩ := hread
  exact ⟨hstates.unique ha hb hstates', rfl⟩

end number

end Document

namespace Json
open Document

variable {j j' : Json} {items items' : List Json} {fields fields' : List (String × Json)}
  {rest rest' : List Char}

/-! ## Texts -/

theorem stringChars_append_inj {s s' : String}
    (h : stringChars s ++ rest = stringChars s' ++ rest') : s = s' ∧ rest = rest' := by
  obtain ⟨fuel, hfuel⟩ : ∃ fuel, fuel = s.toList.length + s'.toList.length + 1 := ⟨_, rfl⟩
  simp only [stringChars, List.cons_append, List.cons.injEq, true_and, List.append_assoc,
    List.nil_append] at h
  have hread := @readText_escaped s.toList [] rest fuel (by omega)
  rw [h, @readText_escaped s'.toList [] rest' fuel (by omega)] at hread
  simpa [eq_comm] using hread

/-! ## Values -/

/-- The kind of a value, as its first character tells it. -/
inductive Shape
  | null
  | bool (value : Bool)
  | number
  | text
  | array
  | object

def shape : Json → Shape
  | .null => .null
  | .bool b => .bool b
  | .num _ => .number
  | .str _ => .text
  | .arr _ => .array
  | .obj _ => .object

def shapeOf (c : Char) : Shape :=
  if c = 'n' then .null
  else if c = 't' then .bool true
  else if c = 'f' then .bool false
  else if c = '"' then .text
  else if c = '[' then .array
  else if c = '\x7b' then .object
  else .number

theorem shapeOf_number {c : Char} (h : c = '-' ∨ isDigit c = true) : shapeOf c = .number := by
  have hne : ∀ {d : Char}, isDigit d = false → d ≠ '-' → c ≠ d := by
    rintro d hdigit hminus rfl
    simp [hdigit, hminus] at h
  simp [shapeOf, hne (d := 'n') (by decide) (by decide), hne (d := 't') (by decide) (by decide),
    hne (d := 'f') (by decide) (by decide), hne (d := '"') (by decide) (by decide),
    hne (d := '[') (by decide) (by decide), hne (d := '\x7b') (by decide) (by decide)]

theorem shapeOf_head (h : j.Finite) :
    ∃ c cs, compactChars j = c :: cs ∧ shapeOf c = j.shape ∧ c ≠ ']' := by
  cases j with
  | null => exact ⟨_, _, rfl, rfl, by decide⟩
  | bool b => cases b <;> exact ⟨_, _, rfl, rfl, by decide⟩
  | str s => exact ⟨_, _, rfl, rfl, by decide⟩
  | arr items => exact ⟨_, _, rfl, rfl, by decide⟩
  | obj fields => exact ⟨_, _, rfl, rfl, by decide⟩
  | num n =>
    obtain ⟨m, hm, -⟩ := exists_states h
    obtain ⟨c, cs, htext, hc⟩ := hm.head
    refine ⟨c, cs, htext, shapeOf_number hc, ?_⟩
    rintro rfl
    simp [isDigit] at hc

/-- What follows an item: the closing bracket, or a comma and the other items. -/
def afterItem (items : List Json) (rest : List Char) : List Char :=
  if items = [] then ']' :: rest else ',' :: (compactItems items ++ ']' :: rest)

theorem compactItems_append : compactItems (j :: items) ++ ']' :: rest =
    compactChars j ++ afterItem items rest := by
  cases items with
  | nil => simp [compactItems, afterItem]
  | cons k items => simp [compactItems_cons_cons, afterItem]

theorem endsNumber_afterItem : EndsNumber (afterItem items rest) := by
  unfold afterItem
  split
  · exact endsNumber_cons (by simp)
  · exact endsNumber_cons (by simp)

def afterField (fields : List (String × Json)) (rest : List Char) : List Char :=
  if fields = [] then '\x7d' :: rest else ',' :: (compactFields fields ++ '\x7d' :: rest)

theorem compactFields_append {f : String × Json} :
    compactFields (f :: fields) ++ '\x7d' :: rest =
      stringChars f.1 ++ (':' :: (compactChars f.2 ++ afterField fields rest)) := by
  obtain ⟨k, j⟩ := f
  cases fields with
  | nil => simp [compactFields, afterField]
  | cons g fields => simp [compactFields_cons_cons, afterField]

theorem endsNumber_afterField : EndsNumber (afterField fields rest) := by
  unfold afterField
  split
  · exact endsNumber_cons (by simp)
  · exact endsNumber_cons (by simp)

/-- A text begins with the compact text of this value or of another one, not of both. -/
def ReadOneWay (j : Json) : Prop :=
  ∀ (j' : Json) (rest rest' : List Char), j'.Finite → EndsNumber rest → EndsNumber rest' →
    compactChars j ++ rest = compactChars j' ++ rest' → j = j' ∧ rest = rest'

theorem compactItems_append_inj (hitems : ∀ j ∈ items, j.Finite ∧ j.ReadOneWay)
    (hitems' : ∀ j ∈ items', j.Finite)
    (h : compactItems items ++ ']' :: rest = compactItems items' ++ ']' :: rest') :
    items = items' ∧ rest = rest' := by
  induction items generalizing items' with
  | nil =>
    cases items' with
    | nil => simpa [compactItems] using h
    | cons j' items' =>
      obtain ⟨c, cs, htext, -, hc⟩ := shapeOf_head (hitems' j' (by simp))
      rw [compactItems_append, htext] at h
      exact absurd (List.cons.inj h).1.symm hc
  | cons j items ih =>
    obtain ⟨⟨hj, hunique⟩, hitems⟩ := List.forall_mem_cons.1 hitems
    cases items' with
    | nil =>
      obtain ⟨c, cs, htext, -, hc⟩ := shapeOf_head hj
      rw [compactItems_append, htext] at h
      exact absurd (List.cons.inj h).1 hc
    | cons j' items' =>
      obtain ⟨hj', htail'⟩ := List.forall_mem_cons.1 hitems'
      rw [compactItems_append, compactItems_append] at h
      obtain ⟨rfl, hafter⟩ := hunique j' _ _ hj' endsNumber_afterItem endsNumber_afterItem h
      -- both lists end here, or both go on
      unfold afterItem at hafter
      split_ifs at hafter with hnil hnil' hnil'
      · rw [hnil, hnil']
        simpa using hafter
      · simp at hafter
      · simp at hafter
      · obtain ⟨rfl, rfl⟩ := ih hitems htail' (List.cons.inj hafter).2
        exact ⟨rfl, rfl⟩

theorem compactFields_append_inj (hfields : ∀ f ∈ fields, f.2.Finite ∧ f.2.ReadOneWay)
    (hfields' : ∀ f ∈ fields', f.2.Finite)
    (h : compactFields fields ++ '\x7d' :: rest = compactFields fields' ++ '\x7d' :: rest') :
    fields = fields' ∧ rest = rest' := by
  induction fields generalizing fields' with
  | nil =>
    cases fields' with
    | nil => simpa [compactFields] using h
    | cons f' fields' =>
      rw [compactFields_append] at h
      simp [compactFields, stringChars] at h
  | cons f fields ih =>
    obtain ⟨⟨hf, hunique⟩, hfields⟩ := List.forall_mem_cons.1 hfields
    cases fields' with
    | nil =>
      rw [compactFields_append] at h
      simp [compactFields, stringChars] at h
    | cons f' fields' =>
      obtain ⟨hf', htail'⟩ := List.forall_mem_cons.1 hfields'
      rw [compactFields_append, compactFields_append] at h
      obtain ⟨hkey, h⟩ := stringChars_append_inj h
      obtain ⟨hvalue, hafter⟩ := hunique f'.2 _ _ hf' endsNumber_afterField endsNumber_afterField
        (List.cons.inj h).2
      obtain rfl : f = f' := Prod.ext hkey hvalue
      unfold afterField at hafter
      split_ifs at hafter with hnil hnil' hnil'
      · rw [hnil, hnil']
        simpa using hafter
      · simp at hafter
      · simp at hafter
      · obtain ⟨rfl, rfl⟩ := ih hfields htail' (List.cons.inj hafter).2
        exact ⟨rfl, rfl⟩

theorem shape_eq_of_append (hj : j.Finite) (hj' : j'.Finite)
    (h : compactChars j ++ rest = compactChars j' ++ rest') : j.shape = j'.shape := by
  obtain ⟨c, cs, htext, hc, -⟩ := shapeOf_head hj
  obtain ⟨c', cs', htext', hc', -⟩ := shapeOf_head hj'
  rw [htext, htext'] at h
  rw [← hc, ← hc', (List.cons.inj h).1]

theorem readOneWay (hj : j.Finite) : j.ReadOneWay := by
  induction j using induct with
  | null =>
    intro j' rest rest' hj' hrest hrest' h
    have hshape := shape_eq_of_append hj hj' h
    cases j' <;> cases hshape
    exact ⟨rfl, List.append_cancel_left h⟩
  | bool b =>
    intro j' rest rest' hj' hrest hrest' h
    have hshape := shape_eq_of_append hj hj' h
    cases j' <;> cases hshape
    exact ⟨rfl, List.append_cancel_left h⟩
  | num n =>
    intro j' rest rest' hj' hrest hrest' h
    have hshape := shape_eq_of_append hj hj' h
    cases j' <;> cases hshape
    obtain ⟨rfl, rfl⟩ := numberText_append_inj hj hj' hrest hrest' h
    exact ⟨rfl, rfl⟩
  | str s =>
    intro j' rest rest' hj' hrest hrest' h
    have hshape := shape_eq_of_append hj hj' h
    cases j' <;> cases hshape
    obtain ⟨rfl, rfl⟩ := stringChars_append_inj h
    exact ⟨rfl, rfl⟩
  | arr items ih =>
    intro j' rest rest' hj' hrest hrest' h
    have hshape := shape_eq_of_append hj hj' h
    cases j' <;> cases hshape
    have hitems := finiteItems_iff.1 hj
    simp only [compactChars, List.cons_append, List.append_assoc, List.nil_append] at h
    obtain ⟨rfl, rfl⟩ := compactItems_append_inj
      (fun j hmem => ⟨hitems j hmem, ih j hmem (hitems j hmem)⟩) (finiteItems_iff.1 hj')
      (List.cons.inj h).2
    exact ⟨rfl, rfl⟩
  | obj fields ih =>
    intro j' rest rest' hj' hrest hrest' h
    have hshape := shape_eq_of_append hj hj' h
    cases j' <;> cases hshape
    have hfields := finiteFields_iff.1 hj
    simp only [compactChars, List.cons_append, List.append_assoc, List.nil_append] at h
    obtain ⟨rfl, rfl⟩ := compactFields_append_inj
      (fun f hmem => ⟨hfields f hmem, ih f hmem (hfields f hmem)⟩) (finiteFields_iff.1 hj')
      (List.cons.inj h).2
    exact ⟨rfl, rfl⟩

/-- Values of finite numbers with one compact text are equal. -/
theorem compact_injective (hj : j.Finite) (hj' : j'.Finite) (h : j.compact = j'.compact) :
    j = j' := by
  have hchars : compactChars j ++ [] = compactChars j' ++ [] := by
    rw [List.append_nil, List.append_nil]
    exact String.ofList_injective h
  exact (readOneWay hj j' [] [] hj' endsNumber_nil endsNumber_nil hchars).1

end Json
end PagePipes
