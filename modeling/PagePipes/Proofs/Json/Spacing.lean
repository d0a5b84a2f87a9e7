import PagePipes.Proofs.Json.Numerals

set_option autoImplicit false

/-!
# Blanks in written values

A value is written with blanks before its parts and after its colons, or without any. Both texts are
one text with other blanks, and the reader passes over blanks wherever a value, an item or a field may
start.
-/
namespace PagePipes

namespace Document

/-- Blanks, which the reader passes over. -/
def Blank (ws : List Char) : Prop := ∀ c ∈ ws, isSpace c = true

section blank

variable {ws cs rest : List Char} {fuel depth : Nat}

theorem skipSpace_blank (h : Blank ws) : skipSpace (ws ++ cs) = skipSpace cs := by
  induction ws with
  | nil => rfl
  | cons c ws ih =>
    obtain ⟨hc, hws⟩ := List.forall_mem_cons.1 h
    rw [List.cons_append, skipSpace, if_pos hc, ih hws]

theorem readValue_blank (h : Blank ws) : readValue fuel depth (ws ++ cs) = readValue fuel depth cs := by
  cases fuel with
  | zero => rfl
  | succ fuel => rw [readValue, readValue, skipSpace_blank h]

theorem readItems_blank (h : Blank ws) : readItems fuel depth (ws ++ cs) = readItems fuel depth cs := by
  cases fuel with
  | zero => rfl
  | succ fuel => rw [readItems, readItems, readValue_blank h]

theorem readFields_blank (h : Blank ws) :
    readFields fuel depth (ws ++ cs) = readFields fuel depth cs := by
  cases fuel with
  | zero => rfl
  | succ fuel => rw [readFields, readFields, skipSpace_blank h]

theorem endsNumber_nil : EndsNumber [] := by simp [EndsNumber]

theorem endsNumber_cons {c : Char} (h : c = ',' ∨ c = ']' ∨ c = '\x7d') : EndsNumber (c :: rest) := by
  rintro d ⟨⟩
  obtain rfl | rfl | rfl := h <;> decide

theorem endsNumber_blank (h : Blank ws) (hrest : EndsNumber rest) : EndsNumber (ws ++ rest) := by
  cases ws with
  | nil => exact hrest
  | cons c ws =>
    have hc := h c (by simp)
    simp only [isSpace, Bool.or_eq_true, beq_iff_eq] at hc
    rintro _ ⟨⟩
    obtain ((rfl | rfl) | rfl) | rfl := hc <;> decide

end blank
end Document

namespace Json

/-- The blanks of a written value: before each part and each closing bracket, by how deep it stands,
and after each colon. -/
structure Spacing where
  newLine : Nat → List Char
  space : List Char
  blank_newLine : ∀ n, Document.Blank (newLine n)
  blank_space : Document.Blank space

namespace Spacing

def compact : Spacing := ⟨fun _ => [], [], by simp [Document.Blank], by simp [Document.Blank]⟩

def pretty : Spacing where
  newLine := Json.newLine
  space := [' ']
  blank_newLine n c hc := by
    obtain rfl | hc := List.mem_cons.1 hc
    · rfl
    · rw [List.eq_of_mem_replicate hc]
      rfl
  blank_space := by simp [Document.Blank, Document.isSpace]

end Spacing

mutual

/-- The text of a value with blanks. -/
def spacedChars (s : Spacing) (indent : Nat) : Json → List Char
  | .arr [] => ['[', ']']
  | .arr items => '[' :: (spacedItems s (indent + 1) items ++ (s.newLine indent ++ [']']))
  | .obj [] => ['\x7b', '\x7d']
  | .obj fields => '\x7b' :: (spacedFields s (indent + 1) fields ++ (s.newLine indent ++ ['\x7d']))
  | .null => "null".toList
  | .bool b => (if b then "true" else "false").toList
  | .num n => (numberText n).toList
  | .str t => stringChars t

def spacedItems (s : Spacing) (indent : Nat) : List Json → List Char
  | [] => []
  | [j] => s.newLine indent ++ spacedChars s indent j
  | j :: rest => s.newLine indent ++ (spacedChars s indent j ++ (',' :: spacedItems s indent rest))

def spacedFields (s : Spacing) (indent : Nat) : List (String × Json) → List Char
  | [] => []
  | [(k, j)] => s.newLine indent ++ (stringChars k ++ (':' :: (s.space ++ spacedChars s indent j)))
  | (k, j) :: rest =>
    s.newLine indent ++ (stringChars k ++ (':' :: (s.space ++ (spacedChars s indent j ++
      (',' :: spacedFields s indent rest)))))

end

variable {s : Spacing} {indent : Nat}

theorem spacedChars_arr {j : Json} {items : List Json} : spacedChars s indent (.arr (j :: items)) =
    '[' :: (spacedItems s (indent + 1) (j :: items) ++ (s.newLine indent ++ [']'])) := rfl

theorem spacedChars_obj {f : String × Json} {fields : List (String × Json)} :
    spacedChars s indent (.obj (f :: fields)) =
      '\x7b' :: (spacedFields s (indent + 1) (f :: fields) ++ (s.newLine indent ++ ['\x7d'])) := rfl

theorem spacedItems_cons_cons {j k : Json} {items : List Json} :
    spacedItems s indent (j :: k :: items) =
      s.newLine indent ++ (spacedChars s indent j ++ (',' :: spacedItems s indent (k :: items))) := rfl

theorem spacedFields_cons_cons {k : String} {j : Json} {f : String × Json}
    {fields : List (String × Json)} : spacedFields s indent ((k, j) :: f :: fields) =
      s.newLine indent ++ (stringChars k ++ (':' :: (s.space ++ (spacedChars s indent j ++
        (',' :: spacedFields s indent (f :: fields)))))) := rfl

theorem compactItems_cons_cons {j k : Json} {items : List Json} :
    compactItems (j :: k :: items) = compactChars j ++ (',' :: compactItems (k :: items)) := by
  rw [compactItems]
  simp

theorem compactFields_cons_cons {k : String} {j : Json} {f : String × Json}
    {fields : List (String × Json)} : compactFields ((k, j) :: f :: fields) =
      stringChars k ++ (':' :: compactChars j) ++ (',' :: compactFields (f :: fields)) := by
  rw [compactFields]
  simp

mutual

theorem spacedChars_compact (indent : Nat) :
    (j : Json) → spacedChars .compact indent j = compactChars j
  | .null | .bool _ | .num _ | .str _ | .arr [] | .obj [] => rfl
  | .arr (j :: items) => by
    rw [spacedChars_arr, spacedItems_compact (indent + 1) (j :: items), compactChars]
    rfl
  | .obj (f :: fields) => by
    rw [spacedChars_obj, spacedFields_compact (indent + 1) (f :: fields), compactChars]
    rfl

theorem spacedItems_compact (indent : Nat) :
    (items : List Json) → spacedItems .compact indent items = compactItems items
  | [] => rfl
  | [j] => spacedChars_compact indent j
  | j :: k :: items => by
    rw [spacedItems_cons_cons, compactItems_cons_cons, spacedChars_compact indent j,
      spacedItems_compact indent (k :: items)]
    rfl

theorem spacedFields_compact (indent : Nat) :
    (fields : List (String × Json)) → spacedFields .compact indent fields = compactFields fields
  | [] => rfl
  | [(k, j)] => by
    rw [spacedFields, compactFields, spacedChars_compact indent j]
    rfl
  | (k, j) :: f :: fields => by
    rw [spacedFields_cons_cons, compactFields_cons_cons, spacedChars_compact indent j,
      spacedFields_compact indent (f :: fields)]
    simp [Spacing.compact]

end

mutual

theorem spacedChars_pretty (indent : Nat) :
    (j : Json) → spacedChars .pretty indent j = prettyChars indent j
  | .null | .bool _ | .num _ | .str _ | .arr [] | .obj [] => rfl
  | .arr (j :: items) => by
    rw [spacedChars_arr, spacedItems_pretty (indent + 1) (j :: items), prettyChars]
    · simp [Spacing.pretty]
    · simp
  | .obj (f :: fields) => by
    rw [spacedChars_obj, spacedFields_pretty (indent + 1) (f :: fields), prettyChars]
    · simp [Spacing.pretty]
    · simp

theorem spacedItems_pretty (indent : Nat) :
    (items : List Json) → spacedItems .pretty indent items = prettyItems indent items
  | [] => rfl
  | [j] => by
    rw [spacedItems, prettyItems, spacedChars_pretty indent j]
    rfl
  | j :: k :: items => by
    rw [spacedItems_cons_cons, prettyItems, spacedChars_pretty indent j,
      spacedItems_pretty indent (k :: items)]
    · simp [Spacing.pretty]
    · simp

theorem spacedFields_pretty (indent : Nat) :
    (fields : List (String × Json)) → spacedFields .pretty indent fields = prettyFields indent fields
  | [] => rfl
  | [(k, j)] => by
    rw [spacedFields, prettyFields, spacedChars_pretty indent j]
    simp [Spacing.pretty]
  | (k, j) :: f :: fields => by
    rw [spacedFields_cons_cons, prettyFields, spacedChars_pretty indent j,
      spacedFields_pretty indent (f :: fields)]
    · simp [Spacing.pretty]
    · simp

end

end Json
end PagePipes
