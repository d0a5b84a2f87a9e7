import PagePipes.Proofs.Json.Spacing

set_option autoImplicit false

/-!
# Written values are read

Reading the text of a value, compact or with line breaks, gives the document of the value, up to its
floats and to what is nested too deeply in it. Every escape is one step of the reader, and every part
of a value is followed by a comma, by a closing bracket, by blanks or by nothing, none of which goes
on with a number.
-/
namespace PagePipes

namespace Json

mutual

/-- How many containers stand inside one another. -/
def depth : Json → Nat
  | .arr items => depthItems items + 1
  | .obj fields => depthFields fields + 1
  | _ => 0

def depthItems : List Json → Nat
  | [] => 0
  | j :: rest => max (depth j) (depthItems rest)

def depthFields : List (String × Json) → Nat
  | [] => 0
  | (_, j) :: rest => max (depth j) (depthFields rest)

end

mutual

/-- Every integer inside the value fits in 64 bits. -/
def Readable : Json → Prop
  | .num n => n.Fits
  | .arr items => ReadableItems items
  | .obj fields => ReadableFields fields
  | _ => True

def ReadableItems : List Json → Prop
  | [] => True
  | j :: rest => Readable j ∧ ReadableItems rest

def ReadableFields : List (String × Json) → Prop
  | [] => True
  | (_, j) :: rest => Readable j ∧ ReadableFields rest

end

mutual

/-- What the value is read as after it has been written. -/
def reread : Json → Json
  | .num n => n.reread
  | .arr items => .arr (rereadItems items)
  | .obj fields => .obj (rereadFields fields)
  | j => j

def rereadItems : List Json → List Json
  | [] => []
  | j :: rest => reread j :: rereadItems rest

def rereadFields : List (String × Json) → List (String × Json)
  | [] => []
  | (k, j) :: rest => (k, reread j) :: rereadFields rest

end

end Json

namespace Document

/-! ## Texts -/

section text

variable {c : Char} {cs seen rest : List Char}

theorem readHex4_fixed {n : Nat} (h : n < 32) :
    readHex4 (Text.Hex.fixed 4 n ++ rest) = some (n, rest) := by
  interval_cases n <;> rfl

theorem textStep_unit (h : c.toNat < 32) :
    textStep ('\\' :: 'u' :: (Text.Hex.fixed 4 c.toNat ++ rest)) = .char (some c) rest := by
  have hhigh : isHighSurrogate c.toNat = false := by
    simp only [isHighSurrogate, decide_eq_false_iff_not]
    omega
  have hlow : isLowSurrogate c.toNat = false := by
    simp only [isLowSurrogate, decide_eq_false_iff_not]
    omega
  simp [textStep, readHex4_fixed h, unitStep, hhigh, hlow, Char.ofNat_toNat]

theorem textStep_plain (hquote : c ≠ '"') (hslash : c ≠ '\\') (h : ¬ c.toNat < 32) :
    textStep (c :: rest) = .char (some c) rest := by
  simp [textStep, hslash, h]

/-- Whatever a character is written as is read in one step. -/
theorem textStep_escapeChar : textStep (Json.escapeChar c ++ rest) = .char (some c) rest := by
  unfold Json.escapeChar
  split_ifs with hquote hslash hline hreturn htab hback hform hunit
  · rw [hquote]; rfl
  · rw [hslash]; rfl
  · rw [hline]; rfl
  · rw [hreturn]; rfl
  · rw [htab]; rfl
  · rw [hback]; rfl
  · rw [hform]; rfl
  · exact textStep_unit hunit
  · exact textStep_plain hquote hslash hunit

theorem readText_escaped (fuel : Nat) (h : cs.length < fuel) :
    readText fuel (cs.flatMap Json.escapeChar ++ '"' :: rest) (some seen) =
      some (some (String.ofList (seen.reverse ++ cs)), rest) := by
  induction cs generalizing fuel seen with
  | nil =>
    obtain ⟨fuel, rfl⟩ := Nat.exists_eq_add_of_lt h
    simp [readText, textStep]
  | cons c cs ih =>
    obtain ⟨fuel, rfl⟩ : ∃ n, fuel = n + 1 := ⟨fuel - 1, by omega⟩
    rw [List.flatMap_cons, List.append_assoc, readText, textStep_escapeChar]
    dsimp only [Option.map_some]
    rw [ih fuel (by simpa using h)]
    simp

end text

/-! ## Values -/

/-- A container inside so many others, as it is read. -/
def nested (depth : Nat) (container : Document) : Document :=
  if depth + 1 < depthLimit then container else .deep true

mutual

/-- The document of a value inside so many containers. -/
def ofJsonAt (depth : Nat) : Json → Document
  | .null => .null
  | .bool b => .bool b
  | .num n => .number (some n)
  | .str s => .text (some s)
  | .arr items => nested depth (.array (ofItemsAt (depth + 1) items) true)
  | .obj fields => nested depth (.object (ofFieldsAt (depth + 1) fields) true)

def ofItemsAt (depth : Nat) : List Json → List Document
  | [] => []
  | j :: rest => ofJsonAt depth j :: ofItemsAt depth rest

def ofFieldsAt (depth : Nat) : List (String × Json) → List (Option String × Document)
  | [] => []
  | (k, j) :: rest => (some k, ofJsonAt depth j) :: ofFieldsAt depth rest

end

section value

variable {fuel depth indent : Nat} {c : Char} {ws cs rest : List Char} {j : Json} {s : Json.Spacing}

theorem skipSpace_of_head (h : isSpace c = false) : skipSpace (c :: cs) = c :: cs := by
  simp [skipSpace, h]

theorem Denotes.readValue {text : List Char} {v : Number} (h : Denotes text v)
    (hrest : EndsNumber rest) :
    readValue (fuel + 1) depth (text ++ rest) = (.number (some v), some rest) := by
  obtain ⟨n, hn, hvalue⟩ := h rest hrest
  obtain ⟨c, cs, rfl, hc⟩ := h.head
  have hcs : ∀ {d : Char}, isDigit d = false → d ≠ '-' → c ≠ d := by
    rintro d hdigit hminus rfl
    simp [hdigit, hminus] at hc
  have hspace : isSpace c = false := by
    simp [isSpace, hcs (d := ' ') (by decide) (by decide), hcs (d := '\n') (by decide) (by decide),
      hcs (d := '\t') (by decide) (by decide), hcs (d := '\r') (by decide) (by decide)]
  rw [List.cons_append] at hn ⊢
  rw [Document.readValue, skipSpace_of_head hspace]
  split
  · next heq => exact absurd (List.cons.inj heq).1 (hcs (by decide) (by decide))
  · next heq => exact absurd (List.cons.inj heq).1 (hcs (by decide) (by decide))
  · next heq => exact absurd (List.cons.inj heq).1 (hcs (by decide) (by decide))
  · next heq => exact absurd (List.cons.inj heq).1 (hcs (by decide) (by decide))
  · next heq => exact absurd (List.cons.inj heq).1 (hcs (by decide) (by decide))
  · next heq => exact absurd (List.cons.inj heq).1 (hcs (by decide) (by decide))
  · simp [hn, hvalue]

theorem denotes_of_fits {n : Number} (h : n.Fits) (hnull : n.reread ≠ .null) :
    ∃ v, n.reread = .num v ∧ Denotes (Json.numberText n).toList v := by
  cases n with
  | int n => exact ⟨_, rfl, denotes_int h⟩
  | float x =>
    cases hx : x.isFinite with
    | true => exact Number.reread_float hx
    | false => exact absurd (by simp [Number.reread, hx]) hnull

/-- A number is written as null when it is read as null. -/
theorem numberText_null {n : Number} (h : n.reread = .null) : Json.numberText n = "null" := by
  cases n with
  | int n => cases h
  | float x =>
    cases hx : x.isFinite with
    | true =>
      obtain ⟨v, hv, -⟩ := Number.reread_float hx
      rw [hv] at h
      cases h
    | false => simp [Json.numberText, hx]

theorem head_spacedChars (h : j.Readable) :
    ∃ c cs, Json.spacedChars s indent j = c :: cs ∧ isSpace c = false ∧ c ≠ ']' := by
  cases j with
  | null => exact ⟨_, _, rfl, by decide, by decide⟩
  | bool b => cases b <;> exact ⟨_, _, rfl, by decide, by decide⟩
  | str s => exact ⟨_, _, rfl, by decide, by decide⟩
  | arr items => cases items <;> exact ⟨_, _, rfl, by decide, by decide⟩
  | obj fields => cases fields <;> exact ⟨_, _, rfl, by decide, by decide⟩
  | num n =>
    rw [Json.spacedChars]
    by_cases hnull : n.reread = .null
    · rw [numberText_null hnull]
      exact ⟨_, _, rfl, by decide, by decide⟩
    · obtain ⟨v, -, hv⟩ := denotes_of_fits h hnull
      obtain ⟨c, cs, htext, rfl | hc⟩ := hv.head
      · exact ⟨_, cs, htext, by decide, by decide⟩
      · refine ⟨c, cs, htext, ?_, ?_⟩
        · rw [Bool.eq_false_iff]
          intro hspace
          simp only [isSpace, Bool.or_eq_true, beq_iff_eq] at hspace
          obtain ((rfl | rfl) | rfl) | rfl := hspace <;> exact absurd hc (by decide)
        · rintro rfl
          exact absurd hc (by decide)

section steps

variable {d : Document} {ds : List Document} {key : String} {fs : List (Option String × Document)}

-- Each of these steps opens one equation of the reader.
attribute [local simp] readValue readItems readFields

theorem readValue_null : readValue (fuel + 1) depth ("null".toList ++ rest) = (.null, some rest) := by
  simp [skipSpace, isSpace, word, expect?]

theorem readValue_bool (b : Bool) :
    readValue (fuel + 1) depth ((if b then "true" else "false").toList ++ rest) =
      (.bool b, some rest) := by
  cases b <;> simp [skipSpace, isSpace, word, expect?]

theorem readValue_string {s : String} (hfuel : s.toList.length < fuel) :
    readValue (fuel + 1) depth (Json.stringChars s ++ rest) = (.text (some s), some rest) := by
  have htext := @readText_escaped s.toList [] rest fuel hfuel
  rw [Json.stringChars, List.cons_append, List.append_assoc, List.singleton_append, readValue,
    skipSpace_of_head (by decide)]
  simp only [htext, List.reverse_nil, List.nil_append, String.ofList_toList]

theorem readValue_array (hws : Blank ws) (hspace : isSpace c = false) (hc : c ≠ ']')
    (h : readItems fuel (depth + 1) (ws ++ c :: cs) = (ds, some rest)) :
    readValue (fuel + 1) depth ('[' :: (ws ++ c :: cs)) = (nested depth (.array ds true), some rest) := by
  rw [readItems_blank hws] at h
  rw [readValue, skipSpace_of_head (by decide)]
  simp [skipSpace_blank hws, skipSpace_of_head hspace, hc, h, nested]

theorem readValue_object (hws : Blank ws)
    (h : readFields fuel (depth + 1) (ws ++ '"' :: cs) = (fs, some rest)) :
    readValue (fuel + 1) depth ('\x7b' :: (ws ++ '"' :: cs)) =
      (nested depth (.object fs true), some rest) := by
  have hquote : skipSpace ('"' :: cs) = '"' :: cs := skipSpace_of_head (by decide)
  rw [readFields_blank hws] at h
  rw [readValue, skipSpace_of_head (by decide)]
  simp [skipSpace_blank hws, hquote, h, nested]

theorem readValue_empty :
    readValue (fuel + 1) depth ('[' :: ']' :: rest) = (nested depth (.array [] true), some rest) ∧
      readValue (fuel + 1) depth ('\x7b' :: '\x7d' :: rest) =
        (nested depth (.object [] true), some rest) := by
  simp [skipSpace, isSpace, nested]

theorem readItems_last (hws : Blank ws)
    (h : readValue fuel depth cs = (d, some (ws ++ ']' :: rest))) :
    readItems (fuel + 1) depth cs = ([d], some rest) := by
  simp [h, skipSpace_blank hws, skipSpace, isSpace]

theorem readItems_next {more : List Char} (hws : Blank ws)
    (h : readValue fuel depth cs = (d, some (',' :: (ws ++ c :: more))))
    (hspace : isSpace c = false) (hc : c ≠ ']')
    (hmore : readItems fuel depth (ws ++ c :: more) = (ds, some rest)) :
    readItems (fuel + 1) depth cs = (d :: ds, some rest) := by
  have hcomma : skipSpace (',' :: (ws ++ c :: more)) = ',' :: (ws ++ c :: more) :=
    skipSpace_of_head (by decide)
  rw [readItems_blank hws] at hmore
  simp [h, hcomma, skipSpace_blank hws, skipSpace_of_head hspace, hc, hmore]

theorem readFields_last (hkey : key.toList.length < fuel) (hws : Blank ws)
    (h : readValue fuel depth cs = (d, some (ws ++ '\x7d' :: rest))) :
    readFields (fuel + 1) depth (Json.stringChars key ++ ':' :: cs) = ([(some key, d)], some rest) := by
  have htext := @readText_escaped key.toList [] (':' :: cs) fuel hkey
  rw [Json.stringChars, List.cons_append, List.append_assoc, List.singleton_append, readFields,
    skipSpace_of_head (by decide)]
  simp [htext, skipSpace_blank hws, skipSpace, isSpace, h]

theorem readFields_next {more : List Char} (hkey : key.toList.length < fuel) (hws : Blank ws)
    (h : readValue fuel depth cs = (d, some (',' :: (ws ++ '"' :: more))))
    (hmore : readFields fuel depth (ws ++ '"' :: more) = (fs, some rest)) :
    readFields (fuel + 1) depth (Json.stringChars key ++ ':' :: cs) =
      ((some key, d) :: fs, some rest) := by
  have htext := @readText_escaped key.toList [] (':' :: cs) fuel hkey
  rw [readFields_blank hws] at hmore
  rw [Json.stringChars, List.cons_append, List.append_assoc, List.singleton_append, readFields,
    skipSpace_of_head (by decide)]
  simp [htext, skipSpace_blank hws, skipSpace, isSpace, h, hmore]

end steps

theorem length_stringChars (s : String) : s.toList.length + 2 ≤ (Json.stringChars s).length := by
  have hescape : ∀ c : Char, 1 ≤ (Json.escapeChar c).length := by
    intro c
    unfold Json.escapeChar
    split_ifs <;> simp
  have hall : ∀ cs : List Char, cs.length ≤ (cs.flatMap Json.escapeChar).length := by
    intro cs
    induction cs with
    | nil => simp
    | cons c cs ih =>
      have := hescape c
      simp only [List.flatMap_cons, List.length_append, List.length_cons]
      omega
  have := hall s.toList
  simp only [Json.stringChars, List.length_cons, List.length_append, List.length_nil]
  omega

theorem head_spacedItems {items : List Json} (h : j.Readable) :
    ∃ c cs, Json.spacedItems s indent (j :: items) = s.newLine indent ++ c :: cs ∧
      isSpace c = false ∧ c ≠ ']' := by
  obtain ⟨c, cs, hhead, hspace, hc⟩ := @head_spacedChars indent j s h
  cases items with
  | nil => exact ⟨c, cs, by rw [Json.spacedItems, hhead], hspace, hc⟩
  | cons k items =>
    refine ⟨c, cs ++ ',' :: Json.spacedItems s indent (k :: items), ?_, hspace, hc⟩
    rw [Json.spacedItems_cons_cons, hhead, List.cons_append]

theorem head_spacedFields {k : String} {fields : List (String × Json)} :
    ∃ cs, Json.spacedFields s indent ((k, j) :: fields) = s.newLine indent ++ '"' :: cs := by
  cases fields with
  | nil => exact ⟨_, rfl⟩
  | cons f fields => exact ⟨_, rfl⟩

end value

-- by recursion on the value; what follows a part of it is known to end a number
mutual

theorem readValue_spaced (s : Json.Spacing) (j : Json) (hj : j.Readable) (fuel indent depth : Nat)
    (rest : List Char) (hfuel : (Json.spacedChars s indent j).length ≤ fuel) (hrest : EndsNumber rest) :
    readValue fuel depth (Json.spacedChars s indent j ++ rest) = (ofJsonAt depth j.reread, some rest) := by
  obtain ⟨fuel, rfl⟩ : ∃ n, fuel = n + 1 := by
    obtain ⟨c, cs, hhead, -, -⟩ := @head_spacedChars indent j s hj
    rw [hhead, List.length_cons] at hfuel
    exact ⟨fuel - 1, by omega⟩
  match j with
  | .null => exact readValue_null
  | .bool b => exact readValue_bool b
  | .num n =>
    rw [Json.spacedChars, Json.reread]
    by_cases hnull : n.reread = .null
    · rw [numberText_null hnull, hnull]
      exact readValue_null
    · obtain ⟨v, hv, hdenotes⟩ := denotes_of_fits hj hnull
      rw [hv]
      exact hdenotes.readValue hrest
  | .str t =>
    have hlength := length_stringChars t
    rw [Json.spacedChars] at hfuel ⊢
    exact readValue_string (by omega)
  | .arr [] => exact readValue_empty.1
  | .arr (i :: items) =>
    rw [Json.spacedChars_arr] at hfuel ⊢
    simp only [List.length_cons, List.length_append, List.length_nil] at hfuel
    have hitems := readItems_spaced s (i :: items) (by simp) hj fuel (indent + 1) indent (depth + 1) rest
      (by omega)
    obtain ⟨c, cs, hhead, hspace, hc⟩ := @head_spacedItems (indent + 1) i s items hj.1
    rw [Json.reread, ofJsonAt]
    rw [hhead, List.append_assoc] at hitems
    rw [hhead]
    simpa using readValue_array (s.blank_newLine _) hspace hc hitems
  | .obj [] => exact readValue_empty.2
  | .obj ((k, i) :: fields) =>
    rw [Json.spacedChars_obj] at hfuel ⊢
    simp only [List.length_cons, List.length_append, List.length_nil] at hfuel
    have hfields := readFields_spaced s ((k, i) :: fields) (by simp) hj fuel (indent + 1) indent
      (depth + 1) rest (by omega)
    obtain ⟨cs, hhead⟩ := @head_spacedFields (indent + 1) i s k fields
    rw [Json.reread, ofJsonAt]
    rw [hhead, List.append_assoc] at hfields
    rw [hhead]
    simpa using readValue_object (s.blank_newLine _) hfields

theorem readItems_spaced (s : Json.Spacing) (items : List Json) (hne : items ≠ [])
    (hitems : Json.ReadableItems items) (fuel indent outer depth : Nat) (rest : List Char)
    (hfuel : (Json.spacedItems s indent items).length < fuel) :
    readItems fuel depth (Json.spacedItems s indent items ++ (s.newLine outer ++ ']' :: rest)) =
      (ofItemsAt depth (Json.rereadItems items), some rest) := by
  obtain ⟨fuel, rfl⟩ : ∃ n, fuel = n + 1 := ⟨fuel - 1, by omega⟩
  match items with
  | [] => exact absurd rfl hne
  | [j] =>
    rw [Json.spacedItems] at hfuel ⊢
    rw [List.length_append] at hfuel
    rw [List.append_assoc, readItems_blank (s.blank_newLine _)]
    exact readItems_last (s.blank_newLine outer) (readValue_spaced s j hitems.1 _ _ _ _ (by omega)
      (endsNumber_blank (s.blank_newLine outer) (endsNumber_cons (by simp))))
  | j :: k :: more =>
    rw [Json.spacedItems_cons_cons] at hfuel ⊢
    simp only [List.length_cons, List.length_append] at hfuel
    have hmore := readItems_spaced s (k :: more) (by simp) hitems.2 fuel indent outer depth rest (by omega)
    obtain ⟨c, cs, hhead, hspace, hc⟩ := @head_spacedItems indent k s more hitems.2.1
    rw [hhead, List.append_assoc] at hmore
    rw [hhead, List.append_assoc, readItems_blank (s.blank_newLine _)]
    have hvalue := readValue_spaced s j hitems.1 fuel indent depth
      (',' :: (s.newLine indent ++ c :: (cs ++ (s.newLine outer ++ ']' :: rest)))) (by omega)
      (endsNumber_cons (by simp))
    rw [Json.rereadItems, ofItemsAt]
    simpa using readItems_next (s.blank_newLine indent) hvalue hspace hc hmore

theorem readFields_spaced (s : Json.Spacing) (fields : List (String × Json)) (hne : fields ≠ [])
    (hfields : Json.ReadableFields fields) (fuel indent outer depth : Nat) (rest : List Char)
    (hfuel : (Json.spacedFields s indent fields).length < fuel) :
    readFields fuel depth (Json.spacedFields s indent fields ++ (s.newLine outer ++ '\x7d' :: rest)) =
      (ofFieldsAt depth (Json.rereadFields fields), some rest) := by
  obtain ⟨fuel, rfl⟩ : ∃ n, fuel = n + 1 := ⟨fuel - 1, by omega⟩
  match fields with
  | [] => exact absurd rfl hne
  | [(k, j)] =>
    rw [Json.spacedFields] at hfuel ⊢
    simp only [List.length_cons, List.length_append] at hfuel
    have hkey : k.toList.length < fuel := by
      have := length_stringChars k
      omega
    have hvalue := readValue_spaced s j hfields.1 fuel indent depth (s.newLine outer ++ '\x7d' :: rest)
      (by omega) (endsNumber_blank (s.blank_newLine outer) (endsNumber_cons (by simp)))
    rw [← readValue_blank s.blank_space] at hvalue
    rw [List.append_assoc, readFields_blank (s.blank_newLine _), Json.rereadFields, Json.rereadFields,
      ofFieldsAt, ofFieldsAt]
    simpa using readFields_last hkey (s.blank_newLine outer) hvalue
  | (k, j) :: f :: more =>
    rw [Json.spacedFields_cons_cons] at hfuel ⊢
    simp only [List.length_cons, List.length_append] at hfuel
    have hkey : k.toList.length < fuel := by
      have := length_stringChars k
      omega
    have hmore := readFields_spaced s (f :: more) (by simp) hfields.2 fuel indent outer depth rest
      (by omega)
    obtain ⟨cs, hhead⟩ := @head_spacedFields indent f.2 s f.1 more
    rw [hhead, List.append_assoc] at hmore
    rw [hhead, List.append_assoc, readFields_blank (s.blank_newLine _)]
    have hvalue := readValue_spaced s j hfields.1 fuel indent depth
      (',' :: (s.newLine indent ++ '"' :: (cs ++ (s.newLine outer ++ '\x7d' :: rest)))) (by omega)
      (endsNumber_cons (by simp))
    rw [← readValue_blank s.blank_space] at hvalue
    rw [Json.rereadFields, ofFieldsAt]
    simpa using readFields_next hkey (s.blank_newLine indent) hvalue hmore

end

/-- The document of a written value, with nothing behind it. -/
theorem read_spaced (s : Json.Spacing) {j : Json} (hj : j.Readable) :
    read (String.ofList (Json.spacedChars s 0 j)) = (ofJsonAt 0 j.reread, true) := by
  have hvalue := readValue_spaced s j hj (2 * (Json.spacedChars s 0 j).length + 2) 0 0 [] (by omega)
    endsNumber_nil
  rw [List.append_nil] at hvalue
  simp [read, String.toList_ofList, hvalue, skipSpace]

theorem read_compact {j : Json} (hj : j.Readable) : read j.compact = (ofJsonAt 0 j.reread, true) := by
  rw [Json.compact, ← Json.spacedChars_compact 0]
  exact read_spaced .compact hj

theorem read_pretty {j : Json} (hj : j.Readable) : read j.pretty = (ofJsonAt 0 j.reread, true) := by
  rw [Json.pretty, ← Json.spacedChars_pretty 0]
  exact read_spaced .pretty hj

end Document
end PagePipes
