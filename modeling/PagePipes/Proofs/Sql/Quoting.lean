import PagePipes.Proofs.References
import PagePipes.Proofs.Spelling
import PagePipes.Proofs.Sql.Names

set_option autoImplicit false

/-!
# Quoted names and texts

A reader of SQL takes what stands between two quotes for one token; a quote that is written twice is
part of it. Quoting writes just what such a reader accepts, so nothing that is quoted can end its token
early or reach into what follows. Generated names of tables need no quotes, and say what they are made of.
-/
namespace PagePipes.Sql
open PagePipes.Text

/-! ## Reading -/

/-- The characters up to the quote that ends a token, and what is behind it. A quote followed by
another one ends nothing and stands for one quote. -/
def readQuoted (mark : Char) : List Char → Option (List Char × List Char)
  | [] => none
  | c :: rest =>
    if c = mark then
      match rest with
      | [] => some ([], [])
      | d :: more =>
        if d = mark then (readQuoted mark more).map fun r => (mark :: r.1, r.2) else some ([], rest)
    else (readQuoted mark rest).map fun r => (c :: r.1, r.2)

/-- A quoted token of SQL: a name in double quotes or a text in single ones. -/
inductive Token
  | name (value : String)
  | text (value : String)
  deriving DecidableEq, Repr

/-- Reads the quoted token that a text begins with, and answers it with what is behind it. -/
def readToken : List Char → Option (Token × List Char)
  | '"' :: rest => (readQuoted '"' rest).map fun r => (.name (String.ofList r.1), r.2)
  | '\'' :: rest => (readQuoted '\'' rest).map fun r => (.text (String.ofList r.1), r.2)
  | _ => none

variable {mark c : Char} {body rest input : List Char}

/-- The characters with every quote twice. -/
def doubled (mark : Char) (body : List Char) : List Char :=
  body.flatMap fun c => if c = mark then [mark, mark] else [c]

theorem toList_quoteWith (s : String) :
    (quoteWith mark s).toList = mark :: (doubled mark s.toList ++ [mark]) := by
  rw [quoteWith, String.toList_ofList, doubled]

theorem doubled_cons_mark : doubled mark (mark :: body) = mark :: mark :: doubled mark body := by
  simp [doubled]

theorem doubled_cons (h : c ≠ mark) : doubled mark (c :: body) = c :: doubled mark body := by
  simp [doubled, h]

theorem readQuoted_twice :
    readQuoted mark (mark :: mark :: input) =
      (readQuoted mark input).map fun r => (mark :: r.1, r.2) := by
  rw [readQuoted, if_pos rfl]
  exact if_pos rfl

theorem readQuoted_plain (h : c ≠ mark) :
    readQuoted mark (c :: input) = (readQuoted mark input).map fun r => (c :: r.1, r.2) := by
  rw [readQuoted.eq_def]
  exact if_neg h

theorem readQuoted_end (h : rest.head? ≠ some mark) :
    readQuoted mark (mark :: rest) = some ([], rest) := by
  cases rest with
  | nil => rw [readQuoted, if_pos rfl]
  | cons d more =>
    rw [readQuoted, if_pos rfl]
    exact if_neg fun hd => h (by rw [hd, List.head?_cons])

/-- A token is read to its own end, wherever quotes stand in it. -/
theorem readQuoted_doubled (body : List Char) (h : rest.head? ≠ some mark) :
    readQuoted mark (doubled mark body ++ mark :: rest) = some (body, rest) := by
  induction body with
  | nil => exact readQuoted_end h
  | cons c body ih =>
    by_cases hc : c = mark
    · subst hc
      rw [doubled_cons_mark, List.cons_append, List.cons_append, readQuoted_twice, ih]
      rfl
    · rw [doubled_cons hc, List.cons_append, readQuoted_plain hc, ih]
      rfl

/-- What is read as a token was written by doubling its quotes. -/
theorem eq_doubled_of_readQuoted (h : readQuoted mark input = some (body, rest)) :
    input = doubled mark body ++ mark :: rest ∧ rest.head? ≠ some mark := by
  fun_induction readQuoted mark input generalizing body with
  | case1 => cases h
  | case2 =>
    cases h
    exact ⟨rfl, by simp⟩
  | case3 more ih =>
    obtain ⟨⟨b, r⟩, hread, heq⟩ := Option.map_eq_some_iff.1 h
    cases heq
    obtain ⟨rfl, hrest⟩ := ih hread
    exact ⟨by rw [doubled_cons_mark]; rfl, hrest⟩
  | case4 d more hd =>
    cases h
    exact ⟨rfl, by simpa using hd⟩
  | case5 c more hc ih =>
    obtain ⟨⟨b, r⟩, hread, heq⟩ := Option.map_eq_some_iff.1 h
    cases heq
    obtain ⟨rfl, hrest⟩ := ih hread
    exact ⟨by rw [doubled_cons hc]; rfl, hrest⟩

theorem readQuoted_eq_some : readQuoted mark input = some (body, rest) ↔
    input = doubled mark body ++ mark :: rest ∧ rest.head? ≠ some mark := by
  constructor
  · exact eq_doubled_of_readQuoted
  · rintro ⟨rfl, h⟩
    exact readQuoted_doubled body h

/-- Behind its opening quote a token is read just when the whole was quoted. -/
theorem readQuoted_eq_some_iff_quoteWith {s : String} :
    readQuoted mark input = some (s.toList, rest) ↔
      mark :: input = (quoteWith mark s).toList ++ rest ∧ rest.head? ≠ some mark := by
  rw [readQuoted_eq_some, toList_quoteWith, List.cons_append, List.append_assoc, List.singleton_append,
    List.cons_inj_right]

theorem readQuoted_map_eq_some {α : Type} {make : String → α} {s : String}
    (hmake : ∀ s t, make s = make t → s = t) :
    ((readQuoted mark input).map fun r => (make (String.ofList r.1), r.2)) = some (make s, rest) ↔
      readQuoted mark input = some (s.toList, rest) := by
  rw [Option.map_eq_some_iff]
  constructor
  · rintro ⟨⟨body, after⟩, hread, heq⟩
    obtain ⟨hbody, rfl⟩ := Prod.mk.inj heq
    rw [hread, ← hmake _ _ hbody, String.toList_ofList]
  · exact fun hread => ⟨_, hread, by rw [String.ofList_toList]⟩

theorem readToken_eq_name {s : String} : readToken input = some (.name s, rest) ↔
    input = (quoteName s).toList ++ rest ∧ rest.head? ≠ some '"' := by
  unfold readToken
  split
  · rw [readQuoted_map_eq_some (fun _ _ => Token.name.inj), readQuoted_eq_some_iff_quoteWith, quoteName]
  · simp [quoteName, toList_quoteWith]
  · next hname _ =>
    simp only [reduceCtorEq, false_iff, quoteName, toList_quoteWith]
    exact fun h => hname _ h.1

theorem readToken_eq_text {s : String} : readToken input = some (.text s, rest) ↔
    input = (quoteText s).toList ++ rest ∧ rest.head? ≠ some '\'' := by
  unfold readToken
  split
  · simp [quoteText, toList_quoteWith]
  · rw [readQuoted_map_eq_some (fun _ _ => Token.text.inj), readQuoted_eq_some_iff_quoteWith, quoteText]
  · next _ htext =>
    simp only [reduceCtorEq, false_iff, quoteText, toList_quoteWith]
    exact fun h => htext _ h.1

/-! ## Names of tables -/

/-- What a collection is named by: the alias of a view, or an identifier. -/
def NamesCollection (name : String) : Prop :=
  View.validateAlias name = .ok () ∨ ∃ u : Uuid, name = u.identifier

theorem NamesCollection.isSafe {name : String} (h : NamesCollection name) : IsSafe name := by
  obtain h | ⟨u, rfl⟩ := h
  · exact isSafe_of_isIdentifier (View.isIdentifier_of_validateAlias h)
  · exact isSafe_identifier u

/-- The name of a table is an identifier, whatever it is made of. -/
theorem isIdentifier_tableName (name digest : String) :
    View.isIdentifier (tableName name digest) = true := by
  have hstart : View.isIdentifier "collection_" = true := by decide
  have hmarks : safe "__" = "__" := by decide +kernel
  rw [tableName, ← hmarks]
  exact View.isIdentifier_append (View.isIdentifier_append (View.isIdentifier_append hstart chars_of_safe)
    chars_of_safe) chars_of_safe

/-- Tables of different collections or digests have different names. -/
theorem injOn_tableName : Set.InjOn (fun x : String × String => tableName x.1 x.2)
    {x | NamesCollection x.1 ∧ x.2.toList ∈ Key.digestSpelling} := by
  rintro ⟨name, digest⟩ ⟨hname, hdigest⟩ ⟨other, otherDigest⟩ ⟨hother, hotherDigest⟩ h
  obtain ⟨hlength, hchars⟩ := Key.mem_digestSpelling_iff.1 hdigest
  obtain ⟨hlength', hchars'⟩ := Key.mem_digestSpelling_iff.1 hotherDigest
  obtain ⟨hnames, hdigests⟩ := tableName_injective hname.isSafe hother.isSafe
    (isSafe_of_isLower fun c hc => .inl (hchars c hc)) (isSafe_of_isLower fun c hc => .inl (hchars' c hc))
    (hlength.trans hlength'.symm) h
  exact Prod.ext hnames hdigests

theorem tableName_ne_viewName (name digest : String) (u : Uuid) : tableName name digest ≠ viewName u := by
  have htable : (tableName name digest).toList.head? = some 'c' :=
    head?_append (head?_append (head?_append (by decide +kernel) _) _) _
  have hview : (viewName u).toList.head? = some 'v' := head?_append (by decide +kernel) _
  intro h
  rw [h, hview] at htable
  cases htable

/-- A quoted name, and a quoted text, is one token that says just what was quoted and leaves what
follows, unless that begins with a further quote; nothing else is read as such a token. The name of a
table is an identifier whatever it is made of, says which collection and which digest it was made of, and
is never that of a view. -/
theorem quoted_and_generated_names_safe :
    (∀ s input rest, readToken input = some (.name s, rest) ↔
      input = (quoteName s).toList ++ rest ∧ rest.head? ≠ some '"') ∧
    (∀ s input rest, readToken input = some (.text s, rest) ↔
      input = (quoteText s).toList ++ rest ∧ rest.head? ≠ some '\'') ∧
    (∀ name digest, View.isIdentifier (tableName name digest) = true) ∧
    Set.InjOn (fun x : String × String => tableName x.1 x.2)
      {x | NamesCollection x.1 ∧ x.2.toList ∈ Key.digestSpelling} ∧
    ∀ name digest u, tableName name digest ≠ viewName u :=
  ⟨fun _ _ _ => readToken_eq_name, fun _ _ _ => readToken_eq_text, isIdentifier_tableName,
    injOn_tableName, tableName_ne_viewName⟩

example : readToken "\"a\"\"b\", c".toList = some (.name "a\"b", ", c".toList) := by decide +kernel

end PagePipes.Sql
