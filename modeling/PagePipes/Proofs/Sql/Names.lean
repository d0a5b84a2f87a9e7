import Mathlib.Algebra.Group.Nat.Defs
import PagePipes.Proofs.WrittenKeys
import PagePipes.Sql.Name
import PagePipes.View

set_option autoImplicit false

/-!
# Names of tables

The name of a collection table is made of the name of its collection, which is the alias or the
identifier of a view, and of a digest. All of these are made of characters that the name of a table
may have, so they can be read off it: a digest comes last, and always has the same length.
-/
namespace PagePipes

namespace Text.Hex

theorem digit_injective {m n : Nat} (hm : m < 16) (hn : n < 16) (h : digit m = digit n) : m = n := by
  have all : ∀ m < 16, ∀ n < 16, digit m = digit n → m = n := by decide
  exact all m hm n hn h

theorem isLower_fixed {width n : Nat} : ∀ c ∈ fixed width n, isLower c = true := by
  induction width generalizing n with
  | zero => simp [fixed]
  | succ w ih =>
    rw [fixed]
    exact List.forall_mem_append.2
      ⟨ih, List.forall_mem_singleton.2 (Key.isLower_digit (Nat.mod_lt n (by decide)))⟩

theorem fixed_injective {width m n : Nat} (hm : m < 16 ^ width) (hn : n < 16 ^ width)
    (h : fixed width m = fixed width n) : m = n := by
  induction width generalizing m n with
  | zero => omega
  | succ w ih =>
    obtain ⟨hhigh, hlow⟩ := List.append_inj' h rfl
    have hdiv : m / 16 = n / 16 :=
      ih (Nat.div_lt_of_lt_mul (by omega)) (Nat.div_lt_of_lt_mul (by omega)) hhigh
    have hmod : m % 16 = n % 16 :=
      digit_injective (Nat.mod_lt m (by decide)) (Nat.mod_lt n (by decide)) (List.singleton_inj.1 hlow)
    omega

end Text.Hex

namespace Uuid
open PagePipes.Text

/-- A number of 128 bits. -/
def Proper (u : Uuid) : Prop := u.value < 16 ^ 32

instance : DecidablePred Proper := fun u => inferInstanceAs (Decidable (u.value < 16 ^ 32))

variable {u w : Uuid}

theorem toList_identifier (u : Uuid) : u.identifier.toList =
    let ds := Hex.fixed 32 u.value
    ds.take 8 ++ '_' :: ((ds.drop 8).take 4 ++ '_' :: ((ds.drop 12).take 4 ++
      '_' :: ((ds.drop 16).take 4 ++ '_' :: ds.drop 20))) := by
  rw [identifier, grouped, String.toList_ofList]
  simp [List.intercalate_cons_cons]

theorem chars_of_identifier {c : Char} (hc : c ∈ u.identifier.toList) :
    Hex.isLower c = true ∨ c = '_' := by
  rw [toList_identifier] at hc
  simp only [List.mem_append, List.mem_cons] at hc
  have hdigit := @Hex.isLower_fixed 32 u.value c
  grind [List.mem_of_mem_take, List.mem_of_mem_drop]

/-- The digits of the number are what is left without the marks. -/
theorem filter_identifier (u : Uuid) :
    u.identifier.toList.filter Hex.isLower = Hex.fixed 32 u.value := by
  have hpart : ∀ part : List Char, part <:+: Hex.fixed 32 u.value → part.filter Hex.isLower = part :=
    fun part hpart => List.filter_eq_self.2 fun c hc => Hex.isLower_fixed c (hpart.subset hc)
  have hgroup := fun n m => hpart _ ((List.take_prefix n _).isInfix.trans (List.drop_suffix m _).isInfix)
  have hmark : Hex.isLower '_' = false := by decide
  have hjoin := fun n m => List.take_append_drop n ((Hex.fixed 32 u.value).drop m)
  simp only [List.drop_drop] at hjoin
  simp only [toList_identifier, List.filter_append, List.filter_cons, hmark, Bool.false_eq_true, ↓reduceIte,
    hgroup, hpart _ (List.take_prefix 8 _).isInfix, hpart _ (List.drop_suffix 20 _).isInfix]
  rw [hjoin 4 16, hjoin 4 12, hjoin 4 8, List.take_append_drop]

theorem identifier_injective (hu : u.Proper) (hw : w.Proper) (h : u.identifier = w.identifier) :
    u = w := by
  have hdigits : Hex.fixed 32 u.value = Hex.fixed 32 w.value := by
    rw [← filter_identifier, h, filter_identifier]
  have hvalue := Hex.fixed_injective hu hw hdigits
  cases u
  cases w
  exact congrArg Uuid.mk hvalue

end Uuid

theorem View.chars_of_isIdentifier {s : String} (h : isIdentifier s = true) :
    ∀ c ∈ s.toList, ('a' ≤ c ∧ c ≤ 'z') ∨ ('0' ≤ c ∧ c ≤ '9') ∨ c = '_' := by
  intro c hc
  unfold isIdentifier at h
  split at h
  · cases h
  · next first rest hs =>
    simp only [Bool.and_eq_true, List.all_eq_true, Key.isNameStart, Bool.or_eq_true,
      decide_eq_true_eq, beq_iff_eq] at h
    rw [hs] at hc
    obtain rfl | hc := List.mem_cons.1 hc
    · exact .inl h.1
    · exact or_assoc.1 (h.2 c hc)

theorem View.not_capital {c : Char} (h : ('a' ≤ c ∧ c ≤ 'z') ∨ ('0' ≤ c ∧ c ≤ '9') ∨ c = '_') :
    'Z' < c ∨ c < 'A' := by
  obtain hletter | hdigit | rfl := h
  · exact .inl (lt_of_lt_of_le (by decide) hletter.1)
  · exact .inr (lt_of_le_of_lt hdigit.2 (by decide))
  · exact .inl (by decide)

theorem View.isIdentifier_append {s t : String} (hs : isIdentifier s = true)
    (ht : ∀ c ∈ t.toList, ('a' ≤ c ∧ c ≤ 'z') ∨ ('0' ≤ c ∧ c ≤ '9') ∨ c = '_') :
    isIdentifier (s ++ t) = true := by
  unfold isIdentifier at hs ⊢
  rw [String.toList_append]
  cases hchars : s.toList with
  | nil => simp [hchars] at hs
  | cons c rest =>
    simp only [hchars, List.cons_append, List.all_append, Bool.and_eq_true, List.all_eq_true,
      Bool.or_eq_true, decide_eq_true_eq, beq_iff_eq, Key.isNameStart] at hs ⊢
    exact ⟨hs.1, hs.2, fun d hd => or_assoc.2 (ht d hd)⟩

theorem View.isIdentifier_of_validateAlias {a : String} (h : validateAlias a = .ok ()) :
    isIdentifier a = true := by
  obtain ⟨⟨⟩, h, -⟩ := Result.bind_eq_ok.1 h
  unfold validateIdentifier at h
  split at h
  · assumption
  · cases h

theorem View.lower_of_isIdentifier {s : String} (h : isIdentifier s = true) : Key.lower s = s :=
  Key.lower_eq_of_chars fun c hc => not_capital (chars_of_isIdentifier h c hc)

namespace Sql
open PagePipes.Text

/-- A text that stands in the name of a table as it is. -/
def IsSafe (s : String) : Prop := safe s = s

theorem chars_of_safe {s : String} :
    ∀ c ∈ (safe s).toList, ('a' ≤ c ∧ c ≤ 'z') ∨ ('0' ≤ c ∧ c ≤ '9') ∨ c = '_' := by
  intro c hc
  rw [safe, String.toList_ofList] at hc
  obtain ⟨d, -, rfl⟩ := List.mem_map.1 hc
  dsimp only [safeChar]
  split
  · next h => exact h.imp_right .inl
  · exact .inr (.inr rfl)

theorem isSafe_of_chars {s : String}
    (h : ∀ c ∈ s.toList, ('a' ≤ c ∧ c ≤ 'z') ∨ ('0' ≤ c ∧ c ≤ '9') ∨ c = '_') : IsSafe s := by
  have hsame : s.toList.map safeChar = s.toList := by
    rw [List.map_congr_left fun c hc => ?_, List.map_id']
    have hlower : c.toLower = c := Key.toLower_eq_of_lower (View.not_capital (h c hc))
    rw [safeChar, hlower]
    obtain hletter | hdigit | rfl := h c hc
    · exact if_pos (.inl hletter)
    · exact if_pos (.inr hdigit)
    · rfl
  rw [IsSafe, safe, hsame, String.ofList_toList]

theorem isSafe_of_isLower {s : String} (h : ∀ c ∈ s.toList, Hex.isLower c = true ∨ c = '_') :
    IsSafe s := by
  refine isSafe_of_chars fun c hc => ?_
  obtain hlower | rfl := h c hc
  · simp only [Hex.isLower, Bool.or_eq_true, decide_eq_true_eq] at hlower
    obtain hdigit | hletter := hlower
    · exact .inr (.inl hdigit)
    · exact .inl ⟨hletter.1, le_trans hletter.2 (by decide)⟩
  · exact .inr (.inr rfl)

theorem isSafe_identifier (u : Uuid) : IsSafe u.identifier :=
  isSafe_of_isLower fun _ => Uuid.chars_of_identifier

theorem isSafe_of_isIdentifier {s : String} (h : View.isIdentifier s = true) : IsSafe s :=
  isSafe_of_chars (View.chars_of_isIdentifier h)

theorem isSafe_digestText (s : String) : IsSafe (Checksum.Sha1.digestText s) :=
  isSafe_of_isLower fun _ hc => .inl (Key.isLower_ofBytes hc)

theorem length_digestText (s : String) : (Checksum.Sha1.digestText s).toList.length = 40 := by
  rw [Checksum.Sha1.digestText, Checksum.Sha1.digest, Hex.ofBytes, String.toList_ofList,
    Key.length_ofBytes, Key.length_hash]

theorem toList_tableName {name digest : String} (hname : IsSafe name) (hdigest : IsSafe digest) :
    (tableName name digest).toList =
      "collection_".toList ++ (name.toList ++ ("__".toList ++ digest.toList)) := by
  rw [tableName, hname, hdigest]
  simp only [String.toList_append, List.append_assoc]

/-- The name of a table says the name and the digest that it was made of. -/
theorem tableName_injective {name other digest otherDigest : String} (hname : IsSafe name)
    (hother : IsSafe other) (hdigest : IsSafe digest) (hotherDigest : IsSafe otherDigest)
    (hlength : digest.toList.length = otherDigest.toList.length)
    (h : tableName name digest = tableName other otherDigest) : name = other ∧ digest = otherDigest := by
  have hlist := congrArg String.toList h
  rw [toList_tableName hname hdigest, toList_tableName hother hotherDigest] at hlist
  have hlengths : ("__".toList ++ digest.toList).length = ("__".toList ++ otherDigest.toList).length := by
    rw [List.length_append, List.length_append, hlength]
  obtain ⟨hnames, hrest⟩ := List.append_inj' (List.append_cancel_left hlist) hlengths
  exact ⟨String.toList_inj.1 hnames, String.toList_inj.1 (List.append_cancel_left hrest)⟩

end Sql

end PagePipes
