import PagePipes.Action
import PagePipes.Proofs.Result

set_option autoImplicit false

/-!
# References that are malformed

An action that names no key lacks a name, or its name or its digest is faulty.
-/
namespace PagePipes

/-- What is wrong with a malformed reference. -/
inductive ReferenceFault : Error → Prop
  | nameless : ReferenceFault (.invalidArgument "action is missing \"name\"")
  | name (name : String) (fault : NameFault) : ReferenceFault (.invalidArgument (fault.message name))
  | digest (digest : String) (fault : DigestFault) :
      ReferenceFault (.invalidArgument (fault.message digest))

variable {a : Action} {e : Error}

theorem Key.fault_of_validateName {name : String} (h : validateName name = .error e) :
    ReferenceFault e := by
  unfold validateName at h
  split at h
  · cases h
  · next fault _ =>
    cases h
    exact .name name fault

theorem Key.fault_of_validateDigest {digest : String} (h : validateDigest digest = .error e) :
    ReferenceFault e := by
  unfold validateDigest at h
  split at h
  · cases h
  · next fault _ =>
    cases h
    exact .digest digest fault

theorem Action.fault_of_reference (h : a.reference = .error e) : ReferenceFault e := by
  unfold reference at h
  split at h
  · cases h
    exact .nameless
  · obtain hname | ⟨⟨⟩, -, h⟩ := Result.bind_eq_error.1 h
    · exact Key.fault_of_validateName hname
    · split at h
      · split at h
        · cases h
        · obtain hdigest | ⟨⟨⟩, -, h⟩ := Result.bind_eq_error.1 h
          · exact Key.fault_of_validateDigest hdigest
          · cases h
      · cases h

theorem head?_append {s : String} {c : Char} (h : s.toList.head? = some c) (t : String) :
    (s ++ t).toList.head? = some c := by
  rw [String.toList_append, List.head?_append, h, Option.some_or]

theorem NameFault.head?_message (name : String) (fault : NameFault) :
    (fault.message name).toList.head? = some 'n' := by
  cases fault with
  | empty =>
    change "name must not be empty".toList.head? = some 'n'
    decide
  | badStart => exact head?_append rfl _
  | badChar c => exact head?_append (head?_append (head?_append rfl _) _) _

theorem DigestFault.head?_message (digest : String) (fault : DigestFault) :
    (fault.message digest).toList.head? = some 'd' := by
  cases fault with
  | badLength n => exact head?_append (head?_append (head?_append rfl _) _) _
  | badDigit => exact head?_append rfl _

/-- The message is about an action, a name or a digest. -/
theorem ReferenceFault.message (h : ReferenceFault e) :
    ∃ message, e = .invalidArgument message ∧
      ∃ c ∈ ['a', 'n', 'd'], message.toList.head? = some c := by
  cases h with
  | nameless => exact ⟨_, rfl, 'a', by simp, rfl⟩
  | name n fault => exact ⟨_, rfl, 'n', by simp, fault.head?_message n⟩
  | digest d fault => exact ⟨_, rfl, 'd', by simp, fault.head?_message d⟩

end PagePipes
