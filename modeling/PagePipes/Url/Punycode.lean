set_option autoImplicit false

/-!
# Punycode

A label beyond ASCII is written with its ASCII characters first and then, for every other character
in code point order, the distance from the one before as a number of mixed radix. The radix
thresholds follow a bias that adapts to the distances seen so far.
-/
namespace PagePipes.Url.Punycode

def digitChar (d : Nat) : Char := if d < 26 then Char.ofNat (97 + d) else Char.ofNat (22 + d)

def digitValue? (c : Char) : Option Nat :=
  if 'a' ≤ c ∧ c ≤ 'z' then some (c.toNat - 97)
  else if 'A' ≤ c ∧ c ≤ 'Z' then some (c.toNat - 65)
  else if '0' ≤ c ∧ c ≤ '9' then some (c.toNat - 22)
  else none

/-- The threshold of the digit of weight index `k`, between one and twenty-six. -/
def threshold (k bias : Nat) : Nat :=
  if k ≤ bias then 1 else if bias + 26 ≤ k then 26 else k - bias

theorem threshold_pos (k bias : Nat) : 0 < threshold k bias := by
  unfold threshold
  split
  · omega
  · split <;> omega

theorem threshold_le (k bias : Nat) : threshold k bias ≤ 26 := by
  unfold threshold
  split
  · omega
  · split <;> omega

/-- Divides until the distance is small, and counts the digits that this takes. -/
def scaleDown (delta k : Nat) : Nat × Nat :=
  if h : 455 < delta then scaleDown (delta / 35) (k + 36) else (delta, k)
termination_by delta
decreasing_by exact Nat.div_lt_self (by omega) (by omega)

def adapt (delta count : Nat) (first : Bool) : Nat :=
  let d := if first then delta / 700 else delta / 2
  let (d, k) := scaleDown (d + d / count) 0
  k + 36 * d / (d + 38)

/-- A number as digits of mixed radix, least significant first. -/
def writeNumber (q k bias : Nat) : List Char :=
  let t := threshold k bias
  if h : q < t then [digitChar q]
  else digitChar (t + (q - t) % (36 - t)) :: writeNumber ((q - t) / (36 - t)) (k + 36) bias
termination_by q
decreasing_by
  have ht : threshold k bias = t := rfl
  have hp := threshold_pos k bias
  rw [ht] at hp ⊢
  have : (q - t) / (36 - t) ≤ q - t := Nat.div_le_self _ _
  omega

/-- State of an encoder: the distance so far, the bias and the number of characters written. -/
structure Progress where
  delta : Nat
  bias : Nat
  count : Nat
  written : List Char

def writePlaces (code basic : Nat) : List Nat → Progress → Progress
  | [], p => p
  | c :: rest, p =>
    if c < code then writePlaces code basic rest { p with delta := p.delta + 1 }
    else if c = code then
      writePlaces code basic rest
        ⟨0, adapt p.delta (p.count + 1) (p.count == basic), p.count + 1,
          p.written ++ writeNumber p.delta 36 p.bias⟩
    else writePlaces code basic rest p

/-- Goes through the code points beyond ASCII in ascending order. -/
def writeCodes (all : List Nat) (basic : Nat) : Nat → List Nat → Progress → Progress
  | _, [], p => p
  | next, code :: codes, p =>
    let p := { p with delta := p.delta + (code - next) * (p.count + 1) }
    let p := writePlaces code basic all p
    writeCodes all basic (code + 1) codes { p with delta := p.delta + 1 }

def encode (cs : List Char) : List Char :=
  let ascii := cs.filter (·.toNat < 128)
  let codes := cs.map Char.toNat
  let others := ((codes.filter (128 ≤ ·)).mergeSort (· ≤ ·)).eraseDups
  let start := if ascii.isEmpty then [] else ascii ++ ['-']
  (writeCodes codes ascii.length 128 others ⟨0, 72, ascii.length, start⟩).written

def readNumber (bias : Nat) : Nat → Nat → Nat → List Char → Option (Nat × List Char)
  | _, _, _, [] => none
  | value, weight, k, c :: rest =>
    match digitValue? c with
    | none => none
    | some d =>
      let value := value + d * weight
      let t := threshold k bias
      if d < t then some (value, rest) else readNumber bias value (weight * (36 - t)) (k + 36) rest

theorem readNumber_length {bias : Nat} {value weight k : Nat} {cs rest : List Char} {n : Nat}
    (h : readNumber bias value weight k cs = some (n, rest)) : rest.length < cs.length := by
  induction cs generalizing value weight k with
  | nil => simp [readNumber] at h
  | cons c cs ih =>
    rw [readNumber] at h
    cases hd : digitValue? c with
    | none => simp [hd] at h
    | some d =>
      simp only [hd] at h
      split at h
      · simp only [Option.some.injEq, Prod.mk.injEq] at h
        simp [← h.2]
      · have := ih h
        simp only [List.length_cons]
        omega

def readCodes (bias code place : Nat) (first : Bool) (out : List Char) (cs : List Char) :
    Option (List Char) :=
  if cs.isEmpty then some out
  else
    match _h : readNumber bias 0 1 36 cs with
    | none => none
    | some (distance, rest) =>
      let size := out.length + 1
      let reached := place + distance
      let code := code + reached / size
      let index := reached % size
      if code < 128 || 0x10ffff < code || (0xd800 ≤ code && code < 0xe000) then none
      else
        let out := out.take index ++ Char.ofNat code :: out.drop index
        readCodes (adapt distance size first) code (index + 1) false out rest
termination_by cs.length
decreasing_by exact readNumber_length (by assumption)

def splitLast (cs : List Char) : List Char × List Char :=
  match cs.reverse.dropWhile (· ≠ '-') with
  | [] => ([], cs)
  | _ :: before => (before.reverse, cs.drop (before.length + 1))

def decode? (cs : List Char) : Option (List Char) :=
  let (ascii, digits) := splitLast cs
  if ascii.all (·.toNat < 128) then readCodes 72 128 0 true ascii digits else none

end PagePipes.Url.Punycode
