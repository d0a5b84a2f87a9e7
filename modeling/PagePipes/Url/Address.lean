import PagePipes.Text.Hex

set_option autoImplicit false

/-!
# Numeric hosts

An IPv4 address is a number below `2 ^ 32`. It is read from one to four numbers in decimal, octal
or hexadecimal notation, of which the last fills the bytes that are left. An IPv6 address is eight
pieces of sixteen bits, written with the first longest run of zero pieces left out.
-/
namespace PagePipes.Url

def splitChars (mark : Char) : List Char → List (List Char)
  | [] => [[]]
  | c :: rest =>
    match splitChars mark rest with
    | [] => [[c]]
    | part :: parts => if c = mark then [] :: part :: parts else (c :: part) :: parts

namespace IPv4

def digits? (base : Nat) (cs : List Char) : Option Nat :=
  cs.foldlM (fun n c =>
    match Text.Hex.value? c with
    | some d => if d < base then some (n * base + d) else none
    | none => none) 0

/-- A number in C notation; a bare radix mark is zero. -/
def number? : List Char → Option Nat
  | [] => none
  | '0' :: 'x' :: rest | '0' :: 'X' :: rest => digits? 16 rest
  | '0' :: c :: rest => digits? 8 (c :: rest)
  | cs => digits? 10 cs

/-- The parts of a domain, without the empty one after a final dot. -/
def parts (domain : List Char) : List (List Char) :=
  let ps := splitChars '.' domain
  if ps.length > 1 && ps.getLast? == some [] then ps.dropLast else ps

/-- A domain whose last part is a number has to be an IPv4 address. -/
def endsInNumber (domain : List Char) : Bool :=
  match (parts domain).getLast? with
  | none | some [] => false
  | some last => last.all Char.isDigit || (number? last).isSome

def parse? (domain : List Char) : Option Nat := do
  let ps := parts domain
  if ps.length > 4 then none
  let numbers ← ps.mapM number?
  let last ← numbers.getLast?
  let firsts := numbers.dropLast
  if 1 <<< (8 * (4 - firsts.length)) ≤ last then none
  if firsts.any (255 < ·) then none
  return firsts.zipIdx.foldl (fun sum (n, i) => sum + (n <<< (8 * (3 - i)))) last

def text (n : Nat) : List Char :=
  let byte (i : Nat) : List Char := (toString ((n >>> (8 * i)) % 256)).toList
  byte 3 ++ '.' :: (byte 2 ++ '.' :: (byte 1 ++ '.' :: byte 0))

end IPv4

namespace IPv6

/-- Up to four hexadecimal digits, at least none. -/
def piece (cs : List Char) : Nat × Nat × List Char :=
  let ds := (cs.take 4).takeWhile fun c => (Text.Hex.value? c).isSome
  (ds.foldl (fun n c => n * 16 + (Text.Hex.value? c).getD 0) 0, ds.length, cs.drop ds.length)

def byte? (cs : List Char) : Option (Nat × List Char) :=
  let ds := cs.takeWhile Char.isDigit
  let n := ds.foldl (fun n c => n * 10 + (c.toNat - 48)) 0
  if ds.isEmpty || (1 < ds.length && ds.head? == some '0') || 255 < n then none
  else some (n, cs.drop ds.length)

def dotted? (cs : List Char) : Option (List Nat) := do
  let (a, cs) ← byte? cs
  let ('.' :: cs) := cs | none
  let (b, cs) ← byte? cs
  let ('.' :: cs) := cs | none
  let (c, cs) ← byte? cs
  let ('.' :: cs) := cs | none
  let (d, cs) ← byte? cs
  if cs.isEmpty then some [a * 256 + b, c * 256 + d] else none

/-- Pieces read so far and the number of them before the gap, if there has been one. -/
structure Progress where
  pieces : List Nat
  gap : Option Nat

/-- Reads pieces at most as many times as the fuel says; a valid address needs nine. -/
def readPieces : Nat → List Char → Progress → Option Progress
  | _, [], p => some p
  | 0, _ :: _, _ => none
  | fuel + 1, cs, p =>
    if p.pieces.length = 8 then none
    else match cs with
      | ':' :: rest =>
        if p.gap.isSome then none
        else readPieces fuel rest { p with gap := some p.pieces.length }
      | cs =>
        let (value, count, rest) := piece cs
        match rest with
        | '.' :: _ =>
          if count = 0 || 6 < p.pieces.length then none
          else (dotted? cs).map fun two => { p with pieces := p.pieces ++ two }
        | ':' :: [] => none
        | ':' :: rest => readPieces fuel rest { p with pieces := p.pieces ++ [value] }
        | [] => some { p with pieces := p.pieces ++ [value] }
        | _ :: _ => none

def parse? (cs : List Char) : Option (List Nat) := do
  let p ← match cs with
    | ':' :: ':' :: rest => readPieces 12 rest ⟨[], some 0⟩
    | ':' :: _ => none
    | cs => readPieces 12 cs ⟨[], none⟩
  match p.gap with
  | some index =>
    if p.pieces.length = 8 then none
    else return p.pieces.take index ++ List.replicate (8 - p.pieces.length) 0 ++ p.pieces.drop index
  | none => if p.pieces.length = 8 then some p.pieces else none

def zeros (pieces : List Nat) : Nat := (pieces.takeWhile (· == 0)).length

/-- Where the first longest run of at least two zero pieces begins, and its length. -/
def longestZeros (pieces : List Nat) : Option (Nat × Nat) :=
  (List.range pieces.length).foldl (fun best i =>
    let n := zeros (pieces.drop i)
    if 2 ≤ n && (best.map (·.2)).getD 0 < n then some (i, n) else best) none

def joined (pieces : List Nat) : List Char :=
  List.intercalate [':'] (pieces.map fun n => (Text.Hex.shortest n).toList)

def text (pieces : List Nat) : List Char :=
  match longestZeros pieces with
  | some (i, n) => joined (pieces.take i) ++ [':', ':'] ++ joined (pieces.drop (i + n))
  | none => joined pieces

end IPv6
end PagePipes.Url
