import PagePipes.Json.Value
import PagePipes.Text.Hex

set_option autoImplicit false

/-!
# JSON documents

Reading a text gives a document: what the text says in the order in which it says it, repeated
fields included, up to the point where it stops being JSON. A decoder walks the document in that
order, so that of several faults the first one in the text is reported. A member that a decoder
skips may hold numbers, texts and nesting that no value can hold; such members are kept with a mark
instead of a value.
-/
namespace PagePipes

inductive Document
  | null
  | bool (value : Bool)
  /-- No value: the number exceeds every float. -/
  | number (value : Option Number)
  /-- No value: an escape denotes half of a surrogate pair. -/
  | text (value : Option String)
  /-- Not closed: the text breaks after the items. -/
  | array (items : List Document) (closed : Bool)
  | object (fields : List (Option String × Document)) (closed : Bool)
  /-- An array or object nested deeper than values go. -/
  | deep (closed : Bool)
  /-- The text breaks here. -/
  | broken
  deriving Repr, Inhabited

namespace Document

/-- Containers this deep or deeper are not read as values. -/
def depthLimit : Nat := 128

def isSpace (c : Char) : Bool := c == ' ' || c == '\n' || c == '\t' || c == '\r'

def skipSpace : List Char → List Char
  | [] => []
  | c :: rest => if isSpace c then skipSpace rest else c :: rest

/-! ## Numbers -/

def isDigit (c : Char) : Bool := decide ('0' ≤ c ∧ c ≤ '9')

def digitValue (c : Char) : Nat := c.toNat - 48

structure Numeral where
  negative : Bool
  whole : List Char
  fraction : List Char
  exponent : Option Int
  deriving Repr

def digitsValue (cs : List Char) : Nat := cs.foldl (fun n c => n * 10 + digitValue c) 0

/-- The exponent after its letter; it needs a digit. -/
def readExponent (cs : List Char) : Option (Int × List Char) :=
  let (negative, cs) := match cs with
    | '+' :: r => (false, r)
    | '-' :: r => (true, r)
    | r => (false, r)
  let ds := cs.takeWhile isDigit
  if ds.isEmpty then none
  else
    let n : Int := digitsValue ds
    some (if negative then -n else n, cs.dropWhile isDigit)

def readTail (negative : Bool) (whole cs : List Char) : Option (Numeral × List Char) :=
  match cs with
  | '.' :: r =>
    let fraction := r.takeWhile isDigit
    if fraction.isEmpty then none
    else match r.dropWhile isDigit with
      | c :: r' =>
        if c == 'e' || c == 'E' then do
          let (e, rest) ← readExponent r'
          return (⟨negative, whole, fraction, some e⟩, rest)
        else some (⟨negative, whole, fraction, none⟩, c :: r')
      | [] => some (⟨negative, whole, fraction, none⟩, [])
  | c :: r =>
    if c == 'e' || c == 'E' then do
      let (e, rest) ← readExponent r
      return (⟨negative, whole, [], some e⟩, rest)
    else some (⟨negative, whole, [], none⟩, c :: r)
  | [] => some (⟨negative, whole, [], none⟩, [])

/-- A numeral starts with a minus sign or a digit; a leading zero stands alone. -/
def readNumeral (cs : List Char) : Option (Numeral × List Char) :=
  let (negative, cs) := match cs with
    | '-' :: r => (true, r)
    | r => (false, r)
  match cs with
  | '0' :: r =>
    match r with
    | c :: _ => if isDigit c then none else readTail negative ['0'] r
    | [] => readTail negative ['0'] r
  | c :: r =>
    if isDigit c then readTail negative (c :: r.takeWhile isDigit) (r.dropWhile isDigit)
    else none
  | [] => none

def significandLimit : Nat := (1 <<< 64) - 1

/-- Gathers digits while the significand stays within the limit. Answers the significand, how many
digits it took, and the digits left. -/
def gather (significand taken : Nat) : List Char → Nat × Nat × List Char
  | [] => (significand, taken, [])
  | c :: rest =>
    let next := significand * 10 + digitValue c
    if significandLimit < next then (significand, taken, c :: rest)
    else gather next (taken + 1) rest

def powerOfTen (n : Nat) : Binary64 := Binary64.ofNat (Nat.pow 10 n)

/-- Scales an absolute value by a power of ten in one rounded step, after as many steps of
`10 ^ -308` as a smaller exponent needs. `none` when the result exceeds every float. -/
def scale : Nat → Binary64 → Int → Option Binary64
  | 0, _, _ => some Binary64.zero
  | fuel + 1, x, e =>
    if x.isZero then some x
    else if e < -308 then scale fuel (x.divAbs (powerOfTen 308)) (e + 308)
    else if 308 < e then none
    else if 0 ≤ e then
      let y := x.mulAbs (powerOfTen e.toNat)
      if y.isFinite then some y else none
    else some (x.divAbs (powerOfTen (-e).toNat))

/-- The float of a significand and a decimal exponent. Four scaling steps reach zero. -/
def floatOf (negative : Bool) (significand : Nat) (exponent : Int) : Option Number :=
  (scale 5 (Binary64.ofNat significand) exponent).map fun x => .float (x.withSign negative)

/-- The value of a numeral: an integer if it is written as one and fits, negative zero and all else
a float. Digits beyond the significand limit only count towards the exponent. -/
def Numeral.value (n : Numeral) : Option Number :=
  let (whole, _, left) := gather 0 0 n.whole
  let isInteger := left.isEmpty && n.fraction.isEmpty && n.exponent.isNone
  if isInteger && !n.negative then some (.int whole)
  else if isInteger && n.negative && decide (0 < whole ∧ whole ≤ 1 <<< 63) then
    some (.int (-(whole : Int)))
  else
    let (significand, taken, _) := gather whole 0 n.fraction
    let exponent : Int := (left.length : Int) - taken + n.exponent.getD 0
    floatOf n.negative significand exponent

/-! ## Texts -/

def readHex4 : List Char → Option (Nat × List Char)
  | a :: b :: c :: d :: rest => (Text.Hex.number? [a, b, c, d]).map (·, rest)
  | _ => none

def isHighSurrogate (n : Nat) : Bool := decide (0xd800 ≤ n ∧ n < 0xdc00)

def isLowSurrogate (n : Nat) : Bool := decide (0xdc00 ≤ n ∧ n < 0xe000)

/-- One step of reading a text: the character denoted, or `none` for half of a surrogate pair, and
the rest. -/
inductive TextStep
  | close (rest : List Char)
  | char (c : Option Char) (rest : List Char)
  | broken

/-- A code unit escape whose digits are read; a high surrogate takes the low one that follows. -/
def unitStep (n : Nat) (rest : List Char) : TextStep :=
  if isHighSurrogate n then
    match rest with
    | '\\' :: 'u' :: r =>
      match readHex4 r with
      | some (m, r') =>
        if isLowSurrogate m then
          .char (some (Char.ofNat ((n - 0xd800) * 1024 + (m - 0xdc00) + 0x10000))) r'
        else .char none rest
      | none => .char none rest
    | _ => .char none rest
  else if isLowSurrogate n then .char none rest
  else .char (some (Char.ofNat n)) rest

def textStep : List Char → TextStep
  | [] => .broken
  | '"' :: rest => .close rest
  | '\\' :: 'u' :: rest =>
    match readHex4 rest with
    | some (n, r) => unitStep n r
    | none => .broken
  | '\\' :: c :: rest =>
    match c with
    | '"' => .char (some '"') rest
    | '\\' => .char (some '\\') rest
    | '/' => .char (some '/') rest
    | 'b' => .char (some '\x08') rest
    | 'f' => .char (some '\x0c') rest
    | 'n' => .char (some '\n') rest
    | 'r' => .char (some '\r') rest
    | 't' => .char (some '\t') rest
    | _ => .broken
  | '\\' :: [] => .broken
  | c :: rest => if c.toNat < 32 then .broken else .char (some c) rest

/-- Reads to the closing quote; `seen` holds the characters so far, last first. -/
def readText : Nat → List Char → Option (List Char) → Option (Option String × List Char)
  | 0, _, _ => none
  | fuel + 1, cs, seen =>
    match textStep cs with
    | .broken => none
    | .close rest => some (seen.map fun s => String.ofList s.reverse, rest)
    | .char (some c) rest => readText fuel rest (seen.map (c :: ·))
    | .char none rest => readText fuel rest none

/-! ## Values -/

def expect? : List Char → List Char → Option (List Char)
  | [], cs => some cs
  | w :: ws, c :: cs => if w = c then expect? ws cs else none
  | _ :: _, [] => none

/-- What was read, and the rest of the text unless it broke. -/
abbrev Read (α : Type) := α × Option (List Char)

def word (w : String) (d : Document) (cs : List Char) : Read Document :=
  match expect? w.toList cs with
  | some rest => (d, some rest)
  | none => (.broken, none)

mutual

/-- One value. The fuel bounds the steps, and the length of the text is always enough. -/
def readValue : Nat → Nat → List Char → Read Document
  | 0, _, _ => (.broken, none)
  | fuel + 1, depth, cs =>
    match skipSpace cs with
    | 'n' :: r => word "ull" .null r
    | 't' :: r => word "rue" (.bool true) r
    | 'f' :: r => word "alse" (.bool false) r
    | '"' :: r =>
      match readText fuel r (some []) with
      | some (s, rest) => (.text s, some rest)
      | none => (.broken, none)
    | '[' :: r =>
      let (items, rest) := match skipSpace r with
        | ']' :: r' => ([], some r')
        | r' => readItems fuel (depth + 1) r'
      (if depth + 1 < depthLimit then .array items rest.isSome else .deep rest.isSome, rest)
    | '\x7b' :: r =>
      let (fields, rest) := match skipSpace r with
        | '\x7d' :: r' => ([], some r')
        | r' => readFields fuel (depth + 1) r'
      (if depth + 1 < depthLimit then .object fields rest.isSome else .deep rest.isSome, rest)
    | r =>
      match readNumeral r with
      | some (n, rest) => (.number n.value, some rest)
      | none => (.broken, none)

def readItems : Nat → Nat → List Char → Read (List Document)
  | 0, _, _ => ([], none)
  | fuel + 1, depth, cs =>
    match readValue fuel depth cs with
    | (d, none) => ([d], none)
    | (d, some r) =>
      match skipSpace r with
      | ']' :: r' => ([d], some r')
      | ',' :: r' =>
        match skipSpace r' with
        | ']' :: _ => ([d], none)
        | r'' =>
          let (ds, rest) := readItems fuel depth r''
          (d :: ds, rest)
      | _ => ([d], none)

def readFields : Nat → Nat → List Char → Read (List (Option String × Document))
  | 0, _, _ => ([], none)
  | fuel + 1, depth, cs =>
    match skipSpace cs with
    | '"' :: r =>
      match readText fuel r (some []) with
      | none => ([], none)
      | some (key, r) =>
        match skipSpace r with
        | ':' :: r =>
          match readValue fuel depth r with
          | (d, none) => ([(key, d)], none)
          | (d, some r) =>
            match skipSpace r with
            | '\x7d' :: r' => ([(key, d)], some r')
            | ',' :: r' =>
              match skipSpace r' with
              | '\x7d' :: _ => ([(key, d)], none)
              | r'' =>
                let (fs, rest) := readFields fuel depth r''
                ((key, d) :: fs, rest)
            | _ => ([(key, d)], none)
        | _ => ([(key, .broken)], none)
    | _ => ([], none)

end

/-- Reads a text: its document, and whether nothing but blanks follows. -/
def read (s : String) : Document × Bool :=
  let cs := s.toList
  match readValue (2 * cs.length + 2) 0 cs with
  | (d, some rest) => (d, (skipSpace rest).isEmpty)
  | (d, none) => (d, false)

/-! ## Documents and values -/

mutual

/-- The value that the document denotes, when it denotes one. Of repeated fields the last counts. -/
def toJson? : Document → Option Json
  | .null => some .null
  | .bool b => some (.bool b)
  | .number n => n.map .num
  | .text s => s.map .str
  | .array items closed =>
    if closed then (toItems? items).map .arr else none
  | .object fields closed =>
    if closed then (toFields? fields).map fun fs => .obj (Json.sortFields fs) else none
  | .deep _ => none
  | .broken => none

def toItems? : List Document → Option (List Json)
  | [] => some []
  | d :: rest => do return (← toJson? d) :: (← toItems? rest)

def toFields? : List (Option String × Document) → Option (List (String × Json))
  | [] => some []
  | (k, d) :: rest => do return (← k, ← toJson? d) :: (← toFields? rest)

end

mutual

def ofJson : Json → Document
  | .null => .null
  | .bool b => .bool b
  | .num n => .number (some n)
  | .str s => .text (some s)
  | .arr items => .array (ofItems items) true
  | .obj fields => .object (ofFields fields) true

def ofItems : List Json → List Document
  | [] => []
  | j :: rest => ofJson j :: ofItems rest

def ofFields : List (String × Json) → List (Option String × Document)
  | [] => []
  | (k, j) :: rest => (some k, ofJson j) :: ofFields rest

end

mutual

/-- A member that may be skipped: nothing in it breaks the text. -/
def isWhole : Document → Bool
  | .array items closed => closed && allWhole items
  | .object fields closed => closed && allFieldsWhole fields
  | .deep closed => closed
  | .broken => false
  | .null | .bool _ | .number _ | .text _ => true

def allWhole : List Document → Bool
  | [] => true
  | d :: rest => isWhole d && allWhole rest

def allFieldsWhole : List (Option String × Document) → Bool
  | [] => true
  | (_, d) :: rest => isWhole d && allFieldsWhole rest

end

end Document

def Json.parse? (s : String) : Option Json :=
  let (d, ended) := Document.read s
  if ended then d.toJson? else none

end PagePipes
