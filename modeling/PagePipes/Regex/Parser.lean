import PagePipes.Regex.Basic
import PagePipes.Regex.Property
import PagePipes.Text.Hex
import PagePipes.Text.Letter

set_option autoImplicit false

/-!
# Reading patterns

The grammar has literals, escapes, bracketed sets with set operations, groups, alternation and
counted repetition, and no backward references or look-around. Flags set inside a group hold to its
end. A pattern whose groups, sets and repetitions nest too deeply is refused like one that does not
parse; one that parses may still be too large.
-/
namespace PagePipes.Regex

inductive Fault
  | malformed
  | tooLarge
  deriving DecidableEq, Repr

/-- The most bytes that the automaton of a pattern may take. -/
def sizeLimit : Nat := 10485760

def Fault.message : Fault → String
  | .malformed => "regex parse error"
  | .tooLarge => "Compiled regex exceeds size limit of " ++ toString sizeLimit ++ " bytes."

structure Flags where
  ignoreCase : Bool
  multiLine : Bool
  dotAll : Bool
  unicode : Bool
  crlf : Bool
  verbose : Bool

def Flags.initial : Flags := ⟨false, false, false, true, false, false⟩

structure State where
  rest : List Char
  flags : Flags
  names : List String

/-- What a pattern reads as, and how deep it nests. -/
structure Node where
  regex : Regex
  depth : Nat

/-- One item of a sequence; a change of flags is an item that nothing can repeat. -/
inductive Item
  | node (n : Node)
  | flags

def malformed {α : Type} : Except Fault α := .error .malformed

def isBlank (c : Char) : Bool :=
  let n := c.toNat
  decide (9 ≤ n ∧ n ≤ 13) || n == 0x20 || n == 0x85 || n == 0xa0 || n == 0x1680
    || decide (0x2000 ≤ n ∧ n ≤ 0x200a) || n == 0x2028 || n == 0x2029 || n == 0x202f
    || n == 0x205f || n == 0x3000

/-- Drops blanks and comments; a comment runs to the end of its line. -/
def skipBlank : Bool → List Char → List Char
  | _, [] => []
  | true, c :: rest => skipBlank (c != '\n') rest
  | false, c :: rest =>
    if isBlank c then skipBlank false rest
    else if c == '#' then skipBlank true rest
    else c :: rest

def State.skip (s : State) : State :=
  if s.flags.verbose then { s with rest := skipBlank false s.rest } else s

def State.advance (s : State) (rest : List Char) : State := { s with rest := rest }.skip

/-- The next character but one, as far as it means something. -/
def State.peekAfter (s : State) (rest : List Char) : Option Char := (s.advance rest).rest.head?

/-! ## Literals and escapes -/

/-- What an escape or a plain character stands for. -/
inductive Primitive
  /-- `byte` marks a character written as two hexadecimal digits, which means a byte where Unicode
  is off. -/
  | char (c : Char) (byte : Bool)
  | set (members : CharSet)
  | look (condition : Look)

def isMeta (c : Char) : Bool :=
  ['\\', '.', '+', '*', '?', '(', ')', '|', '[', ']', '\x7b', '\x7d', '^', '$', '#', '&', '-',
    '~'].contains c

/-- Characters that a backslash leaves as they are: ASCII other than letters, digits and the angle
brackets. -/
def isEscapable (c : Char) : Bool :=
  isMeta c || (decide (c.toNat < 128) && !c.isAlphanum && c != '<' && c != '>')

def charOf? (n : Nat) : Option Char :=
  if n < 0xd800 ∨ (0xdfff < n ∧ n < 0x110000) then some (Char.ofNat n) else none

def hexChar (digits : List Char) : Except Fault Char :=
  match digits with
  | [] => malformed
  | ds => match (Text.Hex.number? ds).bind charOf? with
    | some c => .ok c
    | none => malformed

def takeHex : Nat → List Char → State → Except Fault ((List Char) × State)
  | 0, ds, s => .ok (ds, s)
  | n + 1, ds, s =>
    match s.rest with
    | c :: rest =>
      if (Text.Hex.value? c).isSome then takeHex n (ds ++ [c]) (s.advance rest) else malformed
    | [] => malformed

def takeHexBraced : Nat → List Char → State → Except Fault ((List Char) × State)
  | 0, _, _ => malformed
  | fuel + 1, ds, s =>
    match s.rest with
    | '\x7d' :: rest => .ok (ds, { s with rest := rest })
    | c :: rest =>
      if (Text.Hex.value? c).isSome then takeHexBraced fuel (ds ++ [c]) (s.advance rest)
      else malformed
    | [] => malformed

def hexEscape (width : Nat) (s : State) : Except Fault (Primitive × State) := do
  match s.rest with
  | '\x7b' :: rest =>
    let (ds, s) ← takeHexBraced (rest.length + 1) [] (s.advance rest)
    return (.char (← hexChar ds) false, s)
  | _ =>
    let (ds, s) ← takeHex width [] s
    return (.char (← hexChar ds) (width == 2), s)

def classSet (flags : Flags) (unicode ascii : CharSet) (negated : Bool) : Except Fault CharSet :=
  let base := if flags.unicode then unicode else ascii
  let members := if negated then base.compl else base
  if !flags.unicode && !members.ascii then malformed else .ok members

/-- Splits the inside of a property's braces at its operator. -/
def splitProperty : List Char → List Char → Option (List Char × Bool × List Char)
  | _, [] => none
  | seen, '!' :: '=' :: rest => some (seen, true, rest)
  | seen, c :: rest => splitProperty (seen ++ [c]) rest

def findProperty (body : List Char) : Option (CharSet × Bool) :=
  let value (name value : List Char) :=
    Property.byValue? (String.ofList name) (String.ofList value)
  match splitProperty [] body with
  | some (name, _, v) => (value name v).map (·, true)
  | none =>
    let cut (mark : Char) := (body.takeWhile (· != mark), (body.dropWhile (· != mark)).drop 1)
    if body.contains ':' then (value (cut ':').1 (cut ':').2).map (·, false)
    else if body.contains '=' then (value (cut '=').1 (cut '=').2).map (·, false)
    else (Property.byName? (String.ofList body)).map (·, false)

def takeBraced : Nat → List Char → State → Except Fault ((List Char) × State)
  | 0, _, _ => malformed
  | fuel + 1, cs, s =>
    match s.rest with
    | '\x7d' :: rest => .ok (cs, { s with rest := rest })
    | c :: rest => takeBraced fuel (cs ++ [c]) (s.advance rest)
    | [] => malformed

def propertyEscape (negated : Bool) (s : State) : Except Fault (Primitive × State) := do
  let (body, s) ← match s.rest with
    | [] => malformed
    | '\x7b' :: rest => takeBraced (rest.length + 1) [] (s.advance rest)
    | '\\' :: _ => malformed
    | c :: rest => pure ([c], s.advance rest)
  match findProperty body with
  | none => malformed
  | some (members, inverted) =>
    if !s.flags.unicode then malformed
    else
      let members := if s.flags.ignoreCase then members.fold else members
      return (.set (if negated != inverted then members.compl else members), s)

/-- The letters of a special word boundary in braces, or the state untouched when the braces hold
something else. -/
def boundaryName (s : State) : Except Fault ((Option String) × State) :=
  let isNameChar (c : Char) : Bool := c.isAlpha || c == '-'
  match s.rest with
  | '\x7b' :: rest =>
    let inner := s.advance rest
    match inner.rest with
    | [] => malformed
    | c :: _ =>
      if !isNameChar c then .ok (none, s)
      else
        let kept := if s.flags.verbose then inner.rest.filter (fun c => !isBlank c) else inner.rest
        match kept.dropWhile isNameChar with
        | '\x7d' :: after =>
          .ok (some (String.ofList (kept.takeWhile isNameChar)), { s with rest := after })
        | _ => malformed
  | _ => .ok (none, s)

def escape (s : State) : Except Fault (Primitive × State) :=
  match s.rest with
  | [] => malformed
  | c :: rest =>
    let next : State := { s with rest := rest }
    let perl (unicode ascii : CharSet) (negated : Bool) : Except Fault (Primitive × State) := do
      return (.set (← classSet s.flags unicode ascii negated), next)
    match c with
    | 'x' => hexEscape 2 (s.advance rest)
    | 'u' => hexEscape 4 (s.advance rest)
    | 'U' => hexEscape 8 (s.advance rest)
    | 'p' => propertyEscape false (s.advance rest)
    | 'P' => propertyEscape true (s.advance rest)
    | 'd' => perl .allDigits .digits false
    | 'D' => perl .allDigits .digits true
    | 's' => perl .spaces .spaces false
    | 'S' => perl .spaces .spaces true
    | 'w' => perl .words CharSet.words.asciiPart false
    | 'W' => perl .words CharSet.words.asciiPart true
    | 'a' => .ok (.char '\x07' false, next)
    | 'f' => .ok (.char '\x0c' false, next)
    | 't' => .ok (.char '\t' false, next)
    | 'n' => .ok (.char '\n' false, next)
    | 'r' => .ok (.char '\r' false, next)
    | 'v' => .ok (.char '\x0b' false, next)
    | 'A' => .ok (.look .textStart, next)
    | 'z' => .ok (.look .textEnd, next)
    | 'B' => .ok (.look .notWordBoundary, next)
    | '<' => .ok (.look .wordStart, next)
    | '>' => .ok (.look .wordEnd, next)
    | 'b' => do
      match ← boundaryName next with
      | (none, s) => return (.look .wordBoundary, s)
      | (some "start", s) => return (.look .wordStart, s)
      | (some "end", s) => return (.look .wordEnd, s)
      | (some "start-half", s) => return (.look .wordStartHalf, s)
      | (some "end-half", s) => return (.look .wordEndHalf, s)
      | (some _, _) => malformed
    | c => if isEscapable c then .ok (.char c false, next) else malformed

/-- A literal character under the flags. A byte above ASCII is no character. -/
def literal (flags : Flags) (c : Char) (byte : Bool) : Except Fault Regex :=
  if byte && !flags.unicode && decide (127 < c.toNat) then malformed
  else
    let members := CharSet.single c
    .ok (.set (if flags.ignoreCase then members.fold else members))

/-! ## Bracketed sets -/

inductive SetOp
  | inter
  | diff
  | symmDiff

def SetOp.apply : SetOp → CharSet → CharSet → CharSet
  | .inter => CharSet.inter
  | .diff => CharSet.diff
  | .symmDiff => CharSet.symmDiff

/-- A bracketed set that is being read: the operation under way with its left side, and the union
after it. -/
structure Bracket where
  negated : Bool
  pending : Option (SetOp × CharSet)
  union : CharSet
  items : Nat
  depth : Nat

def foldIf (flags : Flags) (members : CharSet) : CharSet :=
  if flags.ignoreCase then members.fold else members

/-- Completes the operation under way. -/
def Bracket.settle (flags : Flags) (b : Bracket) : CharSet × Nat :=
  let depth := if 1 < b.items then b.depth + 1 else b.depth
  match b.pending with
  | none => (b.union, depth)
  | some (op, left) => (op.apply (foldIf flags left) (foldIf flags b.union), depth + 1)

def Bracket.add (b : Bracket) (members : CharSet) (depth : Nat) : Bracket :=
  { b with union := b.union.union members, items := b.items + 1, depth := max b.depth depth }

def Bracket.close (flags : Flags) (b : Bracket) : Except Fault (CharSet × Nat) :=
  let (members, depth) := b.settle flags
  let folded := if flags.ignoreCase then
      { members.fold with ascii := !flags.unicode && members.ascii } else members
  let result := if b.negated then folded.compl else folded
  if !flags.unicode && !result.ascii then malformed else .ok (result, depth + 1)

/-- Hyphens that open a set, each a member. -/
def openingHyphens : Nat → Bracket → State → Bracket × State
  | 0, b, s => (b, s)
  | fuel + 1, b, s =>
    match s.rest with
    | '-' :: rest => openingHyphens fuel (b.add (.single '-') 0) (s.advance rest)
    | _ => (b, s)

/-- After the opening bracket: the inversion mark, hyphens, or a closing bracket as a member. -/
def openBracket (s : State) (rest : List Char) : Except Fault (Bracket × State) :=
  let s := s.advance rest
  let (negated, s) := match s.rest with
    | '^' :: rest => (true, s.advance rest)
    | _ => (false, s)
  let (b, s) := openingHyphens s.rest.length ⟨negated, none, .empty, 0, 0⟩ s
  match s.rest with
  | [] => malformed
  | ']' :: rest =>
    if b.items = 0 then
      let s := s.advance rest
      if s.rest.isEmpty then malformed else .ok (b.add (.single ']') 0, s)
    else .ok (b, s)
  | _ => .ok (b, s)

def namedClass? (cs : List Char) : Option (CharSet × List Char) :=
  match cs with
  | '[' :: ':' :: rest =>
    let (negated, body) := match rest with
      | '^' :: r => (true, r)
      | r => (false, r)
    match body.dropWhile (· != ':') with
    | ':' :: ']' :: after =>
      (CharSet.named? (String.ofList (body.takeWhile (· != ':')))).map fun members =>
        (if negated then members.compl else members, after)
    | _ => none
  | _ => none

/-- A single member of a set, perhaps the start of a range. -/
def setPrimitive (s : State) : Except Fault (Primitive × State) :=
  match s.rest with
  | [] => malformed
  | '\\' :: rest => escape { s with rest := rest }
  | c :: rest => .ok (.char c false, { s with rest := rest })

def memberChar (flags : Flags) (p : Primitive) : Except Fault Char :=
  match p with
  | .char c byte =>
    if !flags.unicode && decide (127 < c.toNat) && !byte then malformed else .ok c
  | _ => malformed

def setMember (s : State) : Except Fault (CharSet × State) := do
  let (first, s) ← setPrimitive s
  let s := s.skip
  let alone : Except Fault CharSet := match first with
    | .char c byte => do
      let c ← memberChar s.flags (.char c byte)
      return CharSet.single c
    | .set members => .ok members
    | .look _ => malformed
  match s.rest with
  | [] => malformed
  | '-' :: rest =>
    if s.peekAfter rest = some ']' ∨ s.peekAfter rest = some '-' then return (← alone, s)
    else
      let (second, s) ← setPrimitive (s.advance rest)
      let low ← memberChar s.flags first
      let high ← memberChar s.flags second
      if low ≤ high then return (CharSet.range low high, s) else malformed
  | _ => return (← alone, s)

/-- The inside of a bracketed set, up to its closing bracket. -/
def bracketBody : Nat → Bool → Bracket → State → Except Fault ((CharSet × Nat) × State)
  | 0, _, _, _ => malformed
  | fuel + 1, outer, b, s => do
    let s := s.skip
    let operation (op : SetOp) (rest : List Char) : Except Fault ((CharSet × Nat) × State) :=
      let (left, depth) := b.settle s.flags
      bracketBody fuel outer ⟨b.negated, some (op, left), .empty, 0, depth⟩ { s with rest := rest }
    match s.rest with
    | [] => malformed
    | ']' :: rest => return (← b.close s.flags, { s with rest := rest })
    | '&' :: '&' :: rest => operation .inter rest
    | '-' :: '-' :: rest => operation .diff rest
    | '~' :: '~' :: rest => operation .symmDiff rest
    | '[' :: rest =>
      match namedClass? s.rest with
      | some (members, after) =>
        if !s.flags.unicode && !members.ascii then malformed
        else bracketBody fuel outer (b.add members 0) { s with rest := after }
      | none =>
        let (inner, s) ← openBracket s rest
        let ((members, depth), s) ← bracketBody fuel false inner s
        bracketBody fuel outer (b.add members depth) s
    | _ =>
      let (members, s) ← setMember s
      bracketBody fuel outer (b.add members 0) s

/-! ## Groups and repetition -/

def flagNames : List Char := ['i', 'm', 's', 'u', 'R', 'x', 'U']

def Flags.set (f : Flags) (name : Char) (on : Bool) : Flags :=
  match name with
  | 'i' => { f with ignoreCase := on }
  | 'm' => { f with multiLine := on }
  | 's' => { f with dotAll := on }
  | 'u' => { f with unicode := on }
  | 'R' => { f with crlf := on }
  | 'x' => { f with verbose := on }
  | _ => f

/-- Flags up to the colon or closing parenthesis: the new flags, whether any item was there, and
the text from that character on. -/
def readFlags : List Char → Flags → Bool → List Char → Except Fault (Flags × Bool × List Char)
  | [], _, _, _ => malformed
  | c :: rest, f, negated, seen =>
    if c == ':' || c == ')' then
      if seen.getLast? = some '-' then malformed else .ok (f, !seen.isEmpty, c :: rest)
    else if seen.contains c then malformed
    else if c == '-' then readFlags rest f true (seen ++ [c])
    else if flagNames.contains c then
      readFlags rest (f.set c (!negated)) negated (seen ++ [c])
    else malformed

def groupName (s : State) (rest : List Char) : Except Fault (String × State) :=
  let name := rest.takeWhile (· != '>')
  let isStart (c : Char) : Bool := c == '_' || Text.Letter.isLetter c
  let isPart (c : Char) : Bool :=
    isStart c || Text.Letter.isNumeral c || c == '.' || c == '[' || c == ']'
  match name, rest.dropWhile (· != '>') with
  | c :: cs, '>' :: after =>
    let text := String.ofList name
    if isStart c && cs.all isPart && !s.names.contains text then
      .ok (text, { s with rest := after, names := text :: s.names })
    else malformed
  | _, _ => malformed

inductive Opening
  | group
  | flags

def openGroup (s : State) (rest : List Char) : Except Fault (Opening × State) := do
  let s := s.advance rest
  match s.rest with
  | '?' :: '=' :: _ | '?' :: '!' :: _ | '?' :: '<' :: '=' :: _ | '?' :: '<' :: '!' :: _ =>
    malformed
  | '?' :: 'P' :: '<' :: r | '?' :: '<' :: r =>
    let (_, s) ← groupName s r
    return (.group, s)
  | '?' :: r =>
    let (flags, any, after) ← readFlags r s.flags false []
    match after with
    | ')' :: after =>
      if any then return (.flags, { s with rest := after, flags := flags }) else malformed
    | _ :: after => return (.group, { s with rest := after, flags := flags })
    | [] => malformed
  | _ => return (.group, s)

def readCount (s : State) : Except Fault (Option Nat × State) :=
  let rest := s.rest.dropWhile isBlank
  let keep (c : Char) : Bool := c.isDigit || (s.flags.verbose && isBlank c)
  let digits := (rest.takeWhile keep).filter Char.isDigit
  let after := ({ s with rest := rest.dropWhile keep } : State).skip
  let after := { after with rest := after.rest.dropWhile isBlank }
  if digits.isEmpty then .ok (none, after.skip)
  else
    let n := digits.foldl (fun n c => n * 10 + (c.toNat - 48)) 0
    if n < 1 <<< 32 then .ok (some n, after.skip) else malformed

/-- The bounds of a counted repetition after its opening brace, and a mark of laziness. -/
def readBounds (s : State) : Except Fault ((Nat × Option Nat) × State) := do
  if s.rest.isEmpty then malformed
  let (low, s) ← readCount s
  let finish (min : Nat) (max : Option Nat) (s : State) : Except Fault ((Nat × Option Nat) × State) :=
    match s.rest with
    | '\x7d' :: rest =>
      let s := s.advance rest
      let s := match s.rest with
        | '?' :: rest => { s with rest := rest }
        | _ => s
      match max with
      | some m => if min ≤ m then .ok ((min, max), s) else malformed
      | none => .ok ((min, none), s)
    | _ => malformed
  match s.rest with
  | ',' :: rest =>
    let s := s.advance rest
    match s.rest with
    | '\x7d' :: _ => match low with
      | some n => finish n none s
      | none => malformed
    | _ =>
      let (high, s) ← readCount s
      match low, high with
      | some n, some m => finish n (some m) s
      | _, _ => malformed
  | _ => match low with
    | some n => finish n (some n) s
    | none => malformed

def repeatLast (items : List Item) (min : Nat) (max : Option Nat) : Except Fault (List Item) :=
  match items with
  | .node n :: rest => .ok (.node ⟨.repeat n.regex min max, n.depth + 1⟩ :: rest)
  | _ => malformed

def sequence (items : List Item) : Node :=
  let regexes := items.reverse.filterMap fun
    | .node n => some n.regex
    | .flags => none
  let depth := items.foldl (fun d i => match i with
    | .node n => max d n.depth
    | .flags => d) 0
  ⟨regexes.foldr (fun r acc => match acc with
    | .empty => r
    | acc => .seq r acc) .empty, if 1 < items.length then depth + 1 else depth⟩

def alternatives (last : Node) (branches : List Node) : Node :=
  match branches with
  | [] => last
  | _ =>
    let all := last :: branches
    ⟨branches.foldl (fun acc b => .alt b.regex acc) last.regex,
      all.foldl (fun d b => max d b.depth) 0 + 1⟩

def plain (flags : Flags) (c : Char) : Except Fault Regex :=
  match c with
  | '.' =>
    if !flags.unicode then malformed
    else if flags.dotAll then .ok (.set .all)
    else if flags.crlf then .ok (.set ((CharSet.single '\n').union (.single '\r')).compl)
    else .ok (.set (CharSet.single '\n').compl)
  | '^' => .ok (.look (if flags.multiLine then .lineStart flags.crlf else .textStart))
  | '$' => .ok (.look (if flags.multiLine then .lineEnd flags.crlf else .textEnd))
  | c => literal flags c false

def primitiveRegex (flags : Flags) : Primitive → Except Fault Regex
  | .char c byte => literal flags c byte
  | .set members => .ok (.set members)
  | .look condition => .ok (.look condition)

/-- Drops the mark of laziness after a repetition operator. -/
def dropLazy : List Char → List Char
  | '?' :: rest => rest
  | rest => rest

/-- The alternatives up to a closing parenthesis or the end; `items` and `branches` hold what has
been read, last first. -/
def body : Nat → List Item → List Node → State → Except Fault (Node × State)
  | 0, _, _, _ => malformed
  | fuel + 1, items, branches, s => do
    let s := s.skip
    let next (r : Regex) (depth : Nat) (s : State) : Except Fault (Node × State) :=
      body fuel (.node ⟨r, depth⟩ :: items) branches s
    let repeated (min : Nat) (max : Option Nat) (rest : List Char) : Except Fault (Node × State) := do
      body fuel (← repeatLast items min max) branches { s with rest := dropLazy rest }
    match s.rest with
    | [] => return (alternatives (sequence items) branches, s)
    | ')' :: _ => return (alternatives (sequence items) branches, s)
    | '|' :: rest => body fuel [] (sequence items :: branches) { s with rest := rest }
    | '(' :: rest =>
      let (opening, inner) ← openGroup s rest
      match opening with
      | .flags => body fuel (.flags :: items) branches inner
      | .group =>
        let (n, after) ← body fuel [] [] inner
        match after.rest with
        | ')' :: rest => next n.regex (n.depth + 1) ⟨rest, s.flags, after.names⟩
        | _ => malformed
    | '[' :: rest =>
      let (b, s) ← openBracket s rest
      let ((members, depth), s) ← bracketBody (s.rest.length + 1) true b s
      next (.set members) depth s
    | '?' :: rest => repeated 0 (some 1) rest
    | '*' :: rest => repeated 0 none rest
    | '+' :: rest => repeated 1 none rest
    | '\x7b' :: rest =>
      let _ ← repeatLast items 0 none
      let ((min, max), s) ← readBounds (s.advance rest)
      body fuel (← repeatLast items min max) branches s
    | '\\' :: rest =>
      let (p, s) ← escape { s with rest := rest }
      next (← primitiveRegex s.flags p) 0 s
    | c :: rest => next (← plain s.flags c) 0 { s with rest := rest }

def depthLimit : Nat := 250

/-- Estimated bytes of the automaton of an expression. -/
def weight : Regex → Nat
  | .empty => 32
  | .set members => members.weight
  | .look _ => 32
  | .seq a b => weight a + weight b
  | .alt a b => weight a + weight b + 36
  | .repeat inner min max =>
    match max with
    | some m => min * weight inner + (m - min) * (weight inner + 40) + 32
    | none => (if min = 0 then 1 else min) * weight inner + 72

def parse (pattern : String) : Except Fault Regex := do
  let cs := pattern.toList
  let (n, s) ← body (cs.length + 1) [] [] ⟨cs, .initial, []⟩
  if !s.rest.isEmpty ∨ depthLimit < n.depth then throw .malformed
  if sizeLimit < weight n.regex then throw .tooLarge
  return n.regex

end PagePipes.Regex
