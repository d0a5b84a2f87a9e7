import PagePipes.Yaml.Scalar

set_option autoImplicit false

/-!
# Tokens

The structure of a YAML text is in its tokens. Indentation becomes tokens that open and close block
collections. Whether a scalar or a flow collection is the key of a mapping is known only at the
colon behind it, so its place is kept and the tokens of the key are inserted there. A key without a
question mark stays on one line and within 1024 characters.
-/
namespace PagePipes.Yaml

inductive Token
  | streamEnd
  | version (major minor : Nat)
  | tagHandle (handle stem : String)
  | documentStart
  | documentEnd
  | sequenceStart
  | mappingStart
  | blockEnd
  | flowSequenceStart
  | flowSequenceEnd
  | flowMappingStart
  | flowMappingEnd
  | entry
  | flowEntry
  | key
  | value
  | aliasOf (name : String)
  | anchor (name : String)
  | tag (handle suffix : String)
  | scalar (text : String) (plain : Bool)
  deriving DecidableEq, Repr, Inhabited

structure SimpleKey where
  /-- The number of tokens before it. -/
  token : Nat
  line : Nat
  column : Nat
  /-- Whether nothing but a key may stand there. -/
  required : Bool
  deriving DecidableEq, Repr

structure Scanner where
  rest : Cells
  tokens : Array Token := #[]
  flow : Nat := 0
  /-- The column of the innermost block collection, -1 when there is none. -/
  indent : Int := -1
  indents : List Int := []
  keyAllowed : Bool := true
  key : Option SimpleKey := none
  outerKeys : List (Option SimpleKey) := []

def keyLimit : Nat := 1024

def isWord (c : Char) : Bool := c.isAlphanum || c == '_' || c == '-'

namespace Scanner

def inFlow (s : Scanner) : Bool := s.flow != 0

def push (s : Scanner) (t : Token) : Scanner := { s with tokens := s.tokens.push t }

def skip (s : Scanner) (n : Nat) : Scanner := { s with rest := s.rest.drop n }

def blankAt (s : Scanner) (i : Nat) : Bool := s.rest.blankAt i

/-! ## Between tokens -/

/-- Passes over blanks, breaks and comments. A tab does not count as a blank where a key may begin
in block context; behind a break a key may begin there. -/
def skipGap (flow allowed comment : Bool) : Cells → Bool × Cells
  | [] => (allowed, [])
  | c :: rest =>
    if c.isBreak then skipGap flow (allowed || !flow) false rest
    else if comment || c.has ' ' || (c.has '\t' && (flow || !allowed)) then
      skipGap flow allowed comment rest
    else if c.has '#' then skipGap flow allowed true rest
    else (allowed, c :: rest)

def skipToToken (s : Scanner) : Scanner :=
  let (keyAllowed, rest) := skipGap s.inFlow s.keyAllowed false s.rest
  { s with keyAllowed, rest }

/-- Closes block collections that begin right of a column. Answers their number. -/
def unrollFrom (column : Int) : Int → List Int → Nat × Int × List Int
  | indent, [] => (0, indent, [])
  | indent, outer :: rest =>
    if column < indent then
      let (n, r) := unrollFrom column outer rest
      (n + 1, r)
    else (0, indent, outer :: rest)

def unroll (s : Scanner) (column : Int) : Scanner :=
  if s.inFlow then s
  else
    let (n, indent, indents) := unrollFrom column s.indent s.indents
    { s with indent, indents, tokens := s.tokens ++ Array.replicate n Token.blockEnd }

/-- Opens a block collection at a column that is right of the open ones. Its token goes behind the
given number of tokens. -/
def roll (s : Scanner) (column place : Nat) (t : Token) : Scanner :=
  if s.inFlow || decide ((column : Int) ≤ s.indent) then s
  else
    { s with
      indent := column
      indents := s.indent :: s.indents
      tokens := s.tokens.insertIdxIfInBounds place t }

/-! ## Keys -/

def release (k : Option SimpleKey) : Option (Option SimpleKey) :=
  match k with
  | some k => if k.required then none else some none
  | none => some none

def dropKey (s : Scanner) : Option Scanner := return { s with key := ← release s.key }

def saveKey (s : Scanner) (c : Cell) : Option Scanner :=
  if s.keyAllowed then do
    let s ← s.dropKey
    return { s with
      key := some ⟨s.tokens.size, c.line, c.column, !s.inFlow && s.indent == (c.column : Int)⟩ }
  else some s

/-- Whether a place is too far back for the colon of its key to be at a cell. -/
def isStale (c : Cell) (k : SimpleKey) : Bool :=
  decide (k.line < c.line ∨ k.column + keyLimit < c.column)

def dropStale (s : Scanner) (c : Cell) : Option Scanner := do
  let check (k : Option SimpleKey) : Option (Option SimpleKey) :=
    if (k.map (isStale c)).getD false then release k else some k
  return { s with key := ← check s.key, outerKeys := ← s.outerKeys.mapM check }

/-! ## Tags -/

def isUri (verbatim : Bool) (c : Char) : Bool :=
  isWord c || ";/?:@&=+$.%!~*'()".toList.contains c || (verbatim && ",[]".toList.contains c)

def uriBytes : List Char → Option (List UInt8)
  | [] => some []
  | '%' :: a :: b :: rest => do
    let n ← Text.Hex.number? [a, b]
    return UInt8.ofNat n :: (← uriBytes rest)
  | '%' :: _ => none
  | c :: rest => do return UInt8.ofNat c.toNat :: (← uriBytes rest)

def uriText (cs : Cells) : Option String := do
  let bytes ← uriBytes (cs.map (·.char))
  String.fromUTF8? ⟨bytes.toArray⟩

def readHandle (cs : Cells) : Option (String × Cells) :=
  match cs with
  | c :: rest =>
    if c.has '!' then
      let word := rest.takeWhile fun d => isWord d.char
      let after := rest.drop word.length
      match after with
      | d :: after' =>
        if d.has '!' then some ("!" ++ Cells.text word ++ "!", after')
        else some ("!" ++ Cells.text word, after)
      | [] => some ("!" ++ Cells.text word, [])
    else none
  | [] => none

def endsWithMark (handle : String) : Bool :=
  handle.length != 1 && handle.toList.getLast? == some '!'

/-- Reads a tag that is not between angle brackets. What looks like a handle may be the beginning of
the tag itself. -/
def readShortTag (cs : Cells) : Option (Token × Cells) := do
  let (handle, rest) ← readHandle cs
  let uri := rest.takeWhile fun c => isUri false c.char
  let after := rest.drop uri.length
  let text ← uriText uri
  if endsWithMark handle then
    if uri.isEmpty then failure
    return (.tag handle text, after)
  let suffix := String.ofList (handle.toList.drop 1) ++ text
  return (if suffix = "" then .tag "" "!" else .tag "!" suffix, after)

def readVerbatimTag (cs : Cells) : Option (Token × Cells) := do
  let uri := cs.takeWhile fun c => isUri true c.char
  match cs.drop uri.length with
  | c :: after =>
    if c.has '>' && !uri.isEmpty then return (.tag "" (← uriText uri), after)
    else failure
  | [] => failure

/-- A tag ends at a blank, and in flow context also at a comma. -/
def readTag (s : Scanner) : Option Scanner := do
  let (t, rest) ← if s.rest.char? 1 == some '<' then readVerbatimTag (s.rest.drop 2)
    else readShortTag s.rest
  if Cells.blankAt rest 0 || (s.inFlow && Cells.char? rest 0 == some ',') then
    return { s with rest }.push t
  else failure

/-! ## Directives -/

def skipBlanks (cs : Cells) : Cells := cs.dropWhile (·.isBlank)

def readNumber (cs : Cells) : Option (Nat × Cells) :=
  let ds := cs.takeWhile (·.char.isDigit)
  if ds.isEmpty || decide (9 < ds.length) then none
  else some (ds.foldl (fun n d => n * 10 + (d.char.toNat - 48)) 0, cs.drop ds.length)

def readVersion (cs : Cells) : Option (Token × Cells) := do
  let (major, cs) ← readNumber (skipBlanks cs)
  if Cells.char? cs 0 != some '.' then failure
  let (minor, cs) ← readNumber (cs.drop 1)
  return (.version major minor, cs)

def readTagHandle (cs : Cells) : Option (Token × Cells) := do
  let (handle, cs) ← readHandle (skipBlanks cs)
  if handle != "!" && !endsWithMark handle then failure
  if !((cs.head?.map (·.isBlank)).getD false) then failure
  let cs := skipBlanks cs
  let uri := cs.takeWhile fun c => isUri true c.char
  let after := cs.drop uri.length
  if uri.isEmpty || !(Cells.blankAt after 0) then failure
  return (.tagHandle handle (← uriText uri), after)

def readDirective (s : Scanner) : Option Scanner := do
  let cs := s.rest.drop 1
  let name := cs.takeWhile fun c => isWord c.char
  let after := cs.drop name.length
  if !(Cells.blankAt after 0) then failure
  let (t, rest) ← match Cells.text name with
    | "YAML" => readVersion after
    | "TAG" => readTagHandle after
    | _ => none
  let rest := skipBlanks rest
  let rest := if Cells.char? rest 0 == some '#' then rest.dropWhile (!·.isBreak) else rest
  match rest with
  | [] => return { s with rest := [] }.push t
  | c :: below => if c.isBreak then return { s with rest := below }.push t else failure

/-! ## Tokens -/

/-- A token between documents closes every block collection. -/
def fetchOutside (s : Scanner) : Option Scanner := do
  return { ← (s.unroll (-1)).dropKey with keyAllowed := false }

def fetchMarker (s : Scanner) (t : Token) : Option Scanner := do
  return ((← s.fetchOutside).skip 3).push t

def openFlow (s : Scanner) (c : Cell) (t : Token) : Option Scanner := do
  let s ← s.saveKey c
  return ({ s with
    flow := s.flow + 1
    outerKeys := s.key :: s.outerKeys
    key := none
    keyAllowed := true }.skip 1).push t

def closeFlow (s : Scanner) (t : Token) : Option Scanner := do
  let s ← s.dropKey
  let s := match s.flow, s.outerKeys with
    | flow + 1, k :: outer => { s with flow, key := k, outerKeys := outer }
    | _, _ => s
  return ({ s with keyAllowed := false }.skip 1).push t

def fetchFlowEntry (s : Scanner) : Option Scanner := do
  return ({ ← s.dropKey with keyAllowed := true }.skip 1).push .flowEntry

/-- Begins an item or a key of a block collection, which it may open. -/
def fetchIndicator (s : Scanner) (c : Cell) (opening t : Token) (keyAllowed : Bool) :
    Option Scanner := do
  if !s.inFlow && !s.keyAllowed then failure
  let s ← (s.roll c.column s.tokens.size opening).dropKey
  return ({ s with keyAllowed }.skip 1).push t

def fetchValue (s : Scanner) (c : Cell) : Option Scanner :=
  match s.key with
  | some k =>
    let s := { s with tokens := s.tokens.insertIdxIfInBounds k.token .key }
    let s := s.roll k.column k.token .mappingStart
    some (({ s with key := none, keyAllowed := false }.skip 1).push .value)
  | none => do
    if !s.inFlow && !s.keyAllowed then failure
    let s := s.roll c.column s.tokens.size .mappingStart
    return ({ s with keyAllowed := !s.inFlow }.skip 1).push .value

def fetchName (s : Scanner) (c : Cell) (make : String → Token) : Option Scanner := do
  let s ← s.saveKey c
  let cs := s.rest.drop 1
  let name := cs.takeWhile fun d => isWord d.char
  let after := cs.drop name.length
  let ends := Cells.blankAt after 0
    || ((Cells.char? after 0).map "?:,]\x7d%@\x60".toList.contains).getD false
  if name.isEmpty || !ends then failure
  return { s with rest := after, keyAllowed := false }.push (make (Cells.text name))

def fetchTag (s : Scanner) (c : Cell) : Option Scanner := do
  return { ← (← s.saveKey c).readTag with keyAllowed := false }

def fetchBlock (s : Scanner) (folded : Bool) : Option Scanner := do
  let s ← s.dropKey
  let (text, rest) ← Scalar.block folded s.indent (s.rest.drop 1)
  return { s with rest, keyAllowed := true }.push (.scalar (String.ofList text) false)

def fetchQuoted (s : Scanner) (c : Cell) : Option Scanner := do
  let s ← s.saveKey c
  let (text, rest) ← if c.has '"' then Scalar.doubleFrom .empty [] (s.rest.drop 1)
    else Scalar.singleFrom .empty [] (s.rest.drop 1)
  return { s with rest, keyAllowed := false }.push (.scalar (String.ofList text) false)

def fetchPlain (s : Scanner) (c : Cell) : Option Scanner := do
  let s ← s.saveKey c
  let r ← Scalar.plain s.inFlow (s.indent + 1) s.rest
  return { s with rest := r.rest, keyAllowed := r.brokenLine }.push
    (.scalar (String.ofList r.text) true)

/-- Characters that no plain scalar begins with; the first three may when no blank follows. -/
def indicators : List Char := "-?:,[]\x7b\x7d#&*!|>'\"%@\x60".toList

def beginsPlain (s : Scanner) (c : Cell) : Bool :=
  !(c.isBlank || indicators.contains c.char)
    || (c.has '-' && !((s.rest.char? 1).map isBlank).getD false)
    || (!s.inFlow && (c.has '?' || c.has ':') && !s.blankAt 1)

def fetch (s : Scanner) (c : Cell) : Option Scanner :=
  if c.column = 0 && c.has '%' then do (← s.fetchOutside).readDirective
  else if s.rest.isMarker '-' then s.fetchMarker .documentStart
  else if s.rest.isMarker '.' then s.fetchMarker .documentEnd
  else match c.char with
    | '[' => s.openFlow c .flowSequenceStart
    | '\x7b' => s.openFlow c .flowMappingStart
    | ']' => s.closeFlow .flowSequenceEnd
    | '\x7d' => s.closeFlow .flowMappingEnd
    | ',' => s.fetchFlowEntry
    | '*' => s.fetchName c .aliasOf
    | '&' => s.fetchName c .anchor
    | '!' => s.fetchTag c
    | '\'' | '"' => s.fetchQuoted c
    | ch =>
      if ch = '-' ∧ s.blankAt 1 then s.fetchIndicator c .sequenceStart .entry true
      else if ch = '?' ∧ (s.inFlow || s.blankAt 1) then
        s.fetchIndicator c .mappingStart .key (!s.inFlow)
      else if ch = ':' ∧ (s.inFlow || s.blankAt 1) then s.fetchValue c
      else if (ch = '|' ∨ ch = '>') ∧ !s.inFlow then s.fetchBlock (ch = '>')
      else if s.beginsPlain c then s.fetchPlain c
      else none

def finish (s : Scanner) : Option (List Token) := do
  return ((← s.fetchOutside).push .streamEnd).tokens.toList

/-- Reads all tokens. Each one takes a cell, so the number of cells is fuel enough. -/
def scan : Nat → Scanner → Option (List Token)
  | 0, s => s.skipToToken.finish
  | fuel + 1, s =>
    let s := s.skipToToken
    match s.rest with
    | [] => s.finish
    | c :: _ => do
      let s ← s.dropStale c
      scan fuel (← (s.unroll c.column).fetch c)

end Scanner

/-- The tokens of a text; a mark of byte order at its beginning is passed over. -/
def Token.ofText? (text : String) : Option (List Token) :=
  let cs := text.toList
  if !cs.all isAllowed then none
  else
    let cells := Cell.ofChars cs
    let cells := if cs.head? = some byteOrderMark then cells.drop 1 else cells
    Scanner.scan cells.length { rest := cells }

end PagePipes.Yaml
