import PagePipes.Text.Hex
import PagePipes.Yaml.Cell

set_option autoImplicit false

/-!
# Reading scalars

A scalar is written plain, between quotes, or as a block of lines. Each reader answers the text and
the cells behind it; what cannot be read is `none`. A single line break inside a plain or quoted
scalar is folded into a space, and of several all but the first stay.
-/
namespace PagePipes.Yaml.Scalar

/-- Blanks and breaks that wait for the next character of a scalar. -/
inductive Gap
  | blanks (chars : List Char)
  /-- The first break, unless an escape took it, and the breaks after it. -/
  | breaks (first : Option Char) (more : List Char)
  deriving DecidableEq, Repr

namespace Gap

def empty : Gap := .blanks []

def isBreaks : Gap → Bool
  | .blanks _ => false
  | .breaks _ _ => true

/-- The gap with one more blank; blanks between lines are dropped. -/
def addBlank (c : Char) : Gap → Gap
  | .blanks cs => .blanks (cs ++ [c])
  | g => g

def addBreak (c : Char) : Gap → Gap
  | .blanks _ => .breaks (some c) []
  | .breaks first more => .breaks first (more ++ [c])

def chars : Gap → List Char
  | .blanks cs => cs
  | .breaks (some '\n') [] => [' ']
  | .breaks (some '\n') more => more
  | .breaks first more => first.toList ++ more

end Gap

/-! ## Plain scalars -/

def endsPlain (flow : Bool) (cs : Cells) : Bool :=
  match cs with
  | [] => true
  | c :: _ =>
    (c.has ':' && cs.blankAt 1)
      || (flow && [',', '[', ']', '\x7b', '\x7d'].contains c.char)

def badColon (flow : Bool) (cs : Cells) : Bool :=
  flow && cs.char? 0 == some ':'
    && ((cs.char? 1).map [',', '?', '[', ']', '\x7b', '\x7d'].contains).getD false

/-- Whether a plain scalar stops at a word: it is out of the block, a document marker, or a
comment. -/
def stopsPlain (flow : Bool) (indent : Int) (cs : Cells) : Bool :=
  match cs with
  | [] => true
  | c :: _ => (!flow && (c.column : Int) < indent) || cs.isDocumentMarker || c.has '#'

/-- The text of a plain scalar, whether breaks follow it, and the cells behind it. -/
structure PlainRead where
  text : List Char
  brokenLine : Bool
  rest : Cells

/-- Reads a plain scalar. `word` tells whether the cell before was part of it; the characters read
so far are in reverse. -/
def plainFrom (flow : Bool) (indent : Int) (word : Bool) (gap : Gap) (out : List Char) :
    Cells → Option PlainRead
  | [] => some ⟨out.reverse, gap.isBreaks, []⟩
  | c :: rest =>
    let done : Option PlainRead := some ⟨out.reverse, gap.isBreaks, c :: rest⟩
    if c.isBreak then plainFrom flow indent false (gap.addBreak c.char) out rest
    else if c.isBlank then
      if gap.isBreaks && (c.column : Int) < indent && c.has '\t' then none
      else plainFrom flow indent false (gap.addBlank c.char) out rest
    else if !word && stopsPlain flow indent (c :: rest) then done
    else if badColon flow (c :: rest) then none
    else if endsPlain flow (c :: rest) then done
    else plainFrom flow indent true .empty (c.char :: (gap.chars.reverse ++ out)) rest

def plain (flow : Bool) (indent : Int) (cs : Cells) : Option PlainRead :=
  plainFrom flow indent true .empty [] cs

/-! ## Quoted scalars -/

def escape? (c : Char) : Option Char :=
  [('0', '\x00'), ('a', '\x07'), ('b', '\x08'), ('t', '\t'), ('\t', '\t'), ('n', '\n'),
    ('v', '\x0b'), ('f', '\x0c'), ('r', '\r'), ('e', '\x1b'), (' ', ' '), ('"', '"'),
    ('/', '/'), ('\\', '\\'), ('N', nextLine), ('_', '\u00a0'), ('L', lineSeparator),
    ('P', paragraphSeparator)].lookup c

def escapeDigits? (c : Char) : Option Nat := [('x', 2), ('u', 4), ('U', 8)].lookup c

def charOfNumber? (n : Nat) : Option Char :=
  if h : n.isValidChar then some (Char.ofNatAux n h) else none

def escapedNumber? (digits : Nat) (cs : Cells) : Option Char := do
  let ds := cs.take digits
  if ds.length < digits then failure
  charOfNumber? (← Text.Hex.number? (ds.map (·.char)))

/-- Reads a scalar between double quotes, behind the first one. -/
def doubleFrom (gap : Gap) (out : List Char) (cs : Cells) : Option (List Char × Cells) :=
  match cs with
  | [] => none
  | c :: rest =>
    let before := gap.chars.reverse ++ out
    if c.isBreak then doubleFrom (gap.addBreak c.char) out rest
    else if c.isBlank then doubleFrom (gap.addBlank c.char) out rest
    else if cs.isDocumentMarker then none
    else if c.has '"' then some (before.reverse, rest)
    else if !c.has '\\' then doubleFrom .empty (c.char :: before) rest
    else match rest with
      | [] => none
      | d :: after =>
        if d.isBreak then doubleFrom (.breaks none []) before after
        else match escapeDigits? d.char with
          | some k =>
            match escapedNumber? k after with
            | some e => doubleFrom .empty (e :: before) (after.drop k)
            | none => none
          | none =>
            match escape? d.char with
            | some e => doubleFrom .empty (e :: before) after
            | none => none
termination_by cs.length
decreasing_by all_goals (simp_all; try omega)

def singleFrom (gap : Gap) (out : List Char) : Cells → Option (List Char × Cells)
  | [] => none
  | c :: rest =>
    let before := gap.chars.reverse ++ out
    if c.isBreak then singleFrom (gap.addBreak c.char) out rest
    else if c.isBlank then singleFrom (gap.addBlank c.char) out rest
    else if Cells.isDocumentMarker (c :: rest) then none
    else if !c.has '\'' then singleFrom .empty (c.char :: before) rest
    else match rest with
      | d :: after =>
        if d.has '\'' then singleFrom .empty ('\'' :: before) after
        else some (before.reverse, rest)
      | [] => some (before.reverse, [])

/-! ## Block scalars -/

/-- What happens to the breaks at the end of a block. -/
inductive Chomping
  | strip
  | clip
  | keep
  deriving DecidableEq, Repr

structure BlockHeader where
  chomping : Chomping := .clip
  /-- The indentation of the lines within the block around them, where it is written. -/
  indentation : Option Nat := none
  deriving DecidableEq, Repr

namespace BlockHeader

def chomping? (c : Char) : Option Chomping := [('+', .keep), ('-', .strip)].lookup c

/-- One indicator of a header; each kind may be written once, and an indentation is not zero. -/
def indicator (h : BlockHeader) (c : Char) : Option BlockHeader :=
  match chomping? c with
  | some chomping => if h.chomping = .clip then some { h with chomping } else none
  | none =>
    if c.isDigit && c != '0' && h.indentation.isNone then
      some { h with indentation := some (c.toNat - 48) }
    else none

def read (cs : Cells) : Option (BlockHeader × Cells) := do
  let marks := cs.takeWhile fun c => c.has '+' || c.has '-' || c.char.isDigit
  let h ← marks.foldlM (fun h c => h.indicator c.char) ({} : BlockHeader)
  let rest := (cs.drop marks.length).dropWhile (·.isBlank)
  let rest := if Cells.char? rest 0 == some '#' then rest.dropWhile (!·.isBreak) else rest
  match rest with
  | [] => return (h, [])
  | c :: below => if c.isBreak then return (h, below) else failure

end BlockHeader

/-- Breaks between the lines of a block. `width` is the greatest column that was reached. -/
structure BlockGap where
  breaks : List Char := []
  width : Nat := 0
  rest : Cells := []

/-- Passes over indentation and empty lines; the indentation is known or to be found. -/
def blockGap (indent : Option Nat) (g : BlockGap) : Cells → Option BlockGap
  | [] => some { g with rest := [] }
  | c :: rest =>
    let inside := (indent.map fun n => decide (c.column < n)).getD true
    if inside && c.has ' ' then blockGap indent g rest
    else
      let g := { g with width := max g.width c.column }
      if inside && c.has '\t' then none
      else if c.isBreak then blockGap indent { g with breaks := g.breaks ++ [c.char] } rest
      else some { g with rest := c :: rest }

/-- The lines of a block so far, the break after the last one, and whether it began with a
blank. -/
structure BlockRead where
  text : List Char := []
  lastBreak : Option Char := none
  blankStart : Bool := false

/-- What stands between two lines: a folded break is a space, or nothing before empty lines. -/
def blockJoin (folded : Bool) (b : BlockRead) (breaks : List Char) (blankStart : Bool) :
    List Char :=
  if folded && b.lastBreak == some '\n' && !b.blankStart && !blankStart then
    if breaks.isEmpty then [' '] else breaks
  else b.lastBreak.toList ++ breaks

/-- Reads the lines of a block. At each turn a line is consumed, so the number of cells is fuel
enough. -/
def blockLines (folded : Bool) (indent : Nat) : Nat → BlockRead → BlockGap →
    Option (BlockRead × BlockGap)
  | 0, b, g => some (b, g)
  | fuel + 1, b, g =>
    match g.rest with
    | [] => some (b, g)
    | c :: _ =>
      if c.column ≠ indent then some (b, g)
      else do
        let line := g.rest.takeWhile (!·.isBreak)
        let after := g.rest.drop line.length
        let b : BlockRead := {
          text := b.text ++ blockJoin folded b g.breaks c.isBlank ++ line.map (·.char)
          lastBreak := Cells.char? after 0
          blankStart := c.isBlank }
        blockLines folded indent fuel b (← blockGap (some indent) {} (after.drop 1))

def block (folded : Bool) (outer : Int) (cs : Cells) : Option (List Char × Cells) := do
  let (h, below) ← BlockHeader.read cs
  let given := h.indentation.map fun n => (max outer 0).toNat + n
  let g ← blockGap given {} below
  let indent := given.getD (max g.width (max (outer + 1) 1).toNat)
  let (b, g) ← blockLines folded indent cs.length {} g
  let tail := match h.chomping with
    | .strip => []
    | .clip => b.lastBreak.toList
    | .keep => b.lastBreak.toList ++ g.breaks
  return (b.text ++ tail, g.rest)

end PagePipes.Yaml.Scalar
