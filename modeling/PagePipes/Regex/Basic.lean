import PagePipes.Regex.CharSet

set_option autoImplicit false

/-!
# Regular expressions

The meaning of an expression is what it does to sets of positions of a text: from the positions
where a match may begin to the positions where it may end. A position set is a bit mask, bit `i`
standing for the place before the character of index `i`.
-/
namespace PagePipes

/-- A condition on a position that takes no character. -/
inductive Regex.Look
  | textStart
  | textEnd
  /-- The start of a line; lines end with a line feed, or with a carriage return too. -/
  | lineStart (crlf : Bool)
  | lineEnd (crlf : Bool)
  | wordBoundary
  | notWordBoundary
  | wordStart
  | wordEnd
  | wordStartHalf
  | wordEndHalf
  deriving DecidableEq, Repr

inductive Regex
  | empty
  | set (members : Regex.CharSet)
  | look (condition : Regex.Look)
  | seq (first second : Regex)
  | alt (first second : Regex)
  /-- At least `min` times, and at most `max` times if there is a bound. -/
  | repeat (inner : Regex) (min : Nat) (max : Option Nat)

namespace Regex

def isWordChar (c : Option Char) : Bool :=
  match c with
  | some c => CharSet.words.has c
  | none => false

def Look.holds (before after : Option Char) : Look → Bool
  | .textStart => before.isNone
  | .textEnd => after.isNone
  | .lineStart false => before.isNone || before == some '\n'
  | .lineStart true =>
    before.isNone || before == some '\n' || (before == some '\r' && after != some '\n')
  | .lineEnd false => after.isNone || after == some '\n'
  | .lineEnd true =>
    after.isNone || after == some '\r' || (after == some '\n' && before != some '\r')
  | .wordBoundary => isWordChar before != isWordChar after
  | .notWordBoundary => isWordChar before == isWordChar after
  | .wordStart => !isWordChar before && isWordChar after
  | .wordEnd => isWordChar before && !isWordChar after
  | .wordStartHalf => !isWordChar before
  | .wordEndHalf => !isWordChar after

/-- A set of positions as a bit mask. -/
abbrev Positions := Nat

/-- The positions whose next character belongs to the set. -/
def setMask (members : CharSet) (text : List Char) : Positions :=
  (text.foldl (fun (m, bit) c => (if members.has c then m ||| bit else m, bit * 2))
    ((0, 1) : Nat × Nat)).1

/-- The positions where a condition holds, from the place after `before` on. -/
def lookMask (condition : Look) : Option Char → List Char → Nat → Positions → Positions
  | before, [], bit, mask => if condition.holds before none then mask ||| bit else mask
  | before, c :: rest, bit, mask =>
    lookMask condition (some c) rest (bit * 2)
      (if condition.holds before (some c) then mask ||| bit else mask)

/-- Repeats a step a number of times, stopping early where it no longer changes the set. -/
def iterate (step : Positions → Positions) : Nat → Positions → Positions
  | 0, s => s
  | n + 1, s =>
    let t := step s
    if t = s then s else iterate step n t

/-- The union of the sets that up to a number of steps reach. -/
def reach (step : Positions → Positions) : Nat → Positions → Positions
  | 0, s => s
  | n + 1, s =>
    let t := s ||| step s
    if t = s then s else reach step n t

/-- Where matches that begin in a set of positions may end. -/
def ends (text : List Char) : Regex → Positions → Positions
  | .empty, s => s
  | .set members, s => (s &&& setMask members text) <<< 1
  | .look condition, s => s &&& lookMask condition none text 1 0
  | .seq a b, s => ends text b (ends text a s)
  | .alt a b, s => ends text a s ||| ends text b s
  | .repeat inner min max, s =>
    let least := iterate (ends text inner) min s
    match max with
    | some m => reach (ends text inner) (m - min) least
    | none => reach (ends text inner) (text.length + 1) least

def isMatch (r : Regex) (text : String) : Bool :=
  let cs := text.toList
  ends cs r ((1 <<< (cs.length + 1)) - 1) != 0

theorem isMatch_empty (text : String) : isMatch .empty text = true := by
  have h : 2 ≤ 1 <<< (text.toList.length + 1) := by
    rw [Nat.one_shiftLeft, Nat.pow_succ]
    have := Nat.one_le_two_pow (n := text.toList.length)
    omega
  have h' : (1 <<< (text.toList.length + 1)) - 1 ≠ 0 := by omega
  simpa [isMatch, ends] using h'

end Regex
end PagePipes
