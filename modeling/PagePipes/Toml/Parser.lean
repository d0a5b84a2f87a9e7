import PagePipes.Toml.Scalar

set_option autoImplicit false

/-!
# Reading TOML

A document is a list of statements, one a line: pairs, headers, comments and blanks. `Toml.parse?`
answers the fields that they make, or nothing when the text breaks a rule. A reader answers what it
has read and the characters behind it.
-/
namespace PagePipes.Toml

/-! ## Blanks -/

def isSpace (c : Char) : Bool := c == ' ' || c == '\t'

def skipSpace (cs : List Char) : List Char := cs.dropWhile isSpace

/-- Characters that a comment or a text may hold as they are. -/
def isPlain (c : Char) : Bool :=
  let n := c.toNat
  c == '\t' || (decide (0x20 ≤ n) && n != 0x7f)

def newline? : List Char → Option (List Char)
  | '\n' :: rest => some rest
  | '\r' :: '\n' :: rest => some rest
  | _ => none

def skipComment : List Char → List Char
  | '#' :: rest => rest.dropWhile isPlain
  | cs => cs

def endLine? (cs : List Char) : Option (List Char) :=
  match skipComment (skipSpace cs) with
  | [] => some []
  | rest => newline? rest

def skipBlank : Nat → List Char → List Char
  | 0, cs => cs
  | fuel + 1, cs =>
    let cs := skipComment (skipSpace cs)
    match newline? cs with
    | some rest => skipBlank fuel rest
    | none => cs

/-! ## Texts -/

def escape? : List Char → Option (Char × List Char)
  | 'b' :: rest => some ('\x08', rest)
  | 'f' :: rest => some ('\x0c', rest)
  | 'n' :: rest => some ('\n', rest)
  | 'r' :: rest => some ('\r', rest)
  | 't' :: rest => some ('\t', rest)
  | '"' :: rest => some ('"', rest)
  | '\\' :: rest => some ('\\', rest)
  | 'u' :: rest => unicode 4 rest
  | 'U' :: rest => unicode 8 rest
  | _ => none
where
  unicode (width : Nat) (cs : List Char) : Option (Char × List Char) := do
    if cs.length < width then none
    let n ← Text.Hex.number? (cs.take width)
    if n.isValidChar then return (Char.ofNat n, cs.drop width) else none

/-- A text on one line up to its closing quote; escapes count only between double quotes. -/
def lineText (quote : Char) : Nat → List Char → Option (List Char × List Char)
  | 0, _ => none
  | _, [] => none
  | fuel + 1, c :: rest =>
    if c = quote then some ([], rest)
    else if c = '\\' ∧ quote = '"' then do
      let (e, rest) ← escape? rest
      let (more, rest) ← lineText quote fuel rest
      return (e :: more, rest)
    else if isPlain c then do
      let (more, rest) ← lineText quote fuel rest
      return (c :: more, rest)
    else none

/-- A backslash at the end of a line takes away all blanks and breaks up to the next character. -/
def joinedLine? (cs : List Char) : Option (List Char) := do
  let rest ← newline? (skipSpace cs)
  return rest.dropWhile fun c => isSpace c || c == '\n' || c == '\r'

/-- A text of several lines up to three closing quotes; one or two more quotes before them belong
to the text. -/
def linesText (quote : Char) : Nat → List Char → Option (List Char × List Char)
  | 0, _ => none
  | _, [] => none
  | fuel + 1, c :: rest =>
    if c = quote then
      let run := (c :: rest).takeWhile (· == quote)
      if run.length < 3 then do
        let (more, rest) ← linesText quote fuel rest
        return (c :: more, rest)
      else if run.length ≤ 5 then
        some (run.drop 3, (c :: rest).drop run.length)
      else none
    else if c = '\\' ∧ quote = '"' then
      match joinedLine? rest with
      | some rest => linesText quote fuel rest
      | none => do
        let (e, rest) ← escape? rest
        let (more, rest) ← linesText quote fuel rest
        return (e :: more, rest)
    else match newline? (c :: rest) with
      | some rest => do
        let (more, rest) ← linesText quote fuel rest
        return ('\n' :: more, rest)
      | none =>
        if isPlain c then do
          let (more, rest) ← linesText quote fuel rest
          return (c :: more, rest)
        else none

/-- A quoted text of either form; the break behind three opening quotes does not count. -/
def text? (cs : List Char) : Option (String × List Char) :=
  match cs with
  | '"' :: '"' :: '"' :: rest => several '"' rest
  | '\'' :: '\'' :: '\'' :: rest => several '\'' rest
  | '"' :: rest => single '"' rest
  | '\'' :: rest => single '\'' rest
  | _ => none
where
  single (quote : Char) (cs : List Char) : Option (String × List Char) := do
    let (t, rest) ← lineText quote (cs.length + 1) cs
    return (String.ofList t, rest)
  several (quote : Char) (cs : List Char) : Option (String × List Char) := do
    let cs := (newline? cs).getD cs
    let (t, rest) ← linesText quote (cs.length + 1) cs
    return (String.ofList t, rest)

/-! ## Keys -/

def isKeyChar (c : Char) : Bool := c.isAlphanum || c == '-' || c == '_'

def simpleKey? (cs : List Char) : Option (String × List Char) :=
  match cs with
  | '"' :: rest => text?.single '"' rest
  | '\'' :: rest => text?.single '\'' rest
  | _ =>
    let key := cs.takeWhile isKeyChar
    if key.isEmpty then none else some (String.ofList key, cs.drop key.length)

def keys? : Nat → List Char → Option (List String × List Char)
  | 0, _ => none
  | fuel + 1, cs => do
    let (key, rest) ← simpleKey? (skipSpace cs)
    match skipSpace rest with
    | '.' :: rest => do
      let (more, rest) ← keys? fuel rest
      return (key :: more, rest)
    | rest => return ([key], rest)

/-- Values inside values, and keys behind keys, go this deep. -/
def depthLimit : Nat := 80

def keyPath? (cs : List Char) : Option (KeyPath × List Char) := do
  let (ks, rest) ← keys? (cs.length + 1) cs
  if depthLimit ≤ ks.length then none
  match ks.getLast? with
  | some last => return (⟨ks.dropLast, last⟩, rest)
  | none => none

/-! ## Values -/

def isWordChar (c : Char) : Bool :=
  c.isAlphanum || c == '_' || c == '+' || c == '-' || c == '.' || c == ':'

/-- A word; a date and a time of day with a blank between them are one. -/
def word? (cs : List Char) : Option (Toml × List Char) := do
  let word := cs.takeWhile isWordChar
  let rest := cs.drop word.length
  match rest with
  | ' ' :: next =>
    let time := next.takeWhile isWordChar
    if isDate word && !time.isEmpty then
      return (← ofWord? (word ++ ' ' :: time), next.drop time.length)
    else return (← ofWord? word, rest)
  | _ => return (← ofWord? word, rest)

mutual

def value? : Nat → (depth : Nat) → List Char → Option (Toml × List Char)
  | 0, _, _ => none
  | fuel + 1, depth, cs =>
    match cs with
    | '[' :: rest => do
      if depthLimit ≤ depth + 1 then none
      let (xs, rest) ← items? fuel (depth + 1) rest
      return (.array xs, rest)
    | '\x7b' :: rest => do
      if depthLimit ≤ depth + 1 then none
      match skipSpace rest with
      | '\x7d' :: rest => return (.table .inline [], rest)
      | rest =>
        let (ps, rest) ← pairs? fuel (depth + 1) rest
        return (.table .inline (← ofPairs? ps), rest)
    | '"' :: _ | '\'' :: _ => do
      let (s, rest) ← text? cs
      return (.text s, rest)
    | _ => word? cs

def items? : Nat → (depth : Nat) → List Char → Option (List Toml × List Char)
  | 0, _, _ => none
  | fuel + 1, depth, cs =>
    match skipBlank (cs.length + 1) cs with
    | ']' :: rest => some ([], rest)
    | cs => do
      let (x, rest) ← value? fuel depth cs
      match skipBlank (rest.length + 1) rest with
      | ']' :: rest => return ([x], rest)
      | ',' :: rest => do
        let (xs, rest) ← items? fuel depth rest
        return (x :: xs, rest)
      | _ => none

/-- The pairs of an inline table, at least one, and its closing brace. -/
def pairs? : Nat → (depth : Nat) → List Char → Option (List (KeyPath × Toml) × List Char)
  | 0, _, _ => none
  | fuel + 1, depth, cs => do
    let (k, rest) ← keyPath? cs
    match rest with
    | '=' :: rest => do
      let (v, rest) ← value? fuel depth (skipSpace rest)
      match skipSpace rest with
      | '\x7d' :: rest => return ([(k, v)], rest)
      | ',' :: rest => do
        let (more, rest) ← pairs? fuel depth rest
        return ((k, v) :: more, rest)
      | _ => none
    | _ => none

end

/-! ## Documents -/

def statement? (cs : List Char) : Option (Statement × List Char) :=
  match cs with
  | '[' :: '[' :: rest => do
    let (k, rest) ← keyPath? rest
    match rest with
    | ']' :: ']' :: rest => return (.arrayHeader k, rest)
    | _ => none
  | '[' :: rest => do
    let (k, rest) ← keyPath? rest
    match rest with
    | ']' :: rest => return (.header k, rest)
    | _ => none
  | _ => do
    let (k, rest) ← keyPath? cs
    match rest with
    | '=' :: rest => do
      let rest := skipSpace rest
      let (v, rest) ← value? (2 * rest.length + 2) 0 rest
      return (.pair k v, rest)
    | _ => none

def statements? : Nat → List Char → Option (List Statement)
  | 0, _ => none
  | fuel + 1, cs =>
    match skipBlank (cs.length + 1) cs with
    | [] => some []
    | cs => do
      let (s, rest) ← statement? cs
      return s :: (← statements? fuel (← endLine? rest))

def parse? (s : String) : Option Fields := do
  let cs := match s.toList with
    | '\ufeff' :: rest => rest
    | cs => cs
  ofStatements? (← statements? (cs.length + 1) cs)

end PagePipes.Toml
