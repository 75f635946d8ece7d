import DocGraph.Toml.Text

/-! The statements of a TOML document: headers and assignments, each on a line of its own except
that strings, arrays and inline tables may run over several. What a document holds is bounded by its
`size`, which is more than the number of its characters. -/
namespace DocGraph.Toml

inductive Statement
  | table (path : KeyPath)
  | element (path : KeyPath)
  | assign (path : KeyPath) (value : Item)

namespace Statement

/-- The greatest number of arrays and inline tables inside one another, and of keys with points
between them. -/
def maxDepth : Nat := 80

def skipBlanks (chars : List Char) : List Char := chars.dropWhile Text.isBlank

def lineEnd? (chars : List Char) : Option (List Char) :=
  let chars := match skipBlanks chars with
    | '#' :: comment => comment.dropWhile Text.isTextChar
    | chars => chars
  if chars.isEmpty then some [] else Text.newline? chars

/-- Skips blanks, comments and line breaks, from inside a comment on or not. -/
def skipFrom (inComment : Bool) : List Char → List Char
  | [] => []
  | '\n' :: rest => skipFrom false rest
  | '\r' :: '\n' :: rest => skipFrom false rest
  | c :: rest =>
    if inComment then if Text.isTextChar c then skipFrom true rest else c :: rest
    else if c = '#' then skipFrom true rest
    else if Text.isBlank c then skipFrom false rest
    else c :: rest

def skipSpace (chars : List Char) : List Char := skipFrom false chars

def isBareChar (c : Char) : Bool := c.isAlphanum || c == '_' || c == '-'

def key? (size : Nat) (chars : List Char) : Option (String × List Char) :=
  match Text.line? size chars with
  | some (text, rest) => some (String.ofList text, rest)
  | none =>
    let bare := chars.takeWhile isBareChar
    if bare.isEmpty then none else some (String.ofList bare, chars.dropWhile isBareChar)

/-- At most `count` keys with points between them; blanks may stand around each. -/
def keys? (size : Nat) : Nat → List Char → Option (KeyPath × List Char)
  | 0, _ => none
  | count + 1, chars => do
    let (key, rest) ← key? size (skipBlanks chars)
    match skipBlanks rest with
    | '.' :: rest =>
      let (path, rest) ← keys? size count rest
      return ({ path with parents := key :: path.parents }, rest)
    | rest => return (⟨[], key⟩, rest)

def path? (size : Nat) (chars : List Char) : Option (KeyPath × List Char) :=
  keys? size maxDepth chars

/-- Items between commas up to a closing mark; a comma may follow the last one. There are fewer items
than characters. -/
def items? (closing : Char) (item? : List Char → Option (α × List Char)) :
    Nat → List Char → Option (List α × List Char)
  | 0, _ => none
  | fuel + 1, chars =>
    match skipSpace chars with
    | [] => none
    | c :: rest =>
      if c = closing then some ([], rest)
      else do
        let (first, rest) ← item? (c :: rest)
        match skipSpace rest with
        | ',' :: rest =>
          let (items, rest) ← items? closing item? fuel rest
          return (first :: items, rest)
        | c :: rest => if c = closing then some ([first], rest) else none
        | [] => none

/-- A key, an equals sign, and the value after it; `skip` passes over what may stand on both sides
of the equals sign. -/
def assignment? (size : Nat) (skip : List Char → List Char)
    (value? : List Char → Option (Item × List Char)) (chars : List Char) :
    Option ((KeyPath × Item) × List Char) := do
  let (path, rest) ← path? size chars
  match skip rest with
  | '=' :: rest =>
    let (value, rest) ← value? (skip rest)
    return ((path, value), rest)
  | _ => none

def value? (size depth : Nat) (chars : List Char) : Option (Item × List Char) :=
  match chars with
  | '"' :: _ | '\'' :: _ => do
    let (text, rest) ← Text.read? size chars
    return (.text (String.ofList text), rest)
  | '[' :: rest =>
    match depth with
    | 0 => none
    | depth + 1 => do
      let (items, rest) ← items? ']' (value? size depth) size rest
      return (.array items, rest)
  | '\x7b' :: rest =>
    match depth with
    | 0 => none
    | depth + 1 => do
      let pair? := assignment? size skipSpace (value? size depth)
      let (pairs, rest) ← items? '\x7d' pair? size rest
      let assign := fun entries (path, value) => Entries.assign path value .inline entries
      return (.table .inline (← pairs.foldlM assign []), rest)
  | chars => do
    let (word, rest) := Scalar.takeWord chars
    return (← Scalar.ofWord? word, rest)
termination_by structural depth

def one? (size : Nat) : List Char → Option (Statement × List Char)
  | '[' :: '[' :: rest => do
    match ← path? size rest with
    | (path, ']' :: ']' :: rest) => some (.element path, rest)
    | _ => none
  | '[' :: rest => do
    match ← path? size rest with
    | (path, ']' :: rest) => some (.table path, rest)
    | _ => none
  | chars => do
    let ((path, value), rest) ← assignment? size skipBlanks (value? size maxDepth) chars
    return (.assign path value, rest)

def all? (size : Nat) : Nat → List Char → Option (List Statement)
  | 0, _ => none
  | count + 1, chars =>
    match skipSpace chars with
    | [] => some []
    | chars => do
      let (statement, rest) ← one? size chars
      let rest ← lineEnd? rest
      return statement :: (← all? size count rest)

/-- The statements of a document; a byte order mark before them is skipped. -/
def ofText? (text : String) : Option (List Statement) :=
  let chars := match text.toList with
    | '\uFEFF' :: rest => rest
    | chars => chars
  let size := chars.length + 1
  all? size size chars

end Statement

end DocGraph.Toml
