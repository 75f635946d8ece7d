import DocGraph.Toml.Scalar

/-! Strings of TOML: in double quotes with escapes or in single quotes without, on one line or
between three quotes on many. A reader is given the characters after the opening quotes, and gives
the text and what follows the closing quotes. No text is longer than the `size` of its document. -/
namespace DocGraph.Toml.Text

def isTextChar (c : Char) : Bool := c == '\t' || (0x20 ≤ c.toNat && c.toNat != 0x7F)

def isBlank (c : Char) : Bool := c == ' ' || c == '\t'

def newline? : List Char → Option (List Char)
  | '\n' :: rest => some rest
  | '\r' :: '\n' :: rest => some rest
  | _ => none

def codePoint? (count : Nat) (chars : List Char) : Option (Char × List Char) :=
  let digits := chars.take count
  let n := Scalar.value 16 digits
  if digits.length = count ∧ digits.all (Scalar.isDigitOf 16) ∧ n.isValidChar then
    some (Char.ofNat n, chars.drop count)
  else none

def escape? : List Char → Option (Char × List Char)
  | 'b' :: rest => some ('\x08', rest)
  | 't' :: rest => some ('\t', rest)
  | 'n' :: rest => some ('\n', rest)
  | 'f' :: rest => some ('\x0C', rest)
  | 'r' :: rest => some ('\r', rest)
  | 'e' :: rest => some ('\x1B', rest)
  | '"' :: rest => some ('"', rest)
  | '\\' :: rest => some ('\\', rest)
  | 'x' :: rest => codePoint? 2 rest
  | 'u' :: rest => codePoint? 4 rest
  | 'U' :: rest => codePoint? 8 rest
  | _ => none

/-- On one line in double quotes; `fuel` bounds the number of characters. -/
def basic? : Nat → List Char → Option (List Char × List Char)
  | 0, _ => none
  | fuel + 1, chars =>
    match chars with
    | '"' :: rest => some ([], rest)
    | '\\' :: rest => do
      let (c, rest) ← escape? rest
      let (text, rest) ← basic? fuel rest
      return (c :: text, rest)
    | c :: rest => do
      if !isTextChar c then none
      let (text, rest) ← basic? fuel rest
      return (c :: text, rest)
    | [] => none

/-- On one line in single quotes. -/
def literal? : List Char → Option (List Char × List Char)
  | '\'' :: rest => some ([], rest)
  | c :: rest =>
    if isTextChar c then (literal? rest).map fun (text, rest) => (c :: text, rest) else none
  | [] => none

/-- Quotes at the end of a text on many lines: up to two belong to the text, and three close it. -/
def closing? (quote : Char) (chars : List Char) : Option (List Char × List Char) :=
  let run := min 5 (chars.takeWhile (· == quote)).length
  if run < 3 then none else some (List.replicate (run - 3) quote, chars.drop run)

def skipBreaks : List Char → List Char
  | '\r' :: '\n' :: rest => skipBreaks rest
  | c :: rest => if isBlank c || c == '\n' then skipBreaks rest else c :: rest
  | [] => []

def continuation? (chars : List Char) : Option (List Char) :=
  (newline? (chars.dropWhile isBlank)).map skipBreaks

/-- On many lines, with escapes when the quote is double. -/
def lines? (quote : Char) : Nat → List Char → Option (List Char × List Char)
  | 0, _ => none
  | fuel + 1, chars =>
    match closing? quote chars with
    | some closed => some closed
    | none =>
      match chars with
      | [] => none
      | c :: rest =>
        if c = '\\' && quote = '"' then
          match continuation? rest with
          | some rest => lines? quote fuel rest
          | none => do
            let (c, rest) ← escape? rest
            let (text, rest) ← lines? quote fuel rest
            return (c :: text, rest)
        else match newline? chars with
          | some after => do
            let (text, rest) ← lines? quote fuel after
            return (if c = '\r' then '\r' :: '\n' :: text else c :: text, rest)
          | none => do
            if !isTextChar c then none
            let (text, rest) ← lines? quote fuel rest
            return (c :: text, rest)

/-- A text on many lines; a line break right after the opening quotes is not part of it. -/
def block? (quote : Char) (size : Nat) (chars : List Char) : Option (List Char × List Char) :=
  lines? quote size ((newline? chars).getD chars)

def line? (size : Nat) : List Char → Option (List Char × List Char)
  | '"' :: rest => basic? size rest
  | '\'' :: rest => literal? rest
  | _ => none

def read? (size : Nat) : List Char → Option (List Char × List Char)
  | '"' :: '"' :: '"' :: rest => block? '"' size rest
  | '\'' :: '\'' :: '\'' :: rest => block? '\'' size rest
  | chars => line? size chars

end DocGraph.Toml.Text
