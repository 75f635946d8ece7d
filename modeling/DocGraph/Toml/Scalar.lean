import DocGraph.Toml.Item

/-! Numbers, booleans, dates and times of TOML, which are the words without quotes. Underscores may stand
between the digits of a number. A number that starts with zero has no other digit before its point. -/
namespace DocGraph.Toml.Scalar

def isWordChar (c : Char) : Bool :=
  c.isAlphanum || c == '_' || c == '+' || c == '-' || c == '.' || c == ':'

/-- Digits with single underscores between them. -/
def digits? (isDigit : Char → Bool) : List Char → Option (List Char)
  | [] => none
  | [c] => if isDigit c then some [c] else none
  | c :: '_' :: rest => if isDigit c then (digits? isDigit rest).map (c :: ·) else none
  | c :: rest => if isDigit c then (digits? isDigit rest).map (c :: ·) else none

def digitValue (c : Char) : Nat :=
  if c.isDigit then c.toNat - '0'.toNat else c.toLower.toNat - 'a'.toNat + 10

def isDigitOf (base : Nat) (c : Char) : Bool :=
  (c.isDigit || ('a' ≤ c.toLower && c.toLower ≤ 'f')) && digitValue c < base

def value (base : Nat) (digits : List Char) : Nat :=
  digits.foldl (fun n c => n * base + digitValue c) 0

def decimal? (word : List Char) : Option (List Char) := do
  let digits ← digits? Char.isDigit word
  if digits.length > 1 && digits.head? = some '0' then none else some digits

def splitSign : List Char → Bool × List Char
  | '-' :: rest => (true, rest)
  | '+' :: rest => (false, rest)
  | rest => (false, rest)

def fits (n : Int) : Bool := -(Nat.pow 2 127 : Int) ≤ n && n < Nat.pow 2 128

/-- The number of some digits, unless it has more of them than 128 bits can hold in any base. -/
def natural? (base : Nat) (digits : List Char) : Option Nat :=
  let digits := digits.dropWhile (· == '0')
  if digits.length ≤ 128 then some (value base digits) else none

def integer? (word : List Char) : Option Int := do
  let n : Int ← match word with
    | '0' :: 'x' :: rest => do pure (← natural? 16 (← digits? (isDigitOf 16) rest) : Int)
    | '0' :: 'o' :: rest => do pure (← natural? 8 (← digits? (isDigitOf 8) rest) : Int)
    | '0' :: 'b' :: rest => do pure (← natural? 2 (← digits? (isDigitOf 2) rest) : Int)
    | word => do
      let (negative, rest) := splitSign word
      let n : Int ← natural? 10 (← decimal? rest)
      pure (if negative then -n else n)
  if fits n then some n else none

def isExponentMark (c : Char) : Bool := c == 'e' || c == 'E'

/-- Whether a number with the given digits and a power of ten is too large for 64 bit floating
point. Half a unit beyond the largest number already is. That bound is a whole number of 309 digits,
so that only as many digits matter. -/
def overflows (digits : List Char) (exponent : Int) : Bool :=
  let digits := digits.dropWhile (· == '0')
  let places := digits.length + exponent
  if digits.isEmpty || places < 309 then false
  else if 309 < places then true
  else
    let whole := value 10 ((digits ++ List.replicate 309 '0').take 309)
    Nat.pow 2 1024 - Nat.pow 2 970 ≤ whole

/-- The size of an exponent. Digits after it has reached 2 to the power of 16 do not count, so that
an exponent stays small however many digits it has. -/
def exponentSize (digits : List Char) : Nat :=
  digits.foldl (fun n c => if n < 0x10000 then n * 10 + digitValue c else n) 0

def exponent? : List Char → Option Int
  | mark :: rest =>
    if isExponentMark mark then do
      let (negative, rest) := splitSign rest
      let digits ← digits? Char.isDigit rest
      let n : Int := exponentSize digits
      some (if negative then -n else n)
    else none
  | [] => none

def isFloat (word : List Char) : Bool :=
  let (_, rest) := splitSign word
  rest = ['i', 'n', 'f'] || rest = ['n', 'a', 'n'] || (do
    let whole ← decimal? (rest.takeWhile fun c => c != '.' && !isExponentMark c)
    match rest.dropWhile fun c => c != '.' && !isExponentMark c with
    | [] => none
    | '.' :: rest =>
      let fraction ← digits? Char.isDigit (rest.takeWhile (!isExponentMark ·))
      let exponent ← match rest.dropWhile (!isExponentMark ·) with
        | [] => some 0
        | rest => exponent? rest
      some (!overflows (whole ++ fraction) (exponent - fraction.length))
    | rest => some (!overflows whole (← exponent? rest))).getD false

/-- A number within bounds, of a fixed number of digits. -/
def field? (width low high : Nat) (chars : List Char) : Option (Nat × List Char) :=
  let digits := chars.take width
  let n := value 10 digits
  if digits.length = width && digits.all Char.isDigit && low ≤ n && n ≤ high then
    some (n, chars.drop width)
  else none

def after? (mark : Char) : List Char → Option (List Char)
  | c :: rest => if c = mark then some rest else none
  | [] => none

def daysOf (year month : Nat) : Nat :=
  if month = 2 then
    if (year % 4 = 0 && year % 100 ≠ 0) || year % 400 = 0 then 29 else 28
  else if month = 4 || month = 6 || month = 9 || month = 11 then 30 else 31

def date? (chars : List Char) : Option (List Char) := do
  let (year, rest) ← field? 4 0 9999 chars
  let (month, rest) ← field? 2 1 12 (← after? '-' rest)
  let (_, rest) ← field? 2 1 (daysOf year month) (← after? '-' rest)
  return rest

def minute? (chars : List Char) : Option (List Char) := do
  let (_, rest) ← field? 2 0 23 chars
  let (_, rest) ← field? 2 0 59 (← after? ':' rest)
  return rest

/-- What follows a time of day, which may leave out the seconds or a fraction of them. -/
def time? (chars : List Char) : Option (List Char) := do
  let rest ← minute? chars
  match after? ':' rest with
  | none => return rest
  | some rest =>
    let (_, rest) ← field? 2 0 60 rest
    match after? '.' rest with
    | none => return rest
    | some rest =>
      if (rest.takeWhile Char.isDigit).isEmpty then none else return rest.dropWhile Char.isDigit

def isOffset : List Char → Bool
  | [] => true
  | mark :: rest =>
    if mark = 'Z' || mark = 'z' then rest.isEmpty
    else (mark = '+' || mark = '-') && minute? rest = some []

/-- A date, a time of day, or both; only both may have an offset. -/
def isMoment (word : List Char) : Bool :=
  match date? word with
  | none => time? word = some []
  | some [] => true
  | some (mark :: rest) => (mark = 'T' || mark = 't' || mark = ' ') && (time? rest).any isOffset

/-- A word and what follows it. A blank between a date and a time is part of their word. -/
def takeWord (chars : List Char) : List Char × List Char :=
  let (word, rest) := chars.span isWordChar
  match rest with
  | ' ' :: c :: later =>
    if date? word = some [] && c.isDigit then
      let (time, rest) := (c :: later).span isWordChar
      (word ++ ' ' :: time, rest)
    else (word, rest)
  | _ => (word, rest)

def ofWord? (word : List Char) : Option Item :=
  if word = ['t', 'r', 'u', 'e'] then some (.boolean true)
  else if word = ['f', 'a', 'l', 's', 'e'] then some (.boolean false)
  else match integer? word with
    | some n => some (.integer n)
    | none =>
      if isFloat word then some (.float (String.ofList word))
      else if isMoment word then some (.moment (String.ofList word))
      else none

end DocGraph.Toml.Scalar
