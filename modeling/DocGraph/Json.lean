/-! JSON values and their indented text form. -/
namespace DocGraph

inductive Json
  | text (value : String)
  | number (value : Nat)
  | array (items : List Json)
  | object (fields : List (String × Json))

namespace Json

/-- An object with its fields in the order of their names. -/
def record (fields : List (String × Json)) : Json :=
  .object (fields.mergeSort fun left right => left.1 ≤ right.1)

def escape (c : Char) : List Char :=
  match c with
  | '"' => ['\\', '"']
  | '\\' => ['\\', '\\']
  | '\x08' => ['\\', 'b']
  | '\x0C' => ['\\', 'f']
  | '\n' => ['\\', 'n']
  | '\r' => ['\\', 'r']
  | '\t' => ['\\', 't']
  | c =>
    if c.toNat < 0x20 then
      ['\\', 'u', '0', '0', Nat.digitChar (c.toNat / 16), Nat.digitChar (c.toNat % 16)]
    else [c]

def quote (text : String) : String := String.ofList ('"' :: text.toList.flatMap escape ++ ['"'])

/-- Parts on lines of their own between two brackets, indented by two more columns than the
brackets. -/
def bracketed (indent : Nat) (opening closing : String) (parts : List String) : String :=
  if parts.isEmpty then opening ++ closing
  else
    let margin := "".pushn ' ' (indent + 2)
    opening ++ "\n" ++ ",\n".intercalate (parts.map (margin ++ ·)) ++ "\n" ++ "".pushn ' ' indent
      ++ closing

mutual

def pretty (indent : Nat) : Json → String
  | text value => quote value
  | number value => toString value
  | array items => bracketed indent "[" "]" (prettyItems indent items)
  | object fields => bracketed indent "\x7b" "\x7d" (prettyFields indent fields)

def prettyItems (indent : Nat) : List Json → List String
  | [] => []
  | item :: rest => pretty (indent + 2) item :: prettyItems indent rest

def prettyFields (indent : Nat) : List (String × Json) → List String
  | [] => []
  | (name, value) :: rest =>
    (quote name ++ ": " ++ pretty (indent + 2) value) :: prettyFields indent rest

end

end Json

end DocGraph
