import DocGraph.Text.Utf8
import DocGraph.Text.Unprintable

/-! Names and texts of a model file. They are byte strings that need not be UTF-8, with a mark for
text whose line breaks are to be kept. Two names are the same text when their bytes agree; the mark
does not count. -/
namespace DocGraph.Quoted

def escape (c : Char) : List Char :=
  match c with
  | '\x00' => ['\\', '0']
  | '\t' => ['\\', 't']
  | '\n' => ['\\', 'n']
  | '\r' => ['\\', 'r']
  | '"' => ['\\', '"']
  | '\\' => ['\\', '\\']
  | c =>
    if Unprintable.contains c then
      ['\\', 'u', '\x7b'] ++ Nat.toDigits 16 c.toNat ++ ['\x7d']
    else [c]

/-- Text in double quotes, with escapes for quotes, backslashes and what cannot be shown. -/
def encode (text : String) : String :=
  String.ofList ('"' :: text.toList.flatMap escape ++ ['"'])

end DocGraph.Quoted

namespace DocGraph

structure Name where
  bytes : Bytes
  fixed : Bool := false
  deriving DecidableEq, Repr, Inhabited

namespace Name

def ofText (text : String) : Name := ⟨Bytes.ofText text, false⟩

def length (name : Name) : Nat := name.bytes.length

def isEmpty (name : Name) : Bool := name.bytes.isEmpty

/-- The same name without its mark. -/
def plain (name : Name) : Name := ⟨name.bytes, false⟩

def sameText (left right : Name) : Bool := left.bytes == right.bytes

def isText (name : Name) (text : String) : Bool := name.bytes == Bytes.ofText text

/-- The name as it is shown: ill-formed bytes become U+FFFD. -/
def text (name : Name) : String := Utf8.lossy name.bytes

def quoted (name : Name) : String := "Name(" ++ Quoted.encode name.text ++ ")"

/-- How many different texts there are among the names. -/
def distinct (names : List Name) : Nat := (names.map bytes).eraseDups.length

end Name

end DocGraph
