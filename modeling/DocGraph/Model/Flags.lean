/-! The flags of a sequence diagram node. Bits without a declared flag are kept. -/
namespace DocGraph

structure Flags where
  bits : UInt32
  deriving DecidableEq, Repr, Inhabited

namespace Flags

/-- The node has been accounted for, normally because it receives a message. -/
def responds : Flags := ⟨0x0001⟩
def messageSend : Flags := ⟨0x0002⟩
def messageCall : Flags := ⟨0x0003⟩
def waitFor : Flags := ⟨0x0004⟩
def broadcast : Flags := ⟨0x0040⟩
def functionEnd : Flags := ⟨0x0080⟩
def function : Flags := ⟨0x0100⟩
def active : Flags := ⟨0x0200⟩
def tagged : Flags := ⟨0x0400⟩
def inFunction : Flags := ⟨0x0800⟩
def wait : Flags := ⟨0x1000⟩
def dependency : Flags := ⟨0x2000⟩
def message : Flags := ⟨0x4000⟩
def ghost : Flags := ⟨0x8000⟩

/-- The declared flags in order, with the names they are shown by. -/
def declared : List (String × Flags) := [
  ("RESPONDS", responds), ("MESSAGE_SEND", messageSend), ("MESSAGE_CALL", messageCall),
  ("WAIT_FOR", waitFor), ("BROADCAST", broadcast), ("FUNCTION_END", functionEnd),
  ("FUNCTION", function), ("ACTIVE", active), ("TAGGED", tagged), ("IN_FUNCTION", inFunction),
  ("WAIT", wait), ("DEPENDENCY", dependency), ("MESSAGE", message), ("GHOST", ghost)]

def union (left right : Flags) : Flags := ⟨left.bits ||| right.bits⟩

/-- All bits of a declared flag. -/
def all : Flags := declared.foldl (fun sum (_, flag) => sum.union flag) ⟨0⟩

def isEmpty (flags : Flags) : Bool := flags.bits == 0

def contains (flags other : Flags) : Bool := flags.bits &&& other.bits == other.bits

def intersects (flags other : Flags) : Bool := flags.bits &&& other.bits != 0

def without (flags other : Flags) : Flags := ⟨flags.bits &&& ~~~other.bits⟩

def truncate (flags : Flags) : Flags := ⟨flags.bits &&& all.bits⟩

def isKnown (flags : Flags) : Bool := (flags.without all).isEmpty

/-- Names of the flags that are set, as far as they say something that the flags before them do
not, and the bits that are left. -/
def namesFrom (flags left : Flags) : List (String × Flags) → List String × Flags
  | [] => ([], left)
  | (name, flag) :: rest =>
    if flags.contains flag && left.intersects flag then
      let (names, left) := namesFrom flags (left.without flag) rest
      (name :: names, left)
    else namesFrom flags left rest

def names (flags : Flags) : List String := (flags.namesFrom flags declared).1

def render (flags : Flags) : String :=
  let (names, left) := flags.namesFrom flags declared
  let hex := "0x" ++ String.ofList (Nat.toDigits 16 left.bits.toNat)
  let parts := if left.isEmpty && !flags.isEmpty then names else names ++ [hex]
  "NodeFlags(" ++ " | ".intercalate parts ++ ")"

end Flags

end DocGraph
