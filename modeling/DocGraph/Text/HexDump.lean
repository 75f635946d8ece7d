import DocGraph.Bytes

/-! Hex dumps of a few bytes: sixteen hex columns, then the bytes as characters between bars. -/
namespace DocGraph.HexDump

/-- The number of bytes that a dump shows. -/
def width : Nat := 16

def digits (byte : UInt8) : List Char :=
  [Nat.digitChar (byte.toNat / 16), Nat.digitChar (byte.toNat % 16)]

/-- Printable ASCII stands for itself and every other byte for a dot. -/
def glyph (byte : UInt8) : Char :=
  if 0x20 ≤ byte ∧ byte ≤ 0x7E then Char.ofNat byte.toNat else '.'

def hexColumn (bytes : Bytes) : List Char := bytes.flatMap fun byte => digits byte ++ [' ']

def textColumn (bytes : Bytes) : List Char := '|' :: bytes.map glyph ++ ['|']

def render (bytes : Bytes) : String :=
  let shown := bytes.take width
  String.ofList (hexColumn shown ++ List.replicate (3 * (width - shown.length)) ' ' ++ textColumn shown)

end DocGraph.HexDump

namespace DocGraph

/-- Lower case hexadecimal, two digits to a byte. -/
def Bytes.hex (bytes : Bytes) : String := String.ofList (bytes.flatMap HexDump.digits)

end DocGraph
