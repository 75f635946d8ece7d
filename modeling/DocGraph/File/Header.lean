import DocGraph.Fault

/-! The eighteen bytes at the start of a model file: a signature, the version, when the file was
built, how many records it holds, and where its names start. -/
namespace DocGraph

structure Header where
  versionMajor : UInt8 := 1
  versionMinor : UInt8 := 0
  day : UInt8 := 1
  /-- Counted from zero. -/
  month : UInt8 := 0
  /-- Years since 1900. -/
  year : UInt8 := 70
  hour : UInt8 := 0
  minute : UInt8 := 0
  second : UInt8 := 0
  recordCount : UInt32 := 0
  nameStart : UInt16 := 0
  deriving DecidableEq, Repr, Inhabited

namespace Header

def size : Nat := 18

def signature : Bytes := [0x47, 0x44, 0x53, 0x4C]

/-- The newest major version that is read without a warning. -/
def supportedMajor : UInt8 := 1

/-- Reads a header; bytes after it are not looked at. -/
def parse (file : String) (bytes : Bytes) : Except Fault Header :=
  match bytes with
  | s0 :: s1 :: s2 :: s3 :: versionMajor :: versionMinor :: day :: month :: year :: hour :: minute
      :: second :: r0 :: r1 :: r2 :: r3 :: n0 :: n1 :: _ =>
    if [s0, s1, s2, s3] = signature then
      .ok { versionMajor, versionMinor, day, month, year, hour, minute, second,
            recordCount := Bytes.uint32 r0 r1 r2 r3, nameStart := Bytes.uint16 n0 n1 }
    else .error (.badSignature file)
  | short => .error (.shortRead file size short.length)

def toBytes (header : Header) : Bytes :=
  signature ++ [header.versionMajor, header.versionMinor, header.day, header.month, header.year,
    header.hour, header.minute, header.second]
    ++ Bytes.ofUInt32 header.recordCount ++ Bytes.ofUInt16 header.nameStart

@[simp] theorem length_toBytes (header : Header) : header.toBytes.length = size := rfl

def isNewer (header : Header) : Bool := header.versionMajor > supportedMajor

/-- A number filled up with zeros on the left. -/
def padded (width n : Nat) : String :=
  let digits := Nat.toDigits 10 n
  String.ofList (List.replicate (width - digits.length) '0' ++ digits)

/-- The build time as year, month, day and time of day. -/
def built (header : Header) : String :=
  let date := [padded 4 (1900 + header.year.toNat), padded 2 (header.month.toNat + 1),
    padded 2 header.day.toNat]
  let time := [padded 2 header.hour.toNat, padded 2 header.minute.toNat,
    padded 2 header.second.toNat]
  "-".intercalate date ++ " " ++ ":".intercalate time

def version (header : Header) : String := s!"{header.versionMajor}.{header.versionMinor}"

end Header

end DocGraph
