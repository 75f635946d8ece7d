import DocGraph.Bytes

/-! UTF-8 text in byte strings that need not hold any. A byte string is scanned into characters
and ill-formed runs, a run being as long as it still is the start of some character. Reading it as
text is strict (no runs) or lossy (U+FFFD for each run). -/
namespace DocGraph.Utf8

/-- The bits a leading byte gives, and the ranges that the bytes after it must lie in. -/
def lead (byte : UInt8) : Option (Nat × List (UInt8 × UInt8)) :=
  let tail : UInt8 × UInt8 := (0x80, 0xBF)
  if byte ≤ 0x7F then some (byte.toNat, [])
  else if byte < 0xC2 then none
  else if byte ≤ 0xDF then some (byte.toNat - 0xC0, [tail])
  else if byte = 0xE0 then some (0, [(0xA0, 0xBF), tail])
  else if byte = 0xED then some (0xD, [(0x80, 0x9F), tail])
  else if byte ≤ 0xEF then some (byte.toNat - 0xE0, [tail, tail])
  else if byte = 0xF0 then some (0, [(0x90, 0xBF), tail, tail])
  else if byte ≤ 0xF3 then some (byte.toNat - 0xF0, [tail, tail, tail])
  else if byte = 0xF4 then some (4, [(0x80, 0x8F), tail, tail])
  else none

/-- Adds six bits from each byte in range; a byte out of range is left for the next scan. -/
def continued (bits : Nat) : List (UInt8 × UInt8) → Bytes → Option Nat × Bytes
  | [], rest => (some bits, rest)
  | _ :: _, [] => (none, [])
  | (low, high) :: ranges, byte :: rest =>
    if low ≤ byte ∧ byte ≤ high then continued (bits * 64 + (byte.toNat - 0x80)) ranges rest
    else (none, byte :: rest)

theorem length_continued_le (bits : Nat) (ranges : List (UInt8 × UInt8)) (bytes : Bytes) :
    (continued bits ranges bytes).2.length ≤ bytes.length := by
  fun_induction continued bits ranges bytes with
  | case1 => simp
  | case2 => simp
  | case3 bits low high ranges byte rest _ ih => simp only [List.length_cons]; omega
  | case4 => simp

/-- The characters of a byte string in order, with `none` for each ill-formed run. -/
def scan : Bytes → List (Option Char)
  | [] => []
  | byte :: rest =>
    match lead byte with
    | none => none :: scan rest
    | some (bits, ranges) =>
      let found := continued bits ranges rest
      have := length_continued_le bits ranges rest
      found.1.map Char.ofNat :: scan found.2
termination_by bytes => bytes.length
decreasing_by all_goals (simp only [List.length_cons]; omega)

def decode? (bytes : Bytes) : Option String := ((scan bytes).mapM id).map String.ofList

def lossy (bytes : Bytes) : String := String.ofList ((scan bytes).map (·.getD '\uFFFD'))

end DocGraph.Utf8
