/-! Byte strings and the big-endian numbers inside them. Bytes are lists, so that a format can be
read off the front and what follows it stays in sight. -/
namespace DocGraph

abbrev Bytes := List UInt8

namespace Bytes

/-- The UTF-8 encoding of a text. -/
def ofText (text : String) : Bytes := text.toUTF8.data.toList

def ofUInt16 (n : UInt16) : Bytes := [UInt8.ofNat (n.toNat / 256), UInt8.ofNat n.toNat]

def ofUInt32 (n : UInt32) : Bytes :=
  [UInt8.ofNat (n.toNat / 16777216), UInt8.ofNat (n.toNat / 65536), UInt8.ofNat (n.toNat / 256),
    UInt8.ofNat n.toNat]

def uint16 (high low : UInt8) : UInt16 := UInt16.ofNat (high.toNat * 256 + low.toNat)

def uint32 (a b c d : UInt8) : UInt32 :=
  UInt32.ofNat (a.toNat * 16777216 + b.toNat * 65536 + c.toNat * 256 + d.toNat)

@[simp] theorem length_ofUInt16 (n : UInt16) : (ofUInt16 n).length = 2 := rfl
@[simp] theorem length_ofUInt32 (n : UInt32) : (ofUInt32 n).length = 4 := rfl

def byte? : Bytes → Option (UInt8 × Bytes)
  | [] => none
  | byte :: rest => some (byte, rest)

def uint16? : Bytes → Option (UInt16 × Bytes)
  | high :: low :: rest => some (uint16 high low, rest)
  | _ => none

def uint32? : Bytes → Option (UInt32 × Bytes)
  | a :: b :: c :: d :: rest => some (uint32 a b c d, rest)
  | _ => none

/-- Splits off the first `n` bytes, when there are that many. -/
def take? (n : Nat) (bytes : Bytes) : Option (Bytes × Bytes) :=
  let front := bytes.take n
  if front.length = n then some (front, bytes.drop n) else none

theorem uint16_bytes (n : UInt16) :
    uint16 (UInt8.ofNat (n.toNat / 256)) (UInt8.ofNat n.toNat) = n := by
  have bound := n.toNat_lt
  apply UInt16.toNat_inj.mp
  simp only [uint16, UInt16.toNat_ofNat', UInt8.toNat_ofNat']
  omega

theorem uint32_bytes (n : UInt32) :
    uint32 (UInt8.ofNat (n.toNat / 16777216)) (UInt8.ofNat (n.toNat / 65536))
      (UInt8.ofNat (n.toNat / 256)) (UInt8.ofNat n.toNat) = n := by
  have bound := n.toNat_lt
  apply UInt32.toNat_inj.mp
  simp only [uint32, UInt32.toNat_ofNat', UInt8.toNat_ofNat']
  omega

@[simp] theorem byte?_cons (byte : UInt8) (rest : Bytes) : byte? (byte :: rest) = some (byte, rest) :=
  rfl

@[simp] theorem uint16?_ofUInt16 (n : UInt16) (rest : Bytes) :
    uint16? (ofUInt16 n ++ rest) = some (n, rest) :=
  congrArg (fun n => some (n, rest)) (uint16_bytes n)

@[simp] theorem uint32?_ofUInt32 (n : UInt32) (rest : Bytes) :
    uint32? (ofUInt32 n ++ rest) = some (n, rest) :=
  congrArg (fun n => some (n, rest)) (uint32_bytes n)

theorem take?_append {front : Bytes} {n : Nat} (width : front.length = n) (rest : Bytes) :
    take? n (front ++ rest) = some (front, rest) := by
  subst width
  simp [take?]

theorem take?_eq_some_iff {n : Nat} {bytes front rest : Bytes} :
    take? n bytes = some (front, rest) ↔ bytes = front ++ rest ∧ front.length = n := by
  constructor
  · intro found
    simp only [take?] at found
    split at found
    · rename_i width
      simp only [Option.some.injEq, Prod.mk.injEq] at found
      obtain ⟨rfl, rfl⟩ := found
      exact ⟨(List.take_append_drop n bytes).symm, width⟩
    · exact nomatch found
  · rintro ⟨rfl, width⟩
    exact take?_append width rest

theorem ofUInt16_uint16 (high low : UInt8) : ofUInt16 (uint16 high low) = [high, low] := by
  have := high.toNat_lt
  have := low.toNat_lt
  simp only [ofUInt16, uint16, UInt16.toNat_ofNat', List.cons.injEq, and_true]
  constructor <;> apply UInt8.toNat_inj.mp <;> simp only [UInt8.toNat_ofNat'] <;> omega

theorem ofUInt32_uint32 (a b c d : UInt8) : ofUInt32 (uint32 a b c d) = [a, b, c, d] := by
  have := a.toNat_lt
  have := b.toNat_lt
  have := c.toNat_lt
  have := d.toNat_lt
  simp only [ofUInt32, uint32, UInt32.toNat_ofNat', List.cons.injEq, and_true]
  refine ⟨?_, ?_, ?_, ?_⟩ <;> apply UInt8.toNat_inj.mp <;> simp only [UInt8.toNat_ofNat'] <;> omega

section Taken

variable {bytes rest : Bytes}

theorem eq_of_byte? {byte : UInt8} (found : bytes.byte? = some (byte,rest)) : bytes = byte :: rest := by
  cases bytes with
  | nil => cases found
  | cons => cases found; rfl

theorem eq_of_uint16? {n : UInt16} (found : bytes.uint16? = some (n,rest)) :
    bytes = ofUInt16 n ++ rest := by
  unfold uint16? at found
  split at found
  · cases found
    rw [ofUInt16_uint16]
    rfl
  · cases found

theorem eq_of_uint32? {n : UInt32} (found : bytes.uint32? = some (n,rest)) :
    bytes = ofUInt32 n ++ rest := by
  unfold uint32? at found
  split at found
  · cases found
    rw [ofUInt32_uint32]
    rfl
  · cases found

end Taken

end Bytes

end DocGraph
