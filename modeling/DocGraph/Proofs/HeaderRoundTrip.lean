import DocGraph.File.Header
import Mathlib.Data.Set.Function

/-! Headers and their eighteen bytes. Any date is a header's date, whether there is such a day or not. -/
namespace DocGraph.Header

theorem signature_ofText : Bytes.ofText "GDSL" = signature := rfl

theorem signature_prefix (header : Header) : signature <+: header.toBytes := by
  rw [toBytes, List.append_assoc, List.append_assoc]
  exact List.prefix_append _ _

section Reading

variable {bytes : Bytes} (file : String)

theorem parse_short (short : bytes.length < size) :
    parse file bytes = .error (.shortRead file size bytes.length) := by
  unfold parse
  split
  · simp only [List.length_cons, size] at short
    omega
  · rfl

theorem parse_long (long : size ≤ bytes.length) :
    (bytes.take 4 = signature → ∃ header, parse file bytes = .ok header) ∧
    (bytes.take 4 ≠ signature → parse file bytes = .error (.badSignature file)) := by
  unfold parse
  split
  · rename_i s0 s1 s2 s3 _ _ _ _ _ _ _ _ _ _ _ _ _ _ _
    rw [show List.take 4 _ = [s0,s1,s2,s3] from rfl]
    constructor
    · intro own
      rw [if_pos own]
      exact ⟨_,rfl⟩
    · intro foreign
      rw [if_neg foreign]
  · rename_i short
    exfalso
    iterate 18 (obtain _ | ⟨byte,bytes⟩ := bytes; · simp [size] at long)
    exact short _ _ _ _ _ _ _ _ _ _ _ _ _ _ _ _ _ _ _ rfl

end Reading

theorem parse_append (header : Header) (rest : Bytes) (file : String) :
    parse file (header.toBytes ++ rest) = .ok header := by
  have count := Bytes.uint32_bytes header.recordCount
  have start := Bytes.uint16_bytes header.nameStart
  simp only [toBytes, signature, Bytes.ofUInt32, Bytes.ofUInt16, List.cons_append, List.nil_append,
    parse, if_true, count, start]

theorem parse_toBytes (header : Header) (file : String) : parse file header.toBytes = .ok header := by
  rw [← List.append_nil header.toBytes, parse_append]

/-- No byte of a header is lost or moved by reading it. -/
theorem toBytes_of_parse {file : String} {bytes : Bytes} {header : Header}
    (parsed : parse file bytes = .ok header) : header.toBytes = bytes.take size := by
  unfold parse at parsed
  split at parsed
  · split at parsed
    · rename_i own
      cases parsed
      simp only [toBytes, Bytes.ofUInt32_uint32, Bytes.ofUInt16_uint16, ← own]
      rfl
    · cases parsed
  · cases parsed

theorem parse_eq_ok_iff {file : String} {bytes : Bytes} {header : Header} :
    parse file bytes = .ok header ↔ header.toBytes <+: bytes := by
  constructor
  · intro parsed
    rw [toBytes_of_parse parsed]
    exact List.take_prefix size bytes
  · rintro ⟨rest,rfl⟩
    exact parse_append header rest file

theorem toBytes_injective : Function.Injective toBytes := by
  intro header other same
  have parsed := parse_toBytes header ""
  rw [same, parse_toBytes other] at parsed
  exact (Except.ok.inj parsed).symm

theorem parse_signed (file : String) {bytes : Bytes} (long : size ≤ bytes.length)
    (own : signature <+: bytes) :
    ∃ header, parse file bytes = .ok header ∧ header.toBytes = bytes.take size := by
  obtain ⟨header,parsed⟩ := (parse_long file long).1 (List.prefix_iff_eq_take.mp own).symm
  exact ⟨header,parsed,toBytes_of_parse parsed⟩

/-- Bytes behind a header are not looked at. -/
theorem parse_take (file : String) (bytes : Bytes) :
    parse file (bytes.take size) = parse file bytes := by
  by_cases long : size ≤ bytes.length
  · have width : size ≤ (bytes.take size).length := (List.length_take_of_le long).ge
    have first : (bytes.take size).take 4 = bytes.take 4 := List.take_take
    by_cases own : bytes.take 4 = signature
    · obtain ⟨header,parsed,written⟩ := parse_signed file long (List.prefix_iff_eq_take.mpr own.symm)
      rw [parsed, ← written, parse_toBytes]
    · rw [(parse_long file long).2 own, (parse_long file width).2 (first ▸ own)]
  · rw [List.take_of_length_le (by omega)]

/-- Headers are one to one with the runs of eighteen bytes that start with `GDSL`. What is read from the
bytes of a header is that header, whatever follows it, and all bytes that are long enough and start so are
those of a header. -/
theorem parse_bijective (file : String) :
    Set.BijOn toBytes Set.univ {bytes | bytes.length = 18 ∧ Bytes.ofText "GDSL" <+: bytes} ∧
    (∀ (header : Header) (rest : Bytes), parse file (header.toBytes ++ rest) = .ok header) ∧
    ∀ bytes : Bytes, 18 ≤ bytes.length → Bytes.ofText "GDSL" <+: bytes →
      ∃ header, parse file bytes = .ok header ∧ header.toBytes = bytes.take 18 := by
  rw [signature_ofText]
  refine ⟨⟨?_,toBytes_injective.injOn,?_⟩,?_,?_⟩
  · intro header _
    exact ⟨header.length_toBytes,header.signature_prefix⟩
  · rintro bytes ⟨width,own⟩
    obtain ⟨header,_,written⟩ := parse_signed file width.ge own
    refine ⟨header,Set.mem_univ header,?_⟩
    exact written.trans (List.take_of_length_le width.le)
  · intro header rest
    exact parse_append header rest file
  · intro bytes long own
    exact parse_signed file long own

/-- A header with different numbers in all of its fields. -/
def dated : Header where
  versionMajor := 2
  versionMinor := 3
  day := 5
  month := 1
  year := 124
  hour := 13
  minute := 4
  second := 9
  recordCount := 0x0A0B0C0E
  nameStart := 0x1011

def datedBytes : Bytes :=
  [0x47,0x44,0x53,0x4C,2,3,5,1,124,13,4,9,0x0A,0x0B,0x0C,0x0E,0x10,0x11,0xFF]

theorem datedBytes_read :
    parse "model" (dated.toBytes ++ [0xFF]) = .ok dated ∧
      dated.toBytes ++ [0xFF] = datedBytes ∧
      18 ≤ datedBytes.length ∧ Bytes.ofText "GDSL" <+: datedBytes ∧
      ∃ header, parse "model" datedBytes = .ok header ∧ header.toBytes = datedBytes.take 18 := by
  obtain ⟨_,written,read⟩ := parse_bijective "model"
  have long : 18 ≤ datedBytes.length := by decide
  have own : Bytes.ofText "GDSL" <+: datedBytes := ⟨_,rfl⟩
  exact ⟨written dated [0xFF],rfl,long,own,read datedBytes long own⟩

end DocGraph.Header
