import DocGraph.Text.HexDump

/-! The hex column of a dump, read back. The text column shows many bytes alike and is not used for this. -/
namespace DocGraph.HexDump

/-- The number below sixteen that a character is the digit of. -/
def digitValue? (c : Char) : Option Nat := (List.range 16).find? (Nat.digitChar · = c)

theorem digitValue?_digitChar : ∀ n < 16, digitValue? (Nat.digitChar n) = some n := by decide

/-- The bytes that three characters each spell, up to the first that is no digit. -/
def spelled : List Char → Bytes
  | high :: low :: _ :: rest =>
    match digitValue? high, digitValue? low with
    | some high, some low => UInt8.ofNat (16 * high + low) :: spelled rest
    | _, _ => []
  | _ => []

theorem spelled_digits (byte : UInt8) (rest : List Char) :
    spelled (digits byte ++ ' ' :: rest) = byte :: spelled rest := by
  have bound := byte.toNat_lt
  have high := digitValue?_digitChar (byte.toNat / 16) (by omega)
  have low := digitValue?_digitChar (byte.toNat % 16) (by omega)
  simp only [digits, List.cons_append, List.nil_append, spelled, high, low, Nat.div_add_mod,
    UInt8.ofNat_toNat]

theorem spelled_hexColumn (bytes : Bytes) (rest : List Char) :
    spelled (hexColumn bytes ++ rest) = bytes ++ spelled rest := by
  induction bytes with
  | nil => rfl
  | cons byte bytes ih =>
    have column : hexColumn (byte :: bytes) ++ rest = digits byte ++ ' ' :: (hexColumn bytes ++ rest) := by
      simp [hexColumn]
    rw [column, spelled_digits, ih, List.cons_append]

theorem spelled_stop {c : Char} (stop : digitValue? c = none) (rest : List Char) :
    spelled (c :: rest) = [] := by
  unfold spelled
  split
  · rename_i first
    cases first
    simp only [stop]
  · rfl

theorem length_hexColumn (bytes : Bytes) : (hexColumn bytes).length = 3 * bytes.length := by
  induction bytes with
  | nil => rfl
  | cons byte bytes ih =>
    rw [hexColumn, List.flatMap_cons, List.length_append, ← hexColumn, ih, List.length_cons]
    simp only [digits, List.length_append, List.length_cons, List.length_nil]
    omega

/-- What stands before the text column: the hex column, filled up to its full width. -/
def margin (bytes : Bytes) : List Char :=
  hexColumn bytes ++ List.replicate (3 * (width - bytes.length)) ' '

theorem toList_render (bytes : Bytes) :
    (render bytes).toList = margin (bytes.take width) ++ textColumn (bytes.take width) :=
  String.toList_ofList

theorem length_margin {bytes : Bytes} (shown : bytes.length ≤ width) :
    (margin bytes).length = 3 * width := by
  rw [margin, List.length_append, length_hexColumn, List.length_replicate]
  omega

theorem spelled_margin (bytes : Bytes) : spelled (margin bytes ++ textColumn bytes) = bytes := by
  rw [margin, List.append_assoc, spelled_hexColumn]
  have ended : spelled (List.replicate (3 * (width - bytes.length)) ' ' ++ textColumn bytes) = [] := by
    cases 3 * (width - bytes.length) with
    | zero => exact spelled_stop (by decide) _
    | succ blanks => exact spelled_stop (by decide) _
  rw [ended, List.append_nil]

theorem spelled_render (bytes : Bytes) : spelled (render bytes).toList = bytes.take width := by
  rw [toList_render, spelled_margin]

theorem render_eq_iff {bytes other : Bytes} :
    render bytes = render other ↔ bytes.take width = other.take width := by
  constructor
  · intro same
    rw [← spelled_render bytes, same, spelled_render]
  · intro same
    rw [render, same, ← render]

/-- The text column is found by its bar. -/
theorem bar_notMem_margin (bytes : Bytes) : '|' ∉ margin bytes := by
  have bar : ∀ n < 16, '|' ≠ Nat.digitChar n := by decide
  intro member
  rcases List.mem_append.mp member with column | blanks
  · obtain ⟨byte,_,among⟩ := List.mem_flatMap.mp column
    have bound := byte.toNat_lt
    have high := bar (byte.toNat / 16) (by omega)
    have low := bar (byte.toNat % 16) (by omega)
    simp [digits,high,low] at among
  · cases List.eq_of_mem_replicate blanks

theorem length_textColumn (bytes : Bytes) : (textColumn bytes).length = bytes.length + 2 := by
  simp [textColumn]

theorem length_render (bytes : Bytes) :
    (render bytes).length = 3 * width + (min bytes.length width + 2) := by
  rw [← String.length_toList, toList_render, List.length_append,
    length_margin (List.length_take_le width bytes), length_textColumn, List.length_take,
    Nat.min_comm]

theorem take_render (bytes : Bytes) :
    (render bytes).toList.take (3 * width) = margin (bytes.take width) := by
  rw [toList_render]
  exact List.take_left' (length_margin (List.length_take_le width bytes))

theorem drop_render (bytes : Bytes) :
    (render bytes).toList.drop (3 * width) = textColumn (bytes.take width) := by
  rw [toList_render]
  exact List.drop_left' (length_margin (List.length_take_le width bytes))

/-- A hex dump shows its bytes: the first sixteen, or all when there are fewer, are read back from it, so
it is the dump of other bytes only if these start alike. Its first bar stands in column 48, and behind it
one character for each byte that is shown, and a bar. -/
theorem render_shows (bytes other : Bytes) :
    (render bytes = render other ↔ bytes.take 16 = other.take 16) ∧
    spelled (render bytes).toList = bytes.take 16 ∧
    (render bytes).length = 50 + min bytes.length 16 ∧
    '|' ∉ (render bytes).toList.take 48 ∧
    (render bytes).toList.drop 48 = '|' :: (bytes.take 16).map glyph ++ ['|'] := by
  refine ⟨render_eq_iff,spelled_render bytes,?_,?_,drop_render bytes⟩
  · rw [length_render, width]
    omega
  · exact take_render bytes ▸ bar_notMem_margin (bytes.take width)

example :
    render [0x41,0x42,0x01,0x20,0x7A] = "41 42 01 20 7a                                  |AB. z|" := by
  decide +kernel

end DocGraph.HexDump
