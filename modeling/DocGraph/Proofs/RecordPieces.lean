import DocGraph.Proofs.RecordRoundTrip

/-! Layouts as the pieces that are written one by one. A length that does not fit is found where it is written,
and what came before it is in the buffer by then. -/
namespace DocGraph

/-- What is written at once: bytes as they stand, or the length of a text, in one byte or in two. -/
inductive Piece
  | plain (bytes : Bytes)
  | short (field : String) (length : Nat)
  | long (field : String) (length : Nat)

namespace Piece

def write : Piece → Except Overlong Bytes
  | plain bytes => .ok bytes
  | short field length => Overlong.short field length
  | long field length => Overlong.long field length

/-- The text that has no room, for a length that the piece has no room for. -/
def overlong? : Piece → Option Overlong
  | plain _ => none
  | short field length => if 255 < length then some ⟨field,length,255⟩ else none
  | long field length => if 65535 < length then some ⟨field,length,65535⟩ else none

def size : Piece → Nat
  | plain bytes => bytes.length
  | short _ _ => 1
  | long _ _ => 2

def writeAll : List Piece → Except Overlong Bytes
  | [] => .ok []
  | piece :: rest => do
    let bytes ← piece.write
    let later ← writeAll rest
    return bytes ++ later

/-- Pieces written behind what a buffer holds, up to the first that has no room. -/
def put (buffer : Bytes) : List Piece → Bytes × Option Overlong
  | [] => (buffer,none)
  | piece :: rest =>
    match piece.write with
    | .error overlong => (buffer,some overlong)
    | .ok bytes => put (buffer ++ bytes) rest

def totalSize : List Piece → Nat
  | [] => 0
  | piece :: rest => piece.size + totalSize rest

end Piece

def Name.pieces (text : Name) : List Piece :=
  [.plain [text.markByte],.long "string" text.length,.plain text.bytes]

def Qualified.pieces (subject : Qualified) : List Piece :=
  [.short "group" subject.group.length,.plain subject.group.bytes,
    .short "name" subject.name.length,.plain subject.name.bytes]

def Sending.pieces (sending : Sending) : List Piece :=
  [.plain [sending.sender,sending.receiver],
    .short "timeline" sending.timeline.length,.plain sending.timeline.bytes,
    .short "message" sending.message.length,.plain sending.message.bytes]

def Titled.pieces (content : Titled) : List Piece :=
  [.plain [content.body.markByte],.short "first" content.title.length,.long "second" content.body.length,
    .plain content.title.bytes,.plain content.body.bytes]

def Declaration.pieces (item : Declaration) : List Piece :=
  [.plain [item.brief.markByte],.short "type" item.kind.length,.short "name" item.name.length,
    .long "brief" item.brief.length,.plain item.kind.bytes,.plain item.name.bytes,.plain item.brief.bytes]

def ConstantDeclaration.pieces (item : ConstantDeclaration) : List Piece :=
  [.plain [item.brief.markByte],.short "type" item.kind.length,.short "name" item.name.length,
    .long "value" item.value.length,.long "brief" item.brief.length,.plain item.kind.bytes,
    .plain item.name.bytes,.plain item.value.bytes,.plain item.brief.bytes]

def OptionDeclaration.pieces (option : OptionDeclaration) : List Piece :=
  [.plain (Bytes.ofUInt16 option.flags),.plain [option.markBits],.long "name" option.name.length,
    .long "value" option.value.length,.long "description" option.description.length,
    .plain option.name.bytes,.plain option.value.bytes,.plain option.description.bytes]

def SynopsisDeclaration.pieces (synopsis : SynopsisDeclaration) : List Piece :=
  [.long "name" synopsis.name.length,.long "indexes" synopsis.indexes.length,
    .plain synopsis.name.bytes,.plain synopsis.indexes]

namespace Record

/-- The pieces behind the tag. -/
def bodyPieces : Record → List Piece
  | trigger subject | triggers subject | timeline subject => subject.pieces
  | condition text | stateMachineStart text | sequenceStart text | apiStart text | apiAction text
  | apiDescription text | applicationStart text => text.pieces
  | state id subject => .plain (Bytes.ofUInt16 id) :: subject.pieces
  | transition target => [.plain (Bytes.ofUInt16 target)]
  | nodeStart id flags => [.plain (Bytes.ofUInt16 id),.plain (Bytes.ofUInt32 flags)]
  | sentMessage sending => sending.pieces
  | apiReturns content | apiTypeStart content | apiConstantsStart content | sample content
  | applicationSection content | applicationSubSection content => content.pieces
  | apiFunction item | apiParameter item | apiTypeField item | applicationCommand item => item.pieces
  | apiConstant item => item.pieces
  | applicationOption option => option.pieces
  | applicationSynopsis synopsis => synopsis.pieces
  | itemEnd | blockEnd | stateMachineEnd | nodeEnd | sequenceEnd | apiFunctionEnd | apiTypeEnd
  | apiConstantsEnd | apiEnd | applicationEnd => []

/-- The pieces of a record in the order in which they are written. -/
def pieces (record : Record) : List Piece := .plain [record.tag.byte] :: record.bodyPieces

/-- The first text of a record that is longer than its length can say. -/
def overlong? (record : Record) : Option Overlong := record.pieces.findSome? Piece.overlong?

/-- The number of bytes of the layout, whether it can be written or not. -/
def width (record : Record) : Nat := Piece.totalSize record.pieces

end Record

namespace Piece

theorem writeAll_nil : writeAll [] = pure [] := rfl

theorem writeAll_plain (bytes : Bytes) (rest : List Piece) :
    writeAll (.plain bytes :: rest) = (bytes ++ ·) <$> writeAll rest := by
  simp only [writeAll]
  cases writeAll rest <;> rfl

theorem writeAll_short (field : String) (length : Nat) (rest : List Piece) :
    writeAll (.short field length :: rest) =
      Overlong.short field length >>= fun bytes => (bytes ++ ·) <$> writeAll rest := by
  simp only [writeAll, write, bind_pure_comp]

theorem writeAll_long (field : String) (length : Nat) (rest : List Piece) :
    writeAll (.long field length :: rest) =
      Overlong.long field length >>= fun bytes => (bytes ++ ·) <$> writeAll rest := by
  simp only [writeAll, write, bind_pure_comp]

end Piece

section Shapes

open Piece

theorem Name.encode_pieces (text : Name) : text.encode = writeAll text.pieces := by
  simp [encode,pieces,writeAll_nil,writeAll_plain,writeAll_long]

theorem Qualified.encode_pieces (subject : Qualified) : subject.encode = writeAll subject.pieces := by
  simp [encode,pieces,writeAll_nil,writeAll_plain,writeAll_short]

theorem Sending.encode_pieces (sending : Sending) : sending.encode = writeAll sending.pieces := by
  simp [encode,pieces,writeAll_nil,writeAll_plain,writeAll_short]

theorem Titled.encode_pieces (content : Titled) : content.encode = writeAll content.pieces := by
  simp [encode,pieces,writeAll_nil,writeAll_plain,writeAll_short,writeAll_long]

theorem Declaration.encode_pieces (item : Declaration) : item.encode = writeAll item.pieces := by
  simp [encode,pieces,writeAll_nil,writeAll_plain,writeAll_short,writeAll_long]

theorem ConstantDeclaration.encode_pieces (item : ConstantDeclaration) :
    item.encode = writeAll item.pieces := by
  simp [encode,pieces,writeAll_nil,writeAll_plain,writeAll_short,writeAll_long]

theorem OptionDeclaration.encode_pieces (option : OptionDeclaration) :
    option.encode = writeAll option.pieces := by
  simp [encode,pieces,writeAll_nil,writeAll_plain,writeAll_long]

theorem SynopsisDeclaration.encode_pieces (synopsis : SynopsisDeclaration) :
    synopsis.encode = writeAll synopsis.pieces := by
  simp [encode,pieces,writeAll_nil,writeAll_plain,writeAll_long]

end Shapes

namespace Record

theorem encodeBody_pieces (record : Record) : record.encodeBody = Piece.writeAll record.bodyPieces := by
  cases record with
  | trigger subject | triggers subject | timeline subject => exact subject.encode_pieces
  | condition text | stateMachineStart text | sequenceStart text | apiStart text | apiAction text
  | apiDescription text | applicationStart text => exact text.encode_pieces
  | apiReturns content | apiTypeStart content | apiConstantsStart content | sample content
  | applicationSection content | applicationSubSection content => exact content.encode_pieces
  | apiFunction item | apiParameter item | apiTypeField item | applicationCommand item =>
    exact item.encode_pieces
  | sentMessage sending => exact sending.encode_pieces
  | apiConstant item => exact item.encode_pieces
  | applicationOption option => exact option.encode_pieces
  | applicationSynopsis synopsis => exact synopsis.encode_pieces
  | state id subject =>
    simp only [encodeBody, bodyPieces, Piece.writeAll_plain, subject.encode_pieces, bind_pure_comp]
  | transition | nodeStart => rfl
  | itemEnd | blockEnd | stateMachineEnd | nodeEnd | sequenceEnd | apiFunctionEnd | apiTypeEnd
  | apiConstantsEnd | apiEnd | applicationEnd => rfl

theorem encode_pieces (record : Record) : record.encode = Piece.writeAll record.pieces := by
  simp only [encode, pieces, Piece.writeAll_plain, encodeBody_pieces, bind_pure_comp]
  rfl

end Record

namespace Piece

theorem write_eq_error_iff {piece : Piece} {overlong : Overlong} :
    piece.write = .error overlong ↔ piece.overlong? = some overlong := by
  cases piece with
  | plain bytes => simp [write,overlong?]
  | short field length =>
    by_cases fits : length ≤ 255
    · simp [write,overlong?,Overlong.short,Overlong.shortLimit,fits,Nat.not_lt.mpr fits]
    · simp [write,overlong?,Overlong.short,Overlong.shortLimit,fits,Nat.lt_of_not_le fits]
  | long field length =>
    by_cases fits : length ≤ 65535
    · simp [write,overlong?,Overlong.long,Overlong.longLimit,fits,Nat.not_lt.mpr fits]
    · simp [write,overlong?,Overlong.long,Overlong.longLimit,fits,Nat.lt_of_not_le fits]

theorem length_of_write {piece : Piece} {bytes : Bytes} (written : piece.write = .ok bytes) :
    bytes.length = piece.size := by
  cases piece with
  | plain => cases written; rfl
  | short =>
    obtain ⟨_,rfl⟩ := Overlong.short_eq_ok_iff.mp written
    rfl
  | long =>
    obtain ⟨_,rfl⟩ := Overlong.long_eq_ok_iff.mp written
    rfl

theorem writeAll_eq_error_iff {pieces : List Piece} {overlong : Overlong} :
    writeAll pieces = .error overlong ↔ pieces.findSome? overlong? = some overlong := by
  induction pieces with
  | nil => simp [writeAll]
  | cons piece rest ih =>
    rw [writeAll, List.findSome?_cons]
    cases written : piece.write with
    | error cause =>
      rw [write_eq_error_iff.mp written]
      simp [bind,Except.bind]
    | ok bytes =>
      have roomy : piece.overlong? = none := by
        cases found : piece.overlong? with
        | none => rfl
        | some cause =>
          rw [write_eq_error_iff.mpr found] at written
          cases written
      rw [roomy, ← ih]
      cases writeAll rest <;> simp [bind,Except.bind,pure,Except.pure]

theorem length_of_writeAll {pieces : List Piece} {bytes : Bytes} (written : writeAll pieces = .ok bytes) :
    bytes.length = totalSize pieces := by
  induction pieces generalizing bytes with
  | nil => cases written; rfl
  | cons piece rest ih =>
    simp only [writeAll, bind_eq_ok_iff, pure_eq_ok_iff] at written
    obtain ⟨front,first,later,others,rfl⟩ := written
    rw [List.length_append, totalSize, length_of_write first, ih others]

theorem put_of_ok {pieces : List Piece} {bytes : Bytes} (written : writeAll pieces = .ok bytes)
    (buffer : Bytes) : put buffer pieces = (buffer ++ bytes,none) := by
  induction pieces generalizing buffer bytes with
  | nil =>
    cases written
    rw [put, List.append_nil]
  | cons piece rest ih =>
    simp only [writeAll, bind_eq_ok_iff, pure_eq_ok_iff] at written
    obtain ⟨front,first,later,others,rfl⟩ := written
    simp only [put, first]
    rw [ih others, List.append_assoc]

theorem put_of_error {pieces : List Piece} {overlong : Overlong}
    (refused : writeAll pieces = .error overlong) (buffer : Bytes) :
    ∃ begun, put buffer pieces = (buffer ++ begun,some overlong) := by
  induction pieces generalizing buffer with
  | nil => cases refused
  | cons piece rest ih =>
    simp only [writeAll] at refused
    cases written : piece.write with
    | error cause =>
      rw [written] at refused
      cases refused
      exact ⟨[],by simp only [put, written, List.append_nil]⟩
    | ok front =>
      cases others : writeAll rest with
      | ok later =>
        rw [written, others] at refused
        cases refused
      | error cause =>
        rw [written, others] at refused
        cases refused
        obtain ⟨begun,same⟩ := ih others (buffer ++ front)
        refine ⟨front ++ begun,?_⟩
        simp only [put, written]
        rw [same, List.append_assoc]

end Piece

namespace Record

/-- A record cannot be encoded when one of its texts is too long, and the first one is named. -/
theorem encode_eq_error_iff {record : Record} {overlong : Overlong} :
    record.encode = .error overlong ↔ record.overlong? = some overlong := by
  rw [encode_pieces, Piece.writeAll_eq_error_iff, overlong?]

theorem encode_of_roomy {record : Record} (roomy : record.overlong? = none) :
    ∃ bytes, record.encode = .ok bytes := by
  cases written : record.encode with
  | ok bytes => exact ⟨bytes,rfl⟩
  | error overlong =>
    rw [encode_eq_error_iff, roomy] at written
    cases written

theorem length_of_encode {record : Record} {bytes : Bytes} (encoded : record.encode = .ok bytes) :
    bytes.length = record.width := by
  rw [encode_pieces] at encoded
  exact Piece.length_of_writeAll encoded

end Record

end DocGraph
