import DocGraph.Record.Decode

/-! Records read back from their bytes. `Record.plain` is the record without the marks that its layout has no
room for. End marks are left out, as they take all that follows along. -/
namespace DocGraph

theorem bind_eq_ok_iff {x : Except ε α} {f : α → Except ε β} {b : β} :
    x >>= f = .ok b ↔ ∃ a, x = .ok a ∧ f a = .ok b := by
  cases x with
  | error e =>
    constructor
    · intro found; cases found
    · rintro ⟨a,found,_⟩; cases found
  | ok a =>
    constructor
    · intro found; exact ⟨a,rfl,found⟩
    · rintro ⟨b,same,found⟩; cases same; exact found

theorem pure_eq_ok_iff {a b : α} : (pure a : Except ε α) = .ok b ↔ a = b :=
  ⟨Except.ok.inj,congrArg _⟩

namespace Overlong

theorem short_eq_ok_iff {field : String} {length : Nat} {bytes : Bytes} :
    short field length = .ok bytes ↔ length ≤ shortLimit ∧ [UInt8.ofNat length] = bytes := by
  unfold short
  split <;> simp [*]

theorem long_eq_ok_iff {field : String} {length : Nat} {bytes : Bytes} :
    long field length = .ok bytes ↔
      length ≤ longLimit ∧ Bytes.ofUInt16 (UInt16.ofNat length) = bytes := by
  unfold long
  split <;> simp [*]

theorem take?_short {text : Name} (fits : text.length ≤ shortLimit) (rest : Bytes) :
    Bytes.take? (UInt8.ofNat text.length).toNat (text.bytes ++ rest) = some (text.bytes,rest) := by
  rw [UInt8.toNat_ofNat_of_lt' (Nat.lt_succ_of_le fits)]
  exact Bytes.take?_append rfl rest

theorem take?_long {text : Name} (fits : text.length ≤ longLimit) (rest : Bytes) :
    Bytes.take? (UInt16.ofNat text.length).toNat (text.bytes ++ rest) = some (text.bytes,rest) := by
  rw [UInt16.toNat_ofNat_of_lt' (Nat.lt_succ_of_le fits)]
  exact Bytes.take?_append rfl rest

end Overlong

def Qualified.plain (subject : Qualified) : Qualified := ⟨subject.group.plain, subject.name.plain⟩

def Sending.plain (sending : Sending) : Sending :=
  { sending with timeline := sending.timeline.plain, message := sending.message.plain }

def Titled.plain (content : Titled) : Titled := { content with title := content.title.plain }

def Declaration.plain (item : Declaration) : Declaration :=
  { item with kind := item.kind.plain, name := item.name.plain }

def ConstantDeclaration.plain (item : ConstantDeclaration) : ConstantDeclaration :=
  { item with kind := item.kind.plain, name := item.name.plain, value := item.value.plain }

def SynopsisDeclaration.plain (synopsis : SynopsisDeclaration) : SynopsisDeclaration :=
  { synopsis with name := synopsis.name.plain }

namespace Record

/-- The record without the marks that its layout has no place for. -/
def plain : Record → Record
  | trigger subject => trigger subject.plain
  | triggers subject => triggers subject.plain
  | state id subject => state id subject.plain
  | timeline subject => timeline subject.plain
  | sentMessage sending => sentMessage sending.plain
  | apiFunction function => apiFunction function.plain
  | apiParameter parameter => apiParameter parameter.plain
  | apiReturns result => apiReturns result.plain
  | apiTypeStart type => apiTypeStart type.plain
  | apiTypeField field => apiTypeField field.plain
  | apiConstantsStart constants => apiConstantsStart constants.plain
  | apiConstant constant => apiConstant constant.plain
  | sample content => sample content.plain
  | applicationSection content => applicationSection content.plain
  | applicationSubSection content => applicationSubSection content.plain
  | applicationCommand command => applicationCommand command.plain
  | applicationSynopsis synopsis => applicationSynopsis synopsis.plain
  | record => record

@[simp] theorem tag_plain (record : Record) : record.plain.tag = record.tag := by
  cases record <;> rfl

theorem tag_eq_blockEnd_iff {record : Record} : record.tag = .blockEnd ↔ record = .blockEnd := by
  cases record <;> simp [tag]

end Record

theorem Name.markByte_ne_zero (name : Name) : (name.markByte != 0) = name.fixed := by
  cases fixed : name.fixed <;> simp [markByte,fixed]

section Shapes

variable {bytes : Bytes} (rest : Bytes)

open Overlong

theorem Name.decode?_encode {text : Name} (encoded : text.encode = .ok bytes) :
    Name.decode? (bytes ++ rest) = some (text,rest) := by
  simp only [Name.encode, bind_eq_ok_iff, long_eq_ok_iff, pure_eq_ok_iff] at encoded
  obtain ⟨_,⟨fits,rfl⟩,rfl⟩ := encoded
  simp only [Name.decode?, List.cons_append, List.append_assoc, Bytes.byte?_cons,
    Bytes.uint16?_ofUInt16, take?_long fits, Name.markByte_ne_zero, Option.bind_eq_bind,
    Option.bind_some, Option.pure_def]

theorem Qualified.decode?_encode {subject : Qualified} (encoded : subject.encode = .ok bytes) :
    Qualified.decode? (bytes ++ rest) = some (subject.plain,rest) := by
  simp only [Qualified.encode, bind_eq_ok_iff, short_eq_ok_iff, pure_eq_ok_iff] at encoded
  obtain ⟨_,⟨group,rfl⟩,_,⟨name,rfl⟩,rfl⟩ := encoded
  simp only [Qualified.decode?, List.cons_append, List.nil_append, List.append_assoc,
    Bytes.byte?_cons, take?_short group, take?_short name, Option.bind_eq_bind, Option.bind_some,
    Option.pure_def]
  rfl

theorem Sending.decode?_encode {sending : Sending} (encoded : sending.encode = .ok bytes) :
    Sending.decode? (bytes ++ rest) = some (sending.plain,rest) := by
  simp only [Sending.encode, bind_eq_ok_iff, short_eq_ok_iff, pure_eq_ok_iff] at encoded
  obtain ⟨_,⟨timeline,rfl⟩,_,⟨message,rfl⟩,rfl⟩ := encoded
  simp only [Sending.decode?, List.cons_append, List.nil_append, List.append_assoc,
    Bytes.byte?_cons, take?_short timeline, take?_short message, Option.bind_eq_bind,
    Option.bind_some, Option.pure_def]
  rfl

theorem Titled.decode?_encode {content : Titled} (encoded : content.encode = .ok bytes) :
    Titled.decode? (bytes ++ rest) = some (content.plain,rest) := by
  simp only [Titled.encode, bind_eq_ok_iff, short_eq_ok_iff, long_eq_ok_iff, pure_eq_ok_iff]
    at encoded
  obtain ⟨_,⟨title,rfl⟩,_,⟨body,rfl⟩,rfl⟩ := encoded
  simp only [Titled.decode?, List.cons_append, List.nil_append, List.append_assoc,
    Bytes.byte?_cons, Bytes.uint16?_ofUInt16, take?_short title, take?_long body,
    Name.markByte_ne_zero, Option.bind_eq_bind, Option.bind_some, Option.pure_def]
  rfl

theorem Declaration.decode?_encode {item : Declaration} (encoded : item.encode = .ok bytes) :
    Declaration.decode? (bytes ++ rest) = some (item.plain,rest) := by
  simp only [Declaration.encode, bind_eq_ok_iff, short_eq_ok_iff, long_eq_ok_iff, pure_eq_ok_iff]
    at encoded
  obtain ⟨_,⟨kind,rfl⟩,_,⟨name,rfl⟩,_,⟨brief,rfl⟩,rfl⟩ := encoded
  simp only [Declaration.decode?, List.cons_append, List.nil_append, List.append_assoc,
    Bytes.byte?_cons, Bytes.uint16?_ofUInt16, take?_short kind, take?_short name, take?_long brief,
    Name.markByte_ne_zero, Option.bind_eq_bind, Option.bind_some, Option.pure_def]
  rfl

theorem ConstantDeclaration.decode?_encode {item : ConstantDeclaration}
    (encoded : item.encode = .ok bytes) :
    ConstantDeclaration.decode? (bytes ++ rest) = some (item.plain,rest) := by
  simp only [ConstantDeclaration.encode, bind_eq_ok_iff, short_eq_ok_iff, long_eq_ok_iff,
    pure_eq_ok_iff] at encoded
  obtain ⟨_,⟨kind,rfl⟩,_,⟨name,rfl⟩,_,⟨value,rfl⟩,_,⟨brief,rfl⟩,rfl⟩ := encoded
  simp only [ConstantDeclaration.decode?, List.cons_append, List.nil_append, List.append_assoc,
    Bytes.byte?_cons, Bytes.uint16?_ofUInt16, take?_short kind, take?_short name, take?_long value,
    take?_long brief, Name.markByte_ne_zero, Option.bind_eq_bind, Option.bind_some,
    Option.pure_def]
  rfl

/-- Each of the three marks is a bit of its own. -/
theorem OptionDeclaration.markBits_bits (option : OptionDeclaration) :
    (option.markBits &&& nameBit != 0) = option.name.fixed ∧
    (option.markBits &&& valueBit != 0) = option.value.fixed ∧
    (option.markBits &&& descriptionBit != 0) = option.description.fixed := by
  unfold markBits
  cases option.name.fixed <;> cases option.value.fixed <;> cases option.description.fixed <;> decide

theorem OptionDeclaration.decode?_encode {option : OptionDeclaration}
    (encoded : option.encode = .ok bytes) :
    OptionDeclaration.decode? (bytes ++ rest) = some (option,rest) := by
  simp only [OptionDeclaration.encode, bind_eq_ok_iff, long_eq_ok_iff, pure_eq_ok_iff] at encoded
  obtain ⟨_,⟨name,rfl⟩,_,⟨value,rfl⟩,_,⟨description,rfl⟩,rfl⟩ := encoded
  obtain ⟨first,second,third⟩ := option.markBits_bits
  simp only [OptionDeclaration.decode?, List.cons_append, List.append_assoc, Bytes.byte?_cons,
    Bytes.uint16?_ofUInt16, take?_long name, take?_long value, take?_long description, first,
    second, third, Option.bind_eq_bind, Option.bind_some, Option.pure_def]

theorem SynopsisDeclaration.decode?_encode {synopsis : SynopsisDeclaration}
    (encoded : synopsis.encode = .ok bytes) :
    SynopsisDeclaration.decode? (bytes ++ rest) = some (synopsis.plain,rest) := by
  simp only [SynopsisDeclaration.encode, bind_eq_ok_iff, long_eq_ok_iff, pure_eq_ok_iff] at encoded
  obtain ⟨_,⟨name,rfl⟩,_,⟨indexes,rfl⟩,rfl⟩ := encoded
  have positions := @take?_long ⟨synopsis.indexes,false⟩ indexes rest
  simp only [Name.length] at positions
  simp only [SynopsisDeclaration.decode?, List.append_assoc, Bytes.uint16?_ofUInt16, take?_long name,
    positions, Option.bind_eq_bind, Option.bind_some, Option.pure_def]
  rfl

end Shapes

namespace Record

/-- Each record is read back through the shape that it is written in. -/
theorem decodeBody?_encodeBody {record : Record} {body : Bytes} (encoded : record.encodeBody = .ok body)
    (open_ : record ≠ .blockEnd) (rest : Bytes) :
    decodeBody? record.tag (body ++ rest) = some (record.plain,rest) := by
  cases record with
  | trigger | triggers | timeline =>
    simp only [encodeBody] at encoded
    simp only [tag, decodeBody?, Qualified.decode?_encode rest encoded, Option.map_some]
    rfl
  | condition | stateMachineStart | sequenceStart | apiStart | apiAction | apiDescription
  | applicationStart =>
    simp only [encodeBody] at encoded
    simp only [tag, decodeBody?, Name.decode?_encode rest encoded, Option.map_some]
    rfl
  | apiFunction | apiParameter | apiTypeField | applicationCommand =>
    simp only [encodeBody] at encoded
    simp only [tag, decodeBody?, Declaration.decode?_encode rest encoded, Option.map_some]
    rfl
  | apiReturns | apiTypeStart | apiConstantsStart | sample | applicationSection
  | applicationSubSection =>
    simp only [encodeBody] at encoded
    simp only [tag, decodeBody?, Titled.decode?_encode rest encoded, Option.map_some]
    rfl
  | state id subject =>
    simp only [encodeBody, bind_eq_ok_iff, pure_eq_ok_iff] at encoded
    obtain ⟨written,encoded,rfl⟩ := encoded
    simp only [tag, decodeBody?, List.append_assoc, Bytes.uint16?_ofUInt16,
      Qualified.decode?_encode rest encoded, Option.bind_eq_bind, Option.bind_some, Option.pure_def]
    rfl
  | transition target =>
    cases encoded
    simp only [tag, decodeBody?, Bytes.uint16?_ofUInt16, Option.map_some]
    rfl
  | nodeStart id flags =>
    cases encoded
    simp only [tag, decodeBody?, List.append_assoc, Bytes.uint16?_ofUInt16,
      Bytes.uint32?_ofUInt32, Option.bind_eq_bind, Option.bind_some, Option.pure_def]
    rfl
  | sentMessage sending =>
    simp only [encodeBody] at encoded
    simp only [tag, decodeBody?, Sending.decode?_encode rest encoded, Option.map_some]
    rfl
  | apiConstant constant =>
    simp only [encodeBody] at encoded
    simp only [tag, decodeBody?, ConstantDeclaration.decode?_encode rest encoded, Option.map_some]
    rfl
  | applicationOption option =>
    simp only [encodeBody] at encoded
    simp only [tag, decodeBody?, OptionDeclaration.decode?_encode rest encoded, Option.map_some]
    rfl
  | applicationSynopsis synopsis =>
    simp only [encodeBody] at encoded
    simp only [tag, decodeBody?, SynopsisDeclaration.decode?_encode rest encoded, Option.map_some]
    rfl
  | blockEnd => exact absurd rfl open_
  | itemEnd | stateMachineEnd | nodeEnd | sequenceEnd | apiFunctionEnd | apiTypeEnd
  | apiConstantsEnd | apiEnd | applicationEnd =>
    cases encoded
    rfl

theorem encode_eq_ok_iff {record : Record} {bytes : Bytes} :
    record.encode = .ok bytes ↔
      ∃ body, record.encodeBody = .ok body ∧ record.tag.byte :: body = bytes := by
  simp only [encode, bind_eq_ok_iff, pure_eq_ok_iff]

/-- A record is found again in front of whatever follows it. -/
theorem decode_encode {record : Record} {bytes : Bytes} (encoded : record.encode = .ok bytes)
    (open_ : record ≠ .blockEnd) (rest : Bytes) :
    decode (bytes ++ rest) = .ok (record.plain,rest) := by
  obtain ⟨body,found,rfl⟩ := encode_eq_ok_iff.mp encoded
  exact decode_eq_ok_iff.mpr ⟨record.tag,body ++ rest,rfl,decodeBody?_encodeBody found open_ rest⟩

/-- The end mark of a block takes everything behind it along. -/
theorem decode_blockEnd (padding : Bytes) :
    decode (Tag.blockEnd.byte :: padding) = .ok (blockEnd,[]) :=
  decode_eq_ok_iff.mpr ⟨.blockEnd,padding,rfl,rfl⟩

end Record

end DocGraph
