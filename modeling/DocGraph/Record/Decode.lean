import DocGraph.Fault
import DocGraph.FrontRead
import DocGraph.Text.HexDump

/-! Records read back from the front of a byte string. Each layout is read in the order it is
written, and what follows the record is given back. -/
namespace DocGraph

/-- A text on its own. Any mark but zero means fixed text. -/
def Name.decode? (bytes : Bytes) : Option (Name × Bytes) := do
  let (mark, rest) ← bytes.byte?
  let (length, rest) ← rest.uint16?
  let (text, rest) ← rest.take? length.toNat
  return (⟨text, mark != 0⟩, rest)

def Qualified.decode? (bytes : Bytes) : Option (Qualified × Bytes) := do
  let (length, rest) ← bytes.byte?
  let (group, rest) ← rest.take? length.toNat
  let (length, rest) ← rest.byte?
  let (name, rest) ← rest.take? length.toNat
  return (⟨⟨group, false⟩, ⟨name, false⟩⟩, rest)

def Sending.decode? (bytes : Bytes) : Option (Sending × Bytes) := do
  let (sender, rest) ← bytes.byte?
  let (receiver, rest) ← rest.byte?
  let (length, rest) ← rest.byte?
  let (timeline, rest) ← rest.take? length.toNat
  let (length, rest) ← rest.byte?
  let (message, rest) ← rest.take? length.toNat
  return (⟨sender, receiver, ⟨timeline, false⟩, ⟨message, false⟩⟩, rest)

def Titled.decode? (bytes : Bytes) : Option (Titled × Bytes) := do
  let (mark, rest) ← bytes.byte?
  let (titleLength, rest) ← rest.byte?
  let (bodyLength, rest) ← rest.uint16?
  let (title, rest) ← rest.take? titleLength.toNat
  let (body, rest) ← rest.take? bodyLength.toNat
  return (⟨⟨title, false⟩, ⟨body, mark != 0⟩⟩, rest)

def Declaration.decode? (bytes : Bytes) : Option (Declaration × Bytes) := do
  let (mark, rest) ← bytes.byte?
  let (kindLength, rest) ← rest.byte?
  let (nameLength, rest) ← rest.byte?
  let (briefLength, rest) ← rest.uint16?
  let (kind, rest) ← rest.take? kindLength.toNat
  let (name, rest) ← rest.take? nameLength.toNat
  let (brief, rest) ← rest.take? briefLength.toNat
  return (⟨⟨kind, false⟩, ⟨name, false⟩, ⟨brief, mark != 0⟩⟩, rest)

def ConstantDeclaration.decode? (bytes : Bytes) : Option (ConstantDeclaration × Bytes) := do
  let (mark, rest) ← bytes.byte?
  let (kindLength, rest) ← rest.byte?
  let (nameLength, rest) ← rest.byte?
  let (valueLength, rest) ← rest.uint16?
  let (briefLength, rest) ← rest.uint16?
  let (kind, rest) ← rest.take? kindLength.toNat
  let (name, rest) ← rest.take? nameLength.toNat
  let (value, rest) ← rest.take? valueLength.toNat
  let (brief, rest) ← rest.take? briefLength.toNat
  return (⟨⟨kind, false⟩, ⟨name, false⟩, ⟨value, false⟩, ⟨brief, mark != 0⟩⟩, rest)

def OptionDeclaration.decode? (bytes : Bytes) : Option (OptionDeclaration × Bytes) := do
  let (flags, rest) ← bytes.uint16?
  let (marks, rest) ← rest.byte?
  let (nameLength, rest) ← rest.uint16?
  let (valueLength, rest) ← rest.uint16?
  let (descriptionLength, rest) ← rest.uint16?
  let (name, rest) ← rest.take? nameLength.toNat
  let (value, rest) ← rest.take? valueLength.toNat
  let (description, rest) ← rest.take? descriptionLength.toNat
  return (⟨flags, ⟨name, marks &&& nameBit != 0⟩, ⟨value, marks &&& valueBit != 0⟩,
    ⟨description, marks &&& descriptionBit != 0⟩⟩, rest)

def SynopsisDeclaration.decode? (bytes : Bytes) : Option (SynopsisDeclaration × Bytes) := do
  let (nameLength, rest) ← bytes.uint16?
  let (indexesLength, rest) ← rest.uint16?
  let (name, rest) ← rest.take? nameLength.toNat
  let (indexes, rest) ← rest.take? indexesLength.toNat
  return (⟨⟨name, false⟩, indexes⟩, rest)

/-- Why no record can be read. -/
inductive Undecodable
  /-- There is no byte at all. -/
  | exhausted
  | unknownTag (byte : UInt8)
  /-- The tag is known, but its fields run past the end. -/
  | truncated (byte : UInt8)
  deriving DecidableEq, Repr

namespace Record

/-- What follows a tag. Everything behind the end mark of a block is padding. -/
def decodeBody? (tag : Tag) (bytes : Bytes) : Option (Record × Bytes) :=
  let plain (record : Record) := some (record, bytes)
  match tag with
  | .trigger => (Qualified.decode? bytes).map (Prod.map trigger id)
  | .triggers => (Qualified.decode? bytes).map (Prod.map triggers id)
  | .condition => (Name.decode? bytes).map (Prod.map condition id)
  | .itemEnd => plain itemEnd
  | .blockEnd => some (blockEnd, [])
  | .stateMachineStart => (Name.decode? bytes).map (Prod.map stateMachineStart id)
  | .state => do
    let (id, rest) ← bytes.uint16?
    let (subject, rest) ← Qualified.decode? rest
    return (state id subject, rest)
  | .transition => bytes.uint16?.map (Prod.map transition id)
  | .stateMachineEnd => plain stateMachineEnd
  | .sequenceStart => (Name.decode? bytes).map (Prod.map sequenceStart id)
  | .timeline => (Qualified.decode? bytes).map (Prod.map timeline id)
  | .nodeStart => do
    let (id, rest) ← bytes.uint16?
    let (flags, rest) ← rest.uint32?
    return (nodeStart id flags, rest)
  | .sentMessage => (Sending.decode? bytes).map (Prod.map sentMessage id)
  | .nodeEnd => plain nodeEnd
  | .sequenceEnd => plain sequenceEnd
  | .apiStart => (Name.decode? bytes).map (Prod.map apiStart id)
  | .apiFunction => (Declaration.decode? bytes).map (Prod.map apiFunction id)
  | .apiAction => (Name.decode? bytes).map (Prod.map apiAction id)
  | .apiDescription => (Name.decode? bytes).map (Prod.map apiDescription id)
  | .apiParameter => (Declaration.decode? bytes).map (Prod.map apiParameter id)
  | .apiReturns => (Titled.decode? bytes).map (Prod.map apiReturns id)
  | .apiFunctionEnd => plain apiFunctionEnd
  | .apiTypeStart => (Titled.decode? bytes).map (Prod.map apiTypeStart id)
  | .apiTypeField => (Declaration.decode? bytes).map (Prod.map apiTypeField id)
  | .apiTypeEnd => plain apiTypeEnd
  | .apiConstantsStart => (Titled.decode? bytes).map (Prod.map apiConstantsStart id)
  | .apiConstant => (ConstantDeclaration.decode? bytes).map (Prod.map apiConstant id)
  | .apiConstantsEnd => plain apiConstantsEnd
  | .apiEnd => plain apiEnd
  | .sample => (Titled.decode? bytes).map (Prod.map sample id)
  | .applicationStart => (Name.decode? bytes).map (Prod.map applicationStart id)
  | .applicationSection => (Titled.decode? bytes).map (Prod.map applicationSection id)
  | .applicationSubSection => (Titled.decode? bytes).map (Prod.map applicationSubSection id)
  | .applicationOption => (OptionDeclaration.decode? bytes).map (Prod.map applicationOption id)
  | .applicationCommand => (Declaration.decode? bytes).map (Prod.map applicationCommand id)
  | .applicationSynopsis => (SynopsisDeclaration.decode? bytes).map (Prod.map applicationSynopsis id)
  | .applicationEnd => plain applicationEnd

/-- The record at the front, and the bytes after it. -/
def decode : Bytes → Except Undecodable (Record × Bytes)
  | [] => .error .exhausted
  | byte :: body =>
    match Tag.ofByte? byte with
    | none => .error (.unknownTag byte)
    | some tag =>
      match decodeBody? tag body with
      | none => .error (.truncated byte)
      | some found => .ok found

end Record

namespace FrontRead

theorem short (length : UInt8) : FrontRead Overlong.shortLimit (Bytes.take? length.toNat) :=
  (take? _).mono (Nat.le_of_lt_succ length.toNat_lt)

theorem long (length : UInt16) : FrontRead Overlong.longLimit (Bytes.take? length.toNat) :=
  (take? _).mono (Nat.le_of_lt_succ length.toNat_lt)

end FrontRead

section Shapes

open FrontRead

theorem Name.front : ∃ most, FrontRead most Name.decode? :=
  ⟨_,bind byte? fun _ => bind uint16? fun length => bind (long length) fun _ => done _⟩

theorem Qualified.front : ∃ most, FrontRead most Qualified.decode? :=
  ⟨_,bind byte? fun group => bind (short group) fun _ => bind byte? fun name =>
    bind (short name) fun _ => done _⟩

theorem Sending.front : ∃ most, FrontRead most Sending.decode? :=
  ⟨_,bind byte? fun _ => bind byte? fun _ => bind byte? fun timeline => bind (short timeline) fun _ =>
    bind byte? fun message => bind (short message) fun _ => done _⟩

theorem Titled.front : ∃ most, FrontRead most Titled.decode? :=
  ⟨_,bind byte? fun _ => bind byte? fun title => bind uint16? fun body => bind (short title) fun _ =>
    bind (long body) fun _ => done _⟩

theorem Declaration.front : ∃ most, FrontRead most Declaration.decode? :=
  ⟨_,bind byte? fun _ => bind byte? fun kind => bind byte? fun name => bind uint16? fun brief =>
    bind (short kind) fun _ => bind (short name) fun _ => bind (long brief) fun _ => done _⟩

theorem ConstantDeclaration.front : ∃ most, FrontRead most ConstantDeclaration.decode? :=
  ⟨_,bind byte? fun _ => bind byte? fun kind => bind byte? fun name => bind uint16? fun value =>
    bind uint16? fun brief => bind (short kind) fun _ => bind (short name) fun _ =>
    bind (long value) fun _ => bind (long brief) fun _ => done _⟩

theorem OptionDeclaration.front : ∃ most, FrontRead most OptionDeclaration.decode? :=
  ⟨_,bind uint16? fun _ => bind byte? fun _ => bind uint16? fun name => bind uint16? fun value =>
    bind uint16? fun description => bind (long name) fun _ => bind (long value) fun _ =>
    bind (long description) fun _ => done _⟩

theorem SynopsisDeclaration.front : ∃ most, FrontRead most SynopsisDeclaration.decode? :=
  ⟨_,bind uint16? fun name => bind uint16? fun indexes => bind (long name) fun _ =>
    bind (long indexes) fun _ => done _⟩

end Shapes

namespace Record

/-- Every record but an end mark is read off the front of what follows its tag. -/
theorem decodeBody?_front {tag : Tag} (open_ : tag ≠ .blockEnd) :
    ∃ most, FrontRead most (decodeBody? tag) := by
  cases tag with
  | blockEnd => exact absurd rfl open_
  | trigger | triggers | timeline =>
    obtain ⟨most,front⟩ := Qualified.front
    exact ⟨most,front.map _⟩
  | condition | stateMachineStart | sequenceStart | apiStart | apiAction | apiDescription
  | applicationStart =>
    obtain ⟨most,front⟩ := Name.front
    exact ⟨most,front.map _⟩
  | state =>
    obtain ⟨most,front⟩ := Qualified.front
    exact ⟨_,.bind .uint16? fun _ => .bind front fun _ => .done _⟩
  | transition => exact ⟨_,FrontRead.uint16?.map _⟩
  | nodeStart => exact ⟨_,.bind .uint16? fun _ => .bind .uint32? fun _ => .done _⟩
  | sentMessage =>
    obtain ⟨most,front⟩ := Sending.front
    exact ⟨most,front.map _⟩
  | apiReturns | apiTypeStart | apiConstantsStart | sample | applicationSection | applicationSubSection =>
    obtain ⟨most,front⟩ := Titled.front
    exact ⟨most,front.map _⟩
  | apiFunction | apiParameter | apiTypeField | applicationCommand =>
    obtain ⟨most,front⟩ := Declaration.front
    exact ⟨most,front.map _⟩
  | apiConstant =>
    obtain ⟨most,front⟩ := ConstantDeclaration.front
    exact ⟨most,front.map _⟩
  | applicationOption =>
    obtain ⟨most,front⟩ := OptionDeclaration.front
    exact ⟨most,front.map _⟩
  | applicationSynopsis =>
    obtain ⟨most,front⟩ := SynopsisDeclaration.front
    exact ⟨most,front.map _⟩
  | itemEnd | stateMachineEnd | nodeEnd | sequenceEnd | apiFunctionEnd | apiTypeEnd | apiConstantsEnd
  | apiEnd | applicationEnd => exact ⟨_,.done _⟩

theorem length_decodeBody?_le {tag : Tag} {bytes rest : Bytes} {record : Record}
    (found : decodeBody? tag bytes = some (record, rest)) : rest.length ≤ bytes.length := by
  by_cases padding : tag = .blockEnd
  · subst padding
    cases found
    exact Nat.zero_le _
  · obtain ⟨_, front⟩ := decodeBody?_front padding
    obtain ⟨run, rfl, _⟩ := front.kept found
    exact List.length_append ▸ Nat.le_add_left ..

/-- A record is a tag with the fields that belong to it. -/
theorem decode_eq_ok_iff {bytes rest : Bytes} {record : Record} :
    decode bytes = .ok (record, rest) ↔
      ∃ tag body, bytes = Tag.byte tag :: body ∧ decodeBody? tag body = some (record, rest) := by
  constructor
  · intro found
    unfold decode at found
    split at found
    · cases found
    · rename_i byte body
      split at found
      · cases found
      · rename_i tag known
        split at found
        · cases found
        · rename_i read
          cases found
          exact ⟨tag, body, by rw [Tag.byte_of_ofByte? known], read⟩
  · rintro ⟨tag, body, rfl, read⟩
    simp only [decode, Tag.ofByte?_byte, read]

theorem length_decode_lt {bytes rest : Bytes} {record : Record}
    (found : decode bytes = .ok (record, rest)) : rest.length < bytes.length := by
  obtain ⟨tag, body, rfl, read⟩ := decode_eq_ok_iff.mp found
  exact Nat.lt_succ_of_le (length_decodeBody?_le read)

end Record

/-- The fault of bytes from which no record can be read. -/
def Undecodable.fault (cause : Undecodable) (place : Place) (bytes : Bytes) : Fault :=
  match cause with
  | exhausted => .malformedRecord 0 place ""
  | unknownTag byte => .unknownRecord byte place (HexDump.render bytes)
  | truncated byte => .malformedRecord byte place (HexDump.render bytes)

def Record.decodeAt (block : Bytes) (place : Place) : Except Fault (Record × Nat) :=
  let bytes := block.drop place.offset
  match decode bytes with
  | .error cause => .error (cause.fault place bytes)
  | .ok (record, rest) => .ok (record, block.length - rest.length)

end DocGraph
