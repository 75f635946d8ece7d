import DocGraph.Record.Basic

/-! Records as bytes: the tag, then the layout of the record's shape. A text is written behind its
length, in one byte for a short text and two for a long one, so it can be too long; the first text
in the layout that is gets named. -/
namespace DocGraph

/-- A text longer than its length field can say. -/
structure Overlong where
  field : String
  length : Nat
  limit : Nat
  deriving DecidableEq, Repr

namespace Overlong

def shortLimit : Nat := 255
def longLimit : Nat := 65535

def short (field : String) (length : Nat) : Except Overlong Bytes :=
  if length ≤ shortLimit then .ok [UInt8.ofNat length]
  else .error ⟨field, length, shortLimit⟩

def long (field : String) (length : Nat) : Except Overlong Bytes :=
  if length ≤ longLimit then .ok (Bytes.ofUInt16 (UInt16.ofNat length))
  else .error ⟨field, length, longLimit⟩

end Overlong

/-- The byte that tells fixed text from text that may be laid out anew. -/
def Name.markByte (name : Name) : UInt8 := if name.fixed then 1 else 0

/-- A text on its own: mark, length, bytes. -/
def Name.encode (text : Name) : Except Overlong Bytes := do
  let length ← Overlong.long "string" text.length
  return text.markByte :: length ++ text.bytes

def Qualified.encode (subject : Qualified) : Except Overlong Bytes := do
  let group ← Overlong.short "group" subject.group.length
  let name ← Overlong.short "name" subject.name.length
  return group ++ subject.group.bytes ++ name ++ subject.name.bytes

def Sending.encode (sending : Sending) : Except Overlong Bytes := do
  let timeline ← Overlong.short "timeline" sending.timeline.length
  let message ← Overlong.short "message" sending.message.length
  return sending.sender :: sending.receiver :: timeline ++ sending.timeline.bytes
    ++ message ++ sending.message.bytes

def Titled.encode (content : Titled) : Except Overlong Bytes := do
  let title ← Overlong.short "first" content.title.length
  let body ← Overlong.long "second" content.body.length
  return content.body.markByte :: title ++ body ++ content.title.bytes ++ content.body.bytes

def Declaration.encode (item : Declaration) : Except Overlong Bytes := do
  let kind ← Overlong.short "type" item.kind.length
  let name ← Overlong.short "name" item.name.length
  let brief ← Overlong.long "brief" item.brief.length
  return item.brief.markByte :: kind ++ name ++ brief
    ++ item.kind.bytes ++ item.name.bytes ++ item.brief.bytes

def ConstantDeclaration.encode (item : ConstantDeclaration) : Except Overlong Bytes := do
  let kind ← Overlong.short "type" item.kind.length
  let name ← Overlong.short "name" item.name.length
  let value ← Overlong.long "value" item.value.length
  let brief ← Overlong.long "brief" item.brief.length
  return item.brief.markByte :: kind ++ name ++ value ++ brief
    ++ item.kind.bytes ++ item.name.bytes ++ item.value.bytes ++ item.brief.bytes

namespace OptionDeclaration

def nameBit : UInt8 := 1
def valueBit : UInt8 := 2
def descriptionBit : UInt8 := 4

/-- The marks of the three texts in one byte. -/
def markBits (option : OptionDeclaration) : UInt8 :=
  (if option.name.fixed then nameBit else 0) ||| (if option.value.fixed then valueBit else 0)
    ||| (if option.description.fixed then descriptionBit else 0)

def encode (option : OptionDeclaration) : Except Overlong Bytes := do
  let name ← Overlong.long "name" option.name.length
  let value ← Overlong.long "value" option.value.length
  let description ← Overlong.long "description" option.description.length
  return Bytes.ofUInt16 option.flags ++ option.markBits :: name ++ value ++ description
    ++ option.name.bytes ++ option.value.bytes ++ option.description.bytes

end OptionDeclaration

def SynopsisDeclaration.encode (synopsis : SynopsisDeclaration) : Except Overlong Bytes := do
  let name ← Overlong.long "name" synopsis.name.length
  let indexes ← Overlong.long "indexes" synopsis.indexes.length
  return name ++ indexes ++ synopsis.name.bytes ++ synopsis.indexes

namespace Record

def encodeBody : Record → Except Overlong Bytes
  | trigger subject | triggers subject | timeline subject => subject.encode
  | condition text | stateMachineStart text | sequenceStart text | apiStart text | apiAction text
  | apiDescription text | applicationStart text => text.encode
  | state id subject => do return Bytes.ofUInt16 id ++ (← subject.encode)
  | transition target => .ok (Bytes.ofUInt16 target)
  | nodeStart id flags => .ok (Bytes.ofUInt16 id ++ Bytes.ofUInt32 flags)
  | sentMessage sending => sending.encode
  | apiReturns content | apiTypeStart content | apiConstantsStart content | sample content
  | applicationSection content | applicationSubSection content => content.encode
  | apiFunction item | apiParameter item | apiTypeField item | applicationCommand item => item.encode
  | apiConstant item => item.encode
  | applicationOption option => option.encode
  | applicationSynopsis synopsis => synopsis.encode
  | itemEnd | blockEnd | stateMachineEnd | nodeEnd | sequenceEnd | apiFunctionEnd | apiTypeEnd
  | apiConstantsEnd | apiEnd | applicationEnd => .ok []

def encode (record : Record) : Except Overlong Bytes := do
  return record.tag.byte :: (← record.encodeBody)

end Record

end DocGraph
