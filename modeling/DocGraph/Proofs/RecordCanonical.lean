import DocGraph.Proofs.RecordPlaces

/-! Bytes that a record was read from, against the bytes that are written for it. Only the mark byte may
differ: a reader takes any byte but zero for fixed text. -/
namespace DocGraph

namespace Tag

/-- Where the mark byte of a record is, counted from the tag. -/
def markOffset? : Tag → Option Nat
  | condition | stateMachineStart | sequenceStart | apiStart | apiAction | apiDescription
  | applicationStart | apiFunction | apiParameter | apiReturns | apiTypeStart | apiTypeField
  | apiConstantsStart | apiConstant | sample | applicationSection | applicationSubSection
  | applicationCommand => some 1
  | applicationOption => some 3
  | _ => none

/-- The byte that is written for a mark byte that was read. -/
def settleMark (tag : Tag) (mark : UInt8) : UInt8 :=
  if tag = applicationOption then mark &&& 7 else if mark = 0 then 0 else 1

/-- The bytes of a record with their mark byte as it is written. -/
def settle (tag : Tag) (bytes : Bytes) : Bytes :=
  match tag.markOffset? with
  | some offset => bytes.modify offset tag.settleMark
  | none => bytes

/-- The mark byte, when there is one, is as it is written: three bits for an option, one for the
others. -/
def Canonical (tag : Tag) (bytes : Bytes) : Prop :=
  ∀ offset mark, tag.markOffset? = some offset → bytes[offset]? = some mark →
    if tag = applicationOption then mark < 8 else mark ≤ 1

@[simp] theorem length_settle (tag : Tag) (bytes : Bytes) :
    (tag.settle bytes).length = bytes.length := by
  unfold settle
  split <;> simp

theorem and_seven_of_lt (mark : UInt8) (small : mark < 8) : mark &&& 7 = mark := by
  apply UInt8.toNat_inj.mp
  have bound : mark.toNat < 2 ^ 3 := UInt8.lt_iff_toNat_lt.mp small
  rw [UInt8.toNat_and]
  exact (Nat.and_two_pow_sub_one_eq_mod mark.toNat 3).trans (Nat.mod_eq_of_lt bound)

theorem settleMark_of_small {tag : Tag} {mark : UInt8}
    (small : if tag = applicationOption then mark < 8 else mark ≤ 1) : tag.settleMark mark = mark := by
  unfold settleMark
  split at small
  · rename_i option
    rw [if_pos option]
    exact and_seven_of_lt mark small
  · rename_i other
    rw [if_neg other]
    have bound : mark.toNat ≤ 1 := UInt8.le_iff_toNat_le.mp small
    split
    · rename_i zero
      exact zero.symm
    · rename_i marked
      apply UInt8.toNat_inj.mp
      have positive : mark.toNat ≠ 0 := fun none_ => marked (UInt8.toNat_inj.mp none_)
      change 1 = mark.toNat
      omega

theorem settle_of_canonical {tag : Tag} {bytes : Bytes} (canonical : tag.Canonical bytes) :
    tag.settle bytes = bytes := by
  unfold settle
  split
  · rename_i offset found
    apply List.ext_getElem?
    intro position
    rw [List.getElem?_modify]
    by_cases here : offset = position
    · subst here
      cases read : bytes[offset]? with
      | none => rfl
      | some mark =>
        have small := canonical offset mark found read
        simp [settleMark_of_small small]
    · simp [here]
  · rfl

end Tag

namespace Overlong

/-- A length that was read fits the field that it was read from. -/
theorem short_of_length (field : String) {text : Bytes} {length : UInt8}
    (width : text.length = length.toNat) : short field text.length = .ok [length] := by
  have bound := length.toNat_lt
  rw [short_eq_ok_iff, width]
  refine ⟨?_,?_⟩
  · unfold shortLimit
    omega
  · rw [UInt8.ofNat_toNat]

theorem long_of_length (field : String) {text : Bytes} {length : UInt16}
    (width : text.length = length.toNat) : long field text.length = .ok (Bytes.ofUInt16 length) := by
  have bound := length.toNat_lt
  rw [long_eq_ok_iff, width]
  refine ⟨?_,?_⟩
  · unfold longLimit
    omega
  · rw [UInt16.ofNat_toNat]

end Overlong

theorem Name.markByte_read (text : Bytes) (mark : UInt8) :
    Name.markByte ⟨text,mark != 0⟩ = if mark = 0 then 0 else 1 := by
  unfold markByte
  by_cases zero : mark = 0
  · simp [zero]
  · simp [zero]

section Shapes

variable {bytes rest : Bytes}

open Overlong

theorem Name.encode_decode? {text : Name} (found : Name.decode? bytes = some (text,rest)) :
    ∃ mark body, bytes = mark :: (body ++ rest) ∧
      text.encode = .ok ((if mark = 0 then 0 else 1) :: body) := by
  simp only [Name.decode?, Option.bind_eq_bind, Option.bind_eq_some_iff, Option.pure_def,
    Option.some.injEq, Prod.exists, Prod.mk.injEq] at found
  obtain ⟨mark,_,marked,length,_,sized,content,_,taken,rfl,rfl⟩ := found
  obtain ⟨rfl,width⟩ := Bytes.take?_eq_some_iff.mp taken
  obtain rfl := Bytes.eq_of_uint16? sized
  obtain rfl := Bytes.eq_of_byte? marked
  refine ⟨mark,Bytes.ofUInt16 length ++ content,by simp,?_⟩
  simp only [Name.encode, Name.length, long_of_length _ width, Name.markByte_read]
  rfl

theorem Qualified.encode_decode? {subject : Qualified}
    (found : Qualified.decode? bytes = some (subject,rest)) :
    ∃ body, bytes = body ++ rest ∧ subject.encode = .ok body := by
  simp only [Qualified.decode?, Option.bind_eq_bind, Option.bind_eq_some_iff, Option.pure_def,
    Option.some.injEq, Prod.exists, Prod.mk.injEq] at found
  obtain ⟨groupLength,_,groupSized,group,_,groupTaken,nameLength,_,nameSized,name,_,nameTaken,rfl,
    rfl⟩ := found
  obtain ⟨rfl,nameWidth⟩ := Bytes.take?_eq_some_iff.mp nameTaken
  obtain rfl := Bytes.eq_of_byte? nameSized
  obtain ⟨rfl,groupWidth⟩ := Bytes.take?_eq_some_iff.mp groupTaken
  obtain rfl := Bytes.eq_of_byte? groupSized
  refine ⟨[groupLength] ++ group ++ [nameLength] ++ name,by simp,?_⟩
  simp only [Qualified.encode, Name.length, short_of_length _ groupWidth, short_of_length _ nameWidth]
  rfl

theorem Sending.encode_decode? {sending : Sending}
    (found : Sending.decode? bytes = some (sending,rest)) :
    ∃ body, bytes = body ++ rest ∧ sending.encode = .ok body := by
  simp only [Sending.decode?, Option.bind_eq_bind, Option.bind_eq_some_iff, Option.pure_def,
    Option.some.injEq, Prod.exists, Prod.mk.injEq] at found
  obtain ⟨sender,_,sent,receiver,_,received,timelineLength,_,timelineSized,timeline,_,
    timelineTaken,messageLength,_,messageSized,message,_,messageTaken,rfl,rfl⟩ := found
  obtain ⟨rfl,messageWidth⟩ := Bytes.take?_eq_some_iff.mp messageTaken
  obtain rfl := Bytes.eq_of_byte? messageSized
  obtain ⟨rfl,timelineWidth⟩ := Bytes.take?_eq_some_iff.mp timelineTaken
  obtain rfl := Bytes.eq_of_byte? timelineSized
  obtain rfl := Bytes.eq_of_byte? received
  obtain rfl := Bytes.eq_of_byte? sent
  refine ⟨sender :: receiver :: [timelineLength] ++ timeline ++ [messageLength] ++ message,by simp,?_⟩
  simp only [Sending.encode, Name.length, short_of_length _ timelineWidth,
    short_of_length _ messageWidth]
  rfl

theorem Titled.encode_decode? {content : Titled}
    (found : Titled.decode? bytes = some (content,rest)) :
    ∃ mark body, bytes = mark :: (body ++ rest) ∧
      content.encode = .ok ((if mark = 0 then 0 else 1) :: body) := by
  simp only [Titled.decode?, Option.bind_eq_bind, Option.bind_eq_some_iff, Option.pure_def,
    Option.some.injEq, Prod.exists, Prod.mk.injEq] at found
  obtain ⟨mark,_,marked,titleLength,_,titleSized,bodyLength,_,bodySized,title,_,titleTaken,body,_,
    bodyTaken,rfl,rfl⟩ := found
  obtain ⟨rfl,bodyWidth⟩ := Bytes.take?_eq_some_iff.mp bodyTaken
  obtain ⟨rfl,titleWidth⟩ := Bytes.take?_eq_some_iff.mp titleTaken
  obtain rfl := Bytes.eq_of_uint16? bodySized
  obtain rfl := Bytes.eq_of_byte? titleSized
  obtain rfl := Bytes.eq_of_byte? marked
  refine ⟨mark,[titleLength] ++ Bytes.ofUInt16 bodyLength ++ title ++ body,by simp,?_⟩
  simp only [Titled.encode, Name.length, short_of_length _ titleWidth, long_of_length _ bodyWidth,
    Name.markByte_read]
  rfl

theorem Declaration.encode_decode? {item : Declaration}
    (found : Declaration.decode? bytes = some (item,rest)) :
    ∃ mark body, bytes = mark :: (body ++ rest) ∧
      item.encode = .ok ((if mark = 0 then 0 else 1) :: body) := by
  simp only [Declaration.decode?, Option.bind_eq_bind, Option.bind_eq_some_iff, Option.pure_def,
    Option.some.injEq, Prod.exists, Prod.mk.injEq] at found
  obtain ⟨mark,_,marked,kindLength,_,kindSized,nameLength,_,nameSized,briefLength,_,briefSized,
    kind,_,kindTaken,name,_,nameTaken,brief,_,briefTaken,rfl,rfl⟩ := found
  obtain ⟨rfl,briefWidth⟩ := Bytes.take?_eq_some_iff.mp briefTaken
  obtain ⟨rfl,nameWidth⟩ := Bytes.take?_eq_some_iff.mp nameTaken
  obtain ⟨rfl,kindWidth⟩ := Bytes.take?_eq_some_iff.mp kindTaken
  obtain rfl := Bytes.eq_of_uint16? briefSized
  obtain rfl := Bytes.eq_of_byte? nameSized
  obtain rfl := Bytes.eq_of_byte? kindSized
  obtain rfl := Bytes.eq_of_byte? marked
  refine ⟨mark,[kindLength] ++ [nameLength] ++ Bytes.ofUInt16 briefLength ++ kind ++ name ++ brief,
    by simp,?_⟩
  simp only [Declaration.encode, Name.length, short_of_length _ kindWidth,
    short_of_length _ nameWidth, long_of_length _ briefWidth, Name.markByte_read]
  rfl

theorem ConstantDeclaration.encode_decode? {item : ConstantDeclaration}
    (found : ConstantDeclaration.decode? bytes = some (item,rest)) :
    ∃ mark body, bytes = mark :: (body ++ rest) ∧
      item.encode = .ok ((if mark = 0 then 0 else 1) :: body) := by
  simp only [ConstantDeclaration.decode?, Option.bind_eq_bind, Option.bind_eq_some_iff,
    Option.pure_def, Option.some.injEq, Prod.exists, Prod.mk.injEq] at found
  obtain ⟨mark,_,marked,kindLength,_,kindSized,nameLength,_,nameSized,valueLength,_,valueSized,
    briefLength,_,briefSized,kind,_,kindTaken,name,_,nameTaken,value,_,valueTaken,brief,_,
    briefTaken,rfl,rfl⟩ := found
  obtain ⟨rfl,briefWidth⟩ := Bytes.take?_eq_some_iff.mp briefTaken
  obtain ⟨rfl,valueWidth⟩ := Bytes.take?_eq_some_iff.mp valueTaken
  obtain ⟨rfl,nameWidth⟩ := Bytes.take?_eq_some_iff.mp nameTaken
  obtain ⟨rfl,kindWidth⟩ := Bytes.take?_eq_some_iff.mp kindTaken
  obtain rfl := Bytes.eq_of_uint16? briefSized
  obtain rfl := Bytes.eq_of_uint16? valueSized
  obtain rfl := Bytes.eq_of_byte? nameSized
  obtain rfl := Bytes.eq_of_byte? kindSized
  obtain rfl := Bytes.eq_of_byte? marked
  refine ⟨mark,[kindLength] ++ [nameLength] ++ Bytes.ofUInt16 valueLength ++
    Bytes.ofUInt16 briefLength ++ kind ++ name ++ value ++ brief,by simp,?_⟩
  simp only [ConstantDeclaration.encode, Name.length, short_of_length _ kindWidth,
    short_of_length _ nameWidth, long_of_length _ valueWidth, long_of_length _ briefWidth,
    Name.markByte_read]
  rfl

theorem OptionDeclaration.markBits_read (flags : UInt16) (name value description : Bytes)
    (marks : UInt8) :
    markBits ⟨flags,⟨name,marks &&& nameBit != 0⟩,⟨value,marks &&& valueBit != 0⟩,
      ⟨description,marks &&& descriptionBit != 0⟩⟩ = marks &&& 7 := by
  have every : ∀ n : Fin 256, let marks := UInt8.ofFin n
      (if marks &&& nameBit != 0 then nameBit else 0) |||
        (if marks &&& valueBit != 0 then valueBit else 0) |||
        (if marks &&& descriptionBit != 0 then descriptionBit else 0) = marks &&& 7 := by decide +kernel
  exact every marks.toFin

theorem OptionDeclaration.encode_decode? {option : OptionDeclaration}
    (found : OptionDeclaration.decode? bytes = some (option,rest)) :
    ∃ high low marks body, bytes = high :: low :: marks :: (body ++ rest) ∧
      option.encode = .ok (high :: low :: (marks &&& 7) :: body) := by
  simp only [OptionDeclaration.decode?, Option.bind_eq_bind, Option.bind_eq_some_iff,
    Option.pure_def, Option.some.injEq, Prod.exists, Prod.mk.injEq] at found
  obtain ⟨flags,_,flagged,marks,_,marked,nameLength,_,nameSized,valueLength,_,valueSized,
    descriptionLength,_,descriptionSized,name,_,nameTaken,value,_,valueTaken,description,_,
    descriptionTaken,rfl,rfl⟩ := found
  obtain ⟨rfl,descriptionWidth⟩ := Bytes.take?_eq_some_iff.mp descriptionTaken
  obtain ⟨rfl,valueWidth⟩ := Bytes.take?_eq_some_iff.mp valueTaken
  obtain ⟨rfl,nameWidth⟩ := Bytes.take?_eq_some_iff.mp nameTaken
  obtain rfl := Bytes.eq_of_uint16? descriptionSized
  obtain rfl := Bytes.eq_of_uint16? valueSized
  obtain rfl := Bytes.eq_of_uint16? nameSized
  obtain rfl := Bytes.eq_of_byte? marked
  obtain rfl := Bytes.eq_of_uint16? flagged
  refine ⟨UInt8.ofNat (flags.toNat / 256),UInt8.ofNat flags.toNat,marks,Bytes.ofUInt16 nameLength ++
    Bytes.ofUInt16 valueLength ++ Bytes.ofUInt16 descriptionLength ++ name ++ value ++ description,?_,?_⟩
  · simp [Bytes.ofUInt16]
  · simp only [OptionDeclaration.encode, Name.length, long_of_length _ nameWidth,
      long_of_length _ valueWidth, long_of_length _ descriptionWidth,
      OptionDeclaration.markBits_read]
    rfl

theorem SynopsisDeclaration.encode_decode? {synopsis : SynopsisDeclaration}
    (found : SynopsisDeclaration.decode? bytes = some (synopsis,rest)) :
    ∃ body, bytes = body ++ rest ∧ synopsis.encode = .ok body := by
  simp only [SynopsisDeclaration.decode?, Option.bind_eq_bind, Option.bind_eq_some_iff,
    Option.pure_def, Option.some.injEq, Prod.exists, Prod.mk.injEq] at found
  obtain ⟨nameLength,_,nameSized,indexesLength,_,indexesSized,name,_,nameTaken,indexes,_,
    indexesTaken,rfl,rfl⟩ := found
  obtain ⟨rfl,indexesWidth⟩ := Bytes.take?_eq_some_iff.mp indexesTaken
  obtain ⟨rfl,nameWidth⟩ := Bytes.take?_eq_some_iff.mp nameTaken
  obtain rfl := Bytes.eq_of_uint16? indexesSized
  obtain rfl := Bytes.eq_of_uint16? nameSized
  refine ⟨Bytes.ofUInt16 nameLength ++ Bytes.ofUInt16 indexesLength ++ name ++ indexes,by simp,?_⟩
  simp only [SynopsisDeclaration.encode, Name.length, long_of_length _ nameWidth,
    long_of_length _ indexesWidth]
  rfl

end Shapes

namespace Record

/-- What is written back for a record that was read behind its tag. -/
structure Restored (tag : Tag) (record : Record) (read written : Bytes) : Prop where
  kind : record.tag = tag
  encoded : record.encodeBody = .ok written
  settled : tag.settle (tag.byte :: read) = tag.byte :: written

/-- Each record is written back through the shape that it was read in. -/
theorem restored_decodeBody? {tag : Tag} {bytes rest : Bytes} {record : Record}
    (found : decodeBody? tag bytes = some (record,rest)) (open_ : record ≠ .blockEnd) :
    ∃ read written, bytes = read ++ rest ∧ Restored tag record read written := by
  cases tag with
  | trigger | triggers | timeline =>
    obtain ⟨⟨subject,_⟩,decoded,same⟩ := Option.map_eq_some_iff.mp found
    cases same
    obtain ⟨body,rfl,encoded⟩ := Qualified.encode_decode? decoded
    exact ⟨body,body,rfl,rfl,encoded,rfl⟩
  | condition | stateMachineStart | sequenceStart | apiStart | apiAction | apiDescription
  | applicationStart =>
    obtain ⟨⟨text,_⟩,decoded,same⟩ := Option.map_eq_some_iff.mp found
    cases same
    obtain ⟨mark,body,rfl,encoded⟩ := Name.encode_decode? decoded
    exact ⟨mark :: body,_,rfl,rfl,encoded,rfl⟩
  | apiFunction | apiParameter | apiTypeField | applicationCommand =>
    obtain ⟨⟨item,_⟩,decoded,same⟩ := Option.map_eq_some_iff.mp found
    cases same
    obtain ⟨mark,body,rfl,encoded⟩ := Declaration.encode_decode? decoded
    exact ⟨mark :: body,_,rfl,rfl,encoded,rfl⟩
  | apiReturns | apiTypeStart | apiConstantsStart | sample | applicationSection
  | applicationSubSection =>
    obtain ⟨⟨content,_⟩,decoded,same⟩ := Option.map_eq_some_iff.mp found
    cases same
    obtain ⟨mark,body,rfl,encoded⟩ := Titled.encode_decode? decoded
    exact ⟨mark :: body,_,rfl,rfl,encoded,rfl⟩
  | state =>
    simp only [decodeBody?, Option.bind_eq_bind, Option.bind_eq_some_iff, Option.pure_def,
      Option.some.injEq, Prod.exists, Prod.mk.injEq] at found
    obtain ⟨number,_,numbered,subject,_,decoded,rfl,rfl⟩ := found
    obtain ⟨body,rfl,encoded⟩ := Qualified.encode_decode? decoded
    obtain rfl := Bytes.eq_of_uint16? numbered
    refine ⟨Bytes.ofUInt16 number ++ body,Bytes.ofUInt16 number ++ body,by simp,rfl,?_,rfl⟩
    simp only [encodeBody, encoded]
    rfl
  | transition =>
    obtain ⟨⟨target,_⟩,numbered,same⟩ := Option.map_eq_some_iff.mp found
    cases same
    obtain rfl := Bytes.eq_of_uint16? numbered
    exact ⟨_,_,rfl,rfl,rfl,rfl⟩
  | nodeStart =>
    simp only [decodeBody?, Option.bind_eq_bind, Option.bind_eq_some_iff, Option.pure_def,
      Option.some.injEq, Prod.exists, Prod.mk.injEq] at found
    obtain ⟨number,_,numbered,flags,_,flagged,rfl,rfl⟩ := found
    obtain rfl := Bytes.eq_of_uint32? flagged
    obtain rfl := Bytes.eq_of_uint16? numbered
    exact ⟨Bytes.ofUInt16 number ++ Bytes.ofUInt32 flags,_,by simp,rfl,rfl,rfl⟩
  | sentMessage =>
    obtain ⟨⟨sending,_⟩,decoded,same⟩ := Option.map_eq_some_iff.mp found
    cases same
    obtain ⟨body,rfl,encoded⟩ := Sending.encode_decode? decoded
    exact ⟨body,body,rfl,rfl,encoded,rfl⟩
  | apiConstant =>
    obtain ⟨⟨item,_⟩,decoded,same⟩ := Option.map_eq_some_iff.mp found
    cases same
    obtain ⟨mark,body,rfl,encoded⟩ := ConstantDeclaration.encode_decode? decoded
    exact ⟨mark :: body,_,rfl,rfl,encoded,rfl⟩
  | applicationOption =>
    obtain ⟨⟨option,_⟩,decoded,same⟩ := Option.map_eq_some_iff.mp found
    cases same
    obtain ⟨high,low,marks,body,rfl,encoded⟩ := OptionDeclaration.encode_decode? decoded
    exact ⟨high :: low :: marks :: body,_,rfl,rfl,encoded,rfl⟩
  | applicationSynopsis =>
    obtain ⟨⟨synopsis,_⟩,decoded,same⟩ := Option.map_eq_some_iff.mp found
    cases same
    obtain ⟨body,rfl,encoded⟩ := SynopsisDeclaration.encode_decode? decoded
    exact ⟨body,body,rfl,rfl,encoded,rfl⟩
  | blockEnd =>
    cases found
    exact absurd rfl open_
  | itemEnd | stateMachineEnd | nodeEnd | sequenceEnd | apiFunctionEnd | apiTypeEnd
  | apiConstantsEnd | apiEnd | applicationEnd =>
    cases found
    exact ⟨[],[],rfl,rfl,rfl,rfl⟩

/-- A record that is read from the front of a byte string is written back as what it was read from,
up to its mark byte. -/
theorem encode_decode {bytes rest : Bytes} {record : Record}
    (found : decode bytes = .ok (record,rest)) (open_ : record ≠ .blockEnd) :
    ∃ run, bytes = run ++ rest ∧ record.encode = .ok (record.tag.settle run) := by
  obtain ⟨tag,body,rfl,decoded⟩ := decode_eq_ok_iff.mp found
  obtain ⟨read,written,rfl,restored⟩ := restored_decodeBody? decoded open_
  refine ⟨tag.byte :: read,rfl,?_⟩
  rw [encode_eq_ok_iff]
  refine ⟨written,restored.encoded,?_⟩
  rw [restored.kind, restored.settled]

theorem blockEnd_of_decodeBody? {tag : Tag} {bytes rest : Bytes}
    (found : decodeBody? tag bytes = some (.blockEnd,rest)) : tag = .blockEnd ∧ rest = [] := by
  cases tag <;> simp [decodeBody?,Prod.map,Option.bind_eq_some_iff] at found
  exact ⟨rfl,found⟩

theorem tag_of_decodeBody? {tag : Tag} {bytes rest : Bytes} {record : Record}
    (found : decodeBody? tag bytes = some (record,rest)) : record.tag = tag := by
  by_cases padding : record = .blockEnd
  · subst padding
    exact (blockEnd_of_decodeBody? found).1.symm
  · obtain ⟨_,_,_,restored⟩ := restored_decodeBody? found padding
    exact restored.kind

theorem suffix_of_decodeBody? {tag : Tag} {bytes rest : Bytes} {record : Record}
    (found : decodeBody? tag bytes = some (record,rest)) : rest <:+ bytes := by
  by_cases padding : record = .blockEnd
  · subst padding
    rw [(blockEnd_of_decodeBody? found).2]
    exact List.nil_suffix
  · obtain ⟨read,_,rfl,_⟩ := restored_decodeBody? found padding
    exact List.suffix_append read rest

theorem decode_eq_ok {bytes rest : Bytes} {record : Record} (found : decode bytes = .ok (record,rest)) :
    ∃ body, bytes = record.tag.byte :: body ∧ decodeBody? record.tag body = some (record,rest) := by
  obtain ⟨tag,body,split,read⟩ := decode_eq_ok_iff.mp found
  rw [← tag_of_decodeBody? read] at split read
  exact ⟨body,split,read⟩

theorem decodeAt_tag {block : Bytes} {place : Place} {record : Record} {next : Nat}
    (decoded : decodeAt block place = .ok (record,next)) :
    block[place.offset]? = some record.tag.byte := by
  obtain ⟨rest,found,_⟩ := decodeAt_eq_ok_iff.mp decoded
  obtain ⟨body,split,_⟩ := decode_eq_ok found
  have first := congrArg (fun bytes => bytes[0]?) split
  simpa [List.getElem?_drop] using first

theorem decodeAt_of_mark {block : Bytes} {place : Place}
    (mark : block[place.offset]? = some Tag.blockEnd.byte) :
    decodeAt block place = .ok (.blockEnd,block.length) := by
  obtain ⟨inside,same⟩ := List.getElem?_eq_some_iff.mp mark
  rw [decodeAt_eq_ok_iff]
  refine ⟨[],?_,rfl⟩
  rw [List.drop_eq_getElem_cons inside, same]
  exact decode_blockEnd _

/-- The bytes behind a record are those of the block from the next place on. -/
theorem decodeAt_eq_ok_drop (number : Nat) {block rest : Bytes} {offset : Nat} {record : Record}
    (found : decode (block.drop offset) = .ok (record,rest)) :
    ∃ next, decodeAt block ⟨number,offset⟩ = .ok (record,next) ∧ rest = block.drop next := by
  refine ⟨_,decodeAt_eq_ok_iff.mpr ⟨rest,found,rfl⟩,List.suffix_iff_eq_drop.mp ?_⟩
  obtain ⟨body,split,read⟩ := decode_eq_ok found
  have front : body <:+ block.drop offset := split ▸ List.suffix_cons _ _
  exact ((suffix_of_decodeBody? read).trans front).trans (List.drop_suffix _ _)

theorem encode_extract {block : Bytes} {place : Place} {record : Record} {next : Nat}
    (found : decodeAt block place = .ok (record,next)) (open_ : record ≠ .blockEnd) :
    record.encode = .ok (record.tag.settle (block.extract place.offset next)) := by
  obtain ⟨rest,decoded,rfl⟩ := decodeAt_eq_ok_iff.mp found
  obtain ⟨run,split,encoded⟩ := encode_decode decoded open_
  have lengths := congrArg List.length split
  rw [List.length_drop, List.length_append] at lengths
  have bounds := decodeAt_bounds found
  have width : block.length - rest.length - place.offset = run.length := by omega
  rw [List.extract_eq_take_drop, split, width, List.take_left]
  exact encoded

/-- A record that is read at some place of a block is written back with as many bytes as it had
there, and the same ones up to its mark byte; so what is read in canonical form is written as it was,
and no record has two canonical forms. -/
theorem encode_decodeAt {block : Bytes} {place : Place} {record : Record} {next : Nat}
    (found : decodeAt block place = .ok (record,next)) (open_ : record ≠ .blockEnd) :
    let run := block.extract place.offset next
    place.offset < next ∧ next ≤ block.length ∧
      record.encode = .ok (record.tag.settle run) ∧
      (record.tag.settle run).length = next - place.offset ∧
      (record.tag.Canonical run → record.encode = .ok run) ∧
      ∀ other place' next', decodeAt other place' = .ok (record,next') →
        record.tag.Canonical run → record.tag.Canonical (other.extract place'.offset next') →
        other.extract place'.offset next' = run := by
  intro run
  obtain ⟨ahead,inside⟩ := decodeAt_bounds found
  have encoded := encode_extract found open_
  have width : run.length = next - place.offset := by
    simp only [run, List.extract_eq_take_drop, List.length_take, List.length_drop]
    omega
  refine ⟨ahead,inside,encoded,?_,?_,?_⟩
  · rw [Tag.length_settle, width]
  · intro canonical
    rw [encoded, Tag.settle_of_canonical canonical]
  · intro other place' next' found' canonical canonical'
    have encoded' := encode_extract found' open_
    rw [encoded, Tag.settle_of_canonical canonical, Tag.settle_of_canonical canonical'] at encoded'
    exact (Except.ok.inj encoded').symm

/-- A condition whose mark byte is nine, between other bytes. -/
theorem encode_decodeAt_nine :
    decodeAt [0,2,9,0,1,65,6] ⟨3,1⟩ = .ok (.condition ⟨[65],true⟩,6) ∧
      encode (.condition ⟨[65],true⟩) = .ok (Tag.condition.settle [2,9,0,1,65]) ∧
      Tag.condition.settle [2,9,0,1,65] = [2,1,0,1,65] := by
  have found : decodeAt [0,2,9,0,1,65,6] ⟨3,1⟩ = .ok (.condition ⟨[65],true⟩,6) := rfl
  obtain ⟨_,_,encoded,_⟩ := encode_decodeAt found nofun
  exact ⟨found,encoded,rfl⟩

end Record

end DocGraph
