import DocGraph.Load
import DocGraph.Proofs.BlockPacking
import DocGraph.Proofs.HeaderRoundTrip

/-! Header, blocks, builder and linker, put together for files that a writer wrote. Records of such a file may be
rejected, but all of them can be read. -/
namespace DocGraph

theorem Source.fill_append {front rest : Bytes} {want : Nat} (width : front.length = want) :
    Source.fill ⟨front ++ rest,[]⟩ want = (.ok front,⟨rest,[]⟩) := by
  subst width
  simp [fill,fillFrom]

theorem Reader.start_toBytes (header : Header) (body : Bytes) (file : String) :
    Reader.start ⟨header.toBytes ++ body,[]⟩ file =
      .ok { source := ⟨body,[]⟩, file, header } := by
  simp only [start, Source.fill_append (Header.length_toBytes header), Header.parse_toBytes]
  rfl

theorem Reader.nextBlock_append {reader : Reader} {block rest : Bytes}
    (source : reader.source = ⟨block ++ rest,[]⟩) (width : block.length = blockSize) :
    reader.nextBlock =
      (.ok (some block),
        { reader with source := ⟨rest,[]⟩, blocksRead := reader.blocksRead + 1 }) := by
  have full : block.length ≠ 0 := by rw [width]; decide
  simp only [nextBlock, source, Source.fill_append width, if_neg full]
  rw [if_neg (by rw [width]; exact Nat.lt_irrefl _)]

theorem Reader.nextBlock_nil {reader : Reader} (source : reader.source = ⟨[],[]⟩) :
    reader.nextBlock = (.ok none,reader) := by
  obtain ⟨_,file,header,blocksRead⟩ := reader
  cases source
  rfl

namespace Builder

theorem addBlock_accepted {builder after : Builder} {records : List Record} (fits : Fits records)
    (accepted : builder.applyAll (records.map Record.plain) = some after) (number : Nat) :
    ∃ notices, builder.addBlock number (blockOf records) =
      { builder := after, notices, fault := none } := by
  obtain ⟨some_,same⟩ := addRecords_accepted fits.writable accepted []
    (List.replicate (blockSize - (records.flatMap Record.bytes).length) Tag.blockEnd.byte)
  obtain ⟨more,padding⟩ := after.addRecords_padding some_
    (blockSize - (records.flatMap Record.bytes).length)
  refine ⟨more,?_⟩
  simp only [addBlock, blockOf, same, padding]

/-- A rejected record is named by its tag, so its marks do not matter. -/
theorem fault_rejected_plain (reason : Rejection) (record : Record) (bytes : Bytes) (mode : Mode)
    (place : Place) :
    (Stop.rejected reason record.plain bytes).fault mode place =
      (Stop.rejected reason record bytes).fault mode place := by
  cases reason with
  | unexpected => simp only [Stop.fault, Record.tag_plain]
  | misplaced => rfl

theorem addBlock_rejected {builder before after : Builder} {earlier later : List Record}
    {record : Record} {reason : Rejection} (fits : Fits (earlier ++ record :: later))
    (accepted : builder.applyAll (earlier.map Record.plain) = some before)
    (rejected : before.apply record.plain = (after,some reason)) (number : Nat) :
    let block := blockOf (earlier ++ record :: later)
    let offset := (earlier.flatMap Record.bytes).length
    (builder.addBlock number block).fault =
      some ((Stop.rejected reason record (block.drop offset)).fault after.mode ⟨number,offset⟩) := by
  intro block offset
  obtain ⟨tail,split⟩ : ∃ tail, block = earlier.flatMap Record.bytes ++ (record.bytes ++ tail) := by
    simp only [block, blockOf, List.flatMap_append, List.flatMap_cons, List.append_assoc]
    exact ⟨_,rfl⟩
  obtain ⟨more,stopped⟩ := addRecords_rejected
    (fun other member => fits.writable other (List.mem_append_left _ member)) accepted
    (fits.writable record (by simp)) rejected [] tail
  have rest : block.drop offset = record.bytes ++ tail := by
    rw [split]; exact List.drop_left
  have width : block.length - (record.bytes ++ tail).length = offset := by
    rw [split, List.length_append]; omega
  simp only [addBlock, split, stopped, Stop.bytes]
  rw [← split, width, fault_rejected_plain, rest]

end Builder

namespace Loaded

theorem build_step {reader next : Reader} {block : Bytes}
    (read : reader.nextBlock = (.ok (some block),next)) (builder : Builder) (number : Nat)
    (notices : List Notice) :
    build reader builder number notices =
      match (builder.addBlock number block).fault with
      | some fault => ⟨.error fault,notices ++ (builder.addBlock number block).notices⟩
      | none => build next (builder.addBlock number block).builder (number + 1)
          (notices ++ (builder.addBlock number block).notices) := by
  rw [build]
  split
  · rename_i found; rw [read] at found; cases found
  · rename_i found; rw [read] at found; cases found
  · rename_i found; rw [read] at found; cases found; rfl

theorem build_end {reader next : Reader} (read : reader.nextBlock = (.ok none,next))
    (builder : Builder) (number : Nat) (notices : List Notice) :
    build reader builder number notices = ⟨.ok ⟨builder,number⟩,notices⟩ := by
  rw [build]
  split
  · rename_i found; rw [read] at found; cases found
  · rfl
  · rename_i found; rw [read] at found; cases found

theorem build_fault {reader next : Reader} {fault : Fault} (read : reader.nextBlock = (.error fault,next))
    (builder : Builder) (number : Nat) (notices : List Notice) :
    build reader builder number notices = ⟨.error fault,notices⟩ := by
  rw [build]
  split
  · rename_i found; rw [read] at found; cases found; rfl
  · rename_i found; rw [read] at found; cases found
  · rename_i found; rw [read] at found; cases found

/-- Blocks whose records are all accepted lead on to what follows them. -/
theorem build_accepted {blocks : List (List Record)} {rest : Bytes} {reader : Reader}
    {builder after : Builder} (fits : ∀ block ∈ blocks, Fits block)
    (source : reader.source = ⟨(blocks.map blockOf).flatten ++ rest,[]⟩)
    (accepted : builder.applyAll (blocks.flatten.map Record.plain) = some after)
    (number : Nat) (notices : List Notice) :
    ∃ next more, next.source = ⟨rest,[]⟩ ∧
      build reader builder number notices = build next after (number + blocks.length) more := by
  induction blocks generalizing reader builder number notices with
  | nil =>
    cases accepted
    exact ⟨reader,notices,source,rfl⟩
  | cons block blocks ih =>
    have here := fits block List.mem_cons_self
    rw [List.flatten_cons, List.map_append, Builder.applyAll_append] at accepted
    obtain ⟨middle,first,later⟩ := Option.bind_eq_some_iff.mp accepted
    rw [List.map_cons, List.flatten_cons, List.append_assoc] at source
    obtain ⟨heard,added⟩ := Builder.addBlock_accepted here first number
    let following : Reader := { reader with
      source := ⟨(blocks.map blockOf).flatten ++ rest,[]⟩, blocksRead := reader.blocksRead + 1 }
    have fitting : ∀ block ∈ blocks, Fits block :=
      fun block member => fits block (List.mem_cons_of_mem _ member)
    obtain ⟨next,more,remaining,same⟩ := ih fitting (rfl : following.source = _) later (number + 1)
      (notices ++ heard)
    refine ⟨next,more,remaining,?_⟩
    rw [build_step (Reader.nextBlock_append source (length_blockOf here))]
    simp only [added]
    rw [same, List.length_cons, Nat.add_assoc, Nat.add_comm 1]

/-- The first record that is rejected ends the loading, with the bytes of its block from there on. -/
theorem build_rejected {blocks others : List (List Record)} {earlier later : List Record}
    {record : Record} {reason : Rejection} {reader : Reader} {builder before after : Builder}
    (fits : ∀ block ∈ blocks ++ (earlier ++ record :: later) :: others, Fits block)
    (source : reader.source =
      ⟨((blocks ++ (earlier ++ record :: later) :: others).map blockOf).flatten,[]⟩)
    (accepted : builder.applyAll ((blocks.flatten ++ earlier).map Record.plain) = some before)
    (rejected : before.apply record.plain = (after,some reason))
    (number : Nat) (notices : List Notice) :
    (build reader builder number notices).result =
      .error ((Stop.rejected reason record
        ((blockOf (earlier ++ record :: later)).drop (earlier.flatMap Record.bytes).length)).fault
          after.mode ⟨number + blocks.length,(earlier.flatMap Record.bytes).length⟩) := by
  have here : Fits (earlier ++ record :: later) := fits _ (by simp)
  have fitting : ∀ block ∈ blocks, Fits block :=
    fun block member => fits block (List.mem_append_left _ member)
  rw [List.map_append, Builder.applyAll_append] at accepted
  obtain ⟨middle,first,last⟩ := Option.bind_eq_some_iff.mp accepted
  rw [List.map_append, List.flatten_append] at source
  obtain ⟨next,heard,remaining,same⟩ := build_accepted fitting source first number notices
  have fault := Builder.addBlock_rejected here last rejected (number + blocks.length)
  rw [List.map_cons, List.flatten_cons] at remaining
  rw [same, build_step (Reader.nextBlock_append remaining (length_blockOf here)), fault]

end Loaded

namespace Builder

theorem applyOutside_records (builder : Builder) (record : Record) :
    (builder.applyOutside record).1.records = builder.records := by
  cases record <;> rfl

theorem changeTransition_records (builder : Builder) (record : Tag)
    (change : Transition → Transition) :
    (builder.changeTransition record change).1.records = builder.records := by
  unfold changeTransition
  split <;> rfl

theorem applyStateMachine_records (builder : Builder) (cursor : StateCursor) (record : Record) :
    (builder.applyStateMachine cursor record).1.records = builder.records := by
  cases record with
  | transition => cases cursor <;> rfl
  | trigger | triggers | condition => exact changeTransition_records _ _ _
  | _ => rfl

theorem applySequence_records (builder : Builder) (cursor : SequenceCursor) (record : Record) :
    (builder.applySequence cursor record).1.records = builder.records := by
  cases record with
  | nodeStart | sentMessage | condition => cases cursor <;> rfl
  | _ => rfl

theorem applyApi_records (builder : Builder) (group : GroupId) (cursor : ApiCursor) (record : Record) :
    (builder.applyApi group cursor record).1.records = builder.records := by
  obtain ⟨function,type,constants⟩ := cursor
  cases record with
  | apiAction | apiDescription | apiParameter | apiReturns => cases function <;> rfl
  | apiTypeField => cases type <;> rfl
  | apiConstant => cases constants <;> rfl
  | _ => rfl

theorem applyApplication_records (builder : Builder) (position : Nat) (opened : Option Nat)
    (record : Record) :
    (builder.applyApplication position opened record).1.records = builder.records := by
  cases record with
  | applicationSubSection => cases opened <;> rfl
  | _ => rfl

theorem apply_records (builder : Builder) {record : Record} (open_ : record ≠ .blockEnd) :
    (builder.apply record).1.records = builder.records + 1 := by
  unfold apply
  rw [if_neg open_]
  cases builder.current with
  | outside => exact applyOutside_records _ record
  | stateMachine cursor => exact applyStateMachine_records _ cursor record
  | sequence cursor => exact applySequence_records _ cursor record
  | api group cursor => exact applyApi_records _ group cursor record
  | application position opened => exact applyApplication_records _ position opened record

theorem applyAll_records {builder after : Builder} {records : List Record}
    (open_ : ∀ record ∈ records, record ≠ .blockEnd)
    (accepted : builder.applyAll records = some after) :
    after.records = builder.records + records.length := by
  induction records generalizing builder with
  | nil => cases accepted; rfl
  | cons record rest ih =>
    have counted := builder.apply_records (open_ record List.mem_cons_self)
    simp only [applyAll] at accepted
    split at accepted
    · rename_i next applied
      rw [applied] at counted
      have later := ih (fun other member => open_ other (List.mem_cons_of_mem _ member)) accepted
      rw [later, counted, List.length_cons]
      omega
    · cases accepted

end Builder

theorem plain_contentOf_open {records : List Record} :
    ∀ record ∈ (contentOf records).map Record.plain, record ≠ .blockEnd := by
  intro record member
  obtain ⟨original,kept,rfl⟩ := List.mem_map.mp member
  have open_ := (List.mem_filter.mp kept).2
  exact Record.plain_ne_blockEnd (by simpa using open_)

theorem load_file_accepted {header : Header} {records : List Record} {bytes : Bytes} {builder : Builder}
    (written : Writer.file header records = .ok bytes)
    (accepted : Builder.applyAll {} ((contentOf records).map Record.plain) = some builder)
    (file : String) :
    ∃ blocks, blocks * blockSize + Header.size = bytes.length ∧
      (load ⟨bytes,[]⟩ file).result = .ok
        { source := file
          header := { header with recordCount := UInt32.ofNat (contentOf records).length }
          model := (Loaded.nameDocument (builder.model.link builder.limits).model).1
          report := (builder.model.link builder.limits).report
          records := (contentOf records).length
          blocks } := by
  obtain ⟨blocks,listed,fits,rfl⟩ := Writer.file_blocks written
  have counted := Builder.applyAll_records plain_contentOf_open accepted
  rw [← listed] at accepted
  refine ⟨blocks.length,?_,?_⟩
  · rw [List.length_append, Header.length_toBytes, length_blocks fits, Nat.add_comm]
  · let reader : Reader :=
      { source := ⟨(blocks.map blockOf).flatten,[]⟩, file
        header := { header with recordCount := UInt32.ofNat (contentOf records).length } }
    have source : reader.source = ⟨(blocks.map blockOf).flatten ++ [],[]⟩ := by
      rw [List.append_nil]
    obtain ⟨next,heard,remaining,same⟩ :=
      Loaded.build_accepted fits source accepted 0 reader.notices
    simp only [load, Reader.start_toBytes]
    rw [same, Loaded.build_end (Reader.nextBlock_nil remaining), Nat.zero_add]
    simp only [counted, List.length_map, Nat.zero_add]

/-- The graph of records that are all accepted, linked and named. -/
def graphOf (records : List Record) : Option Model :=
  (Builder.applyAll {} ((contentOf records).map Record.plain)).map fun builder =>
    (Loaded.nameDocument (builder.model.link builder.limits).model).1

/-- A written file is loaded with the graph of its records. -/
theorem load_graphOf {header : Header} {records : List Record} {bytes : Bytes} {check : Model → Bool}
    (written : Writer.file header records = .ok bytes) (checked : (graphOf records).any check)
    (file : String) :
    ∃ loaded, (load ⟨bytes,[]⟩ file).result = .ok loaded ∧ check loaded.model := by
  obtain ⟨model,graph,holds⟩ := (Option.any_eq_true _ _).mp checked
  obtain ⟨builder,accepted,rfl⟩ := Option.map_eq_some_iff.mp graph
  obtain ⟨_,_,found⟩ := load_file_accepted written accepted file
  exact ⟨_,found,holds⟩

theorem load_file_rejected {header : Header} {before later : List Record} {record : Record}
    {reason : Rejection} {bytes : Bytes} {builder after : Builder}
    (written : Writer.file header (before ++ record :: later) = .ok bytes)
    (open_ : record ≠ .blockEnd)
    (accepted : Builder.applyAll {} ((contentOf before).map Record.plain) = some builder)
    (rejected : builder.apply record.plain = (after,some reason)) (file : String) :
    ∃ writer : Writer, Writer.writeAll { header } before = .ok writer ∧
      let place := writer.place record.bytes
      let left := (bytes.drop (Header.size + place.block * blockSize + place.offset)).take
        (blockSize - place.offset)
      (load ⟨bytes,[]⟩ file).result =
        .error ((Stop.rejected reason record left).fault after.mode place) := by
  obtain ⟨writer,blocks,earlier,more,others,first,listed,place,fits,rfl⟩ :=
    Writer.file_place written open_
  refine ⟨writer,first,?_⟩
  rw [← listed] at accepted
  have inside : (earlier.flatMap Record.bytes).length ≤ blockSize := by
    have size := (fits (earlier ++ record :: more) (by simp)).size
    rw [List.flatMap_append, List.length_append] at size
    omega
  generalize ({ header with
    recordCount := UInt32.ofNat (contentOf (before ++ record :: later)).length } : Header) = counted
  have left := drop_blocks fits counted.toBytes inside
  rw [Header.length_toBytes] at left
  let reader : Reader :=
    { source := ⟨((blocks ++ (earlier ++ record :: more) :: others).map blockOf).flatten,[]⟩, file
      header := counted }
  have source : reader.source =
    ⟨((blocks ++ (earlier ++ record :: more) :: others).map blockOf).flatten,[]⟩ := rfl
  have stopped := Loaded.build_rejected fits source accepted rejected 0 reader.notices
  simp only [place]
  rw [left]
  simp only [load, Reader.start_toBytes]
  rw [stopped, Nat.zero_add]

/-- Records that are not all accepted have a first one that is rejected. -/
theorem exists_first_rejected {builder : Builder} {records : List Record}
    (refused : builder.applyAll (contentOf records) = none) :
    ∃ before record later middle after reason, records = before ++ record :: later ∧
      builder.applyAll (contentOf before) = some middle ∧
      middle.apply record = (after,some reason) := by
  induction records generalizing builder with
  | nil => cases refused
  | cons record rest ih =>
    by_cases padding : record = .blockEnd
    · subst padding
      obtain ⟨before,other,later,middle,after,reason,rfl,accepted,rejected⟩ := ih refused
      exact ⟨.blockEnd :: before,other,later,middle,after,reason,rfl,accepted,rejected⟩
    · rw [contentOf_cons padding] at refused
      cases applied : builder.apply record with
      | mk next verdict =>
        cases verdict with
        | some reason => exact ⟨[],record,rest,builder,next,reason,rfl,rfl,applied⟩
        | none =>
          simp only [Builder.applyAll, applied] at refused
          obtain ⟨before,other,later,middle,after,reason,rfl,accepted,rejected⟩ := ih refused
          refine ⟨record :: before,other,later,middle,after,reason,rfl,?_,rejected⟩
          rw [contentOf_cons padding]
          simpa only [Builder.applyAll, applied] using accepted

/-- A file is judged as the records that were written, marks that it drops included. -/
theorem rejected_plain {before : List Record} {builder after : Builder} {record : Record}
    {reason : Rejection} (accepted : Builder.applyAll {} (contentOf before) = some builder)
    (rejected : builder.apply record = (after,some reason)) :
    ∃ kept last, Builder.applyAll {} ((contentOf before).map Record.plain) = some kept ∧
      kept.apply record.plain = (last,some reason) ∧ last.mode = after.mode := by
  obtain ⟨kept,same,stages⟩ :=
    Builder.applyAll_of_tags Builder.initial_sound (Builder.map_tag_plain _) accepted
  have judged := Builder.apply_verdict (Builder.applyAll_sound Builder.initial_sound same) record.plain
  rw [stages, Record.tag_plain,
    ← Builder.apply_verdict (Builder.applyAll_sound Builder.initial_sound accepted) record] at judged
  obtain ⟨stage,cause⟩ := Prod.mk.inj judged
  rw [rejected] at stage cause
  refine ⟨kept,(kept.apply record.plain).1,same,Prod.ext rfl cause,?_⟩
  have modes := congrArg Stage.mode stage
  simpa only [Builder.mode, Section.mode_stage] using modes

theorem load_file_first_rejected {header : Header} {before later : List Record} {record : Record}
    {reason : Rejection} {bytes : Bytes} {builder after : Builder}
    (written : Writer.file header (before ++ record :: later) = .ok bytes)
    (accepted : Builder.applyAll {} (contentOf before) = some builder)
    (rejected : builder.apply record = (after,some reason)) (file : String) :
    ∃ writer : Writer, Writer.writeAll { header } before = .ok writer ∧
      let place := writer.place record.bytes
      let left := (bytes.drop (Header.size + place.block * blockSize + place.offset)).take
        (blockSize - place.offset)
      (load ⟨bytes,[]⟩ file).result =
        .error ((Stop.rejected reason record left).fault after.mode place) := by
  have open_ : record ≠ .blockEnd := by
    rintro rfl
    cases rejected
  obtain ⟨kept,last,same,refused,mode⟩ := rejected_plain accepted rejected
  rw [← mode]
  exact load_file_rejected written open_ same refused file

theorem accepted_of_loaded {header : Header} {records : List Record} {bytes : Bytes} {file : String}
    {loaded : Loaded} (written : Writer.file header records = .ok bytes)
    (found : (load ⟨bytes,[]⟩ file).result = .ok loaded) :
    (Builder.applyAll {} (contentOf records)).isSome := by
  cases applied : Builder.applyAll {} (contentOf records) with
  | some builder => rfl
  | none =>
    obtain ⟨before,record,later,middle,after,reason,rfl,accepted,rejected⟩ :=
      exists_first_rejected applied
    obtain ⟨_,_,failed⟩ := load_file_first_rejected written accepted rejected file
    rw [found] at failed
    cases failed

theorem accepted_plain {records : List Record}
    (accepted : (Builder.applyAll {} (contentOf records)).isSome) :
    ∃ builder, Builder.applyAll {} ((contentOf records).map Record.plain) = some builder := by
  obtain ⟨builder,whole⟩ := Option.isSome_iff_exists.mp accepted
  obtain ⟨kept,same,_⟩ :=
    Builder.applyAll_of_tags Builder.initial_sound (Builder.map_tag_plain _) whole
  exact ⟨kept,same⟩

/-- Loading a written file and applying its records come to the same: a file is loaded exactly when
its records are all accepted, the graph is theirs, linked and named, and otherwise the first record
that is rejected is reported where the writer put it. -/
theorem load_written_file {header : Header} {records : List Record} {bytes : Bytes}
    (written : Writer.file header records = .ok bytes)
    (few : (contentOf records).length < 4294967296) (file : String) :
    ((∃ loaded, (load ⟨bytes,[]⟩ file).result = .ok loaded) ↔
      (Builder.applyAll {} (contentOf records)).isSome) ∧
    (∀ loaded, (load ⟨bytes,[]⟩ file).result = .ok loaded →
      ∃ builder, Builder.applyAll {} ((contentOf records).map Record.plain) = some builder ∧
        loaded.model = (Loaded.nameDocument (builder.model.link builder.limits).model).1 ∧
        loaded.report = (builder.model.link builder.limits).report ∧
        loaded.records = (contentOf records).length ∧
        loaded.header.recordCount.toNat = (contentOf records).length ∧
        loaded.header = { header with recordCount := loaded.header.recordCount } ∧
        loaded.blocks * blockSize + Header.size = bytes.length) ∧
    (∀ before record later builder after reason, records = before ++ record :: later →
      Builder.applyAll {} (contentOf before) = some builder →
      builder.apply record = (after,some reason) →
      ∃ writer : Writer, Writer.writeAll { header } before = .ok writer ∧
        let place := writer.place record.bytes
        let left := (bytes.drop (Header.size + place.block * blockSize + place.offset)).take
          (blockSize - place.offset)
        (load ⟨bytes,[]⟩ file).result =
          .error ((Stop.rejected reason record left).fault after.mode place)) := by
  refine ⟨⟨?_,?_⟩,?_,?_⟩
  · rintro ⟨loaded,found⟩
    exact accepted_of_loaded written found
  · intro whole
    obtain ⟨builder,accepted⟩ := accepted_plain whole
    obtain ⟨_,_,found⟩ := load_file_accepted written accepted file
    exact ⟨_,found⟩
  · intro loaded found
    obtain ⟨builder,accepted⟩ := accepted_plain (accepted_of_loaded written found)
    obtain ⟨blocks,width,same⟩ := load_file_accepted written accepted file
    rw [found] at same
    cases same
    exact ⟨builder,accepted,rfl,rfl,rfl,UInt32.toNat_ofNat_of_lt' few,rfl,width⟩
  · rintro before record later builder after reason rfl accepted rejected
    exact load_file_first_rejected written accepted rejected file

/-- A message that crosses a closed block, and two sections that no block has room for together. -/
def crowded : List Record :=
  let content (title : UInt8) : Titled := ⟨⟨[title],false⟩,⟨List.replicate 9000 98,true⟩⟩
  [.sequenceStart ⟨[103],false⟩, .timeline ⟨⟨[103],false⟩,⟨[65],true⟩⟩, .nodeStart 1 0,
    .sentMessage ⟨1,2,⟨[66],false⟩,⟨[109],false⟩⟩, .nodeEnd, .blockEnd,
    .timeline ⟨⟨[103],false⟩,⟨[66],false⟩⟩, .nodeStart 2 0, .nodeEnd, .sequenceEnd,
    .applicationStart ⟨[97],false⟩, .applicationSection (content 115), .applicationSection (content 116)]

theorem crowded_fits : ∀ record ∈ contentOf (crowded ++ [.nodeEnd]),
    record.Writable ∧ record.bytes.length ≤ blockSize := by
  have all : (contentOf (crowded ++ [.nodeEnd])).all fun record =>
      record.encode.isOk ∧ record.bytes.length ≤ blockSize := by decide +kernel
  intro record member
  obtain ⟨encodes,small⟩ := of_decide_eq_true (List.all_eq_true.mp all record member)
  have open_ : record ≠ .blockEnd := of_decide_eq_true (List.mem_filter.mp member).2
  cases encoded : record.encode with
  | error overlong =>
    rw [encoded] at encodes
    cases encodes
  | ok bytes => exact ⟨(Record.writable_of_encode open_ encoded).1,small⟩

theorem crowded_arranged :
    let layout := crowded.foldl Writer.arrange ([],[])
    (Writer.closedBlocks layout.1 layout.2).length = 3 ∧
      (Writer.arrange (layout.1,layout.2) .nodeEnd).1.length = 2 ∧
      ((Writer.arrange (layout.1,layout.2) .nodeEnd).2.flatMap Record.bytes).length = 9007 := by decide +kernel

/-- A file of three blocks: the mark closes the first, and the second has no room for the last section. A
record too many is reported in the third. -/
theorem load_closed_block :
    (∃ bytes loaded, Writer.file {} crowded = .ok bytes ∧ (load ⟨bytes,[]⟩ "model").result = .ok loaded ∧
      loaded.records = 12 ∧ loaded.header.recordCount.toNat = 12 ∧ loaded.blocks = 3 ∧
      loaded.report.messagesResolved = 1 ∧ (loaded.model.timeline ⟨0⟩).name = ⟨[65],false⟩) ∧
    ∃ bytes dump, Writer.file {} (crowded ++ [.nodeEnd]) = .ok bytes ∧
      (load ⟨bytes,[]⟩ "model").result =
        .error (.unexpectedRecord .application Tag.nodeEnd.byte ⟨2,9006⟩ dump) := by
  obtain ⟨three,third,last⟩ := crowded_arranged
  have fits : ∀ record ∈ contentOf crowded, record.Writable ∧ record.bytes.length ≤ blockSize := by
    intro record member
    exact crowded_fits record (by rw [contentOf_append]; exact List.mem_append_left _ member)
  obtain ⟨writer,bytes,stored,packed,written,width⟩ := Writer.file_arranged fits
  obtain ⟨_,longer,_,_,written',_⟩ := Writer.file_arranged crowded_fits
  refine ⟨⟨bytes,?_⟩,⟨longer,?_⟩⟩
  · obtain ⟨success,content,_⟩ := load_written_file written (by decide +kernel) "model"
    have linked : (Builder.applyAll {} ((contentOf crowded).map Record.plain)).any fun builder =>
        (builder.model.link builder.limits).report.messagesResolved = 1 ∧
          ((Loaded.nameDocument (builder.model.link builder.limits).model).1.timeline ⟨0⟩).name =
            ⟨[65],false⟩ := by decide +kernel
    obtain ⟨loaded,found⟩ := success.mpr (by decide +kernel)
    obtain ⟨builder,accepted,model,report,records,count,_,blocks⟩ := content loaded found
    rw [accepted] at linked
    obtain ⟨resolved,name⟩ := of_decide_eq_true linked
    rw [← report] at resolved
    rw [← model] at name
    rw [width, three] at blocks
    exact ⟨loaded,written,found,records,count,by unfold blockSize at blocks; omega,resolved,name⟩
  · obtain ⟨_,_,failure⟩ := load_written_file written' (by decide +kernel) "model"
    have refused : (Builder.applyAll {} (contentOf crowded)).any fun builder =>
        (builder.apply .nodeEnd).2 = some .unexpected ∧ (builder.apply .nodeEnd).1.mode = .application := by
      decide +kernel
    obtain ⟨builder,accepted,refused⟩ := (Option.any_eq_true _ _).mp refused
    obtain ⟨rejected,mode⟩ := of_decide_eq_true refused
    obtain ⟨again,stored',failed⟩ :=
      failure crowded .nodeEnd [] builder _ .unexpected rfl accepted (Prod.ext rfl rejected)
    cases stored.symm.trans stored'
    have open_ : Record.nodeEnd ≠ .blockEnd := by decide
    obtain ⟨block,offset⟩ := packed.place_arranged open_
    have width : Record.nodeEnd.bytes.length = 1 := rfl
    rw [last, width] at offset
    have here : writer.place Record.nodeEnd.bytes = ⟨2,9006⟩ :=
      congrArg₂ Place.mk (block.trans third) (Nat.add_right_cancel offset)
    simp only [here, mode, Stop.fault] at failed
    exact ⟨_,written',failed⟩

end DocGraph
