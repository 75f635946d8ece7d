import DocGraph.File.Writer
import DocGraph.Proofs.RecordRun

/-! A written file as lists of records, block by block. A record that has been placed stays where it is. -/
namespace DocGraph

/-- The records of a list that are not end marks of blocks. -/
def contentOf (records : List Record) : List Record := records.filter (· ≠ .blockEnd)

theorem contentOf_append (earlier later : List Record) :
    contentOf (earlier ++ later) = contentOf earlier ++ contentOf later := List.filter_append ..

theorem contentOf_cons {record : Record} (open_ : record ≠ .blockEnd) (rest : List Record) :
    contentOf (record :: rest) = record :: contentOf rest :=
  List.filter_cons_of_pos (by simpa using open_)

/-- A block: its records and end marks up to the full size. -/
def blockOf (records : List Record) : Bytes :=
  let bytes := records.flatMap Record.bytes
  bytes ++ List.replicate (blockSize - bytes.length) Tag.blockEnd.byte

/-- Records that fit into one block. -/
structure Fits (records : List Record) : Prop where
  writable : ∀ record ∈ records, record.Writable
  size : (records.flatMap Record.bytes).length ≤ blockSize

theorem length_blockOf {records : List Record} (fits : Fits records) :
    (blockOf records).length = blockSize := by
  have := fits.size
  simp only [blockOf, List.length_append, List.length_replicate]
  omega

theorem length_flatten_whole {blocks : List Bytes} (whole : ∀ block ∈ blocks, block.length = blockSize) :
    blocks.flatten.length = blocks.length * blockSize := by
  induction blocks with
  | nil => exact (Nat.zero_mul _).symm
  | cons block rest ih =>
    have later := ih fun other member => whole other (List.mem_cons_of_mem _ member)
    rw [List.flatten_cons, List.length_append, whole block List.mem_cons_self, later, List.length_cons,
      Nat.succ_mul, Nat.add_comm]

theorem length_blocks {blocks : List (List Record)} (fits : ∀ block ∈ blocks, Fits block) :
    (blocks.map blockOf).flatten.length = blocks.length * blockSize := by
  have whole : ∀ block ∈ blocks.map blockOf, block.length = blockSize := by
    intro block member
    obtain ⟨records,listed,rfl⟩ := List.mem_map.mp member
    exact length_blockOf (fits records listed)
  rw [length_flatten_whole whole, List.length_map]

/-- The end of a block, read off the bytes of all blocks and what comes before them. -/
theorem drop_blocks {blocks others : List (List Record)} {block : List Record}
    (fits : ∀ other ∈ blocks ++ block :: others, Fits other) (front : Bytes) {offset : Nat}
    (inside : offset ≤ blockSize) :
    ((front ++ ((blocks ++ block :: others).map blockOf).flatten).drop
        (front.length + blocks.length * blockSize + offset)).take (blockSize - offset) =
      (blockOf block).drop offset := by
  have here : (blockOf block).length = blockSize := length_blockOf (fits block (by simp))
  have before := length_blocks fun other member => fits other (List.mem_append_left _ member)
  have split : front ++ ((blocks ++ block :: others).map blockOf).flatten =
      (front ++ (blocks.map blockOf).flatten) ++ (blockOf block ++ (others.map blockOf).flatten) := by
    simp
  have start : front.length + blocks.length * blockSize =
      (front ++ (blocks.map blockOf).flatten).length := by
    rw [List.length_append, before]
  have width : ((blockOf block).drop offset).length = blockSize - offset := by
    rw [List.length_drop, here]
  rw [split, start, ← List.drop_drop, List.drop_left, List.drop_append_of_le_length (by omega)]
  rw [← width, List.take_left]

theorem flatMap_bytes_eq_nil {records : List Record} (writable : ∀ record ∈ records, record.Writable)
    (empty : records.flatMap Record.bytes = []) : records = [] := by
  cases records with
  | nil => rfl
  | cons record rest =>
    rw [List.flatMap_cons, List.append_eq_nil_iff] at empty
    exact absurd empty.1 (writable record List.mem_cons_self).bytes_ne_nil

namespace Writer

/-- The closed blocks of the writer hold `blocks`, and the open one holds `current`. -/
structure Packed (writer : Writer) (blocks : List (List Record)) (current : List Record) : Prop where
  closed : writer.closed.toList = blocks.map blockOf
  block : writer.block.toList = current.flatMap Record.bytes
  counted : writer.records = UInt32.ofNat (blocks.flatten ++ current).length
  fits : ∀ records ∈ blocks, Fits records
  currentFits : Fits current

theorem initial_packed (header : Header) : Packed { header } [] [] where
  closed := rfl
  block := rfl
  counted := rfl
  fits := nofun
  currentFits := ⟨nofun,Nat.zero_le _⟩

/-- The block that is closed when the open one holds some records. -/
def closedBlocks (blocks : List (List Record)) (current : List Record) : List (List Record) :=
  if current.isEmpty then blocks else blocks ++ [current]

theorem closedBlocks_flatten (blocks : List (List Record)) (current : List Record) :
    (closedBlocks blocks current).flatten = blocks.flatten ++ current := by
  unfold closedBlocks
  split
  · rename_i empty; simp [List.isEmpty_iff.mp empty]
  · simp

variable {writer : Writer} {blocks : List (List Record)} {current : List Record}

theorem Packed.size_block (packed : Packed writer blocks current) :
    writer.block.size = (current.flatMap Record.bytes).length := by
  rw [← packed.block, Array.length_toList]

theorem Packed.size_closed (packed : Packed writer blocks current) :
    writer.closed.size = blocks.length := by
  rw [← Array.length_toList, packed.closed, List.length_map]

theorem Packed.isEmpty_block (packed : Packed writer blocks current) :
    writer.block.isEmpty = current.isEmpty := by
  have same : writer.block.isEmpty = (current.flatMap Record.bytes).isEmpty := by
    rw [← packed.block, Array.isEmpty_toList]
  rw [same]
  cases empty : current.isEmpty with
  | true => rw [List.isEmpty_iff.mp empty]; rfl
  | false =>
    rw [List.isEmpty_eq_false_iff] at empty ⊢
    exact fun none => empty (flatMap_bytes_eq_nil packed.currentFits.writable none)

theorem Packed.closeBlock (packed : Packed writer blocks current) :
    Packed writer.closeBlock (closedBlocks blocks current) [] := by
  unfold Writer.closeBlock closedBlocks
  rw [packed.isEmpty_block]
  split
  · rename_i empty
    have none := List.isEmpty_iff.mp empty
    subst none
    exact packed
  · refine ⟨?_,rfl,?_,?_,⟨nofun,Nat.zero_le _⟩⟩
    · simp [packed.closed,packed.block,blockOf,← Array.length_toList]
    · simpa using packed.counted
    · intro records member
      rcases List.mem_append.mp member with earlier | last
      · exact packed.fits records earlier
      · rw [List.mem_singleton.mp last]
        exact packed.currentFits

/-- Where the writer puts a record: into the open block, or at the start of the next one. -/
def place (writer : Writer) (encoded : Bytes) : Place :=
  let writer :=
    if writer.block.size + encoded.length > blockSize then writer.closeBlock else writer
  ⟨writer.closed.size,writer.block.size⟩

/-- A layout grows at its end only: the open block takes more records, and blocks follow it. -/
def Grows (blocks : List (List Record)) (current : List Record) (blocks' : List (List Record))
    (current' : List Record) : Prop :=
  ∃ more others, blocks' ++ [current'] = blocks ++ (current ++ more) :: others

theorem Grows.refl (blocks : List (List Record)) (current : List Record) :
    Grows blocks current blocks current := ⟨[],[],by simp⟩

theorem Grows.trans {blocks₁ blocks₂ blocks₃ : List (List Record)} {current₁ current₂ current₃ : List Record}
    (first : Grows blocks₁ current₁ blocks₂ current₂)
    (second : Grows blocks₂ current₂ blocks₃ current₃) : Grows blocks₁ current₁ blocks₃ current₃ := by
  obtain ⟨more,others,same⟩ := first
  obtain ⟨later,rest,follows⟩ := second
  rcases List.eq_nil_or_concat others with rfl | ⟨others,last,rfl⟩
  · obtain ⟨rfl,last⟩ := List.append_inj' same rfl
    cases last
    exact ⟨more ++ later,rest,by rw [follows]; simp⟩
  · have split : blocks₂ ++ [current₂] = (blocks₁ ++ (current₁ ++ more) :: others) ++ [last] := by
      rw [same]; simp
    obtain ⟨rfl,tail⟩ := List.append_inj' split rfl
    cases tail
    exact ⟨more,others ++ (current₂ ++ later) :: rest,by rw [follows]; simp⟩

theorem grows_closed (blocks : List (List Record)) (current : List Record) :
    Grows blocks current (closedBlocks blocks current) [] := by
  unfold closedBlocks
  split
  · rename_i empty
    rw [List.isEmpty_iff.mp empty]
    exact .refl _ _
  · exact ⟨[],[[]],by simp⟩

theorem grows_append (blocks : List (List Record)) (current more : List Record) :
    Grows blocks current blocks (current ++ more) := ⟨more,[],rfl⟩

theorem Packed.push (packed : Packed writer blocks current) {record : Record}
    (writable : record.Writable)
    (room : writer.block.size + record.bytes.length ≤ blockSize) :
    Packed { writer with block := writer.block ++ record.bytes, records := writer.records + 1 }
      blocks (current ++ [record]) where
  closed := packed.closed
  block := by simp [packed.block]
  counted := by
    have more : (blocks.flatten ++ (current ++ [record])).length =
        (blocks.flatten ++ current).length + 1 := by simp [Nat.add_assoc]
    rw [packed.counted, more, UInt32.ofNat_add]
    rfl
  fits := packed.fits
  currentFits := by
    refine ⟨?_,?_⟩
    · intro other member
      rcases List.mem_append.mp member with earlier | last
      · exact packed.currentFits.writable other earlier
      · rw [List.mem_singleton.mp last]
        exact writable
    · rw [packed.size_block] at room
      simpa using room

/-- The layout after one more record: it goes into the open block, or into the next when there is no room. -/
def arrange (layout : List (List Record) × List Record) (record : Record) :
    List (List Record) × List Record :=
  if record = .blockEnd then (closedBlocks layout.1 layout.2,[])
  else if blockSize < (layout.2.flatMap Record.bytes).length + record.bytes.length then
    (closedBlocks layout.1 layout.2,[record])
  else (layout.1,layout.2 ++ [record])

theorem Packed.append (packed : Packed writer blocks current) {record : Record}
    (writable : record.Writable) (small : record.bytes.length ≤ blockSize) :
    Packed (writer.append record.bytes) (arrange (blocks,current) record).1
      (arrange (blocks,current) record).2 := by
  unfold Writer.append arrange
  rw [if_neg writable.open_, packed.size_block]
  split
  · have closed := packed.closeBlock
    refine closed.push writable ?_
    rw [closed.size_block, List.flatMap_nil, List.length_nil, Nat.zero_add]
    exact small
  · rename_i room
    exact packed.push writable (packed.size_block ▸ Nat.le_of_not_lt room)

theorem Packed.arranged (packed : Packed writer blocks current) {record : Record}
    (open_ : record ≠ .blockEnd) :
    ∃ blocks' current', arrange (blocks,current) record = (blocks',current' ++ [record]) ∧
      blocks'.flatten ++ current' = blocks.flatten ++ current ∧
      Grows blocks current blocks' (current' ++ [record]) ∧
      writer.place record.bytes = ⟨blocks'.length,(current'.flatMap Record.bytes).length⟩ := by
  unfold Writer.place arrange
  rw [if_neg open_, packed.size_block]
  split
  · have closed := packed.closeBlock
    refine ⟨closedBlocks blocks current,[],rfl,?_,?_,?_⟩
    · rw [closedBlocks_flatten, List.append_nil]
    · exact (grows_closed blocks current).trans (grows_append _ [] [record])
    · simp only [closed.size_closed, closed.size_block]
  · refine ⟨blocks,current,rfl,rfl,grows_append _ _ _,?_⟩
    simp only [packed.size_closed, packed.size_block]

theorem write_eq_ok_iff {record : Record} {after : Writer} (open_ : record ≠ .blockEnd) :
    writer.write record = .ok after ↔
      (record.Writable ∧ record.bytes.length ≤ blockSize) ∧ writer.append record.bytes = after := by
  unfold Writer.write
  rw [if_neg (mt Record.tag_eq_blockEnd_iff.mp open_)]
  cases found : record.encode with
  | error overlong =>
    refine iff_of_false (by simp) fun ⟨⟨writable,_⟩,_⟩ => ?_
    rw [writable.encoded] at found
    cases found
  | ok encoded =>
    obtain ⟨writable,rfl⟩ := Record.writable_of_encode open_ found
    by_cases large : blockSize < record.bytes.length
    · simp [large,Nat.not_le.mpr large]
    · simp [large,writable,Nat.le_of_not_lt large]

theorem Packed.place_arranged (packed : Packed writer blocks current) {record : Record}
    (open_ : record ≠ .blockEnd) :
    (writer.place record.bytes).block = (arrange (blocks,current) record).1.length ∧
      (writer.place record.bytes).offset + record.bytes.length =
        ((arrange (blocks,current) record).2.flatMap Record.bytes).length := by
  obtain ⟨blocks',current',arranged,_,_,place⟩ := packed.arranged open_
  rw [arranged, place]
  simp

/-- A record is placed behind what the writer holds, and is written as its own bytes. -/
theorem Packed.write (packed : Packed writer blocks current) {record : Record} {after : Writer}
    (open_ : record ≠ .blockEnd) (written : writer.write record = .ok after) :
    ∃ blocks' current', Packed after blocks' (current' ++ [record]) ∧
      blocks'.flatten ++ current' = blocks.flatten ++ current ∧
      Grows blocks current blocks' (current' ++ [record]) ∧
      writer.place record.bytes = ⟨blocks'.length,(current'.flatMap Record.bytes).length⟩ := by
  obtain ⟨⟨writable,small⟩,rfl⟩ := (write_eq_ok_iff open_).mp written
  obtain ⟨blocks',current',arranged,rest⟩ := packed.arranged open_
  have holds := packed.append writable small
  rw [arranged] at holds
  exact ⟨blocks',current',holds,rest⟩

/-- Records that fit are all accepted, and the writer holds their arrangement. -/
theorem Packed.writeAll_arranged (packed : Packed writer blocks current) {records : List Record}
    (fit : ∀ record ∈ contentOf records, record.Writable ∧ record.bytes.length ≤ blockSize) :
    ∃ after, writer.writeAll records = .ok after ∧
      Packed after (records.foldl arrange (blocks,current)).1 (records.foldl arrange (blocks,current)).2 := by
  induction records generalizing writer blocks current with
  | nil => exact ⟨writer,rfl,packed⟩
  | cons record rest ih =>
    rw [Writer.writeAll, List.foldlM_cons, List.foldl_cons]
    by_cases padding : record = .blockEnd
    · subst padding
      exact ih packed.closeBlock fit
    · rw [contentOf_cons padding] at fit
      have here := fit record List.mem_cons_self
      rw [(write_eq_ok_iff padding).mpr ⟨here,rfl⟩]
      exact ih (packed.append here.1 here.2) fun other member => fit other (List.mem_cons_of_mem _ member)

theorem Packed.writeAll (packed : Packed writer blocks current) {records : List Record} {after : Writer}
    (written : writer.writeAll records = .ok after) :
    ∃ blocks' current', Packed after blocks' current' ∧
      blocks'.flatten ++ current' = blocks.flatten ++ current ++ contentOf records ∧
      Grows blocks current blocks' current' := by
  induction records generalizing writer blocks current with
  | nil =>
    cases written
    exact ⟨blocks,current,packed,(List.append_nil _).symm,.refl _ _⟩
  | cons record rest ih =>
    simp only [Writer.writeAll, List.foldlM_cons, bind_eq_ok_iff] at written
    obtain ⟨next,first,later⟩ := written
    by_cases padding : record = .blockEnd
    · subst padding
      cases first
      obtain ⟨blocks',current',holds,same,grows⟩ := ih packed.closeBlock later
      refine ⟨blocks',current',holds,?_,(grows_closed _ _).trans grows⟩
      rw [same, closedBlocks_flatten]
      simp [contentOf]
    · obtain ⟨middle,start,holds,same,grows,_⟩ := packed.write padding first
      obtain ⟨blocks',current',holds',same',grows'⟩ := ih holds later
      refine ⟨blocks',current',holds',?_,grows.trans grows'⟩
      rw [same', ← List.append_assoc, same, contentOf_cons padding]
      simp

theorem writeAll_append (writer : Writer) (earlier later : List Record) :
    writer.writeAll (earlier ++ later) = writer.writeAll earlier >>= (·.writeAll later) := by
  simp only [Writer.writeAll, List.foldlM_append]

theorem closeBlock_header (writer : Writer) :
    writer.closeBlock.header = writer.header ∧ writer.closeBlock.records = writer.records := by
  unfold Writer.closeBlock
  split <;> exact ⟨rfl,rfl⟩

theorem write_header {record : Record} {after : Writer} (written : writer.write record = .ok after) :
    after.header = writer.header := by
  unfold Writer.write at written
  split at written
  · cases written
    exact writer.closeBlock_header.1
  split at written
  · cases written
  split at written
  · cases written
  cases written
  unfold append
  split
  · exact writer.closeBlock_header.1
  · rfl

theorem writeAll_header {records : List Record} {after : Writer}
    (written : writer.writeAll records = .ok after) : after.header = writer.header := by
  induction records generalizing writer with
  | nil => cases written; rfl
  | cons record rest ih =>
    simp only [Writer.writeAll, List.foldlM_cons, bind_eq_ok_iff] at written
    obtain ⟨next,first,later⟩ := written
    exact (ih later).trans (write_header first)

theorem Packed.toBytes_finish (packed : Packed writer blocks current) :
    writer.finish.toBytes =
      { writer.header with
        recordCount := UInt32.ofNat (blocks.flatten ++ current).length }.toBytes ++
        ((closedBlocks blocks current).map blockOf).flatten := by
  have closed := packed.closeBlock.closed
  obtain ⟨header,records⟩ := writer.closeBlock_header
  simp only [finish, Writer.toBytes, closed, header, records, packed.counted]

theorem Grows.closed {blocks' : List (List Record)} {current' : List Record}
    (grows : Grows blocks current blocks' current') (some_ : current ≠ []) :
    ∃ more others, closedBlocks blocks' current' = blocks ++ (current ++ more) :: others := by
  obtain ⟨more,others,same⟩ := grows
  by_cases empty : current' = []
  · subst empty
    rcases List.eq_nil_or_concat others with rfl | ⟨others,last,rfl⟩
    · obtain ⟨_,tail⟩ := List.append_inj' same rfl
      cases List.append_eq_nil_iff.mp (List.cons.inj tail).1.symm with
      | intro none _ => exact absurd none some_
    · have split : blocks' ++ [[]] = (blocks ++ (current ++ more) :: others) ++ [last] := by
        rw [same]; simp
      exact ⟨more,others,(List.append_inj' split rfl).1⟩
  · refine ⟨more,others,?_⟩
    rw [closedBlocks, if_neg (mt List.isEmpty_iff.mp empty), same]

/-- The blocks of a file list the records that were written, in their order. -/
theorem file_blocks {header : Header} {records : List Record} {bytes : Bytes}
    (written : Writer.file header records = .ok bytes) :
    ∃ blocks : List (List Record), blocks.flatten = contentOf records ∧
      (∀ block ∈ blocks, Fits block) ∧
      bytes = { header with recordCount := UInt32.ofNat (contentOf records).length }.toBytes ++
        (blocks.map blockOf).flatten := by
  simp only [Writer.file, bind_eq_ok_iff, pure_eq_ok_iff] at written
  obtain ⟨writer,written,rfl⟩ := written
  obtain ⟨blocks,current,packed,same,_⟩ := (initial_packed header).writeAll written
  have content : blocks.flatten ++ current = contentOf records := same
  refine ⟨closedBlocks blocks current,?_,packed.closeBlock.fits,?_⟩
  · rw [closedBlocks_flatten, content]
  · rw [packed.toBytes_finish, writeAll_header written, content]

/-- Records that fit into blocks make a file, with the blocks of their arrangement. -/
theorem file_arranged {header : Header} {records : List Record}
    (fit : ∀ record ∈ contentOf records, record.Writable ∧ record.bytes.length ≤ blockSize) :
    let layout := records.foldl arrange ([],[])
    ∃ writer bytes, Writer.writeAll { header } records = .ok writer ∧ Packed writer layout.1 layout.2 ∧
      Writer.file header records = .ok bytes ∧
      bytes.length = Header.size + (closedBlocks layout.1 layout.2).length * blockSize := by
  intro layout
  obtain ⟨writer,written,packed⟩ := (initial_packed header).writeAll_arranged fit
  refine ⟨writer,writer.finish.toBytes,written,packed,by rw [Writer.file, written]; rfl,?_⟩
  rw [packed.toBytes_finish, List.length_append, Header.length_toBytes,
    length_blocks packed.closeBlock.fits]

/-- A record stands in the file where the writer put it. -/
theorem file_place {header : Header} {before later : List Record} {record : Record} {bytes : Bytes}
    (written : Writer.file header (before ++ record :: later) = .ok bytes)
    (open_ : record ≠ .blockEnd) :
    ∃ (writer : Writer) (blocks : List (List Record)) (earlier more : List Record)
      (others : List (List Record)),
      Writer.writeAll { header } before = .ok writer ∧
      blocks.flatten ++ earlier = contentOf before ∧
      writer.place record.bytes = ⟨blocks.length,(earlier.flatMap Record.bytes).length⟩ ∧
      (∀ block ∈ blocks ++ (earlier ++ record :: more) :: others, Fits block) ∧
      bytes = { header with
          recordCount := UInt32.ofNat (contentOf (before ++ record :: later)).length }.toBytes ++
        ((blocks ++ (earlier ++ record :: more) :: others).map blockOf).flatten := by
  simp only [Writer.file, bind_eq_ok_iff, pure_eq_ok_iff] at written
  obtain ⟨last,written,rfl⟩ := written
  have headers := writeAll_header written
  rw [writeAll_append, bind_eq_ok_iff] at written
  obtain ⟨writer,first,rest⟩ := written
  simp only [Writer.writeAll, List.foldlM_cons, bind_eq_ok_iff] at rest
  obtain ⟨next,here,rest⟩ := rest
  obtain ⟨_,_,packed,same,_⟩ := (initial_packed header).writeAll first
  obtain ⟨blocks,earlier,placed,listed,_,place⟩ := packed.write open_ here
  obtain ⟨blocks',current',holds,same',grows⟩ := placed.writeAll rest
  obtain ⟨more,others,closed⟩ := grows.closed (by simp)
  have layout : closedBlocks blocks' current' = blocks ++ (earlier ++ record :: more) :: others := by
    rw [closed]; simp
  refine ⟨writer,blocks,earlier,more,others,first,listed.trans same,place,?_,?_⟩
  · rw [← layout]
    exact holds.closeBlock.fits
  · have all : blocks'.flatten ++ current' = contentOf (before ++ record :: later) := by
      rw [same', ← List.append_assoc, listed, same, contentOf_append, contentOf_cons open_]
      simp [contentOf]
    rw [holds.toBytes_finish, headers, all, layout]

end Writer

end DocGraph
