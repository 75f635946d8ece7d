import DocGraph.Proofs.BlockPacking
import DocGraph.Proofs.RecordPieces

/-! A writer that goes on behind the records that it refuses. `BufferedWriter` keeps the buffer that records are
encoded into, and a refused record may leave its front there. -/
namespace DocGraph

/-- Why a record is refused, whatever was written before: its first text that is too long, or else that
it does not fit into a block. -/
def Record.refusal? (record : Record) : Option Fault :=
  match record.overlong? with
  | some overlong => some (.fieldTooLong overlong)
  | none => if blockSize < record.width then some (.recordTooLarge record.width blockSize) else none

namespace Record

variable {record : Record} {fault : Fault}

theorem refusal?_eq_some_iff :
    record.refusal? = some fault ↔
      (∃ overlong, record.overlong? = some overlong ∧ fault = .fieldTooLong overlong) ∨
      ∃ encoded, record.encode = .ok encoded ∧ blockSize < encoded.length ∧
        fault = .recordTooLarge encoded.length blockSize := by
  unfold refusal?
  cases found : record.overlong? with
  | some overlong =>
    have failed := encode_eq_error_iff.mpr found
    simp [failed,eq_comm]
  | none =>
    obtain ⟨encoded,written⟩ := encode_of_roomy found
    simp [written,length_of_encode written,eq_comm]

theorem encode_of_accepted (accepted : record.refusal? = none) :
    ∃ encoded, record.encode = .ok encoded ∧ encoded.length ≤ blockSize := by
  have never (fault : Fault) : record.refusal? ≠ some fault := by simp [accepted]
  cases written : record.encode with
  | error overlong =>
    exact absurd (refusal?_eq_some_iff.mpr (.inl ⟨_,encode_eq_error_iff.mp written,rfl⟩)) (never _)
  | ok encoded =>
    refine ⟨encoded,rfl,Nat.le_of_not_lt fun large => ?_⟩
    exact never _ (refusal?_eq_some_iff.mpr (.inr ⟨encoded,written,large,rfl⟩))

theorem open_of_refused (refused : record.refusal? = some fault) : record.tag ≠ .blockEnd := by
  intro padding
  rw [tag_eq_blockEnd_iff] at padding
  subst padding
  cases refused

end Record

namespace Writer

/-- The blocks so far have no part in it. -/
theorem write_refused (writer : Writer) {record : Record} {fault : Fault}
    (refused : record.refusal? = some fault) : writer.write record = .error fault := by
  simp only [write, if_neg (Record.open_of_refused refused)]
  rcases Record.refusal?_eq_some_iff.mp refused with ⟨overlong,found,rfl⟩ | ⟨encoded,written,large,rfl⟩
  · rw [Record.encode_eq_error_iff.mpr found]
  · simp only [written, if_pos large]

theorem write_accepted (writer : Writer) {record : Record} {encoded : Bytes}
    (open_ : record.tag ≠ .blockEnd) (written : record.encode = .ok encoded)
    (small : encoded.length ≤ blockSize) : writer.write record = .ok (writer.append encoded) := by
  simp only [write, if_neg open_, written, if_neg (Nat.not_lt.mpr small)]

theorem write_eq_error_iff {writer : Writer} {record : Record} {fault : Fault} :
    writer.write record = .error fault ↔ record.refusal? = some fault := by
  constructor
  · intro failed
    cases verdict : record.refusal? with
    | some cause =>
      cases failed.symm.trans (writer.write_refused verdict)
      rfl
    | none =>
      obtain ⟨encoded,written,small⟩ := Record.encode_of_accepted verdict
      by_cases padding : record.tag = .blockEnd
      · simp [write,padding] at failed
      · cases failed.symm.trans (writer.write_accepted padding written small)
  · exact writer.write_refused

end Writer

/-- A writer with the bytes that it keeps. -/
structure BufferedWriter where
  header : Header := {}
  /-- The whole blocks, one behind another. -/
  body : Bytes := []
  /-- The block that is being filled. -/
  block : Bytes := []
  /-- What was encoded last, up to where it was refused. -/
  scratch : Bytes := []
  records : UInt32 := 0

namespace BufferedWriter

def blockCount (writer : BufferedWriter) : Nat := writer.body.length / blockSize

/-- Brings the open block to the size of a block, and adds it to the whole ones. -/
def closeBlock (writer : BufferedWriter) : BufferedWriter :=
  if writer.block.isEmpty then writer
  else
    let padding := List.replicate (blockSize - writer.block.length) Tag.blockEnd.byte
    { writer with body := writer.body ++ (writer.block ++ padding).take blockSize, block := [] }

/-- Moves what was encoded to the open block, or to the next one. -/
def place (writer : BufferedWriter) : BufferedWriter :=
  let writer :=
    if writer.block.length + writer.scratch.length > blockSize then writer.closeBlock else writer
  { writer with block := writer.block ++ writer.scratch, records := writer.records + 1 }

def write (writer : BufferedWriter) (record : Record) : Option Fault × BufferedWriter :=
  if record.tag = .blockEnd then (none,writer.closeBlock)
  else
    let (scratch,refused) := Piece.put [] record.pieces
    let writer := { writer with scratch }
    match refused with
    | some overlong => (some (.fieldTooLong overlong),writer)
    | none =>
      if scratch.length > blockSize then (some (.recordTooLarge scratch.length blockSize),writer)
      else (none,writer.place)

def writeEach (writer : BufferedWriter) : List Record → List (Option Fault) × BufferedWriter
  | [] => ([],writer)
  | record :: rest =>
    let (refusal,next) := writer.write record
    let (refusals,last) := next.writeEach rest
    (refusal :: refusals,last)

def finish (writer : BufferedWriter) : Bytes :=
  let writer := writer.closeBlock
  { writer.header with recordCount := writer.records }.toBytes ++ writer.body

/-- The same blocks and the same count; the buffer for encoding is left out. -/
structure Holds (buffered : BufferedWriter) (writer : Writer) : Prop where
  header : buffered.header = writer.header
  body : buffered.body = writer.closed.toList.flatten
  whole : ∀ block ∈ writer.closed.toList, block.length = blockSize
  block : buffered.block = writer.block.toList
  room : buffered.block.length ≤ blockSize
  records : buffered.records = writer.records

theorem initial_holds (header : Header) : Holds { header } { header } where
  header := rfl
  body := rfl
  whole := nofun
  block := rfl
  room := Nat.zero_le _
  records := rfl

namespace Holds

variable {buffered : BufferedWriter} {writer : Writer}

theorem closeBlock (holds : buffered.Holds writer) : buffered.closeBlock.Holds writer.closeBlock := by
  have empty : buffered.block.isEmpty = writer.block.isEmpty := by
    rw [holds.block, Array.isEmpty_toList]
  have size : buffered.block.length = writer.block.size := by
    rw [holds.block, Array.length_toList]
  unfold BufferedWriter.closeBlock Writer.closeBlock
  rw [empty]
  split
  · exact holds
  · have width : (buffered.block ++ List.replicate (blockSize - buffered.block.length)
        Tag.blockEnd.byte).length = blockSize := by
      have room := holds.room
      rw [List.length_append, List.length_replicate]
      omega
    refine ⟨holds.header,?_,?_,rfl,Nat.zero_le _,holds.records⟩
    · simp only [Array.toList_push, List.flatten_append, List.flatten_cons, List.flatten_nil,
        List.append_nil]
      rw [List.take_of_length_le (Nat.le_of_eq width), holds.body, size, holds.block]
    · intro block member
      rw [Array.toList_push] at member
      rcases List.mem_append.mp member with earlier | last
      · exact holds.whole block earlier
      · rw [List.mem_singleton.mp last, ← size, ← holds.block]
        exact width

theorem blockCount (holds : buffered.Holds writer) : buffered.blockCount = writer.blockCount := by
  have width : buffered.body.length = writer.closed.size * blockSize := by
    rw [holds.body, length_flatten_whole holds.whole, Array.length_toList]
  rw [BufferedWriter.blockCount, width, Nat.mul_div_cancel _ (by decide)]
  rfl

theorem finish (holds : buffered.Holds writer) : buffered.finish = writer.finish.toBytes := by
  have closed := holds.closeBlock
  simp only [BufferedWriter.finish, Writer.finish, Writer.toBytes, closed.header, closed.body,
    closed.records]

theorem push (holds : buffered.Holds writer)
    (room : buffered.block.length + buffered.scratch.length ≤ blockSize) :
    Holds { buffered with block := buffered.block ++ buffered.scratch, records := buffered.records + 1 }
      { writer with block := writer.block ++ buffered.scratch, records := writer.records + 1 } where
  header := holds.header
  body := holds.body
  whole := holds.whole
  block := by simp [holds.block]
  room := by simpa using room
  records := congrArg (· + 1) holds.records

theorem place (holds : buffered.Holds writer) (small : buffered.scratch.length ≤ blockSize) :
    buffered.place.Holds (writer.append buffered.scratch) := by
  have size : buffered.block.length = writer.block.size := by
    rw [holds.block, Array.length_toList]
  unfold BufferedWriter.place Writer.append
  rw [size]
  by_cases full : writer.block.size + buffered.scratch.length > blockSize
  · have some_ : buffered.block.isEmpty = false := by
      cases empty : buffered.block with
      | nil =>
        rw [← size, empty, List.length_nil] at full
        omega
      | cons => rfl
    have closed : buffered.closeBlock.block = [] ∧ buffered.closeBlock.scratch = buffered.scratch := by
      simp [BufferedWriter.closeBlock,some_]
    have pushed := holds.closeBlock.push (by rw [closed.1, closed.2]; simpa using small)
    rw [closed.2] at pushed
    simp only [if_pos full, closed.2]
    exact pushed
  · simp only [if_neg full]
    exact holds.push (by omega)

/-- A record that is refused leaves everything but the buffer for encoding, and the next one does not
see that. -/
theorem write_refused (holds : buffered.Holds writer) {record : Record} {fault : Fault}
    (refused : record.refusal? = some fault) :
    ∃ left, buffered.write record = (some fault,left) ∧ left.Holds writer := by
  have kept (scratch : Bytes) : Holds { buffered with scratch } writer :=
    ⟨holds.header,holds.body,holds.whole,holds.block,holds.room,holds.records⟩
  simp only [BufferedWriter.write, if_neg (Record.open_of_refused refused)]
  rcases Record.refusal?_eq_some_iff.mp refused with ⟨overlong,found,rfl⟩ | ⟨encoded,written,large,rfl⟩
  · have failed := Record.encode_eq_error_iff.mpr found
    obtain ⟨begun,buffer⟩ := Piece.put_of_error (record.encode_pieces ▸ failed) []
    rw [buffer]
    exact ⟨_,rfl,kept _⟩
  · have buffer := Piece.put_of_ok (record.encode_pieces ▸ written) []
    simp only [buffer, List.nil_append, if_pos large]
    exact ⟨_,rfl,kept _⟩

theorem write_accepted (holds : buffered.Holds writer) {record : Record}
    (accepted : record.refusal? = none) :
    ∃ after left, writer.write record = .ok after ∧ buffered.write record = (none,left) ∧
      left.Holds after := by
  by_cases padding : record.tag = .blockEnd
  · simp only [Writer.write, BufferedWriter.write, if_pos padding]
    exact ⟨_,_,rfl,rfl,holds.closeBlock⟩
  · obtain ⟨encoded,written,small⟩ := Record.encode_of_accepted accepted
    have buffer := Piece.put_of_ok (record.encode_pieces ▸ written) []
    have filled : Holds { buffered with scratch := encoded } writer :=
      ⟨holds.header,holds.body,holds.whole,holds.block,holds.room,holds.records⟩
    simp only [BufferedWriter.write, if_neg padding, buffer, List.nil_append,
      if_neg (Nat.not_lt.mpr small)]
    exact ⟨_,_,writer.write_accepted padding written small,rfl,filled.place small⟩

/-- A writer that goes on comes to what the running one comes to with the records it accepts. -/
theorem writeEach (holds : buffered.Holds writer) (records : List Record) :
    ∃ after left, writer.writeAll (records.filter (·.refusal?.isNone)) = .ok after ∧
      buffered.writeEach records = (records.map Record.refusal?,left) ∧ left.Holds after := by
  induction records generalizing buffered writer with
  | nil => exact ⟨writer,buffered,rfl,rfl,holds⟩
  | cons record rest ih =>
    cases verdict : record.refusal? with
    | some fault =>
      obtain ⟨left,written,kept⟩ := holds.write_refused verdict
      obtain ⟨after,last,others,run,held⟩ := ih kept
      refine ⟨after,last,?_,?_,held⟩
      · rw [List.filter_cons_of_neg (by simp [verdict])]
        exact others
      · simp only [BufferedWriter.writeEach, written, run, List.map_cons, verdict]
    | none =>
      obtain ⟨next,left,added,written,kept⟩ := holds.write_accepted verdict
      obtain ⟨after,last,others,run,held⟩ := ih kept
      refine ⟨after,last,?_,?_,held⟩
      · rw [List.filter_cons_of_pos (by simp [verdict])]
        exact bind_eq_ok_iff.mpr ⟨next,added,others⟩
      · simp only [BufferedWriter.writeEach, written, run, List.map_cons, verdict]

end Holds

end BufferedWriter

/-- Records that are refused are not seen in the file, nor in the count of blocks while it is written.
For any records given one after another, each is refused or not as its texts and its size have it; and
behind them the writer has as many blocks, and ends with the same file, as one that was given only those
that it did not refuse. -/
theorem failed_writes_unseen (header : Header) (records : List Record) :
    let kept := records.filter (·.refusal?.isNone)
    let (refusals,writer) := BufferedWriter.writeEach { header } records
    let (others,spared) := BufferedWriter.writeEach { header } kept
    (∀ record fault, Record.refusal? record = some fault ↔
      (∃ overlong, record.pieces.findSome? Piece.overlong? = some overlong ∧
        fault = .fieldTooLong overlong) ∨
      ∃ encoded, record.encode = .ok encoded ∧ blockSize < encoded.length ∧
        fault = .recordTooLarge encoded.length blockSize) ∧
    (∀ (running : Writer) record fault, running.write record = .error fault ↔
      record.refusal? = some fault) ∧
    refusals = records.map Record.refusal? ∧ (∀ refusal ∈ others, refusal = none) ∧
    writer.blockCount = spared.blockCount ∧ writer.finish = spared.finish ∧
    ∃ running, Writer.writeAll { header } kept = .ok running ∧
      writer.blockCount = running.blockCount ∧ Writer.file header kept = .ok writer.finish := by
  intro kept
  obtain ⟨running,writer,added,run,holds⟩ := (BufferedWriter.initial_holds header).writeEach records
  obtain ⟨running',spared,added',run',holds'⟩ := (BufferedWriter.initial_holds header).writeEach kept
  have accepted : ∀ record ∈ kept, record.refusal? = none := by
    intro record member
    simpa using (List.mem_filter.mp member).2
  have again : kept.filter (·.refusal?.isNone) = kept :=
    List.filter_eq_self.mpr fun record member => by simp [accepted record member]
  rw [again] at added'
  cases added.symm.trans added'
  simp only [run, run']
  refine ⟨fun _ _ => Record.refusal?_eq_some_iff,fun _ _ _ => Writer.write_eq_error_iff,trivial,?_,?_,?_,
    running,added,holds.blockCount,?_⟩
  · intro refusal member
    obtain ⟨record,listed,rfl⟩ := List.mem_map.mp member
    exact accepted record listed
  · rw [holds.blockCount, holds'.blockCount]
  · rw [holds.finish, holds'.finish]
  · rw [Writer.file, added, holds.finish]
    rfl

/-- The length of a name stands behind that of its group, and says no more than 255. -/
example : (Record.timeline ⟨⟨[103],false⟩,⟨List.replicate 300 122,false⟩⟩).refusal? =
    some (.fieldTooLong ⟨"name",300,255⟩) := by decide +kernel

end DocGraph
