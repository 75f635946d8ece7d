import DocGraph.Proofs.RecordRun
import DocGraph.Proofs.RecordCanonical
import Mathlib.Data.List.Perm.Subperm

/-! Decoding looks no further than the bytes of the record. Blocks are any bytes here, not only those that a
writer makes. -/
namespace DocGraph

namespace Record

theorem decode_known {byte : UInt8} {tag : Tag} (known : Tag.ofByte? byte = some tag) (body : Bytes) :
    decode (byte :: body) = (decodeBody? tag body).elim (.error (.truncated byte)) .ok := by
  simp only [decode, known]
  cases decodeBody? tag body with
  | none => rfl
  | some found => rfl

theorem decode_run {bytes rest : Bytes} {record : Record} (found : decode bytes = .ok (record,rest))
    (open_ : record ≠ .blockEnd) :
    ∃ run, bytes = run ++ rest ∧ (∀ other, decode (run ++ other) = .ok (record,other)) ∧
      ∀ count, 0 < count → count < run.length →
        decode (run.take count) = .error (.truncated record.tag.byte) := by
  obtain ⟨body,rfl,read⟩ := decode_eq_ok found
  have known := Tag.ofByte?_byte record.tag
  obtain ⟨most,front⟩ := decodeBody?_front (mt tag_eq_blockEnd_iff.mp open_)
  obtain ⟨run,rfl,_,same⟩ := front.kept read
  refine ⟨record.tag.byte :: run,rfl,fun other => ?_,fun count positive short => ?_⟩
  · rw [List.cons_append, decode_known known, same]
    rfl
  · obtain ⟨count,rfl⟩ := Nat.exists_eq_succ_of_ne_zero (Nat.ne_of_gt positive)
    rw [List.take_succ_cons, decode_known known, front.cut read (Nat.lt_of_succ_lt_succ short)]
    rfl

/-- What ends before its record does is the front of one that is whole. -/
theorem decode_more {byte : UInt8} {tag : Tag} {body : Bytes} (known : Tag.ofByte? byte = some tag)
    (refused : decodeBody? tag body = none) :
    ∃ more record rest, decode (byte :: body ++ more) = .ok (record,rest) := by
  have open_ : tag ≠ .blockEnd := by
    rintro rfl
    cases refused
  obtain ⟨most,front⟩ := decodeBody?_front open_
  have enough : most ≤ (body ++ List.replicate most 0).length := by simp
  obtain ⟨record,rest,read⟩ := front.fed enough
  refine ⟨List.replicate most 0,record,rest,?_⟩
  rw [List.cons_append, decode_known known, read]
  rfl

end Record

namespace Bytes

variable {block : Bytes} {offset : Nat}

theorem drop_eq_cons {byte : UInt8} (here : block[offset]? = some byte) :
    block.drop offset = byte :: block.drop (offset + 1) := by
  obtain ⟨inside,rfl⟩ := List.getElem?_eq_some_iff.mp here
  exact List.drop_eq_getElem_cons inside

theorem drop_eq_extract_append (block : Bytes) {next : Nat} (ahead : offset ≤ next) :
    block.drop offset = block.extract offset next ++ block.drop next := by
  have onward : block.drop next = (block.drop offset).drop (next - offset) := by
    rw [List.drop_drop, Nat.add_sub_cancel' ahead]
  rw [List.extract_eq_take_drop, onward, List.take_append_drop]

theorem offset_of_drop (inside : offset ≤ block.length) :
    block.length - (block.drop offset).length = offset := by
  rw [List.length_drop]
  omega

end Bytes

namespace Record

theorem decodeAt_eq_error_iff {block : Bytes} {place : Place} {fault : Fault} :
    decodeAt block place = .error fault ↔
      ∃ cause, decode (block.drop place.offset) = .error cause ∧
        cause.fault place (block.drop place.offset) = fault := by
  simp only [decodeAt]
  cases decode (block.drop place.offset) with
  | error cause => simp
  | ok found => simp

section Found

variable {block : Bytes} {place : Place} {record : Record} {next : Nat}

theorem decodeAt_run (found : decodeAt block place = .ok (record,next)) (open_ : record ≠ .blockEnd) :
    let run := block.extract place.offset next
    run.length = next - place.offset ∧ (∀ other, decode (run ++ other) = .ok (record,other)) ∧
      ∀ count, 0 < count → count < run.length →
        decode (run.take count) = .error (.truncated record.tag.byte) := by
  intro run
  obtain ⟨ahead,inside⟩ := decodeAt_bounds found
  obtain ⟨rest,decoded,_⟩ := decodeAt_eq_ok_iff.mp found
  obtain ⟨next',found',rfl⟩ := decodeAt_eq_ok_drop place.block decoded
  cases found.symm.trans found'
  obtain ⟨run',split,alone,short⟩ := decode_run decoded open_
  rw [Bytes.drop_eq_extract_append block (Nat.le_of_lt ahead)] at split
  obtain rfl : run = run' := List.append_cancel_right split
  refine ⟨?_,alone,short⟩
  simp only [run, List.extract_eq_take_drop, List.length_take, List.length_drop]
  omega

theorem decodeAt_kept (found : decodeAt block place = .ok (record,next)) (open_ : record ≠ .blockEnd)
    {other : Bytes} (number : Nat)
    (same : other.extract place.offset next = block.extract place.offset next) :
    decodeAt other ⟨number,place.offset⟩ = .ok (record,next) := by
  obtain ⟨ahead,_⟩ := decodeAt_bounds found
  obtain ⟨width,alone,_⟩ := decodeAt_run found open_
  have long : next ≤ other.length := by
    rw [← same, List.extract_eq_take_drop, List.length_take, List.length_drop] at width
    omega
  rw [decodeAt_eq_ok_iff]
  refine ⟨other.drop next,?_,?_⟩
  · rw [Bytes.drop_eq_extract_append other (Nat.le_of_lt ahead), same]
    exact alone _
  · rw [List.length_drop]
    omega

theorem decodeAt_cut (found : decodeAt block place = .ok (record,next)) (open_ : record ≠ .blockEnd)
    (number : Nat) {stop : Nat} (begun : place.offset < stop) (early : stop < next) :
    decodeAt (block.take stop) ⟨number,place.offset⟩ = .error
      (.malformedRecord record.tag.byte ⟨number,place.offset⟩
        (HexDump.render ((block.take stop).drop place.offset))) := by
  obtain ⟨ahead,_⟩ := decodeAt_bounds found
  obtain ⟨width,_,short⟩ := decodeAt_run found open_
  have part : (block.take stop).drop place.offset =
      (block.extract place.offset next).take (stop - place.offset) := by
    rw [List.drop_take, Bytes.drop_eq_extract_append block (Nat.le_of_lt ahead),
      List.take_append_of_le_length]
    omega
  have refused : decode ((block.take stop).drop place.offset) =
      .error (.truncated record.tag.byte) := by
    rw [part]
    exact short _ (by omega) (by omega)
  exact decodeAt_eq_error_iff.mpr ⟨_,refused,rfl⟩

/-- A record at a place of a block, apart from all else that there is in the block. -/
structure Enclosed (block : Bytes) (place : Place) (record : Record) (next : Nat) : Prop where
  ahead : place.offset < next
  inside : next ≤ block.length
  /-- Any block with the same bytes from the place to the next one has the record there, whatever stands
  before them and behind, and wherever the block ends. -/
  kept : record ≠ .blockEnd → ∀ (other : Bytes) (number : Nat),
    other.extract place.offset next = block.extract place.offset next →
    decodeAt other ⟨number,place.offset⟩ = .ok (record,next)
  /-- A block that ends within the bytes of the record is refused where the record begins. -/
  cut : record ≠ .blockEnd → ∀ (number stop : Nat), place.offset < stop → stop < next →
    decodeAt (block.take stop) ⟨number,place.offset⟩ = .error
      (.malformedRecord record.tag.byte ⟨number,place.offset⟩
        (HexDump.render ((block.take stop).drop place.offset)))
  /-- An end mark takes all of the block that it is in. -/
  closing : record = .blockEnd → next = block.length ∧ ∀ (other : Bytes) (number : Nat),
    other[place.offset]? = block[place.offset]? →
    decodeAt other ⟨number,place.offset⟩ = .ok (.blockEnd,other.length)

theorem decodeAt_enclosed (found : decodeAt block place = .ok (record,next)) :
    Enclosed block place record next where
  ahead := (decodeAt_bounds found).1
  inside := (decodeAt_bounds found).2
  kept open_ _ number same := decodeAt_kept found open_ number same
  cut open_ number _ begun early := decodeAt_cut found open_ number begun early
  closing := by
    rintro rfl
    have mark := decodeAt_tag found
    cases found.symm.trans (decodeAt_of_mark mark)
    exact ⟨rfl,fun other number same => decodeAt_of_mark (same.trans mark)⟩

end Found

theorem decodeAt_past {block : Bytes} {place : Place} (past : block.length ≤ place.offset) :
    decodeAt block place = .error (.malformedRecord 0 place "") := by
  have nothing : decode (block.drop place.offset) = .error .exhausted := by
    rw [List.drop_eq_nil_of_le past]
    rfl
  exact decodeAt_eq_error_iff.mpr ⟨_,nothing,rfl⟩

theorem decodeAt_unknown {block : Bytes} {place : Place} {byte : UInt8}
    (here : block[place.offset]? = some byte) (strange : Tag.ofByte? byte = none) :
    decodeAt block place = .error (.unknownRecord byte place (HexDump.render (block.drop place.offset))) := by
  have refused : decode (block.drop place.offset) = .error (.unknownTag byte) := by
    simp only [Bytes.drop_eq_cons here, decode, strange]
  exact decodeAt_eq_error_iff.mpr ⟨_,refused,rfl⟩

/-- Where a tag is, its record is, or the block has too few bytes behind it. -/
theorem decodeAt_known {block : Bytes} {place : Place} {byte : UInt8} {tag : Tag}
    (here : block[place.offset]? = some byte) (known : Tag.ofByte? byte = some tag) :
    (∃ record next, decodeAt block place = .ok (record,next) ∧ record.tag = tag) ∨
    decodeAt block place =
        .error (.malformedRecord byte place (HexDump.render (block.drop place.offset))) ∧
      ∃ more record next, decodeAt (block ++ more) place = .ok (record,next) := by
  have split := Bytes.drop_eq_cons here
  have decoded := decode_known known (block.drop (place.offset + 1))
  rw [← split] at decoded
  cases read : decodeBody? tag (block.drop (place.offset + 1)) with
  | some found =>
    obtain ⟨record,rest⟩ := found
    rw [read] at decoded
    exact .inl ⟨record,_,decodeAt_eq_ok_iff.mpr ⟨rest,decoded,rfl⟩,tag_of_decodeBody? read⟩
  | none =>
    rw [read] at decoded
    obtain ⟨more,record,rest,longer⟩ := decode_more known read
    have within : place.offset ≤ block.length :=
      Nat.le_of_lt (List.getElem?_eq_some_iff.mp here).choose
    rw [← split, ← List.drop_append_of_le_length within] at longer
    have whole := decodeAt_eq_ok_iff.mpr ⟨rest,longer,rfl⟩
    exact .inr ⟨decodeAt_eq_error_iff.mpr ⟨_,decoded,rfl⟩,more,record,_,whole⟩

end Record

/-- What a block comes to, by its number and length, once its records were applied so far. -/
def Progress.result (progress : Progress) (number length : Nat) : BlockResult :=
  match progress.stop with
  | none => { builder := progress.builder, notices := progress.notices, fault := none }
  | some stop =>
    let place : Place := ⟨number,length - stop.bytes.length⟩
    let mode := progress.builder.mode
    { builder := progress.builder
      notices := progress.notices ++ [stop.notice mode place]
      fault := some (stop.fault mode place) }

namespace Builder

/-- Decodes and applies the records of a block from an offset on. The offsets at which it decodes are
given along with the result. -/
def addFrom (builder : Builder) (number : Nat) (block : Bytes) (offset : Nat) (notices : List Notice) :
    List Nat × BlockResult :=
  if offset < block.length then
    let place : Place := ⟨number,offset⟩
    match found : Record.decodeAt block place with
    | .error fault =>
      ([offset],{ builder, notices := notices ++ [.undecodableRecord fault], fault := some fault })
    | .ok (record,next) =>
      have : offset < next := (Record.decodeAt_bounds found).1
      let notices := notices ++ builder.notices record
      match builder.apply record with
      | (after,some reason) =>
        let stop : Stop := .rejected reason record (block.drop offset)
        ([offset],
          { builder := after
            notices := notices ++ [stop.notice after.mode place]
            fault := some (stop.fault after.mode place) })
      | (after,none) =>
        let later := after.addFrom number block next notices
        (offset :: later.1,later.2)
  else ([],{ builder, notices, fault := none })
termination_by block.length - offset

theorem addRecords_undecodable {builder : Builder} {notices : List Notice} {bytes : Bytes}
    {cause : Undecodable} (more : bytes ≠ []) (failed : Record.decode bytes = .error cause) :
    builder.addRecords notices bytes = { builder, notices, stop := some (.undecodable cause bytes) } := by
  rw [addRecords, if_neg (by simpa using more)]
  split
  · rename_i same; rw [failed] at same; cases same; rfl
  · rename_i same; rw [failed] at same; cases same

theorem addFrom_result (builder : Builder) (number : Nat) (block : Bytes) {offset : Nat}
    (notices : List Notice) (inside : offset ≤ block.length) :
    (builder.addFrom number block offset notices).2 =
      (builder.addRecords notices (block.drop offset)).result number block.length := by
  fun_induction addFrom builder number block offset notices with
  | case1 builder offset notices ahead place fault failed =>
    obtain ⟨cause,refused,rfl⟩ := Record.decodeAt_eq_error_iff.mp failed
    have more : block.drop offset ≠ [] := mt List.drop_eq_nil_iff.mp (Nat.not_le_of_lt ahead)
    rw [addRecords_undecodable more refused]
    simp only [Progress.result, Stop.bytes, Bytes.offset_of_drop inside]
    rfl
  | case2 builder offset notices ahead place record next found _ _ after reason rejected stop =>
    obtain ⟨rest,decoded,_⟩ := Record.decodeAt_eq_ok_iff.mp found
    change Record.decode (block.drop offset) = _ at decoded
    rw [addRecords_decoded decoded, rejected]
    simp only [Progress.result, Stop.bytes, Bytes.offset_of_drop inside]
    rfl
  | case3 builder offset notices ahead place record next found _ _ after accepted later ih =>
    obtain ⟨rest,decoded,_⟩ := Record.decodeAt_eq_ok_iff.mp found
    obtain ⟨next',found',rfl⟩ := Record.decodeAt_eq_ok_drop number decoded
    cases found.symm.trans found'
    rw [addRecords_decoded decoded, accepted]
    exact ih (Record.decodeAt_bounds found).2
  | case4 builder offset notices ended =>
    rw [List.drop_eq_nil_of_le (Nat.le_of_not_lt ended), addRecords_nil]
    rfl

theorem addFrom_offsets (builder : Builder) (number : Nat) (block : Bytes) (offset : Nat)
    (notices : List Notice) :
    let visited := (builder.addFrom number block offset notices).1
    visited.Pairwise (· < ·) ∧ ∀ here ∈ visited, offset ≤ here ∧ here < block.length := by
  fun_induction addFrom builder number block offset notices with
  | case1 builder offset notices ahead place fault failed =>
    simpa using ahead
  | case2 builder offset notices ahead place record next found _ _ after reason rejected stop =>
    simpa using ahead
  | case3 builder offset notices ahead place record next found onward _ after accepted later ih =>
    obtain ⟨sorted,within⟩ := ih
    refine ⟨List.pairwise_cons.mpr ⟨fun here member => ?_,sorted⟩,fun here member => ?_⟩
    · exact Nat.lt_of_lt_of_le onward (within here member).1
    · rcases List.mem_cons.mp member with rfl | later_
      · exact ⟨Nat.le_refl _,ahead⟩
      · have bounds := within here later_
        omega
  | case4 builder offset notices ended => simp

end Builder

/-- What comes of decoding at a place of a block, for every block and place. Past the end there is no
record, and none begins with an unknown byte. Behind a tag there is its record, which stands in its own
bytes, or the block ends too soon for it, so that with more bytes there is a record. A block is gone
through at ever greater offsets that are all in it, so that no more records are decoded than it has
bytes. -/
theorem Record.decodeAt_classified (block : Bytes) (place : Place) :
    (block.length ≤ place.offset → decodeAt block place = .error (.malformedRecord 0 place "")) ∧
    (∀ byte, block[place.offset]? = some byte → Tag.ofByte? byte = none →
      decodeAt block place =
        .error (.unknownRecord byte place (HexDump.render (block.drop place.offset)))) ∧
    (∀ byte tag, block[place.offset]? = some byte → Tag.ofByte? byte = some tag →
      (∃ record next, decodeAt block place = .ok (record,next) ∧ record.tag = tag) ∨
      decodeAt block place =
          .error (.malformedRecord byte place (HexDump.render (block.drop place.offset))) ∧
        ∃ more record next, decodeAt (block ++ more) place = .ok (record,next)) ∧
    (∀ record next, decodeAt block place = .ok (record,next) → Enclosed block place record next) ∧
    ∀ builder : Builder,
      let visits := builder.addFrom place.block block 0 []
      visits.2 = builder.addBlock place.block block ∧ visits.1.Pairwise (· < ·) ∧
        (∀ offset ∈ visits.1, offset < block.length) ∧ visits.1.length ≤ block.length := by
  refine ⟨decodeAt_past,fun byte => decodeAt_unknown,fun byte tag => decodeAt_known,
    fun record next => decodeAt_enclosed,fun builder => ?_⟩
  obtain ⟨sorted,within⟩ := builder.addFrom_offsets place.block block 0 []
  have below : ∀ offset ∈ (builder.addFrom place.block block 0 []).1, offset < block.length :=
    fun offset member => (within offset member).2
  refine ⟨builder.addFrom_result place.block block [] (Nat.zero_le _),sorted,below,?_⟩
  have distinct : (builder.addFrom place.block block 0 []).1.Nodup := sorted.imp Nat.ne_of_lt
  have inside := distinct.subperm fun offset member => List.mem_range.mpr (below offset member)
  exact Nat.le_trans inside.length_le (Nat.le_of_eq List.length_range)

/-- A sample, a byte that is no tag, and a transition that lacks a byte. -/
theorem Record.decodeAt_classified_sample :
    let block : Bytes := [36,1,1,0,1,65,66,7,10,0]
    let sample : Record := .sample ⟨⟨[65],false⟩,⟨[66],true⟩⟩
    decodeAt block ⟨4,10⟩ = .error (.malformedRecord 0 ⟨4,10⟩ "") ∧
      decodeAt block ⟨4,7⟩ = .error (.unknownRecord 7 ⟨4,7⟩ (HexDump.render [7,10,0])) ∧
      decodeAt block ⟨4,8⟩ = .error (.malformedRecord 10 ⟨4,8⟩ (HexDump.render [10,0])) ∧
      (∃ more record next, decodeAt (block ++ more) ⟨4,8⟩ = .ok (record,next)) ∧
      decodeAt block ⟨4,0⟩ = .ok (sample,7) ∧
      decodeAt [36,1,1,0,1,65,66,9,9] ⟨5,0⟩ = .ok (sample,7) ∧
      decodeAt (block.take 6) ⟨5,0⟩ =
        .error (.malformedRecord 36 ⟨5,0⟩ (HexDump.render [36,1,1,0,1,65])) := by
  intro block sample
  have found : decodeAt block ⟨4,0⟩ = .ok (sample,7) := rfl
  obtain ⟨past,_⟩ := decodeAt_classified block ⟨4,10⟩
  obtain ⟨_,strange,_⟩ := decodeAt_classified block ⟨4,7⟩
  obtain ⟨_,_,known,_⟩ := decodeAt_classified block ⟨4,8⟩
  obtain ⟨_,_,_,enclosed,_⟩ := decodeAt_classified block ⟨4,0⟩
  have apart := enclosed sample 7 found
  rcases known 10 .transition rfl rfl with ⟨_,_,whole,_⟩ | ⟨lacking,longer⟩
  · cases whole
  · exact ⟨past (Nat.le_refl _),strange 7 rfl rfl,lacking,longer,found,apart.kept nofun _ 5 rfl,
      apart.cut nofun 5 6 (by decide) (by decide)⟩

end DocGraph
