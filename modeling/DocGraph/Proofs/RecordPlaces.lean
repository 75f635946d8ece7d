import DocGraph.Proofs.RecordRoundTrip
import Mathlib.Data.List.Forall2

/-! Records among other bytes. No encoding is the front of another one, so a run of records comes apart in one
way only. -/
namespace DocGraph

namespace Tag

theorem byte_injective {tag other : Tag} (same : tag.byte = other.byte) : tag = other := by
  have found := ofByte?_byte tag
  rw [same, ofByte?_byte] at found
  exact (Option.some.inj found).symm

end Tag

namespace Record

theorem decodeAt_eq_ok_iff {block : Bytes} {place : Place} {record : Record} {next : Nat} :
    decodeAt block place = .ok (record,next) ↔
      ∃ rest, decode (block.drop place.offset) = .ok (record,rest) ∧
        block.length - rest.length = next := by
  simp only [decodeAt]
  split
  · rename_i cause failed
    simp [failed]
  · rename_i other rest found
    simp only [found, Except.ok.injEq, Prod.mk.injEq]
    constructor
    · rintro ⟨rfl,rfl⟩
      exact ⟨rest,⟨rfl,rfl⟩,rfl⟩
    · rintro ⟨_,⟨rfl,rfl⟩,rfl⟩
      exact ⟨rfl,rfl⟩

theorem decodeAt_bounds {block : Bytes} {place : Place} {record : Record} {next : Nat}
    (found : decodeAt block place = .ok (record,next)) : place.offset < next ∧ next ≤ block.length := by
  obtain ⟨rest,decoded,rfl⟩ := decodeAt_eq_ok_iff.mp found
  have shorter := length_decode_lt decoded
  rw [List.length_drop] at shorter
  omega

theorem decodeAt_append {record : Record} {bytes : Bytes} (encoded : record.encode = .ok bytes)
    (open_ : record ≠ .blockEnd) (number : Nat) (before after : Bytes) :
    decodeAt (before ++ bytes ++ after) ⟨number,before.length⟩ =
      .ok (record.plain,before.length + bytes.length) := by
  rw [decodeAt_eq_ok_iff]
  refine ⟨after,?_,?_⟩
  · rw [List.append_assoc, List.drop_left]
    exact decode_encode encoded open_ after
  · simp only [List.length_append]
    omega

theorem decodeAt_blockEnd (number : Nat) (before after : Bytes) :
    decodeAt (before ++ Tag.blockEnd.byte :: after) ⟨number,before.length⟩ =
      .ok (.blockEnd,(before ++ Tag.blockEnd.byte :: after).length) := by
  rw [decodeAt_eq_ok_iff]
  refine ⟨[],?_,rfl⟩
  rw [List.drop_left]
  exact decode_blockEnd after

/-- Encodings that begin alike are of one kind. -/
theorem tag_eq_of_prefix {record other : Record} {bytes more : Bytes}
    (encoded : record.encode = .ok bytes) (encoded' : other.encode = .ok more)
    (begins : bytes <+: more) : record.tag = other.tag := by
  obtain ⟨body,_,rfl⟩ := encode_eq_ok_iff.mp encoded
  obtain ⟨body',_,rfl⟩ := encode_eq_ok_iff.mp encoded'
  obtain ⟨tail,same⟩ := begins
  exact Tag.byte_injective (List.cons.inj same).1

theorem encode_blockEnd_iff {bytes : Bytes} :
    encode .blockEnd = .ok bytes ↔ [Tag.blockEnd.byte] = bytes := by
  simp [encode_eq_ok_iff,encodeBody,tag]

/-- No encoding begins another. -/
theorem eq_of_prefix {record other : Record} {bytes more : Bytes}
    (encoded : record.encode = .ok bytes) (encoded' : other.encode = .ok more)
    (begins : bytes <+: more) : bytes = more := by
  have kind := tag_eq_of_prefix encoded encoded' begins
  by_cases closing : record = .blockEnd
  · subst closing
    obtain rfl : other = .blockEnd := tag_eq_blockEnd_iff.mp kind.symm
    exact Except.ok.inj (encoded.symm.trans encoded')
  · have open_ : other ≠ .blockEnd := by
      rintro rfl
      exact closing (tag_eq_blockEnd_iff.mp kind)
    obtain ⟨tail,rfl⟩ := begins
    have short := decode_encode encoded closing tail
    have long := decode_encode encoded' open_ []
    rw [List.append_nil, short] at long
    have ends : tail = [] := (Prod.mk.inj (Except.ok.inj long)).2
    rw [ends, List.append_nil]

/-- The records from an offset of a block to its end. -/
def decodeFrom (block : Bytes) (number offset : Nat) : Except Fault (List Record) :=
  if offset < block.length then
    match found : decodeAt block ⟨number,offset⟩ with
    | .error fault => .error fault
    | .ok (record,next) =>
      have : offset < next := (decodeAt_bounds found).1
      (decodeFrom block number next).map (record :: ·)
  else .ok []
termination_by block.length - offset

theorem decodeFrom_end (block : Bytes) (number : Nat) :
    decodeFrom block number block.length = .ok [] := by
  rw [decodeFrom, if_neg (Nat.lt_irrefl _)]

theorem decodeFrom_step {block : Bytes} {number offset next : Nat} {record : Record}
    (found : decodeAt block ⟨number,offset⟩ = .ok (record,next)) :
    decodeFrom block number offset = (decodeFrom block number next).map (record :: ·) := by
  have bounds := decodeAt_bounds found
  have inside : offset < block.length := Nat.lt_of_lt_of_le bounds.1 bounds.2
  rw [decodeFrom, if_pos inside]
  split
  · rename_i failed
    rw [found] at failed
    cases failed
  · rename_i same
    rw [found] at same
    cases same
    rfl

theorem decodeFrom_append {records : List Record} {encodings : List Bytes}
    (open_ : ∀ record ∈ records, record ≠ .blockEnd)
    (encoded : List.Forall₂ (fun record bytes => record.encode = .ok bytes) records encodings)
    (number : Nat) (before after : Bytes) :
    decodeFrom (before ++ encodings.flatten ++ after) number before.length =
      (decodeFrom (before ++ encodings.flatten ++ after) number
        (before.length + encodings.flatten.length)).map (records.map plain ++ ·) := by
  induction encoded generalizing before with
  | nil =>
    simp only [List.flatten_nil, List.length_nil, Nat.add_zero, List.map_nil, List.nil_append]
    exact (id_map _).symm
  | @cons record bytes records encodings here later ih =>
    have first := decodeAt_append here (open_ record List.mem_cons_self) number before
      (encodings.flatten ++ after)
    have rest := ih (fun other member => open_ other (List.mem_cons_of_mem _ member)) (before ++ bytes)
    simp only [List.flatten_cons, List.append_assoc, List.length_append, Nat.add_assoc] at first rest ⊢
    rw [decodeFrom_step first, rest]
    cases decodeFrom (before ++ (bytes ++ (encodings.flatten ++ after))) number
      (before.length + (bytes.length + encodings.flatten.length)) with
    | error fault => rfl
    | ok found => rfl

/-- Decoding undoes encoding, whatever stands before a record and behind it: up to the marks that
its layout has no place for, it comes back, and reading goes on right behind it. No encoding begins
another, and encodings in a row are read back as just the records that they are of. The end mark of a
block comes back too, with the end of the block behind it. -/
theorem decodeAt_encode (number : Nat) (before after : Bytes) :
    (∀ (record : Record) bytes, record.encode = .ok bytes → record ≠ .blockEnd →
      decodeAt (before ++ bytes ++ after) ⟨number,before.length⟩ =
        .ok (record.plain,before.length + bytes.length)) ∧
    (∀ (record other : Record) bytes more, record.encode = .ok bytes → other.encode = .ok more →
      bytes <+: more → bytes = more) ∧
    (∀ (records : List Record) encodings, (∀ record ∈ records, record ≠ .blockEnd) →
      List.Forall₂ (fun record bytes => record.encode = .ok bytes) records encodings →
      decodeFrom (before ++ encodings.flatten ++ after) number before.length =
        (decodeFrom (before ++ encodings.flatten ++ after) number
          (before.length + encodings.flatten.length)).map (records.map plain ++ ·) ∧
      decodeFrom (before ++ encodings.flatten) number before.length = .ok (records.map plain)) ∧
    ∀ bytes, encode .blockEnd = .ok bytes →
      decodeAt (before ++ bytes ++ after) ⟨number,before.length⟩ =
        .ok (.blockEnd,(before ++ bytes ++ after).length) := by
  refine ⟨?_,?_,?_,?_⟩
  · intro record bytes encoded open_
    exact decodeAt_append encoded open_ number before after
  · intro record other bytes more encoded encoded' begins
    exact eq_of_prefix encoded encoded' begins
  · intro records encodings open_ encoded
    have whole := decodeFrom_append open_ encoded number before []
    rw [List.append_nil, ← List.length_append, decodeFrom_end] at whole
    refine ⟨decodeFrom_append open_ encoded number before after,?_⟩
    rw [whole]
    exact congrArg Except.ok (List.append_nil _)
  · intro bytes encoded
    obtain rfl := encode_blockEnd_iff.mp encoded
    rw [List.append_assoc]
    exact decodeAt_blockEnd number before after

/-- A sample and a transition between other bytes, and an end mark behind them. -/
theorem decodeAt_encode_sample :
    encode (.sample ⟨⟨[65],true⟩,⟨[66],true⟩⟩) = .ok [36,1,1,0,1,65,66] ∧
      encode (.transition 7) = .ok [10,0,7] ∧
      decodeAt [9,36,1,1,0,1,65,66,10,0,7,6] ⟨4,1⟩ = .ok (.sample ⟨⟨[65],false⟩,⟨[66],true⟩⟩,8) ∧
      decodeFrom [9,36,1,1,0,1,65,66,10,0,7] 4 1 =
        .ok [.sample ⟨⟨[65],false⟩,⟨[66],true⟩⟩,.transition 7] ∧
      ¬ ([36,1,1,0,1,65,66] : Bytes) <+: [10,0,7] ∧
      decodeAt [9,6,10,0,7,6] ⟨4,1⟩ = .ok (.blockEnd,6) := by
  have sample : encode (.sample ⟨⟨[65],true⟩,⟨[66],true⟩⟩) = .ok [36,1,1,0,1,65,66] := rfl
  have transition : encode (.transition 7) = .ok [10,0,7] := rfl
  obtain ⟨one,apart,all,closing⟩ := decodeAt_encode 4 [9] [10,0,7,6]
  have run := all [.sample ⟨⟨[65],true⟩,⟨[66],true⟩⟩,.transition 7] _ (by decide)
    (.cons sample (.cons transition .nil))
  refine ⟨sample,transition,one _ _ sample nofun,run.2,?_,closing _ rfl⟩
  intro begins
  cases apart _ _ _ _ sample transition begins

end Record

end DocGraph
