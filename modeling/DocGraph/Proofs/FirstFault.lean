import DocGraph.Proofs.FileLoading
import DocGraph.Proofs.RecordCanonical
import DocGraph.Proofs.SteadyReading

/-! Any bytes as a way of single steps, over a record that is accepted or from one block to the next. The way
has no forks, and the fault that is reported is the one where it ends. -/
namespace DocGraph

/-- A whole block of a file, by number. -/
def block? (bytes : Bytes) (number : Nat) : Option Bytes :=
  let block := (bytes.drop (Header.size + number * blockSize)).take blockSize
  if block.length = blockSize then some block else none

/-- A block has no more records behind its last byte and from an end mark on. -/
def Finished (block : Bytes) (offset : Nat) : Prop :=
  offset = block.length ∨ block[offset]? = some Tag.blockEnd.byte

/-- One step through a file: over a record that is accepted, or from a finished block to the next. -/
inductive Onward (bytes : Bytes) : Place × Builder → Place × Builder → Prop
  | record {number offset next : Nat} {builder after : Builder} {block : Bytes} {record : Record}
      (found : block? bytes number = some block)
      (decoded : Record.decodeAt block ⟨number,offset⟩ = .ok (record,next)) (open_ : record ≠ .blockEnd)
      (accepted : builder.apply record = (after,none)) :
      Onward bytes (⟨number,offset⟩,builder) (⟨number,next⟩,after)
  | block {number offset : Nat} {builder : Builder} {block : Bytes}
      (found : block? bytes number = some block) (finished : Finished block offset) :
      Onward bytes (⟨number,offset⟩,builder) (⟨number + 1,0⟩,builder)

/-- A place that is come to with a builder, from the first block on and with an empty one. -/
abbrev Comes (bytes : Bytes) (place : Place) (builder : Builder) : Prop :=
  Relation.ReflTransGen (Onward bytes) (⟨0,0⟩,{}) (place,builder)

/-- What is wrong with the record at a place of a block, for a builder that comes to it. -/
inductive FaultAt (block : Bytes) (place : Place) (builder : Builder) : Fault → Prop
  /-- No record starts with the byte at the place. -/
  | unknown {byte : UInt8} (here : block[place.offset]? = some byte) (strange : Tag.ofByte? byte = none) :
      FaultAt block place builder
        (.unknownRecord byte place (HexDump.render (block.drop place.offset)))
  /-- The block ends before the record does. -/
  | malformed {byte : UInt8} {tag : Tag} (here : block[place.offset]? = some byte)
      (known : Tag.ofByte? byte = some tag)
      (cut : ∀ record next, Record.decodeAt block place ≠ .ok (record,next)) :
      FaultAt block place builder
        (.malformedRecord byte place (HexDump.render (block.drop place.offset)))
  | unexpected {byte : UInt8} {record : Record} {next : Nat} (here : block[place.offset]? = some byte)
      (decoded : Record.decodeAt block place = .ok (record,next))
      (rejected : (builder.apply record).2 = some .unexpected) :
      FaultAt block place builder
        (.unexpectedRecord builder.mode byte place (HexDump.render (block.drop place.offset)))
  | misplaced {record : Record} {next : Nat} {label parent : String}
      (decoded : Record.decodeAt block place = .ok (record,next))
      (rejected : (builder.apply record).2 = some (.misplaced label parent)) :
      FaultAt block place builder (.missingContext label parent place)

/-- The fault at the place where the way through a file ends before its end. -/
def FirstFault (bytes : Bytes) (fault : Fault) : Prop :=
  ∃ place builder block, Comes bytes place builder ∧ block? bytes place.block = some block ∧
    FaultAt block place builder fault

theorem Finished.blockEnd_of_decodeAt {block : Bytes} {place : Place} {record : Record} {next : Nat}
    (finished : Finished block place.offset)
    (decoded : Record.decodeAt block place = .ok (record,next)) : record = .blockEnd := by
  rcases finished with ended | mark
  · obtain ⟨ahead,inside⟩ := Record.decodeAt_bounds decoded
    omega
  · cases decoded.symm.trans (Record.decodeAt_of_mark mark)
    rfl

theorem Onward.right_unique (bytes : Bytes) : Relator.RightUnique (Onward bytes) := by
  intro here next other step step'
  cases step with
  | record found decoded open_ accepted =>
    cases step' with
    | record found' decoded' _ accepted' =>
      cases found.symm.trans found'
      cases decoded.symm.trans decoded'
      cases accepted.symm.trans accepted'
      rfl
    | block found' finished =>
      cases found.symm.trans found'
      exact absurd (finished.blockEnd_of_decodeAt decoded) open_
  | block found finished =>
    cases step' with
    | record found' decoded' open_ _ =>
      cases found.symm.trans found'
      exact absurd (finished.blockEnd_of_decodeAt decoded') open_
    | block => rfl

/-- A way without forks has one end. -/
theorem eq_of_stuck {r : α → α → Prop} (unique : Relator.RightUnique r) {a b c : α}
    (ab : Relation.ReflTransGen r a b) (ac : Relation.ReflTransGen r a c) (stuck : ∀ d, ¬r b d)
    (stuck' : ∀ d, ¬r c d) : b = c := by
  rcases ab.total_of_right_unique unique ac with bc | cb
  · rcases bc.cases_head with same | ⟨d,step,_⟩
    · exact same
    · exact absurd step (stuck d)
  · rcases cb.cases_head with same | ⟨d,step,_⟩
    · exact same.symm
    · exact absurd step (stuck' d)

namespace FaultAt

variable {bytes block : Bytes} {place : Place} {builder : Builder} {fault fault' : Fault}

theorem inside (faulty : FaultAt block place builder fault) : place.offset < block.length := by
  cases faulty with
  | unknown here | malformed here | unexpected here =>
    exact (List.getElem?_eq_some_iff.mp here).choose
  | misplaced decoded =>
    have bounds := Record.decodeAt_bounds decoded
    omega

theorem rejected (faulty : FaultAt block place builder fault) {record : Record} {next : Nat}
    (decoded : Record.decodeAt block place = .ok (record,next)) : (builder.apply record).2 ≠ none := by
  cases faulty with
  | unknown here strange =>
    cases here.symm.trans (Record.decodeAt_tag decoded)
    cases strange.symm.trans (Tag.ofByte?_byte _)
  | malformed _ _ cut => exact absurd decoded (cut record next)
  | unexpected _ decoded' rejected | misplaced decoded' rejected =>
    cases decoded.symm.trans decoded'
    simp [rejected]

theorem not_finished (faulty : FaultAt block place builder fault) : ¬Finished block place.offset := by
  rintro (ended | mark)
  · have inside := faulty.inside
    omega
  · refine faulty.rejected (Record.decodeAt_of_mark mark) ?_
    simp [Builder.apply,Builder.accept]

theorem stuck (faulty : FaultAt block place builder fault)
    (found : block? bytes place.block = some block) (next : Place × Builder) :
    ¬Onward bytes (place,builder) next := by
  intro step
  cases step with
  | record found' decoded _ accepted =>
    cases found.symm.trans found'
    exact faulty.rejected decoded (congrArg Prod.snd accepted)
  | block found' finished =>
    cases found.symm.trans found'
    exact faulty.not_finished finished

theorem unique (faulty : FaultAt block place builder fault) (faulty' : FaultAt block place builder fault') :
    fault = fault' := by
  have tagged {record : Record} {next : Nat}
      (decoded : Record.decodeAt block place = .ok (record,next)) := Record.decodeAt_tag decoded
  cases faulty <;> cases faulty' <;> grind [Tag.ofByte?_byte]

end FaultAt

theorem FirstFault.unique {bytes : Bytes} {fault fault' : Fault} (first : FirstFault bytes fault)
    (first' : FirstFault bytes fault') : fault = fault' := by
  obtain ⟨place,builder,block,comes,found,faulty⟩ := first
  obtain ⟨place',builder',block',comes',found',faulty'⟩ := first'
  cases eq_of_stuck (Onward.right_unique bytes) comes comes' (faulty.stuck found) (faulty'.stuck found')
  cases found.symm.trans found'
  exact faulty.unique faulty'

theorem FirstFault.not_over {bytes : Bytes} {fault : Fault} (first : FirstFault bytes fault) {number : Nat}
    {builder : Builder} (comes : Comes bytes ⟨number,0⟩ builder) (finished : block? bytes number = none) :
    False := by
  obtain ⟨place,builder',block,comes',found,faulty⟩ := first
  have ended (next : Place × Builder) : ¬Onward bytes (⟨number,0⟩,builder) next := by
    intro step
    cases step with
    | record found' | block found' => cases finished.symm.trans found'
  cases eq_of_stuck (Onward.right_unique bytes) comes comes' ended (faulty.stuck found)
  cases finished.symm.trans found

theorem Onward.reachable {bytes : Bytes} {here next : Place × Builder} (step : Onward bytes here next)
    (reachable : here.2.Reachable) : next.2.Reachable := by
  cases step with
  | @record _ _ _ _ _ _ record _ _ _ accepted =>
    have applied := Builder.Reachable.apply record reachable
    rwa [accepted] at applied
  | block => exact reachable

theorem reachable_of_onward {bytes : Bytes} {here there : Place × Builder}
    (steps : Relation.ReflTransGen (Onward bytes) here there) (reachable : here.2.Reachable) :
    there.2.Reachable := by
  induction steps with
  | refl => exact reachable
  | tail _ step ih => exact step.reachable ih

namespace FaultAt

variable {block : Bytes} {place : Place} {builder after : Builder}

theorem of_undecodable {cause : Undecodable} (inside : place.offset < block.length)
    (failed : Record.decode (block.drop place.offset) = .error cause) :
    FaultAt block place builder (cause.fault place (block.drop place.offset)) := by
  have cut (record : Record) (next : Nat) : Record.decodeAt block place ≠ .ok (record,next) := by
    intro decoded
    obtain ⟨rest,found,_⟩ := Record.decodeAt_eq_ok_iff.mp decoded
    cases failed.symm.trans found
  have split : block.drop place.offset = block[place.offset] :: block.drop (place.offset + 1) :=
    List.drop_eq_getElem_cons inside
  have here : block[place.offset]? = some block[place.offset] := List.getElem?_eq_getElem inside
  rw [split, Record.decode] at failed
  cases known : Tag.ofByte? block[place.offset] with
  | none =>
    simp only [known] at failed
    cases failed
    exact .unknown here known
  | some tag =>
    simp only [known] at failed
    split at failed
    · cases failed
      exact .malformed here known cut
    · cases failed

theorem of_rejected {record : Record} {next : Nat} {reason : Rejection} (sound : builder.Sound)
    (decoded : Record.decodeAt block place = .ok (record,next))
    (rejected : builder.apply record = (after,some reason)) :
    FaultAt block place builder
      ((Stop.rejected reason record (block.drop place.offset)).fault after.mode place) := by
  have verdict_ := congrArg Prod.snd rejected
  cases reason with
  | unexpected =>
    rw [Stop.fault, Builder.mode_of_rejected sound rejected]
    exact .unexpected (Record.decodeAt_tag decoded) decoded verdict_
  | misplaced label parent => exact .misplaced decoded verdict_

end FaultAt

theorem Builder.addRecords_onward {bytes block : Bytes} {number : Nat}
    (found : block? bytes number = some block) (builder : Builder) (notices : List Notice) (rest : Bytes)
    {offset : Nat} (inside : offset ≤ block.length) (split : rest = block.drop offset)
    (comes : Comes bytes ⟨number,offset⟩ builder) :
    let progress := builder.addRecords notices rest
    match progress.stop with
    | none => Comes bytes ⟨number + 1,0⟩ progress.builder
    | some stop => FirstFault bytes
        (stop.fault progress.builder.mode ⟨number,block.length - stop.bytes.length⟩) := by
  have back : block.length - (block.drop offset).length = offset := by
    rw [List.length_drop]
    omega
  fun_induction addRecords builder notices rest generalizing offset with
  | case1 builder notices rest empty =>
    have finished : offset = block.length := by
      rw [split, List.isEmpty_iff, List.drop_eq_nil_iff] at empty
      omega
    exact comes.tail (.block found (.inl finished))
  | case2 builder notices rest more cause failed =>
    subst split
    have ahead : offset < block.length := by
      rw [List.isEmpty_iff, List.drop_eq_nil_iff] at more
      omega
    simp only [Stop.bytes, back]
    exact ⟨_,builder,block,comes,found,.of_undecodable ahead failed⟩
  | case3 builder notices rest _ record left decoded _ _ after reason =>
    rename_i rejected
    subst split
    obtain ⟨next,decoded',_⟩ := Record.decodeAt_eq_ok_drop number decoded
    simp only [Stop.bytes, back]
    have sound := (reachable_of_onward comes .initial).sound
    exact ⟨_,builder,block,comes,found,.of_rejected sound decoded' rejected⟩
  | case4 builder notices rest _ record left decoded _ _ after accepted =>
    rename_i ih
    subst split
    obtain ⟨next,decoded',behind⟩ := Record.decodeAt_eq_ok_drop number decoded
    by_cases padding : record = .blockEnd
    · -- Behind an end mark nothing is left, and the builder is as it was.
      subst padding
      have mark : block[offset]? = some Tag.blockEnd.byte := Record.decodeAt_tag decoded'
      cases decoded'.symm.trans (Record.decodeAt_of_mark mark)
      rw [behind, List.drop_length, addRecords_nil]
      cases accepted
      exact comes.tail (.block found (.inr mark))
    · have within : next ≤ block.length := (Record.decodeAt_bounds decoded').2
      refine ih within behind (comes.tail (.record found decoded' padding accepted)) ?_
      rw [List.length_drop]
      omega

theorem Builder.addBlock_onward {bytes block : Bytes} {number : Nat} {builder : Builder}
    (found : block? bytes number = some block) (comes : Comes bytes ⟨number,0⟩ builder) :
    match (builder.addBlock number block).fault with
    | none => Comes bytes ⟨number + 1,0⟩ (builder.addBlock number block).builder
    | some fault => FirstFault bytes fault := by
  have onward := builder.addRecords_onward found [] block (Nat.zero_le _) rfl comes
  unfold addBlock
  cases stopped : (builder.addRecords [] block).stop with
  | none => simpa only [stopped] using onward
  | some stop => simpa only [stopped] using onward

namespace Loaded

/-- The whole blocks that are left are gone through, and then what is left behind them counts. -/
theorem build_onward {bytes : Bytes} {reader : Reader} {builder : Builder} {number count left : Nat}
    (steady : reader.source.Steady)
    (source : reader.source.bytes = bytes.drop (Header.size + number * blockSize))
    (length : reader.source.bytes.length = count * blockSize + left) (part : left < blockSize)
    (comes : Comes bytes ⟨number,0⟩ builder) (notices : List Notice) :
    let result := (build reader builder number notices).result
    (∃ fault, FirstFault bytes fault ∧ result = .error fault) ∨
    ∃ last, Comes bytes ⟨number + count,0⟩ last ∧
      (left ≠ 0 → result = .error (.shortRead reader.file blockSize left)) ∧
      (left = 0 → result = .ok ⟨last,number + count⟩) := by
  induction count generalizing reader builder number notices with
  | zero =>
    rw [Nat.zero_mul, Nat.zero_add] at length
    refine .inr ⟨builder,comes,fun some_ => ?_,fun none_ => ?_⟩
    · have more : reader.source.bytes ≠ [] := by
        rintro finished
        rw [finished] at length
        exact some_ length.symm
      obtain ⟨next,read⟩ := Reader.nextBlock_part steady more (length ▸ part)
      rw [build_fault read, length]
    · have nothing : reader.source.bytes = [] := List.length_eq_zero_iff.mp (length.trans none_)
      obtain ⟨next,read⟩ := Reader.nextBlock_over steady nothing
      rw [build_end read]
      rfl
  | succ count ih =>
    have enough : blockSize ≤ reader.source.bytes.length := by
      rw [length, Nat.succ_mul]
      omega
    obtain ⟨next,read,file,steady',rest⟩ := Reader.nextBlock_whole steady enough
    have found : block? bytes number = some (reader.source.bytes.take blockSize) := by
      rw [block?, ← source]
      exact if_pos (List.length_take_of_le enough)
    have onward := Builder.addBlock_onward found comes
    rw [build_step read]
    cases stopped : (builder.addBlock number (reader.source.bytes.take blockSize)).fault with
    | some fault =>
      rw [stopped] at onward
      exact .inl ⟨fault,onward,rfl⟩
    | none =>
      rw [stopped] at onward
      have source' : next.source.bytes = bytes.drop (Header.size + (number + 1) * blockSize) := by
        rw [rest, source, List.drop_drop, Nat.succ_mul, Nat.add_assoc]
      have length' : next.source.bytes.length = count * blockSize + left := by
        rw [rest, List.length_drop, length, Nat.succ_mul]
        omega
      have last := ih steady' source' length' onward
        (notices ++ (builder.addBlock number (reader.source.bytes.take blockSize)).notices)
      rw [file, Nat.add_assoc, Nat.add_comm 1] at last
      exact last

end Loaded

theorem block?_over {bytes : Bytes} {number left : Nat} (part : left < blockSize)
    (length : bytes.length = Header.size + number * blockSize + left) : block? bytes number = none := by
  rw [block?, List.length_take, List.length_drop, length]
  exact if_neg (by omega)

/-- The fault that a file is reported with, for any bytes that are read without failure. A file without
a whole header is cut short, and one with another signature is none of these. Any other file is reported
with its first fault, also when it is cut short behind it; without a fault it is cut short when part of a
block is left, and loaded with all its blocks when not. -/
theorem load_first_fault {source : Source} (steady : source.Steady) (file : String) :
    let bytes := source.bytes
    let result := (load source file).result
    (bytes.length < Header.size → result = .error (.shortRead file Header.size bytes.length)) ∧
    (Header.size ≤ bytes.length → bytes.take 4 ≠ Header.signature →
      result = .error (.badSignature file)) ∧
    (Header.size ≤ bytes.length → bytes.take 4 = Header.signature →
      let blocks := (bytes.length - Header.size) / blockSize
      let left := (bytes.length - Header.size) % blockSize
      (∀ fault, FirstFault bytes fault → result = .error fault) ∧
      ((∀ fault, ¬FirstFault bytes fault) →
        (left ≠ 0 → result = .error (.shortRead file blockSize left)) ∧
        (left = 0 → ∃ loaded, result = .ok loaded ∧ loaded.blocks = blocks))) := by
  intro bytes result
  refine ⟨?_,?_,?_⟩
  · intro short
    simp only [result, load, Reader.start_short steady file short]
    rfl
  · intro long foreign
    simp only [result, load, Reader.start_foreign steady file long foreign]
  · intro long own blocks left
    obtain ⟨reader,started,named,steady',rest⟩ := Reader.start_own steady file long own
    have start : reader.source.bytes = bytes.drop (Header.size + 0 * blockSize) := by
      rw [rest, Nat.zero_mul, Nat.add_zero]
    have length : reader.source.bytes.length = blocks * blockSize + left := by
      rw [rest, List.length_drop, Nat.mul_comm]
      exact (Nat.div_add_mod _ blockSize).symm
    have part : left < blockSize := Nat.mod_lt _ (by decide)
    have finished : block? bytes (0 + blocks) = none := by
      refine block?_over part ?_
      have behind : (bytes.drop Header.size).length = blocks * blockSize + left := rest ▸ length
      rw [List.length_drop] at behind
      rw [Nat.zero_add, Nat.add_assoc, ← behind]
      exact (Nat.add_sub_cancel' long).symm
    rcases Loaded.build_onward steady' start length part .refl reader.notices with
      ⟨fault,first,failed⟩ | ⟨last,comes,cut,clean⟩
    · have reported : result = .error fault := by
        simp only [result, load, started, failed]
      refine ⟨fun fault' first' => ?_,fun none_ => absurd first (none_ fault)⟩
      rw [reported, first.unique first']
    · refine ⟨fun fault first => (first.not_over comes finished).elim,fun _ => ⟨?_,?_⟩⟩
      · intro some_
        simp only [result, load, started, cut some_, named]
      · intro none_
        simp only [result, load, started, clean none_, Nat.zero_add]
        exact ⟨_,rfl,rfl⟩

theorem block?_append {front block : Bytes} {number : Nat}
    (before : front.length = Header.size + number * blockSize) (width : block.length = blockSize)
    (rest : Bytes) : block? (front ++ (block ++ rest)) number = some block := by
  rw [block?, ← before, List.drop_left, ← width, List.take_left]
  exact if_pos rfl

/-- A block with a sequence section in which a state machine ends. -/
def strayBlock : Bytes := [12,0,0,1,103] ++ 11 :: List.replicate (blockSize - 6) Tag.blockEnd.byte

theorem length_strayBlock : strayBlock.length = blockSize := by
  have padded (count : Nat) :
      (([12,0,0,1,103] : Bytes) ++ 11 :: List.replicate count Tag.blockEnd.byte).length = count + 6 := by
    simp only [List.length_append, List.length_cons, List.length_nil, List.length_replicate]
    omega
  exact (padded _).trans (Nat.sub_add_cancel (by decide))

/-- A file that goes on for one byte behind its only block, and is read in pieces. -/
def straySource : Source :=
  { bytes := Header.toBytes {} ++ (strayBlock ++ [1])
    schedule := [.atMost 7, .interrupted, .atMost 100] }

theorem straySource_steady : straySource.Steady := by
  simp [Source.Steady,straySource,Delivery.Steady]

theorem length_straySource : straySource.bytes.length = Header.size + (blockSize + 1) := by
  rw [straySource, List.length_append, List.length_append, length_strayBlock]
  rfl

theorem straySource_fault :
    FirstFault straySource.bytes
      (.unexpectedRecord .sequence 11 ⟨0,5⟩ (HexDump.render (strayBlock.drop 5))) := by
  have found : block? straySource.bytes 0 = some strayBlock := block?_append rfl length_strayBlock [1]
  have opening : Record.encode (.sequenceStart ⟨[103],false⟩) = .ok [12,0,0,1,103] := rfl
  have closing : Record.encode .stateMachineEnd = .ok [11] := rfl
  have start : Record.decodeAt strayBlock ⟨0,0⟩ = .ok (.sequenceStart ⟨[103],false⟩,5) :=
    Record.decodeAt_append opening nofun 0 [] _
  have stray : Record.decodeAt strayBlock ⟨0,5⟩ = .ok (.stateMachineEnd,6) :=
    Record.decodeAt_append closing nofun 0 [12,0,0,1,103] _
  let opened : Builder := (Builder.apply {} (.sequenceStart ⟨[103],false⟩)).1
  have comes : Comes straySource.bytes ⟨0,5⟩ opened := .single (.record found start nofun rfl)
  have faulty : FaultAt strayBlock ⟨0,5⟩ opened _ := .unexpected rfl stray rfl
  exact ⟨⟨0,5⟩,opened,strayBlock,comes,found,faulty⟩

/-- The fault in the block is reported, and not that the file is cut short behind it. A header alone is
a file without a fault. -/
theorem straySource_reported :
    straySource.Steady ∧ Header.size ≤ straySource.bytes.length ∧
      straySource.bytes.take 4 = Header.signature ∧
      (straySource.bytes.length - Header.size) % blockSize = 1 ∧
      (load straySource "model").result = .error
        (.unexpectedRecord .sequence 11 ⟨0,5⟩ (HexDump.render (strayBlock.drop 5))) ∧
      ∃ loaded, (load ⟨Header.toBytes {},[]⟩ "model").result = .ok loaded ∧ loaded.blocks = 0 := by
  have long : Header.size ≤ straySource.bytes.length := by
    rw [length_straySource]
    exact Nat.le_add_right _ _
  have own : straySource.bytes.take 4 = Header.signature := rfl
  have left : (straySource.bytes.length - Header.size) % blockSize = 1 := by
    rw [length_straySource, Nat.add_sub_cancel_left]
    rfl
  obtain ⟨_,_,inside⟩ := load_first_fault straySource_steady "model"
  have alone : Source.Steady ⟨Header.toBytes {},[]⟩ := nofun
  obtain ⟨_,_,header⟩ := load_first_fault alone "model"
  have clean := (header (Nat.le_refl _) rfl).2 fun fault first => first.not_over .refl rfl
  exact ⟨straySource_steady,long,own,left,(inside long own).1 _ straySource_fault,clean.2 rfl⟩

end DocGraph
