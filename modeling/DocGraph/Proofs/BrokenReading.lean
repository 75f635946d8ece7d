import DocGraph.Proofs.PortionedReading

/-! Blocks behind a failed read. A request that breaks takes the bytes along that it was given, and the count
of blocks does not show it. -/
namespace DocGraph

/-- The bytes that reads give when there are enough. -/
def Source.portions : List Delivery → Nat
  | [] => 0
  | .atMost count :: later => count + portions later
  | _ :: later => portions later

namespace Source

theorem fillFrom_front {want : Nat} {bytes : Bytes} {schedule : List Delivery}
    {result : Except String Bytes} {after : Source}
    (filled : fillFrom want bytes schedule = (result,after)) :
    ∃ taken ≤ want, after.bytes = bytes.drop taken ∧ ∀ got, result = .ok got → got = bytes.take taken := by
  fun_induction fillFrom want bytes schedule generalizing result after with
  | case1 want bytes =>
    cases filled
    exact ⟨want,Nat.le_refl want,rfl,fun got same => (Except.ok.inj same).symm⟩
  | case2 =>
    cases filled
    exact ⟨0,Nat.zero_le _,rfl,fun got same => (Except.ok.inj same).symm⟩
  | case3 _ _ _ _ ih => exact ih filled
  | case4 =>
    cases filled
    exact ⟨0,Nat.zero_le _,rfl,fun got same => by cases same⟩
  | case5 =>
    cases filled
    exact ⟨0,Nat.zero_le _,rfl,fun got same => (Except.ok.inj same).symm⟩
  | case6 want bytes schedule _ count front some_ result' source rest =>
    rename_i ih
    cases filled
    obtain ⟨taken,room,left,given⟩ := ih rest
    have split : bytes.take front.length = front := by
      simp [front,Nat.min_assoc]
    have width : front.length ≤ want := by
      simp only [front, List.length_take]
      omega
    refine ⟨front.length + taken,by omega,?_,?_⟩
    · rw [left, List.drop_drop]
    · intro got same
      cases result' with
      | error => cases same
      | ok more =>
        cases same
        rw [List.take_add, split, given more rfl]

theorem fillFrom_met (bytes : Bytes) (schedule : List Delivery) :
    (fillFrom 0 bytes schedule).1 = .ok [] := by
  cases schedule <;> rfl

/-- A request breaks with the first read that breaks, and takes along what the reads before it gave. -/
theorem fillFrom_broken {want : Nat} {bytes : Bytes} {schedule : List Delivery} {reason : String}
    {after : Source} (broke : fillFrom want bytes schedule = (.error reason,after)) :
    ∃ reads, schedule = reads ++ .broken reason :: after.schedule ∧ (∀ why, .broken why ∉ reads) ∧
      after.bytes = bytes.drop (portions reads) := by
  fun_induction fillFrom want bytes schedule generalizing after with
  | case1 | case2 | case5 => cases broke
  | case3 _ _ _ _ ih =>
    obtain ⟨reads,rfl,whole,left⟩ := ih broke
    exact ⟨.interrupted :: reads,rfl,by simpa using whole,left⟩
  | case4 =>
    cases broke
    exact ⟨[],rfl,by simp,rfl⟩
  | case6 want bytes schedule _ count front some_ result' source rest =>
    rename_i ih
    cases result' with
    | ok more => cases broke
    | error why =>
      cases broke
      obtain ⟨reads,rfl,whole,left⟩ := ih rest
      refine ⟨.atMost count :: reads,rfl,by simpa using whole,?_⟩
      have open_ : front.length < want := by
        apply Nat.lt_of_not_le
        intro met
        have result := congrArg Prod.fst rest
        rw [Nat.sub_eq_zero_of_le met, fillFrom_met] at result
        cases result
      have width : front.length = min count bytes.length := by
        simp only [front, List.length_take] at open_ ⊢
        omega
      rw [left, List.drop_drop, portions, width]
      by_cases enough : count ≤ bytes.length
      · rw [Nat.min_eq_left enough]
      · rw [List.drop_of_length_le (by omega), List.drop_of_length_le (by omega)]

end Source

namespace Reader

/-- The bytes that a call takes from the source without giving them to its caller. -/
def spilt (reader : Reader) : Nat :=
  match reader.nextBlock with
  | (.error _,next) => reader.source.bytes.length - next.source.bytes.length
  | (.ok _,_) => 0

/-- The bytes that a number of calls leave behind in this way. -/
def lost (reader : Reader) : Nat → Nat
  | 0 => 0
  | calls + 1 => reader.spilt + reader.nextBlock.2.lost calls

theorem start_front {source : Source} {file : String} {reader : Reader}
    (started : start source file = .ok reader) :
    reader.blocksRead = 0 ∧ reader.source.bytes = source.bytes.drop Header.size := by
  unfold start at started
  split at started
  · cases started
  rename_i got later filled
  obtain ⟨taken,room,left,given⟩ := Source.fillFrom_front filled
  rw [bind_eq_ok_iff] at started
  obtain ⟨header,parsed,same⟩ := started
  cases same
  have width : Header.size ≤ got.length := (Header.parse_eq_ok_iff.mp parsed).length_le
  rw [given got rfl, List.length_take] at width
  refine ⟨rfl,?_⟩
  rw [left, Nat.le_antisymm room (by omega)]

theorem spilt_of_error {reader next : Reader} {fault : Fault} (read : reader.nextBlock = (.error fault,next)) :
    reader.spilt = reader.source.bytes.length - next.source.bytes.length := by
  simp only [spilt, read]

theorem spilt_of_ok {reader next : Reader} {block : Option Bytes} (read : reader.nextBlock = (.ok block,next)) :
    reader.spilt = 0 := by
  simp only [spilt, read]

theorem nextBlock_front {reader next : Reader} {result : Except Fault (Option Bytes)}
    (read : reader.nextBlock = (result,next)) :
    ∃ count, next.blocksRead = reader.blocksRead + count ∧
      next.source.bytes = reader.source.bytes.drop (count * blockSize + reader.spilt) ∧
      ∀ block, result = .ok (some block) →
        block = reader.source.bytes.take blockSize ∧ block.length = blockSize := by
  obtain ⟨filled,later,fill⟩ : ∃ filled later, reader.source.fill blockSize = (filled,later) := ⟨_,_,rfl⟩
  obtain ⟨taken,room,left,given⟩ := Source.fillFrom_front fill
  have behind : later.bytes = reader.source.bytes.drop (reader.source.bytes.length - later.bytes.length) :=
    List.suffix_iff_eq_drop.mp (left ▸ List.drop_suffix _ _)
  have opened := read
  simp only [nextBlock, fill] at opened
  cases filled with
  | error reason =>
    cases opened
    refine ⟨0,rfl,?_,fun block same => by cases same⟩
    rw [spilt_of_error read, Nat.zero_mul, Nat.zero_add]
    exact behind
  | ok got =>
    obtain rfl := given got rfl
    simp only at opened
    split at opened
    · rename_i ended
      cases opened
      refine ⟨0,rfl,?_,fun block same => by cases same⟩
      rw [spilt_of_ok read]
      rw [List.length_take] at ended
      have none_ : reader.source.bytes.length - later.bytes.length = 0 := by
        rw [left, List.length_drop]
        omega
      rwa [none_] at behind
    rename_i some_
    split at opened
    · cases opened
      refine ⟨0,rfl,?_,fun block same => by cases same⟩
      rw [spilt_of_error read, Nat.zero_mul, Nat.zero_add]
      exact behind
    · rename_i whole
      cases opened
      have width := Nat.le_of_not_lt whole
      rw [List.length_take] at width
      obtain rfl : taken = blockSize := by omega
      refine ⟨1,rfl,?_,?_⟩
      · rw [spilt_of_ok read, Nat.one_mul]
        exact left
      · intro block same
        cases same
        exact ⟨rfl,List.length_take_of_le (by omega)⟩

/-- Behind any number of calls the bytes begin behind the blocks that were given and the bytes that were
lost. -/
theorem after_front (reader : Reader) (calls : Nat) :
    ∃ count, (reader.after calls).blocksRead = reader.blocksRead + count ∧
      (reader.after calls).source.bytes = reader.source.bytes.drop (count * blockSize + reader.lost calls) := by
  induction calls generalizing reader with
  | zero => exact ⟨0,rfl,rfl⟩
  | succ calls ih =>
    obtain ⟨first,read,left,_⟩ := reader.nextBlock_front (Prod.eta _).symm
    obtain ⟨later,more,rest⟩ := ih reader.nextBlock.2
    refine ⟨first + later,?_,?_⟩
    · rw [after, more, read, Nat.add_assoc]
    · rw [after, rest, left, List.drop_drop, lost, Nat.add_mul]
      congr 1
      omega

theorem lost_succ (reader : Reader) (calls : Nat) :
    reader.lost (calls + 1) = reader.lost calls + (reader.after calls).spilt := by
  induction calls generalizing reader with
  | zero => exact Nat.add_comm _ _
  | succ calls ih => rw [lost, ih, lost, after, Nat.add_assoc]

theorem after_succ (reader : Reader) (calls : Nat) :
    reader.after (calls + 1) = (reader.after calls).nextBlock.2 := by
  induction calls generalizing reader with
  | zero => rfl
  | succ calls ih => rw [after, ih, after]

theorem spilt_of_broken {reader next : Reader} {reason : String}
    (broke : reader.nextBlock = (.error (.io reason),next)) :
    ∃ reads, reader.source.schedule = reads ++ .broken reason :: next.source.schedule ∧
      (∀ why, .broken why ∉ reads) ∧ next.blocksRead = reader.blocksRead ∧
      reader.spilt = min (Source.portions reads) reader.source.bytes.length := by
  have cost := spilt_of_error broke
  simp only [nextBlock] at broke
  split at broke
  · rename_i why later fill
    cases broke
    obtain ⟨reads,split,whole,left⟩ := Source.fillFrom_broken fill
    refine ⟨reads,split,whole,rfl,?_⟩
    rw [cost]
    change reader.source.bytes.length - later.bytes.length = _
    rw [left, List.length_drop]
    omega
  · split at broke
    · cases broke
    · split at broke <;> cases broke

/-- A block that a call gives is whole, and as far behind its place in the file as bytes were lost before.
A broken call leaves the count of blocks as it is and costs the bytes that its reads were given before
one broke, so it costs none when that was its first; a call that does not fail costs none either. -/
theorem blocks_slip {source : Source} {file : String} {reader : Reader}
    (started : start source file = .ok reader) (calls : Nat) :
    let before := reader.after calls
    let behind := reader.after (calls + 1)
    let first := Header.size + before.blocksRead * blockSize + reader.lost calls
    (∀ block, before.nextBlock.1 = .ok (some block) →
      block.length = blockSize ∧ block = source.bytes.extract first (first + blockSize)) ∧
    (∀ reason, before.nextBlock.1 = .error (.io reason) →
      ∃ reads, before.source.schedule = reads ++ .broken reason :: behind.source.schedule ∧
        (∀ why, .broken why ∉ reads) ∧ behind.blocksRead = before.blocksRead ∧
        reader.lost (calls + 1) =
          reader.lost calls + min (Source.portions reads) before.source.bytes.length) ∧
    (∀ block, before.nextBlock.1 = .ok block → reader.lost (calls + 1) = reader.lost calls) := by
  intro before behind first
  obtain ⟨fresh,opened⟩ := start_front started
  obtain ⟨count,read,left⟩ := reader.after_front calls
  rw [fresh, Nat.zero_add] at read
  have position : before.source.bytes = source.bytes.drop first := by
    change (reader.after calls).source.bytes = _
    rw [left, opened, List.drop_drop, ← read, ← Nat.add_assoc]
  have next : behind = before.nextBlock.2 := reader.after_succ calls
  refine ⟨fun block given => ?_,fun reason broke => ?_,fun block given => ?_⟩
  · obtain ⟨_,_,_,whole⟩ := before.nextBlock_front (Prod.ext given rfl)
    obtain ⟨same,width⟩ := whole block rfl
    refine ⟨width,?_⟩
    rw [same, position, List.extract_eq_take_drop, Nat.add_sub_cancel_left]
  · obtain ⟨reads,split,unbroken,kept,cost⟩ := spilt_of_broken (Prod.ext broke rfl)
    rw [next]
    exact ⟨reads,split,unbroken,kept,by rw [lost_succ, cost]⟩
  · rw [lost_succ, spilt_of_ok (Prod.ext given rfl), Nat.add_zero]

theorem start_atOnce (header : Header) (body : Bytes) (later : List Delivery) (file : String) :
    start ⟨header.toBytes ++ body,.atMost Header.size :: later⟩ file =
      .ok { source := ⟨body,later⟩, file, header } := by
  have filled : Source.fill ⟨header.toBytes ++ body,.atMost Header.size :: later⟩ Header.size =
      (.ok header.toBytes,⟨body,later⟩) := by
    cases later <;> rfl
  simp only [start, filled, Header.parse_toBytes]
  rfl

theorem nextBlock_breaks {reader : Reader} {byte : UInt8} {body : Bytes} {reason : String}
    {later : List Delivery} (source : reader.source = ⟨byte :: body,.atMost 1 :: .broken reason :: later⟩) :
    reader.nextBlock = (.error (.io reason),{ reader with source := ⟨body,later⟩ }) := by
  have broke : Source.fill ⟨byte :: body,.atMost 1 :: .broken reason :: later⟩ blockSize =
      (.error reason,⟨body,later⟩) := rfl
  simp only [nextBlock, source, broke]

end Reader

/-- Two blocks that are end marks but for the first byte, and a read that breaks behind that byte. -/
def slippedSource : Source :=
  { bytes := Header.toBytes {} ++
      0 :: (List.replicate blockSize Tag.blockEnd.byte ++ List.replicate (blockSize - 1) Tag.blockEnd.byte)
    schedule := [.atMost Header.size,.atMost 1,.broken "broken source"] }

theorem slippedSource_calls :
    ∃ reader, Reader.start slippedSource "model" = .ok reader ∧
      (reader.after 0).nextBlock.1 = .error (.io "broken source") ∧ reader.lost 1 = 1 ∧
      (reader.after 1).blocksRead = 0 ∧
      (reader.after 1).nextBlock.1 = .ok (some (List.replicate blockSize Tag.blockEnd.byte)) ∧
      (reader.after 2).nextBlock.1 = .error (.shortRead "model" blockSize (blockSize - 1)) := by
  let left : Bytes := List.replicate (blockSize - 1) Tag.blockEnd.byte
  let body : Bytes := List.replicate blockSize Tag.blockEnd.byte ++ left
  let reader : Reader :=
    { source := ⟨0 :: body,[.atMost 1,.broken "broken source"]⟩, file := "model", header := {} }
  have started : Reader.start slippedSource "model" = .ok reader := Reader.start_atOnce {} (0 :: body) _ _
  let second : Reader := { reader with source := ⟨body,[]⟩ }
  let third : Reader := { reader with source := ⟨left,[]⟩, blocksRead := 1 }
  have broke : reader.nextBlock = (.error (.io "broken source"),second) := Reader.nextBlock_breaks rfl
  have shifted : second.nextBlock =
      (.ok (some (List.replicate blockSize Tag.blockEnd.byte)),third) :=
    Reader.nextBlock_append rfl List.length_replicate
  have steady : third.source.Steady := nofun
  have some_ : third.source.bytes ≠ [] := mt (List.replicate_eq_nil_iff _).mp (by decide)
  have part : third.source.bytes.length < blockSize := by
    rw [List.length_replicate]
    decide
  obtain ⟨_,cut⟩ := Reader.nextBlock_part steady some_ part
  have once : reader.after 1 = second := Reader.after_read broke 0
  have twice : reader.after 2 = third := (Reader.after_read broke 1).trans (Reader.after_read shifted 0)
  refine ⟨reader,started,?_,?_,?_,?_,?_⟩
  · rw [Reader.after, broke]
  · rw [Reader.lost, Reader.spilt_of_error broke, List.length_cons, Nat.add_sub_cancel_left]
    rfl
  · rw [once]
  · rw [once, shifted]
  · rw [twice, cut, List.length_replicate]

/-- The next call gives the bytes behind the lost one as the first block of the file. -/
theorem slippedSource_slips :
    ∃ reader, Reader.start slippedSource "model" = .ok reader ∧
      (reader.after 0).nextBlock.1 = .error (.io "broken source") ∧ reader.lost 1 = 1 ∧
      (reader.after 1).blocksRead = 0 ∧
      (reader.after 1).nextBlock.1 = .ok (some (List.replicate blockSize Tag.blockEnd.byte)) ∧
      List.replicate blockSize Tag.blockEnd.byte =
        slippedSource.bytes.extract (Header.size + 1) (Header.size + 1 + blockSize) := by
  obtain ⟨reader,started,broke,cost,unread,shifted,_⟩ := slippedSource_calls
  obtain ⟨place,_⟩ := Reader.blocks_slip started 1
  obtain ⟨_,place⟩ := place _ shifted
  rw [unread, cost, Nat.zero_mul, Nat.add_zero] at place
  exact ⟨reader,started,broke,cost,unread,shifted,place⟩

/-- Reads that give something or fail do not keep the blocks in their places. -/
theorem block_displaced :
    ¬∀ (source : Source) (file : String) (reader : Reader) (calls : Nat) (block : Bytes),
      .atMost 0 ∉ source.schedule → Reader.start source file = .ok reader →
      (reader.after calls).nextBlock.1 = .ok (some block) →
      let number := (reader.after calls).blocksRead
      block = source.bytes.extract (Header.size + number * blockSize)
        (Header.size + (number + 1) * blockSize) := by
  intro law
  obtain ⟨reader,started,_,_,unread,shifted,_⟩ := slippedSource_calls
  have place := law slippedSource "model" reader 1 _ (by decide) started shifted
  simp only [unread, Nat.zero_mul, Nat.zero_add, Nat.one_mul, Nat.add_zero] at place
  have first := congrArg List.head? place
  rw [List.extract_eq_take_drop, Nat.add_sub_cancel_left, slippedSource] at first
  cases first

end DocGraph
