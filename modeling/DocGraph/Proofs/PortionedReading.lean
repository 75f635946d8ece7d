import DocGraph.Proofs.FirstFault

/-! The same bytes from sources that hand them over differently. Sources that fail are not compared. -/
namespace DocGraph

namespace Reader

/-- The reader after a number of calls for the next block, also behind the end and behind faults. -/
def after (reader : Reader) : Nat → Reader
  | 0 => reader
  | calls + 1 => reader.nextBlock.2.after calls

theorem after_read {reader next : Reader} {result : Except Fault (Option Bytes)}
    (read : reader.nextBlock = (result,next)) (calls : Nat) :
    reader.after (calls + 1) = next.after calls := by
  rw [after, read]

theorem called_of_read {reader here next : Reader} {calls : Nat} {result : Except Fault (Option Bytes)}
    (same : reader.after calls = here) (read : here.nextBlock = (result,next)) :
    ((reader.after calls).blocksRead,(reader.after calls).nextBlock.1) = (here.blocksRead,result) := by
  rw [same, read]

/-- Two readers of one file that have the same bytes before them, from sources that do not fail. -/
structure Alike (reader other : Reader) : Prop where
  file : reader.file = other.file
  header : reader.header = other.header
  blocksRead : reader.blocksRead = other.blocksRead
  bytes : reader.source.bytes = other.source.bytes
  steady : reader.source.Steady
  steady' : other.source.Steady

theorem start_alike {source other : Source} (steady : source.Steady) (steady' : other.Steady)
    (same : source.bytes = other.bytes) (file : String) :
    (∃ fault, start source file = .error fault ∧ start other file = .error fault) ∨
    ∃ reader reader', start source file = .ok reader ∧ start other file = .ok reader' ∧
      reader.Alike reader' := by
  obtain ⟨later,kept,rest,filled⟩ := source.fill_steady steady Header.size
  obtain ⟨later',kept',rest',filled'⟩ := other.fill_steady steady' Header.size
  simp only [start, filled, filled', same]
  cases Header.parse file (other.bytes.take Header.size) with
  | error fault => exact .inl ⟨fault,rfl,rfl⟩
  | ok header =>
    refine .inr ⟨_,_,rfl,rfl,rfl,rfl,rfl,?_,kept,kept'⟩
    change later.bytes = later'.bytes
    rw [rest, rest', same]

namespace Alike

variable {reader other : Reader}

theorem nextBlock (alike : reader.Alike other) {result : Except Fault (Option Bytes)} {next : Reader}
    (read : reader.nextBlock = (result,next)) :
    ∃ next', other.nextBlock = (result,next') ∧ next.Alike next' := by
  obtain ⟨source,_,_,_⟩ := reader
  obtain ⟨source',file,header,blocksRead⟩ := other
  obtain ⟨rfl,rfl,rfl,bytes,steady,steady'⟩ := alike
  obtain ⟨later,kept,rest,filled⟩ := source.fill_steady steady blockSize
  obtain ⟨later',kept',rest',filled'⟩ := source'.fill_steady steady' blockSize
  have left : later.bytes = later'.bytes := by
    rw [rest, rest']
    exact congrArg (List.drop blockSize) bytes
  have same : source.bytes = source'.bytes := bytes
  simp only [Reader.nextBlock, filled, filled', same] at read ⊢
  split at read
  · rename_i ended
    cases read
    exact ⟨_,if_pos ended,rfl,rfl,rfl,left,kept,kept'⟩
  rename_i some_
  split at read
  · rename_i part
    cases read
    exact ⟨_,(if_neg some_).trans (if_pos part),rfl,rfl,rfl,left,kept,kept'⟩
  · rename_i whole
    cases read
    exact ⟨_,(if_neg some_).trans (if_neg whole),rfl,rfl,rfl,left,kept,kept'⟩

theorem after (alike : reader.Alike other) (calls : Nat) :
    (reader.after calls).Alike (other.after calls) := by
  induction calls generalizing reader other with
  | zero => exact alike
  | succ calls ih =>
    obtain ⟨next,read,later⟩ := alike.nextBlock (Prod.eta _).symm
    rw [Reader.after, Reader.after, read]
    exact ih later

theorem notices (alike : reader.Alike other) : reader.notices = other.notices := by
  simp only [Reader.notices, alike.file, alike.header]

end Alike

end Reader

theorem Loaded.build_alike {reader other : Reader} (alike : reader.Alike other) (builder : Builder)
    (number : Nat) (notices : List Notice) :
    build reader builder number notices = build other builder number notices := by
  fun_induction build reader builder number notices generalizing other with
  | case1 reader builder number notices fault next found =>
    obtain ⟨_,read,_⟩ := alike.nextBlock found
    exact (build_fault read builder number notices).symm
  | case2 reader builder number notices next found =>
    obtain ⟨_,read,_⟩ := alike.nextBlock found
    exact (build_end read builder number notices).symm
  | case3 reader builder number notices block next found _ _ fault =>
    rename_i failed
    obtain ⟨_,read,_⟩ := alike.nextBlock found
    rw [build_step read, failed]
  | case4 reader builder number notices block next found _ _ accepted =>
    rename_i ih
    obtain ⟨_,read,later⟩ := alike.nextBlock found
    rw [build_step read, accepted]
    exact ih later

/-- How a source delivers its bytes makes no difference as long as it does not fail: the header, what
every call for a block gives and the count of blocks before and behind it, and what loading comes to,
are the same as with a source that gives whatever it is asked for. -/
theorem load_in_portions {source : Source} (steady : source.Steady) (file : String) :
    let whole : Source := ⟨source.bytes,[]⟩
    let opened (reader : Reader) := (reader.file,reader.header,reader.notices)
    let called (calls : Nat) (reader : Reader) :=
      ((reader.after calls).blocksRead,(reader.after calls).nextBlock.1)
    (Reader.start source file).map opened = (Reader.start whole file).map opened ∧
    (∀ calls, (Reader.start source file).map (called calls) =
      (Reader.start whole file).map (called calls)) ∧
    load source file = load whole file := by
  intro whole opened called
  have steady' : whole.Steady := nofun
  rcases Reader.start_alike steady steady' rfl file with
    ⟨fault,failed,failed'⟩ | ⟨reader,reader',started,started',alike⟩
  · refine ⟨?_,fun calls => ?_,?_⟩
    · rw [failed, failed']
    · rw [failed, failed']
    · simp only [load, failed, failed']
  · refine ⟨?_,fun calls => ?_,?_⟩
    · simp only [started, started', Except.map, opened, alike.file, alike.header, alike.notices]
    · have later := alike.after calls
      obtain ⟨_,read,_⟩ := later.nextBlock (Prod.eta _).symm
      simp only [started, started', Except.map, called, later.blocksRead, read]
    · simp only [load, started, started', alike.notices, alike.header,
        Loaded.build_alike alike {} 0 reader'.notices]

/-- A block, one byte behind it and the end of the file, from a source that is read in pieces. -/
theorem straySource_in_portions :
    let called (calls : Nat) (reader : Reader) :=
      ((reader.after calls).blocksRead,(reader.after calls).nextBlock.1)
    straySource.Steady ∧
      (Reader.start straySource "model").map (called 0) = .ok (0,.ok (some strayBlock)) ∧
      (Reader.start straySource "model").map (called 1) =
        .ok (1,.error (.shortRead "model" blockSize 1)) ∧
      (Reader.start straySource "model").map (called 2) = .ok (1,.ok none) ∧
      load straySource "model" = load ⟨straySource.bytes,[]⟩ "model" := by
  intro called
  obtain ⟨_,calls,loaded⟩ := load_in_portions straySource_steady "model"
  let first : Reader := { source := ⟨strayBlock ++ [1],[]⟩, file := "model", header := {} }
  let second : Reader := { first with source := ⟨[1],[]⟩, blocksRead := 1 }
  let third : Reader := { second with source := ⟨[],[]⟩ }
  have started : Reader.start ⟨straySource.bytes,[]⟩ "model" = .ok first :=
    Reader.start_toBytes {} (strayBlock ++ [1]) "model"
  have whole : first.nextBlock = (.ok (some strayBlock),second) :=
    Reader.nextBlock_append rfl length_strayBlock
  have part : second.nextBlock = (.error (.shortRead "model" blockSize 1),third) := rfl
  have ended : third.nextBlock = (.ok none,third) := rfl
  have once : first.after 1 = second := Reader.after_read whole 0
  have twice : first.after 2 = third := (Reader.after_read whole 1).trans (Reader.after_read part 0)
  refine ⟨straySource_steady,?_,?_,?_,loaded⟩
  · rw [calls 0, started]
    exact congrArg Except.ok (Reader.called_of_read rfl whole)
  · rw [calls 1, started]
    exact congrArg Except.ok (Reader.called_of_read once part)
  · rw [calls 2, started]
    exact congrArg Except.ok (Reader.called_of_read twice ended)

end DocGraph
