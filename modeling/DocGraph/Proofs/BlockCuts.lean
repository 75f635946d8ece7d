import DocGraph.Proofs.RecordRun

/-! Blocks read as one run of their records. The place of a fault and the bytes shown there do depend on the
cut. -/
namespace DocGraph

/-- A block that holds the encodings of records, and nothing behind them or an end mark and anything. -/
inductive Holds : List Record → Bytes → Prop
  | full : Holds [] []
  | closed (padding : Bytes) : Holds [] (Tag.blockEnd.byte :: padding)
  | record {record : Record} {bytes : Bytes} {records : List Record} {rest : Bytes}
      (open_ : record ≠ .blockEnd) (encoded : record.encode = .ok bytes) (later : Holds records rest) :
      Holds (record :: records) (bytes ++ rest)

/-- Numbered blocks that hold records between them, in order. A block may hold none. -/
inductive CutInto : List Record → List (Nat × Bytes) → Prop
  | done : CutInto [] []
  | block {records later : List Record} {block : Bytes} {blocks : List (Nat × Bytes)} (number : Nat)
      (holds : Holds records block) (rest : CutInto later blocks) :
      CutInto (records ++ later) ((number,block) :: blocks)

/-- The same fault at another place, with other bytes. -/
def Fault.relocate (place : Place) (dump : String) : Fault → Fault
  | unknownRecord tag _ _ => .unknownRecord tag place dump
  | malformedRecord tag _ _ => .malformedRecord tag place dump
  | unexpectedRecord mode tag _ _ => .unexpectedRecord mode tag place dump
  | missingContext record parent _ => .missingContext record parent place
  | fault => fault

def Notice.relocate (place : Place) (dump : String) : Notice → Notice
  | undecodableRecord fault => .undecodableRecord (fault.relocate place dump)
  | rejectedRecord mode record _ _ => .rejectedRecord mode record place dump
  | notice => notice

/-- What the records of a run come to: the builder behind them, or behind the first that is rejected. -/
structure Run where
  builder : Builder
  notices : List Notice
  rejected : Option (Rejection × Record)

/-- The result of a run whose records stand in blocks. A rejected record is found at the place, with the
bytes of its block from there on. -/
def Run.result (run : Run) (place : Place) (left : Bytes) : BlockResult :=
  match run.rejected with
  | none => { builder := run.builder, notices := run.notices, fault := none }
  | some (reason,record) =>
    let stop : Stop := .rejected reason record left
    let mode := run.builder.mode
    { builder := run.builder
      notices := run.notices ++ [stop.notice mode place]
      fault := some (stop.fault mode place) }

namespace Builder

def addBlocks (builder : Builder) : List (Nat × Bytes) → BlockResult
  | [] => { builder, notices := [], fault := none }
  | (number,block) :: rest =>
    let first := builder.addBlock number block
    match first.fault with
    | some _ => first
    | none =>
      let later := first.builder.addBlocks rest
      { later with notices := first.notices ++ later.notices }

def run (builder : Builder) : List Record → Run
  | [] => { builder, notices := [], rejected := none }
  | record :: rest =>
    match builder.apply record with
    | (after,some reason) =>
      { builder := after, notices := builder.notices record, rejected := some (reason,record) }
    | (after,none) =>
      let later := after.run rest
      { later with notices := builder.notices record ++ later.notices }

variable {builder : Builder} {records : List Record}

theorem run_accepted {record : Record} {after : Builder} (applied : builder.apply record = (after,none))
    (rest : List Record) : builder.run (record :: rest) =
      { after.run rest with notices := builder.notices record ++ (after.run rest).notices } := by
  simp only [run, applied]

theorem run_rejected {record : Record} {after : Builder} {reason : Rejection}
    (applied : builder.apply record = (after,some reason)) (rest : List Record) :
    builder.run (record :: rest) =
      { builder := after, notices := builder.notices record, rejected := some (reason,record) } := by
  simp only [run, applied]

theorem run_append (builder : Builder) (earlier later : List Record) :
    builder.run (earlier ++ later) =
      match (builder.run earlier).rejected with
      | some _ => builder.run earlier
      | none =>
        let rest := (builder.run earlier).builder.run later
        { rest with notices := (builder.run earlier).notices ++ rest.notices } := by
  induction earlier generalizing builder with
  | nil => simp [run]
  | cons record earlier ih =>
    rw [List.cons_append]
    rcases applied : builder.apply record with ⟨after,_ | reason⟩
    · rw [run_accepted applied, run_accepted applied, ih]
      cases (after.run earlier).rejected with
      | none => simp
      | some rejected => rfl
    · rw [run_rejected applied, run_rejected applied]

theorem addRecords_closed (builder : Builder) (notices : List Notice) (padding : Bytes) :
    builder.addRecords notices (Tag.blockEnd.byte :: padding) = { builder, notices, stop := none } := by
  have silent : builder.notices .blockEnd = [] := by
    unfold Builder.notices
    split <;> simp_all
  rw [addRecords_decoded (Record.decode_blockEnd padding)]
  simp only [apply, if_true, accept, addRecords_nil, silent, List.append_nil]

/-- The bytes of a block are read as its records, and what is behind them is not read. -/
theorem addRecords_holds {block : Bytes} (holds : Holds records block) (builder : Builder)
    (notices : List Notice) :
    let run := builder.run (records.map Record.plain)
    ∃ left, builder.addRecords notices block =
      { builder := run.builder, notices := notices ++ run.notices
        stop := run.rejected.map fun rejected => .rejected rejected.1 rejected.2 left } := by
  induction holds generalizing builder notices with
  | full => exact ⟨[],by simp [addRecords_nil,run]⟩
  | closed padding => exact ⟨[],by simp [addRecords_closed,run]⟩
  | @record record bytes records rest open_ encoded _ ih =>
    rw [addRecords_decoded (Record.decode_encode encoded open_ rest), List.map_cons]
    rcases applied : builder.apply record.plain with ⟨after,_ | reason⟩
    · obtain ⟨left,same⟩ := ih after (notices ++ builder.notices record.plain)
      rw [run_accepted applied]
      exact ⟨left,by simpa only [List.append_assoc] using same⟩
    · rw [run_rejected applied]
      exact ⟨bytes ++ rest,rfl⟩

theorem addBlock_holds {block : Bytes} (holds : Holds records block) (builder : Builder) (number : Nat) :
    ∃ place left, builder.addBlock number block =
      (builder.run (records.map Record.plain)).result place left := by
  obtain ⟨left,same⟩ := addRecords_holds holds builder []
  refine ⟨⟨number,block.length - left.length⟩,left,?_⟩
  simp only [addBlock, same, List.nil_append, Run.result]
  cases (builder.run (records.map Record.plain)).rejected with
  | none => rfl
  | some rejected => rfl

theorem addBlocks_cut {blocks : List (Nat × Bytes)} (cut : CutInto records blocks) (builder : Builder) :
    ∃ place left, builder.addBlocks blocks =
      (builder.run (records.map Record.plain)).result place left := by
  induction cut generalizing builder with
  | done => exact ⟨⟨0,0⟩,[],rfl⟩
  | @block records later block blocks number holds _ ih =>
    obtain ⟨place,left,first⟩ := addBlock_holds holds builder number
    rw [List.map_append, run_append, addBlocks, first]
    cases stopped : (builder.run (records.map Record.plain)).rejected with
    | some rejected =>
      refine ⟨place,left,?_⟩
      simp only [Run.result, stopped]
    | none =>
      obtain ⟨place,left,rest⟩ := ih (builder.run (records.map Record.plain)).builder
      refine ⟨place,left,?_⟩
      simp only [Run.result, stopped] at rest ⊢
      rw [rest]
      split <;> simp

/-- What is said about records that are applied has no place. -/
theorem relocate_notices (place : Place) (dump : String) (builder : Builder) (record : Record) :
    (builder.notices record).map (Notice.relocate place dump) = builder.notices record := by
  unfold Builder.notices
  split
  · split
    · rfl
    · simp [Function.comp_def,Notice.relocate]
  · rfl

theorem relocate_run (place : Place) (dump : String) (builder : Builder) (records : List Record) :
    (builder.run records).notices.map (Notice.relocate place dump) = (builder.run records).notices := by
  induction records generalizing builder with
  | nil => rfl
  | cons record records ih =>
    simp only [run]
    split
    · exact relocate_notices place dump builder record
    · simp [relocate_notices,ih]

end Builder

theorem Stop.relocate_rejected (reason : Rejection) (record : Record) (left left' : Bytes) (mode : Mode)
    (place place' : Place) :
    let stop : Stop := .rejected reason record left
    let other : Stop := .rejected reason record left'
    other.fault mode place' = (stop.fault mode place).relocate place' (HexDump.render left') ∧
      other.notice mode place' = (stop.notice mode place).relocate place' (HexDump.render left') := by
  cases reason with
  | unexpected => exact ⟨rfl,rfl⟩
  | misplaced => exact ⟨rfl,rfl⟩

/-- How records are cut into blocks does not matter. With any two cuts a builder comes to the same
state, is stopped or not, and is stopped for the same reason; what it says differs in the place of the
record that is rejected and in the bytes from there on. -/
theorem Builder.addBlocks_of_cuts (builder : Builder) {records : List Record}
    {blocks blocks' : List (Nat × Bytes)} (cut : CutInto records blocks)
    (cut' : CutInto records blocks') :
    let result := builder.addBlocks blocks
    let result' := builder.addBlocks blocks'
    result'.builder = result.builder ∧
      ∃ place dump, result'.fault = result.fault.map (Fault.relocate place dump) ∧
        result'.notices = result.notices.map (Notice.relocate place dump) := by
  intro result result'
  obtain ⟨place,left,first⟩ := addBlocks_cut cut builder
  obtain ⟨place',left',second⟩ := addBlocks_cut cut' builder
  have kept := relocate_run place' (HexDump.render left') builder (records.map Record.plain)
  simp only [result, result', first, second, Run.result]
  cases stopped : (builder.run (records.map Record.plain)).rejected with
  | none => exact ⟨rfl,place',HexDump.render left',rfl,kept.symm⟩
  | some rejected =>
    obtain ⟨reason,record⟩ := rejected
    obtain ⟨fault,notice⟩ := Stop.relocate_rejected reason record left left'
      (builder.run (records.map Record.plain)).builder.mode place place'
    refine ⟨rfl,place',HexDump.render left',?_,?_⟩
    · simp [fault]
    · simp [kept,notice]

/-- A state machine ends in a section with an open node. -/
def mixed : List Record :=
  [.sequenceStart ⟨[103],false⟩, .timeline ⟨⟨[103],false⟩,⟨[65],false⟩⟩, .nodeStart 1 0, .stateMachineEnd]

def mixedWhole : List (Nat × Bytes) :=
  [(0,[12,0,0,1,103,13,1,103,1,65,17,0,1,0,0,0,0,11])]

/-- The node is open across the end of a block, what stands behind end marks reads like records, and one
block has no record. -/
def mixedParts : List (Nat × Bytes) :=
  [(4,[12,0,0,1,103,13,1,103,1,65,17,0,1,0,0,0,0,6,18]), (5,[6,11,16]), (2,[11,6])]

theorem cutInto_mixedWhole : CutInto mixed mixedWhole := by
  have all : Holds mixed ([12,0,0,1,103] ++ ([13,1,103,1,65] ++ ([17,0,1,0,0,0,0] ++ ([11] ++ [])))) :=
    .record nofun rfl (.record nofun rfl (.record nofun rfl (.record nofun rfl .full)))
  exact .block 0 all .done

theorem cutInto_mixedParts : CutInto mixed mixedParts := by
  have front : Holds (mixed.take 3)
      ([12,0,0,1,103] ++ ([13,1,103,1,65] ++ ([17,0,1,0,0,0,0] ++ Tag.blockEnd.byte :: [18]))) :=
    .record nofun rfl (.record nofun rfl (.record nofun rfl (.closed [18])))
  have back : Holds [.stateMachineEnd] ([11] ++ Tag.blockEnd.byte :: []) := .record nofun rfl (.closed [])
  exact .block 4 front (.block 5 (.closed [11,16]) (.block 2 back .done))

/-- Both cuts are stopped by the end of the state machine, and leave the same behind. -/
theorem mixed_stopped :
    let whole := Builder.addBlocks {} mixedWhole
    let parts := Builder.addBlocks {} mixedParts
    CutInto mixed mixedWhole ∧ CutInto mixed mixedParts ∧ parts.builder = whole.builder ∧
      parts.builder.records = 4 ∧
      (∃ place dump, whole.fault = some (.unexpectedRecord .sequence 11 place dump)) ∧
      ∃ place dump, parts.fault = some (.unexpectedRecord .sequence 11 place dump) := by
  intro whole parts
  obtain ⟨same,place,dump,fault,_⟩ :=
    Builder.addBlocks_of_cuts {} cutInto_mixedWhole cutInto_mixedParts
  obtain ⟨place',left,alone⟩ := Builder.addBlocks_cut cutInto_mixedWhole {}
  have here : whole.fault = some (.unexpectedRecord .sequence 11 place' (HexDump.render left)) :=
    congrArg BlockResult.fault alone
  refine ⟨cutInto_mixedWhole,cutInto_mixedParts,same,?_,⟨_,_,here⟩,place,dump,?_⟩
  · exact (congrArg Builder.records same).trans (congrArg (·.builder.records) alone)
  · exact fault.trans (congrArg (Option.map _) here)

end DocGraph
