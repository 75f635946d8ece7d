import DocGraph.Proofs.BlockCuts

/-! The builder behind a fault. A trigger without a transition leaves its group there; no other faulty record
leaves a trace in the graph. -/
namespace DocGraph

/-- Records read one behind another from the front of a block, and the bytes behind them. -/
inductive Record.Reads : Bytes → List Record → Bytes → Prop
  | done (left : Bytes) : Reads left [] left
  | record {bytes rest left : Bytes} {record : Record} {records : List Record}
      (decoded : decode bytes = .ok (record,rest)) (later : Reads rest records left) :
      Reads bytes (record :: records) left

/-- A graph after a record that is rejected. A trigger that has a place in its section and only lacks a
transition leaves its group there, without anything in it, if there was none for the name. -/
def Model.leftBy (model : Model) (reason : Rejection) : Record → Model
  | .trigger subject | .triggers subject =>
    match reason, model.findGroup? subject.group.bytes with
    | .misplaced _ _, none => { model with groups := model.groups.push { name := subject.group } }
    | .misplaced _ _, some _ | .unexpected, _ => model
  | _ => model

theorem Model.findOrAddGroup_leftBy (model : Model) (record parent : String) (subject : Qualified) :
    (model.findOrAddGroup subject.group).1 =
      model.leftBy (.misplaced record parent) (.trigger subject) := by
  simp only [findOrAddGroup, leftBy]
  cases model.findGroup? subject.group.bytes with
  | none => rfl
  | some found => rfl

namespace Builder

variable {builder : Builder} {reason : Rejection}

theorem applyOutside_rejected {record : Record}
    (rejected : (builder.applyOutside record).2 = some reason) :
    (builder.applyOutside record).1 = { builder with model := builder.model.leftBy reason record } := by
  cases record with
  | stateMachineStart | sequenceStart | apiStart | applicationStart | sample => cases rejected
  | trigger subject | triggers subject =>
    cases rejected
    rfl
  | _ => rfl

theorem changeTransition_rejected {record : Tag} (change : Transition → Transition)
    (rejected : (builder.changeTransition record change).2 = some reason) :
    (builder.changeTransition record change).1 = builder ∧
      reason = .misplaced record.label "transition" := by
  unfold changeTransition at rejected ⊢
  split at rejected
  · cases rejected
  · cases rejected
    exact ⟨rfl,rfl⟩

theorem applyTrigger_rejected {record : Tag} {subject : Qualified}
    (change : Trigger → Transition → Transition)
    (rejected : (builder.applyTrigger record subject change).2 = some reason) :
    (builder.applyTrigger record subject change).1 =
      { builder with model := builder.model.leftBy reason (.trigger subject) } := by
  obtain ⟨after,rfl⟩ := changeTransition_rejected _ rejected
  rw [← Model.findOrAddGroup_leftBy]
  exact after

theorem applyStateMachine_rejected {cursor : StateCursor} {record : Record}
    (rejected : (builder.applyStateMachine cursor record).2 = some reason) :
    (builder.applyStateMachine cursor record).1 =
      { builder with model := builder.model.leftBy reason record } := by
  cases record with
  | state | itemEnd | stateMachineEnd => cases rejected
  | transition target =>
    cases cursor with
    | idle => rfl
    | state | transition => cases rejected
  | trigger subject =>
    let change (trigger : Trigger) (transition : Transition) : Transition :=
      { transition with trigger := some trigger }
    exact applyTrigger_rejected change rejected
  | triggers subject =>
    let change (trigger : Trigger) (transition : Transition) : Transition :=
      { transition with triggers := transition.triggers.push trigger }
    exact applyTrigger_rejected change rejected
  | condition text => exact (changeTransition_rejected ({ · with condition := some text }) rejected).1
  | _ => rfl

theorem applySequence_rejected {cursor : SequenceCursor} {record : Record}
    (rejected : (builder.applySequence cursor record).2 = some reason) :
    (builder.applySequence cursor record).1 =
      { builder with model := builder.model.leftBy reason record } := by
  cases record with
  | timeline | nodeEnd | sequenceEnd => cases rejected
  | nodeStart =>
    cases cursor with
    | idle => rfl
    | timeline | node => cases rejected
  | sentMessage | condition =>
    cases cursor with
    | idle | timeline => rfl
    | node => cases rejected
  | trigger subject | triggers subject =>
    cases rejected
    rfl
  | _ => rfl

theorem changeFunction_rejected {group : GroupId} {cursor : ApiCursor} {record : Tag}
    {change : Api.Function → Api.Function}
    (rejected : (builder.changeFunction group cursor record change).2 = some reason) :
    (builder.changeFunction group cursor record change).1 = builder := by
  obtain ⟨function,type,constants⟩ := cursor
  cases function with
  | none => rfl
  | some position => cases rejected

theorem applyApi_rejected {group : GroupId} {cursor : ApiCursor} {record : Record}
    (rejected : (builder.applyApi group cursor record).2 = some reason) :
    (builder.applyApi group cursor record).1 =
      { builder with model := builder.model.leftBy reason record } := by
  cases record with
  | apiAction | apiDescription | apiParameter | apiReturns => exact changeFunction_rejected rejected
  | apiTypeField field =>
    obtain ⟨function,type,constants⟩ := cursor
    cases type with
    | none => rfl
    | some => cases rejected
  | apiConstant constant =>
    obtain ⟨function,type,constants⟩ := cursor
    cases constants with
    | none => rfl
    | some => cases rejected
  | apiFunction | apiFunctionEnd | apiTypeStart | apiTypeEnd | apiConstantsStart | apiConstantsEnd
  | itemEnd | apiEnd => cases rejected
  | trigger subject | triggers subject =>
    cases rejected
    rfl
  | _ => rfl

theorem applyApplication_rejected {position : Nat} {opened : Option Nat} {record : Record}
    (rejected : (builder.applyApplication position opened record).2 = some reason) :
    (builder.applyApplication position opened record).1 =
      { builder with model := builder.model.leftBy reason record } := by
  cases record with
  | applicationSection | applicationOption | applicationCommand | applicationSynopsis
  | applicationEnd => cases rejected
  | applicationSubSection =>
    cases opened with
    | none => rfl
    | some => cases rejected
  | trigger subject | triggers subject =>
    cases rejected
    rfl
  | _ => rfl

/-- A rejected record counts as applied, and may leave the group of a trigger. -/
theorem apply_rejected {record : Record} (rejected : (builder.apply record).2 = some reason) :
    (builder.apply record).1 =
      { builder with records := builder.records + 1, model := builder.model.leftBy reason record } := by
  obtain ⟨model,current,limits,records⟩ := builder
  unfold apply at rejected ⊢
  split at rejected
  · cases rejected
  · rename_i open_
    rw [if_neg open_]
    cases current with
    | outside => exact applyOutside_rejected rejected
    | stateMachine => exact applyStateMachine_rejected rejected
    | sequence => exact applySequence_rejected rejected
    | api => exact applyApi_rejected rejected
    | application => exact applyApplication_rejected rejected

/-- What a faulty record leaves, for a builder that comes to it: the builder behind it, and the fault. -/
inductive Leaves (before : Builder) (place : Place) (bytes : Bytes) : Builder → Fault → Prop
  /-- A record that cannot be read leaves nothing. -/
  | undecodable {cause : Undecodable} (failed : Record.decode bytes = .error cause) :
      Leaves before place bytes before (cause.fault place bytes)
  | rejected {record : Record} {rest : Bytes} {reason : Rejection}
      (decoded : Record.decode bytes = .ok (record,rest))
      (refused : (before.apply record).2 = some reason) :
      Leaves before place bytes
        { before with records := before.records + 1, model := before.model.leftBy reason record }
        ((Stop.rejected reason record bytes).fault before.mode place)

theorem addRecords_failed (builder : Builder) (notices : List Notice) (bytes : Bytes) {stop : Stop}
    (stopped : (builder.addRecords notices bytes).stop = some stop) (number length : Nat) :
    let progress := builder.addRecords notices bytes
    let place : Place := ⟨number,length - stop.bytes.length⟩
    stop.bytes ≠ [] ∧ ∃ records before, Record.Reads bytes records stop.bytes ∧
      builder.applyAll records = some before ∧
      before.Leaves place stop.bytes progress.builder (stop.fault progress.builder.mode place) := by
  have present {bytes : Bytes} (more : ¬bytes.isEmpty = true) : bytes ≠ [] := by simpa using more
  fun_induction addRecords builder notices bytes with
  | case1 => cases stopped
  | case2 builder notices bytes more cause failed =>
    cases stopped
    exact ⟨present more,[],builder,.done bytes,rfl,.undecodable failed⟩
  | case3 builder notices bytes more record rest decoded _ _ after reason rejected =>
    cases stopped
    have refused := congrArg Prod.snd rejected
    have left : after =
        { builder with records := builder.records + 1, model := builder.model.leftBy reason record } :=
      (congrArg Prod.fst rejected).symm.trans (apply_rejected refused)
    subst left
    exact ⟨present more,[],builder,.done bytes,rfl,.rejected decoded refused⟩
  | case4 builder notices bytes _ record rest decoded _ _ after accepted ih =>
    obtain ⟨present,records,before,reads,applied,leaves⟩ := ih stopped
    refine ⟨present,record :: records,before,.record decoded reads,?_,leaves⟩
    rw [applyAll, accepted]
    exact applied

/-- A block with a fault has its records applied up to the fault, and comes to no more than what a faulty
record leaves behind them. -/
theorem addBlock_failed {builder : Builder} {number : Nat} {block : Bytes} {fault : Fault}
    (failed : (builder.addBlock number block).fault = some fault) :
    ∃ records before left, Record.Reads block records left ∧ left ≠ [] ∧
      builder.applyAll records = some before ∧
      before.Leaves ⟨number,block.length - left.length⟩ left (builder.addBlock number block).builder
        fault := by
  unfold addBlock at failed ⊢
  cases stopped : (builder.addRecords [] block).stop with
  | none =>
    simp only [stopped] at failed
    cases failed
  | some stop =>
    simp only [stopped] at failed ⊢
    cases failed
    obtain ⟨present,records,before,reads,applied,leaves⟩ :=
      addRecords_failed builder [] block stopped number block.length
    exact ⟨records,before,stop.bytes,reads,present,applied,leaves⟩

end Builder

/-- The section of the state machine `g` and, without a transition, a trigger of the group `h`. -/
def spare : List Record := [.stateMachineStart ⟨[103],false⟩, .trigger ⟨⟨[104],false⟩,⟨[110],false⟩⟩]

def spareBlock : Bytes := [8,0,0,1,103,0,1,104,1,110]

theorem holds_spareBlock : Holds spare spareBlock := by
  have all : Holds spare ([8,0,0,1,103] ++ ([0,1,104,1,110] ++ [])) :=
    .record nofun rfl (.record nofun rfl .full)
  exact all

/-- The trigger is rejected, and its group stays. -/
theorem spare_group_left :
    let result := Builder.addBlock {} 0 spareBlock
    ∃ fault, result.fault = some fault ∧
      (∃ records before left, Record.Reads spareBlock records left ∧ left ≠ [] ∧
        Builder.applyAll {} records = some before ∧
        before.Leaves ⟨0,spareBlock.length - left.length⟩ left result.builder fault) ∧
      (∃ place, fault = .missingContext "TRIGGER" "transition" place) ∧
      result.builder.model.groups.map (·.name.bytes) = #[[],[103],[104]] ∧
      result.builder.records = 2 := by
  intro result
  obtain ⟨place,left,same⟩ := Builder.addBlock_holds holds_spareBlock {} 0
  have failed : result.fault = some (.missingContext "TRIGGER" "transition" place) :=
    congrArg BlockResult.fault same
  have after : result.builder = (Builder.run {} (spare.map Record.plain)).builder :=
    congrArg BlockResult.builder same
  refine ⟨_,failed,Builder.addBlock_failed failed,⟨place,rfl⟩,?_⟩
  rw [after]
  decide +kernel

/-- A trigger of the group `g` where no section is open. -/
def outcast : Record := .trigger ⟨⟨[103],false⟩,⟨[110],false⟩⟩

def outcastBlock : Bytes := [0,1,103,1,110]

theorem holds_outcastBlock : Holds [outcast] outcastBlock := by
  have all : Holds [outcast] ([0,1,103,1,110] ++ []) := .record nofun rfl .full
  exact all

/-- No group has the name of the trigger, before it is rejected and after. -/
theorem outcast_leaves_no_group :
    let result := Builder.addBlock {} 0 outcastBlock
    (∃ place dump, result.fault = some (.unexpectedRecord .topLevel 0 place dump)) ∧
      Model.findGroup? {} [103] = none ∧ result.builder = { records := 1 } ∧
      result.builder.model ≠ { groups := #[{ name := default },{ name := ⟨[103],false⟩ }] } := by
  intro result
  obtain ⟨place,left,same⟩ := Builder.addBlock_holds holds_outcastBlock {} 0
  have failed : result.fault = some (.unexpectedRecord .topLevel 0 place (HexDump.render left)) :=
    congrArg BlockResult.fault same
  have after : result.builder = { records := 1 } := congrArg BlockResult.builder same
  refine ⟨⟨_,_,failed⟩,by decide +kernel,after,?_⟩
  rw [after]
  decide +kernel

end DocGraph
