import DocGraph.Proofs.GraphChanges

/-! Verdicts on records by the kind of the open section and the parents that are open in it. What an accepted
record does to the graph does not enter. -/
namespace DocGraph

/-- The kind of a section and the parents that are open in it. -/
inductive Stage
  | outside
  | stateMachine (state transition : Bool)
  | sequence (timeline node : Bool)
  | api (function type constants : Bool)
  | application (opened : Bool)
  deriving DecidableEq, Repr

namespace Stage

/-- The stage after a record, and why the record is rejected if it is. -/
abbrev Verdict := Stage × Option Rejection

def accept (stage : Stage) : Verdict := (stage,none)

def reject (stage : Stage) : Verdict := (stage,some .unexpected)

/-- A record that needs an open parent; `next` is the stage after it. -/
def require (stage : Stage) (present : Bool) (tag : Tag) (parent : String) (next : Stage) : Verdict :=
  if present then accept next else (stage,some (.misplaced tag.label parent))

def step (stage : Stage) (tag : Tag) : Verdict :=
  if tag = .blockEnd then accept stage
  else match stage with
  | outside =>
    match tag with
    | .stateMachineStart => accept (stateMachine false false)
    | .sequenceStart => accept (sequence false false)
    | .apiStart => accept (api false false false)
    | .applicationStart => accept (application false)
    | .sample => accept outside
    | _ => reject stage
  | stateMachine state transition =>
    match tag with
    | .state => accept (stateMachine true false)
    | .transition => require stage state tag "state" (stateMachine true true)
    | .trigger | .triggers | .condition => require stage transition tag "transition" stage
    | .itemEnd => accept (stateMachine false false)
    | .stateMachineEnd => accept outside
    | _ => reject stage
  | sequence timeline node =>
    match tag with
    | .timeline => accept (sequence true false)
    | .nodeStart => require stage timeline tag "timeline" (sequence true true)
    | .sentMessage | .condition => require stage node tag "node" stage
    | .nodeEnd => accept (sequence timeline false)
    | .sequenceEnd => accept outside
    | _ => reject stage
  | api function type constants =>
    match tag with
    | .apiFunction => accept (api true type constants)
    | .apiAction | .apiDescription | .apiParameter | .apiReturns =>
      require stage function tag "function" stage
    | .apiFunctionEnd => accept (api false type constants)
    | .apiTypeStart => accept (api function true constants)
    | .apiTypeField => require stage type tag "type" stage
    | .apiTypeEnd => accept (api function false constants)
    | .apiConstantsStart => accept (api function type true)
    | .apiConstant => require stage constants tag "constants group" stage
    | .apiConstantsEnd => accept (api function type false)
    | .itemEnd => accept stage
    | .apiEnd => accept outside
    | _ => reject stage
  | application opened =>
    match tag with
    | .applicationSection => accept (application true)
    | .applicationSubSection => require stage opened tag "section" stage
    | .applicationOption | .applicationCommand | .applicationSynopsis => accept stage
    | .applicationEnd => accept outside
    | _ => reject stage

theorem require_rejected {stage next : Stage} {present : Bool} {tag : Tag} {parent : String}
    {reason : Rejection} (rejected : (stage.require present tag parent next).2 = some reason) :
    (stage.require present tag parent next).1 = stage := by
  unfold require at rejected ⊢
  split at rejected
  · cases rejected
  · rename_i absent
    rw [if_neg absent]

/-- A record that is rejected leaves the stage as it was. -/
theorem step_rejected {stage : Stage} {tag : Tag} {reason : Rejection}
    (rejected : (stage.step tag).2 = some reason) : (stage.step tag).1 = stage := by
  cases stage <;> cases tag <;> first
    | rfl
    | exact require_rejected rejected
    | exact absurd rejected (Option.some_ne_none reason).symm

end Stage

namespace Section

def stage : Section → Stage
  | outside => .outside
  | stateMachine .idle => .stateMachine false false
  | stateMachine (.state _) => .stateMachine true false
  | stateMachine (.transition _ _) => .stateMachine true true
  | sequence .idle => .sequence false false
  | sequence (.timeline _) => .sequence true false
  | sequence (.node _ _) => .sequence true true
  | api _ cursor => .api cursor.function.isSome cursor.type.isSome cursor.constants.isSome
  | application _ opened => .application opened.isSome

end Section

namespace Builder

variable {builder : Builder}

/-- The verdict of a builder, as a verdict on its stage. -/
def verdict (applied : Applied) : Stage.Verdict := (applied.1.current.stage,applied.2)

theorem verdict_accept {current : Section} (inside : builder.current = current) :
    verdict builder.accept = (current.stage,none) := by
  rw [verdict, accept, inside]

theorem verdict_reject {current : Section} (inside : builder.current = current) (reason : Rejection) :
    verdict (builder.reject reason) = (current.stage,some reason) := by
  rw [verdict, reject, inside]

theorem applyOutside_verdict (outside : builder.current = .outside) (record : Record)
    (open_ : record ≠ .blockEnd) :
    verdict (builder.applyOutside record) = Stage.step .outside record.tag := by
  cases record with
  | blockEnd => exact absurd rfl open_
  | stateMachineStart | sequenceStart | apiStart | applicationStart => rfl
  | sample => exact verdict_accept outside
  | _ => exact verdict_reject outside .unexpected

theorem changeTransition_verdict {cursor : StateCursor} (inside : builder.current = .stateMachine cursor)
    (record : Tag) (change : Transition → Transition) :
    let stage := (Section.stateMachine cursor).stage
    verdict (builder.changeTransition record change) =
      stage.require (stage = .stateMachine true true) record "transition" stage := by
  cases cursor with
  | idle | state =>
    simp only [changeTransition, inside]
    exact verdict_reject inside _
  | transition =>
    simp only [changeTransition, inside]
    exact verdict_accept rfl

theorem applyStateMachine_verdict {cursor : StateCursor}
    (inside : builder.current = .stateMachine cursor) (record : Record) (open_ : record ≠ .blockEnd) :
    verdict (builder.applyStateMachine cursor record) =
      (Section.stateMachine cursor).stage.step record.tag := by
  cases record with
  | blockEnd => exact absurd rfl open_
  | state => cases cursor <;> rfl
  | transition =>
    cases cursor with
    | idle => exact verdict_reject inside _
    | state | transition => rfl
  | trigger subject | triggers subject =>
    let grouped : Builder :=
      { builder with model := (builder.model.findOrAddGroup subject.group).1 }
    have same : grouped.current = .stateMachine cursor := inside
    refine (changeTransition_verdict same _ _).trans ?_
    cases cursor <;> rfl
  | condition text =>
    refine (changeTransition_verdict inside _ _).trans ?_
    cases cursor <;> rfl
  | itemEnd | stateMachineEnd => cases cursor <;> rfl
  | _ => cases cursor <;> exact verdict_reject inside .unexpected

theorem applySequence_verdict {cursor : SequenceCursor}
    (inside : builder.current = .sequence cursor) (record : Record) (open_ : record ≠ .blockEnd) :
    verdict (builder.applySequence cursor record) =
      (Section.sequence cursor).stage.step record.tag := by
  cases record with
  | blockEnd => exact absurd rfl open_
  | timeline | nodeEnd | sequenceEnd => cases cursor <;> rfl
  | nodeStart =>
    cases cursor with
    | idle => exact verdict_reject inside _
    | timeline | node => rfl
  | sentMessage | condition =>
    cases cursor with
    | idle | timeline => exact verdict_reject inside _
    | node => exact verdict_accept inside
  | _ => cases cursor <;> exact verdict_reject inside .unexpected

theorem applyApi_verdict {group : GroupId} {cursor : ApiCursor}
    (inside : builder.current = .api group cursor) (record : Record) (open_ : record ≠ .blockEnd) :
    verdict (builder.applyApi group cursor record) =
      (Section.api group cursor).stage.step record.tag := by
  obtain ⟨function,type,constants⟩ := cursor
  cases record with
  | blockEnd => exact absurd rfl open_
  | apiAction | apiDescription | apiParameter | apiReturns =>
    cases function with
    | none => exact verdict_reject inside _
    | some => exact verdict_accept inside
  | apiTypeField =>
    cases type with
    | none => exact verdict_reject inside _
    | some => rfl
  | apiConstant =>
    cases constants with
    | none => exact verdict_reject inside _
    | some => rfl
  | apiFunction | apiFunctionEnd | apiTypeStart | apiTypeEnd | apiConstantsStart | apiConstantsEnd
  | apiEnd => rfl
  | itemEnd => exact verdict_accept inside
  | _ => exact verdict_reject inside .unexpected

theorem applyApplication_verdict (sound : builder.Sound) {position : Nat} {opened : Option Nat}
    (inside : builder.current = .application position opened) (record : Record)
    (open_ : record ≠ .blockEnd) :
    verdict (builder.applyApplication position opened record) =
      (Section.application position opened).stage.step record.tag := by
  cases record with
  | blockEnd => exact absurd rfl open_
  | applicationSection content =>
    have present : (application? builder.model position).isSome := by
      have within := sound.within
      rwa [inside] at within
    refine (verdict_accept rfl).trans ?_
    rw [Section.stage, Option.isSome_map, present]
    rfl
  | applicationSubSection content =>
    cases opened with
    | none => exact verdict_reject inside _
    | some => exact verdict_accept inside
  | applicationOption | applicationCommand | applicationSynopsis => exact verdict_accept inside
  | applicationEnd => rfl
  | _ => exact verdict_reject inside .unexpected

/-- The verdict on a record depends on the stage and the tag only. -/
theorem apply_verdict (sound : builder.Sound) (record : Record) :
    verdict (builder.apply record) = builder.current.stage.step record.tag := by
  by_cases padding : record = .blockEnd
  · subst padding
    simp only [apply, if_true, verdict, accept, Record.tag]
    rfl
  · obtain ⟨model,current,limits,records⟩ := builder
    simp only [apply, if_neg padding]
    cases current with
    | outside => exact applyOutside_verdict rfl record padding
    | stateMachine cursor => exact applyStateMachine_verdict rfl record padding
    | sequence cursor => exact applySequence_verdict rfl record padding
    | api group cursor => exact applyApi_verdict rfl record padding
    | application position opened =>
      refine applyApplication_verdict ?_ rfl record padding
      exact ⟨sound.document,sound.within⟩

end Builder

end DocGraph
