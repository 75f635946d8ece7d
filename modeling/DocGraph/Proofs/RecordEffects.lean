import DocGraph.Proofs.SectionParts

/-! One record, accepted or not, has one effect on the items of a graph at most. Groups may be added besides. -/
namespace DocGraph

namespace Section

def state? : Section → Option StateId
  | stateMachine cursor => cursor.state?
  | _ => none

def timeline? : Section → Option TimelineId
  | sequence cursor => cursor.timeline?
  | _ => none

def node? : Section → Option NodeId
  | sequence (.node _ id) => some id
  | _ => none

/-- The one thing that a record does to the items of a graph, while a section is open, and what becomes of
the limits. -/
inductive Effect (current : Section) (model : Model) (limits : Limits) : Model → Limits → Prop
  | none : Effect current model limits model limits
  | state (group : GroupId) (name : Name) (id : UInt16) :
      Effect current model limits (model.addState group name id).1
        { limits with state := max limits.state id }
  | transitions (id : StateId) (opened : current.state? = some id)
      (change : Array Transition → Array Transition) :
      Effect current model limits
        (model.modifyState id fun state => { state with transitions := change state.transitions }) limits
  | timeline (group : GroupId) (name : Name) :
      Effect current model limits (model.addTimeline group name).1 limits
  | node (line : TimelineId) (opened : current.timeline? = some line) (id : UInt16) (flags : Flags) :
      Effect current model limits (model.addNode line id flags).1
        { limits with node := max limits.node id }
  | message (sender : NodeId) (opened : current.node? = some sender) (sending : Sending) :
      Effect current model limits
        (model.addMessage sender sending.sender sending.receiver sending.timeline sending.message).1
        limits
  | condition (id : NodeId) (opened : current.node? = some id) (text : Name) :
      Effect current model limits (model.modifyNode id ({ · with condition := some text })) limits

end Section

/-- A view of the items of an arena that does not change, except that more are added behind them. -/
def Keeps (view : α → β) (before after : Array α) : Prop :=
  before.toList.map view <+: after.toList.map view

namespace Keeps

variable {view : α → β} {first second third : Array α}

theorem refl (view : α → β) (items : Array α) : Keeps view items items := List.prefix_rfl

theorem trans (earlier : Keeps view first second) (later : Keeps view second third) :
    Keeps view first third :=
  List.IsPrefix.trans earlier later

theorem push (items : Array α) (item : α) : Keeps view items (items.push item) := by
  rw [Keeps, Array.toList_push, List.map_append]
  exact List.prefix_append ..

theorem modify {change : α → α} (same : ∀ item, view (change item) = view item) (items : Array α)
    (index : Nat) : Keeps view items (items.modify index change) :=
  ⟨[],by rw [List.append_nil, toList_map_modify same]⟩

end Keeps

namespace Model

/-- Groups may have been added, and what they list may have changed, but each has its name and its place.
Nothing else has changed. -/
structure Regrouped (before after : Model) : Prop where
  states : after.states = before.states
  timelines : after.timelines = before.timelines
  nodes : after.nodes = before.nodes
  messages : after.messages = before.messages
  groups : Keeps Group.name before.groups after.groups

theorem Regrouped.refl (model : Model) : Regrouped model model :=
  ⟨rfl,rfl,rfl,rfl,.refl _ _⟩

theorem regrouped_modifyGroup (model : Model) (id : GroupId) {change : Group → Group}
    (keeps : ∀ group, (change group).name = group.name) : Regrouped model (model.modifyGroup id change) :=
  ⟨rfl,rfl,rfl,rfl,.modify keeps ..⟩

theorem regrouped_findOrAddGroup (model : Model) (name : Name) :
    Regrouped model (model.findOrAddGroup name).1 := by
  unfold findOrAddGroup
  split
  · exact .refl model
  · exact ⟨rfl,rfl,rfl,rfl,.push ..⟩

theorem states_addNode (model : Model) (line : TimelineId) (id : UInt16) (flags : Flags) :
    (model.addNode line id flags).1.states = model.states := by
  simp only [addNode]
  split
  · rfl
  · rfl

end Model

namespace Builder

theorem regrouped_findOrAddApplication (model : Model) (name : Name) :
    model.Regrouped (findOrAddApplication model name).1 := by
  simp only [findOrAddApplication]
  split
  · exact .refl model
  · exact Model.regrouped_modifyGroup model Model.root fun _ => rfl

/-- What a record may leave behind. -/
def Effected (before after : Builder) : Prop :=
  ∃ model, before.model.Regrouped model ∧
    before.current.Effect model before.limits after.model after.limits

variable {builder after : Builder}

theorem effected_unmoved (model : after.model = builder.model) (limits : after.limits = builder.limits) :
    builder.Effected after := by
  refine ⟨builder.model,.refl _,?_⟩
  rw [model, limits]
  exact .none

theorem effected_regrouped (regrouped : builder.model.Regrouped after.model)
    (limits : after.limits = builder.limits) : builder.Effected after := by
  refine ⟨after.model,regrouped,?_⟩
  rw [limits]
  exact .none

theorem effected_outside (builder : Builder) (record : Record) :
    builder.Effected (builder.applyOutside record).1 := by
  cases record with
  | stateMachineStart name | sequenceStart name | apiStart name =>
    exact effected_regrouped (Model.regrouped_findOrAddGroup builder.model name) rfl
  | applicationStart name =>
    exact effected_regrouped (regrouped_findOrAddApplication builder.model name) rfl
  | sample sample =>
    exact effected_regrouped (Model.regrouped_modifyGroup builder.model Model.root fun _ => rfl) rfl
  | _ => exact effected_unmoved rfl rfl

/-- The open transition is one of the open state. -/
theorem effect_changeTransition (builder : Builder) (record : Tag) (change : Transition → Transition) :
    let after := (builder.changeTransition record change).1
    builder.current.Effect builder.model builder.limits after.model after.limits := by
  unfold changeTransition
  split
  · rename_i state position inside
    exact .transitions state (congrArg Section.state? inside) (·.modify position change)
  · exact .none

theorem effected_applyTrigger (builder : Builder) (record : Tag) (subject : Qualified)
    (change : Trigger → Transition → Transition) :
    builder.Effected (builder.applyTrigger record subject change).1 := by
  let found := builder.model.findOrAddGroup subject.group
  have effect := effect_changeTransition { builder with model := found.1 } record
    (change ⟨found.2,subject.name⟩)
  exact ⟨found.1,Model.regrouped_findOrAddGroup builder.model subject.group,effect⟩

theorem effected_stateMachine {cursor : StateCursor} (inside : builder.current = .stateMachine cursor)
    (record : Record) : builder.Effected (builder.applyStateMachine cursor record).1 := by
  cases record with
  | state id subject =>
    exact ⟨_,Model.regrouped_findOrAddGroup builder.model subject.group,.state _ subject.name id⟩
  | transition target =>
    cases cursor with
    | idle => exact effected_unmoved rfl rfl
    | state id | transition id =>
      have opened : builder.current.state? = some id := congrArg Section.state? inside
      exact ⟨_,.refl _,.transitions id opened (·.push (.to target))⟩
  | trigger subject =>
    exact effected_applyTrigger builder .trigger subject
      fun trigger transition => { transition with trigger := some trigger }
  | triggers subject =>
    exact effected_applyTrigger builder .triggers subject
      fun trigger transition => { transition with triggers := transition.triggers.push trigger }
  | condition text =>
    have effect := effect_changeTransition builder .condition ({ · with condition := some text })
    exact ⟨_,.refl _,effect⟩
  | _ => exact effected_unmoved rfl rfl

theorem effected_sequence {cursor : SequenceCursor} (inside : builder.current = .sequence cursor)
    (record : Record) : builder.Effected (builder.applySequence cursor record).1 := by
  cases record with
  | timeline subject =>
    exact ⟨_,Model.regrouped_findOrAddGroup builder.model subject.group,.timeline _ subject.name⟩
  | nodeStart id flags =>
    cases cursor with
    | idle => exact effected_unmoved rfl rfl
    | timeline line | node line =>
      have opened : builder.current.timeline? = some line := congrArg Section.timeline? inside
      exact ⟨_,.refl _,.node line opened id ⟨flags⟩⟩
  | sentMessage sending =>
    cases cursor with
    | idle | timeline => exact effected_unmoved rfl rfl
    | node line sender =>
      have opened : builder.current.node? = some sender := congrArg Section.node? inside
      exact ⟨_,.refl _,.message sender opened sending⟩
  | condition text =>
    cases cursor with
    | idle | timeline => exact effected_unmoved rfl rfl
    | node line id =>
      have opened : builder.current.node? = some id := congrArg Section.node? inside
      exact ⟨_,.refl _,.condition id opened text⟩
  | _ => exact effected_unmoved rfl rfl

theorem effected_api (builder : Builder) (group : GroupId) (cursor : ApiCursor) (record : Record) :
    builder.Effected (builder.applyApi group cursor record).1 := by
  have change (change : Api → Api) (current : Section) :
      builder.Effected { builder with model := changeApi builder.model group change, current } :=
    effected_regrouped (Model.regrouped_modifyGroup builder.model group fun _ => rfl) rfl
  obtain ⟨function,type,constants⟩ := cursor
  cases record with
  | apiFunction | apiTypeStart | apiConstantsStart => exact change _ _
  | apiTypeField =>
    cases type with
    | none => exact effected_unmoved rfl rfl
    | some position => exact change _ _
  | apiConstant =>
    cases constants with
    | none => exact effected_unmoved rfl rfl
    | some position => exact change _ _
  | apiAction | apiDescription | apiParameter | apiReturns =>
    cases function with
    | none => exact effected_unmoved rfl rfl
    | some position => exact change _ _
  | _ => exact effected_unmoved rfl rfl

theorem effected_application (builder : Builder) (position : Nat) (opened : Option Nat)
    (record : Record) : builder.Effected (builder.applyApplication position opened record).1 := by
  have change (change : Application → Application) (current : Section) : builder.Effected
      { builder with model := changeApplication builder.model position change, current } :=
    effected_regrouped (Model.regrouped_modifyGroup builder.model Model.root fun _ => rfl) rfl
  cases record with
  | applicationSection | applicationOption | applicationCommand | applicationSynopsis =>
    exact change _ _
  | applicationSubSection =>
    cases opened with
    | none => exact effected_unmoved rfl rfl
    | some parent => exact change _ _
  | _ => exact effected_unmoved rfl rfl

/-- Every record regroups the graph and has one effect on its items, rejected or not. -/
theorem apply_effected (builder : Builder) (record : Record) :
    builder.Effected (builder.apply record).1 := by
  unfold apply
  split
  · exact effected_unmoved rfl rfl
  · obtain ⟨model,current,limits,records⟩ := builder
    suffices effected : Effected ⟨model,current,limits,records + 1⟩ _ from effected
    cases current with
    | outside => exact effected_outside _ record
    | stateMachine cursor => exact effected_stateMachine rfl record
    | sequence cursor => exact effected_sequence rfl record
    | api group cursor => exact effected_api _ group cursor record
    | application position opened => exact effected_application _ position opened record

end Builder

end DocGraph
