import DocGraph.Proofs.GraphChanges

/-! The part of a graph that belongs to each kind of section. Names of groups belong to all of them. -/
namespace DocGraph

/-- The part of a group that sections of a kind have; samples stand at the top level. -/
def Group.part (mode : Mode) (group : Group) : Group :=
  match mode with
  | .topLevel => { name := group.name, samples := group.samples }
  | .stateMachine => { name := group.name, states := group.states }
  | .sequence =>
    { name := group.name, timelines := group.timelines, messageWidth := group.messageWidth }
  | .api => { name := group.name, api := group.api }
  | .application => { name := group.name, applications := group.applications }

/-- The part of a graph that sections of a kind have. -/
def Model.part (mode : Mode) (model : Model) : Model :=
  let groups := model.groups.map (·.part mode)
  match mode with
  | .stateMachine => { groups, states := model.states }
  | .sequence =>
    { groups, timelines := model.timelines, nodes := model.nodes, messages := model.messages }
  | .topLevel | .api | .application => { groups }

def Limits.part (mode : Mode) (limits : Limits) : Limits :=
  match mode with
  | .stateMachine => { state := limits.state }
  | .sequence => { node := limits.node }
  | .topLevel | .api | .application => {}

/-- What a section of a kind has of a builder: its part of the graph, its limit, and what is open. -/
def Builder.part (mode : Mode) (builder : Builder) : Builder :=
  { model := builder.model.part mode, current := builder.current, limits := builder.limits.part mode }

/-- The same for the result of a record. -/
def Builder.partOf (mode : Mode) (applied : Builder.Applied) : Builder.Applied :=
  (applied.1.part mode,applied.2)

@[simp] theorem Group.name_part (mode : Mode) (group : Group) : (group.part mode).name = group.name := by
  cases mode <;> rfl

@[simp] theorem Group.part_new (mode : Mode) (name : Name) :
    ({ name } : Group).part mode = { name } := by
  cases mode <;> rfl

/-- The parts of a group are all of it. -/
theorem Group.eq_of_parts {group other : Group} (same : ∀ mode, group.part mode = other.part mode) :
    group = other := by
  obtain ⟨name,states,timelines,api,applications,samples,messageWidth⟩ := group
  have machine := same .stateMachine
  have diagram := same .sequence
  have interface := same .api
  have programs := same .application
  have examples := same .topLevel
  simp only [part, Group.mk.injEq] at machine diagram interface programs examples
  cases other
  simp_all

/-- The kind of section that a record opens; a sample stands for itself. -/
def Tag.opens : Tag → Option Mode
  | .stateMachineStart => some .stateMachine
  | .sequenceStart => some .sequence
  | .apiStart => some .api
  | .applicationStart => some .application
  | .sample => some .topLevel
  | _ => none

/-- The names of groups that a record gives. -/
def Record.groups : Record → List Name
  | stateMachineStart name | sequenceStart name | apiStart name => [name]
  | state _ subject | trigger subject | triggers subject | timeline subject => [subject.group]
  | _ => []

theorem map_modify {view : α → β} {change : α → α} {change' : β → β}
    (same : ∀ item, view (change item) = change' (view item)) (items : Array α) (index : Nat) :
    (items.modify index change).map view = (items.map view).modify index change' := by
  refine Array.ext_getElem? fun i => ?_
  simp only [Array.getElem?_modify, Array.getElem?_map]
  split
  · simp [same,Function.comp_def]
  · rfl

theorem map_modify_of_same {view : α → β} {change : α → α}
    (same : ∀ item, view (change item) = view item) (items : Array α) (index : Nat) :
    (items.modify index change).map view = items.map view := by
  let stay (item : β) : β := item
  have moved : (items.modify index change).map view = (items.map view).modify index stay :=
    map_modify same items index
  exact moved.trans (Array.ext_getElem? fun i => by simp [Array.getElem?_modify,stay,Function.comp_def])

theorem toList_map_modify {view : α → β} {change : α → α}
    (same : ∀ item, view (change item) = view item) (items : Array α) (index : Nat) :
    (items.modify index change).toList.map view = items.toList.map view := by
  rw [← Array.toList_map, map_modify_of_same same, Array.toList_map]

namespace Model

variable {mode : Mode}

theorem groups_part (mode : Mode) (model : Model) :
    (model.part mode).groups = model.groups.map (·.part mode) := by
  cases mode <;> rfl

theorem group_part (mode : Mode) (model : Model) (id : GroupId) :
    (model.part mode).group id = (model.group id).part mode := by
  rw [group, groups_part, Array.getElem?_map]
  cases found : model.groups[id.index]? with
  | none =>
    simp only [group, found, Option.map_none, Option.getD_none]
    cases mode <;> rfl
  | some => simp [group,found]

theorem eq_of_parts {model other : Model} (same : ∀ mode, model.part mode = other.part mode) :
    model = other := by
  have listed (mode : Mode) :
      model.groups.map (·.part mode) = other.groups.map (·.part mode) := by
    rw [← groups_part, ← groups_part, same]
  have size : model.groups.size = other.groups.size := by
    simpa using congrArg Array.size (listed .topLevel)
  have groups : model.groups = other.groups := by
    refine Array.ext size fun i here there => Group.eq_of_parts fun mode => ?_
    have item := congrArg (·[i]?) (listed mode)
    simpa [here,there] using item
  have machine := same .stateMachine
  have diagram := same .sequence
  simp only [part, Model.mk.injEq] at machine diagram
  cases model
  cases other
  simp_all

theorem findGroup?_part (mode : Mode) (model : Model) (name : Bytes) :
    (model.part mode).findGroup? name = model.findGroup? name := by
  simp only [findGroup?, groups_part, Array.size_map, Array.findIdx?_map, Function.comp_def,
    Group.name_part]

theorem addGroup_part (mode : Mode) (model : Model) (name : Name) :
    (model.part mode).addGroup name = ((model.addGroup name).1.part mode,(model.addGroup name).2) := by
  simp only [addGroup, groups_part, Array.size_map]
  cases mode <;> simp [part]

theorem findOrAddGroup_part (mode : Mode) (model : Model) (name : Name) :
    (model.part mode).findOrAddGroup name =
      ((model.findOrAddGroup name).1.part mode,(model.findOrAddGroup name).2) := by
  unfold findOrAddGroup
  rw [findGroup?_part]
  cases model.findGroup? name.bytes with
  | none => exact addGroup_part mode model name
  | some => rfl

theorem modifyGroup_part (model : Model) (id : GroupId) {change : Group → Group}
    (within : ∀ group, (change group).part mode = change (group.part mode)) :
    (model.modifyGroup id change).part mode = (model.part mode).modifyGroup id change := by
  unfold modifyGroup
  rw [groups_part, ← map_modify within]
  cases mode <;> rfl

end Model

/-- The parts of other kinds stay. -/
def Model.Spares (mode : Mode) (before after : Model) : Prop :=
  ∀ other, other ≠ mode → after.part other = before.part other

namespace Model.Spares

variable {mode : Mode} {before between after : Model}

theorem refl (model : Model) : Spares mode model model := fun _ _ => rfl

theorem trans (first : Spares mode before between) (second : Spares mode between after) :
    Spares mode before after := fun other apart => (second other apart).trans (first other apart)

/-- There is a part that stays, and it has the names. -/
theorem findGroup? (spares : Spares mode before after) (name : Bytes) :
    after.findGroup? name = before.findGroup? name := by
  obtain ⟨other,apart⟩ : ∃ other, other ≠ mode := by
    cases mode with
    | topLevel => exact ⟨.api,nofun⟩
    | _ => exact ⟨.topLevel,nofun⟩
  rw [← findGroup?_part other, spares other apart, findGroup?_part]

theorem modifyGroup (model : Model) (id : GroupId) {change : Group → Group}
    (apart : ∀ other, other ≠ mode → ∀ group, (change group).part other = group.part other) :
    Spares mode model (model.modifyGroup id change) := by
  intro other different
  unfold Model.modifyGroup part
  rw [map_modify_of_same (apart other different)]

end Model.Spares

namespace Model

/-- A group that is known by its name is not added. -/
theorem findOrAddGroup_of_known {model : Model} {name : Name}
    (known : (model.findGroup? name.bytes).isSome) : (model.findOrAddGroup name).1 = model := by
  obtain ⟨found,same⟩ := Option.isSome_iff_exists.mp known
  simp only [findOrAddGroup, same]

theorem spares_states (model : Model) (states : Array State) :
    model.Spares .stateMachine { model with states } := by
  intro other apart
  cases other with
  | stateMachine => exact absurd rfl apart
  | _ => rfl

theorem addState_part (model : Model) (group : GroupId) (name : Name) (id : UInt16) :
    (model.part .stateMachine).addState group name id =
      ((model.addState group name id).1.part .stateMachine,(model.addState group name id).2) := by
  unfold addState
  refine Prod.ext ?_ rfl
  dsimp only
  rw [modifyGroup_part]
  · rfl
  · exact fun _ => rfl

theorem addState_spares (model : Model) (group : GroupId) (name : Name) (id : UInt16) :
    model.Spares .stateMachine (model.addState group name id).1 := by
  refine (model.spares_states _).trans (.modifyGroup _ group fun other apart _ => ?_)
  cases other with
  | stateMachine => exact absurd rfl apart
  | _ => rfl

theorem spares_diagrams {model after : Model} (groups : after.groups = model.groups)
    (states : after.states = model.states) : model.Spares .sequence after := by
  intro other apart
  unfold part
  cases other with
  | sequence => exact absurd rfl apart
  | _ => simp only [groups, states]

theorem addTimeline_part (model : Model) (group : GroupId) (name : Name) :
    (model.part .sequence).addTimeline group name =
      ((model.addTimeline group name).1.part .sequence,(model.addTimeline group name).2) := by
  unfold addTimeline
  refine Prod.ext ?_ rfl
  dsimp only
  rw [modifyGroup_part]
  · rfl
  · exact fun _ => rfl

theorem addTimeline_spares (model : Model) (group : GroupId) (name : Name) :
    model.Spares .sequence (model.addTimeline group name).1 := by
  have added : model.Spares .sequence { model with timelines := model.timelines.push { name, group } } :=
    spares_diagrams rfl rfl
  refine added.trans (.modifyGroup _ group fun other apart _ => ?_)
  cases other with
  | sequence => exact absurd rfl apart
  | _ => rfl

theorem addNode_part (model : Model) (timeline : TimelineId) (id : UInt16) (flags : Flags) :
    (model.part .sequence).addNode timeline id flags =
      ((model.addNode timeline id flags).1.part .sequence,(model.addNode timeline id flags).2) := by
  have last : (model.part .sequence).timeline timeline = model.timeline timeline := rfl
  unfold addNode
  rw [last]
  cases (model.timeline timeline).nodes.back? with
  | none => rfl
  | some last => rfl

theorem addNode_spares (model : Model) (timeline : TimelineId) (id : UInt16) (flags : Flags) :
    model.Spares .sequence (model.addNode timeline id flags).1 := by
  unfold addNode
  cases (model.timeline timeline).nodes.back? with
  | none => exact spares_diagrams rfl rfl
  | some last => exact spares_diagrams rfl rfl

theorem addMessage_part (model : Model) (sender : NodeId) (senderId receiverId : UInt8)
    (targetTimelineName name : Name) :
    (model.part .sequence).addMessage sender senderId receiverId targetTimelineName name =
      ((model.addMessage sender senderId receiverId targetTimelineName name).1.part .sequence,
        (model.addMessage sender senderId receiverId targetTimelineName name).2) := by
  unfold addMessage
  refine Prod.ext ?_ rfl
  dsimp only
  rw [modifyGroup_part]
  · rfl
  · exact fun _ => rfl

theorem addMessage_spares (model : Model) (sender : NodeId) (senderId receiverId : UInt8)
    (targetTimelineName name : Name) :
    model.Spares .sequence (model.addMessage sender senderId receiverId targetTimelineName name).1 := by
  unfold addMessage
  dsimp only
  refine Spares.trans ?_ (.modifyGroup _ _ ?_)
  · exact spares_diagrams rfl rfl
  · intro other apart _
    cases other with
    | sequence => exact absurd rfl apart
    | _ => rfl

end Model

namespace Builder

variable {builder : Builder}

theorem changeApi_part (model : Model) (group : GroupId) (change : Api → Api) :
    changeApi (model.part .api) group change = (changeApi model group change).part .api := by
  rw [changeApi, changeApi, Model.modifyGroup_part]
  exact fun _ => rfl

theorem changeApi_spares (model : Model) (group : GroupId) (change : Api → Api) :
    model.Spares .api (changeApi model group change) := by
  refine .modifyGroup model group fun other apart _ => ?_
  cases other with
  | api => exact absurd rfl apart
  | _ => rfl

theorem application?_part (model : Model) (position : Nat) :
    application? (model.part .application) position = application? model position := by
  simp only [application?, Model.group_part]
  rfl

theorem changeApplication_part (model : Model) (position : Nat) (change : Application → Application) :
    changeApplication (model.part .application) position change =
      (changeApplication model position change).part .application := by
  rw [changeApplication, changeApplication, Model.modifyGroup_part]
  exact fun _ => rfl

theorem changeApplication_spares (model : Model) (position : Nat) (change : Application → Application) :
    model.Spares .application (changeApplication model position change) := by
  refine .modifyGroup model Model.root fun other apart _ => ?_
  cases other with
  | application => exact absurd rfl apart
  | _ => rfl

theorem findOrAddApplication_part (model : Model) (name : Name) :
    findOrAddApplication (model.part .application) name =
      ((findOrAddApplication model name).1.part .application,(findOrAddApplication model name).2) := by
  have same : ((model.part .application).group Model.root).applications =
      (model.group Model.root).applications := by
    rw [Model.group_part]
    rfl
  simp only [findOrAddApplication, same]
  cases (model.group Model.root).applications.findIdx? (·.name.sameText name) with
  | some position => rfl
  | none =>
    dsimp only
    rw [Model.modifyGroup_part]
    exact fun _ => rfl

theorem findOrAddApplication_spares (model : Model) (name : Name) :
    model.Spares .application (findOrAddApplication model name).1 := by
  simp only [findOrAddApplication]
  split
  · exact .refl model
  · refine .modifyGroup model Model.root fun other apart _ => ?_
    cases other with
    | application => exact absurd rfl apart
    | _ => rfl

theorem applyOutside_part {record : Record} {mode : Mode} (opens : record.tag.opens = some mode) :
    partOf mode (builder.applyOutside record) = (builder.part mode).applyOutside record := by
  cases record with
  | stateMachineStart name =>
    cases opens
    let after (found : Model × GroupId) : Applied :=
      accept { builder.part .stateMachine with model := found.1, current := .stateMachine .idle }
    exact (congrArg after (Model.findOrAddGroup_part .stateMachine builder.model name)).symm
  | sequenceStart name =>
    cases opens
    let after (found : Model × GroupId) : Applied :=
      accept { builder.part .sequence with model := found.1, current := .sequence .idle }
    exact (congrArg after (Model.findOrAddGroup_part .sequence builder.model name)).symm
  | apiStart name =>
    cases opens
    let after (found : Model × GroupId) : Applied :=
      accept { builder.part .api with model := found.1, current := .api found.2 {} }
    exact (congrArg after (Model.findOrAddGroup_part .api builder.model name)).symm
  | applicationStart name =>
    cases opens
    let after (found : Model × Nat) : Applied :=
      accept { builder.part .application with model := found.1, current := .application found.2 none }
    exact (congrArg after (findOrAddApplication_part builder.model name)).symm
  | sample sample =>
    cases opens
    let after (model : Model) : Applied := accept { builder.part .topLevel with model }
    refine congrArg after (Model.modifyGroup_part builder.model Model.root ?_)
    exact fun _ => rfl
  | _ => cases opens

theorem changeTransition_part (builder : Builder) (record : Tag) (change : Transition → Transition) :
    partOf .stateMachine (builder.changeTransition record change) =
      (builder.part .stateMachine).changeTransition record change := by
  have current : (builder.part .stateMachine).current = builder.current := rfl
  unfold changeTransition
  rw [current]
  split <;> rfl

theorem applyTrigger_part (builder : Builder) (record : Tag) (subject : Qualified)
    (change : Trigger → Transition → Transition) :
    partOf .stateMachine (builder.applyTrigger record subject change) =
      (builder.part .stateMachine).applyTrigger record subject change := by
  let after (found : Model × GroupId) : Applied :=
    { builder.part .stateMachine with model := found.1 }.changeTransition record
      (change ⟨found.2,subject.name⟩)
  exact (changeTransition_part _ record _).trans
    (congrArg after (Model.findOrAddGroup_part _ builder.model subject.group)).symm

theorem applyStateMachine_part (builder : Builder) (cursor : StateCursor) (record : Record) :
    partOf .stateMachine (builder.applyStateMachine cursor record) =
      (builder.part .stateMachine).applyStateMachine cursor record := by
  cases record with
  | state id subject =>
    let after (added : Model × StateId) : Applied :=
      accept { builder.part .stateMachine with
        model := added.1, limits := { state := max builder.limits.state id }
        current := .stateMachine (.state added.2) }
    let grouped (found : Model × GroupId) : Applied :=
      after (found.1.addState found.2 subject.name id)
    have found := Model.findOrAddGroup_part .stateMachine builder.model subject.group
    exact ((congrArg grouped found).trans (congrArg after (Model.addState_part _ _ _ id))).symm
  | transition target => cases cursor <;> rfl
  | trigger subject =>
    let change (trigger : Trigger) (transition : Transition) : Transition :=
      { transition with trigger := some trigger }
    exact applyTrigger_part builder .trigger subject change
  | triggers subject =>
    let change (trigger : Trigger) (transition : Transition) : Transition :=
      { transition with triggers := transition.triggers.push trigger }
    exact applyTrigger_part builder .triggers subject change
  | condition text =>
    exact changeTransition_part builder .condition ({ · with condition := some text })
  | _ => rfl

theorem applySequence_part (builder : Builder) (cursor : SequenceCursor) (record : Record) :
    partOf .sequence (builder.applySequence cursor record) =
      (builder.part .sequence).applySequence cursor record := by
  cases record with
  | timeline subject =>
    let after (added : Model × TimelineId) : Applied :=
      accept { builder.part .sequence with
        model := added.1, current := .sequence (.timeline added.2) }
    let grouped (found : Model × GroupId) : Applied := after (found.1.addTimeline found.2 subject.name)
    have found := Model.findOrAddGroup_part .sequence builder.model subject.group
    exact ((congrArg grouped found).trans (congrArg after (Model.addTimeline_part _ _ _))).symm
  | nodeStart id flags =>
    cases cursor with
    | idle => rfl
    | timeline timeline | node timeline _ =>
      let after (added : Model × NodeId) : Applied :=
        accept { builder.part .sequence with
          model := added.1, limits := { node := max builder.limits.node id }
          current := .sequence (.node timeline added.2) }
      exact (congrArg after (Model.addNode_part builder.model timeline id ⟨flags⟩)).symm
  | sentMessage sending =>
    cases cursor with
    | idle | timeline => rfl
    | node _ node =>
      let after (added : Model × MessageId) : Applied :=
        accept { builder.part .sequence with model := added.1 }
      exact (congrArg after (Model.addMessage_part builder.model node _ _ _ _)).symm
  | condition text => cases cursor <;> rfl
  | _ => rfl

theorem changeFunction_part (builder : Builder) (group : GroupId) (cursor : ApiCursor) (record : Tag)
    (change : Api.Function → Api.Function) :
    partOf .api (builder.changeFunction group cursor record change) =
      (builder.part .api).changeFunction group cursor record change := by
  obtain ⟨function,type,constants⟩ := cursor
  cases function with
  | none => rfl
  | some position =>
    let after (model : Model) : Applied := accept { builder.part .api with model }
    exact (congrArg after (changeApi_part builder.model group _)).symm

theorem applyApi_part (builder : Builder) (group : GroupId) (cursor : ApiCursor) (record : Record) :
    partOf .api (builder.applyApi group cursor record) =
      (builder.part .api).applyApi group cursor record := by
  have api : ((builder.model.part .api).group group).api = (builder.model.group group).api := by
    rw [Model.group_part]
    rfl
  have change (change : Api → Api) (cursor : ApiCursor) :
      partOf .api (accept { builder with
        model := changeApi builder.model group change, current := .api group cursor }) =
      accept { builder.part .api with
        model := changeApi (builder.model.part .api) group change, current := .api group cursor } := by
    rw [changeApi_part]
    rfl
  obtain ⟨function,type,constants⟩ := cursor
  cases record with
  | apiFunction item =>
    refine (change (·.addFunction item.kind item.name) _).trans ?_
    rw [← api]
    rfl
  | apiTypeStart item =>
    refine (change (·.addType item.title item.body) _).trans ?_
    rw [← api]
    rfl
  | apiConstantsStart item =>
    refine (change (·.addConstants item.title item.body) _).trans ?_
    rw [← api]
    rfl
  | apiTypeField =>
    cases type with
    | none => rfl
    | some position => exact change _ _
  | apiConstant =>
    cases constants with
    | none => rfl
    | some position => exact change _ _
  | apiAction | apiDescription | apiParameter | apiReturns =>
    exact changeFunction_part builder group _ _ _
  | _ => rfl

theorem applyApplication_part (builder : Builder) (position : Nat) (opened : Option Nat)
    (record : Record) :
    partOf .application (builder.applyApplication position opened record) =
      (builder.part .application).applyApplication position opened record := by
  have change (change : Application → Application) (current : Section) :
      partOf .application (accept { builder with
        model := changeApplication builder.model position change, current }) =
      accept { builder.part .application with
        model := changeApplication (builder.model.part .application) position change, current } := by
    rw [changeApplication_part]
    rfl
  cases record with
  | applicationSection content =>
    refine (change (fun application => (application.setSection content.title content.body).1) _).trans ?_
    rw [← application?_part]
    rfl
  | applicationSubSection =>
    cases opened with
    | none => rfl
    | some parent => exact change _ _
  | applicationOption | applicationCommand | applicationSynopsis => exact change _ _
  | _ => rfl

/-- The parts of other kinds stay, and so do their limits. -/
structure Spares (mode : Mode) (before after : Builder) : Prop where
  model : before.model.Spares mode after.model
  limits : ∀ other, other ≠ mode → after.limits.part other = before.limits.part other

variable {mode : Mode}

theorem Spares.of_model {before after : Builder} (model : before.model.Spares mode after.model)
    (limits : after.limits = before.limits) : before.Spares mode after :=
  ⟨model,fun _ _ => by rw [limits]⟩

theorem Spares.refl (builder : Builder) : builder.Spares mode builder := .of_model (.refl _) rfl

theorem Spares.trans {before between after : Builder} (first : before.Spares mode between)
    (second : between.Spares mode after) : before.Spares mode after :=
  ⟨first.model.trans second.model,fun other apart =>
    (second.limits other apart).trans (first.limits other apart)⟩

theorem spares_found (builder : Builder) {name : Name}
    (known : (builder.model.findGroup? name.bytes).isSome) :
    builder.model.Spares mode (builder.model.findOrAddGroup name).1 := by
  rw [Model.findOrAddGroup_of_known known]
  exact .refl _

theorem applyOutside_spares {record : Record} (opens : record.tag.opens = some mode)
    (known : ∀ name ∈ record.groups, (builder.model.findGroup? name.bytes).isSome) :
    builder.Spares mode (builder.applyOutside record).1 := by
  cases record with
  | stateMachineStart name | sequenceStart name | apiStart name =>
    exact .of_model (spares_found builder (known name List.mem_cons_self)) rfl
  | applicationStart name =>
    cases opens
    exact .of_model (findOrAddApplication_spares builder.model name) rfl
  | sample sample =>
    cases opens
    refine .of_model (.modifyGroup builder.model Model.root ?_) rfl
    intro other apart _
    cases other with
    | topLevel => exact absurd rfl apart
    | _ => rfl
  | _ => cases opens

theorem changeTransition_spares (builder : Builder) (record : Tag) (change : Transition → Transition) :
    builder.Spares .stateMachine (builder.changeTransition record change).1 := by
  unfold changeTransition
  split
  · exact .of_model (builder.model.spares_states _) rfl
  · exact .refl builder

theorem applyTrigger_spares (builder : Builder) (record : Tag) {subject : Qualified}
    (change : Trigger → Transition → Transition)
    (known : (builder.model.findGroup? subject.group.bytes).isSome) :
    builder.Spares .stateMachine (builder.applyTrigger record subject change).1 := by
  have found : builder.Spares .stateMachine
      { builder with model := (builder.model.findOrAddGroup subject.group).1 } :=
    .of_model (spares_found builder known) rfl
  exact found.trans (changeTransition_spares _ record _)

theorem applyStateMachine_spares (builder : Builder) (cursor : StateCursor) {record : Record}
    (known : ∀ name ∈ record.groups, (builder.model.findGroup? name.bytes).isSome) :
    builder.Spares .stateMachine (builder.applyStateMachine cursor record).1 := by
  cases record with
  | state id subject =>
    have found : builder.model.Spares .stateMachine _ :=
      spares_found builder (known subject.group List.mem_cons_self)
    refine ⟨found.trans (Model.addState_spares _ _ subject.name id),?_⟩
    intro other apart
    cases other with
    | stateMachine => exact absurd rfl apart
    | _ => rfl
  | transition target =>
    cases cursor with
    | idle => exact .refl builder
    | state | transition => exact .of_model (builder.model.spares_states _) rfl
  | trigger subject =>
    let change (trigger : Trigger) (transition : Transition) : Transition :=
      { transition with trigger := some trigger }
    exact applyTrigger_spares builder .trigger change (known subject.group List.mem_cons_self)
  | triggers subject =>
    let change (trigger : Trigger) (transition : Transition) : Transition :=
      { transition with triggers := transition.triggers.push trigger }
    exact applyTrigger_spares builder .triggers change (known subject.group List.mem_cons_self)
  | condition text =>
    exact changeTransition_spares builder .condition ({ · with condition := some text })
  | _ => exact .of_model (.refl builder.model) rfl

theorem applySequence_spares (builder : Builder) (cursor : SequenceCursor) {record : Record}
    (known : ∀ name ∈ record.groups, (builder.model.findGroup? name.bytes).isSome) :
    builder.Spares .sequence (builder.applySequence cursor record).1 := by
  cases record with
  | timeline subject =>
    have found : builder.model.Spares .sequence _ :=
      spares_found builder (known subject.group List.mem_cons_self)
    exact .of_model (found.trans (Model.addTimeline_spares _ _ subject.name)) rfl
  | nodeStart id flags =>
    cases cursor with
    | idle => exact .refl builder
    | timeline timeline | node timeline _ =>
      refine ⟨Model.addNode_spares builder.model timeline id ⟨flags⟩,?_⟩
      intro other apart
      cases other with
      | sequence => exact absurd rfl apart
      | _ => rfl
  | sentMessage sending =>
    cases cursor with
    | idle | timeline => exact .refl builder
    | node _ node => exact .of_model (Model.addMessage_spares builder.model node _ _ _ _) rfl
  | condition text =>
    cases cursor with
    | idle | timeline => exact .refl builder
    | node _ node => exact .of_model (Model.spares_diagrams rfl rfl) rfl
  | _ => exact .of_model (.refl builder.model) rfl

theorem applyApi_spares (builder : Builder) (group : GroupId) (cursor : ApiCursor) (record : Record) :
    builder.Spares .api (builder.applyApi group cursor record).1 := by
  have change (change : Api → Api) (current : Section) :
      builder.Spares .api { builder with model := changeApi builder.model group change, current } :=
    .of_model (changeApi_spares builder.model group change) rfl
  obtain ⟨function,type,constants⟩ := cursor
  cases record with
  | apiFunction | apiTypeStart | apiConstantsStart => exact change _ _
  | apiTypeField =>
    cases type with
    | none => exact .refl builder
    | some position => exact change _ _
  | apiConstant =>
    cases constants with
    | none => exact .refl builder
    | some position => exact change _ _
  | apiAction | apiDescription | apiParameter | apiReturns =>
    cases function with
    | none => exact .refl builder
    | some position => exact change _ _
  | _ => exact .of_model (.refl builder.model) rfl

theorem applyApplication_spares (builder : Builder) (position : Nat) (opened : Option Nat)
    (record : Record) :
    builder.Spares .application (builder.applyApplication position opened record).1 := by
  have change (change : Application → Application) (current : Section) :
      builder.Spares .application
        { builder with model := changeApplication builder.model position change, current } :=
    .of_model (changeApplication_spares builder.model position change) rfl
  cases record with
  | applicationSection | applicationOption | applicationCommand | applicationSynopsis =>
    exact change _ _
  | applicationSubSection =>
    cases opened with
    | none => exact .refl builder
    | some parent => exact change _ _
  | _ => exact .of_model (.refl builder.model) rfl

end Builder

end DocGraph
