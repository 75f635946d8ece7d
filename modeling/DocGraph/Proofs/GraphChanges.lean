import DocGraph.Load
import Mathlib.Logic.Relation

/-! The single changes that records make to a graph, with what is known of the items that they name. What all of
them keep holds of every graph that is built; loading adds the links and the name of the document. -/
namespace DocGraph

namespace Model

@[simp] theorem size_groups_modifyGroup (model : Model) (id : GroupId) (change : Group → Group) :
    (model.modifyGroup id change).groups.size = model.groups.size := Array.size_modify

@[simp] theorem size_states_modifyState (model : Model) (id : StateId) (change : State → State) :
    (model.modifyState id change).states.size = model.states.size := Array.size_modify

@[simp] theorem size_timelines_modifyTimeline (model : Model) (id : TimelineId)
    (change : Timeline → Timeline) :
    (model.modifyTimeline id change).timelines.size = model.timelines.size := Array.size_modify

@[simp] theorem size_nodes_modifyNode (model : Model) (id : NodeId) (change : Node → Node) :
    (model.modifyNode id change).nodes.size = model.nodes.size := Array.size_modify

@[simp] theorem size_messages_modifyMessage (model : Model) (id : MessageId)
    (change : Message → Message) :
    (model.modifyMessage id change).messages.size = model.messages.size := Array.size_modify

theorem getD_outside [Inhabited α] {items : Array α} {index : Nat} (outside : items.size ≤ index) :
    items[index]?.getD default = default := by
  rw [Array.getElem?_eq_none outside, Option.getD_none]

theorem getD_modify [Inhabited α] (items : Array α) (i j : Nat) (change : α → α) :
    (items.modify i change)[j]?.getD default =
      if j = i ∧ i < items.size then change (items[j]?.getD default) else items[j]?.getD default := by
  rw [Array.getElem?_modify]
  by_cases same : i = j
  · subst same
    by_cases known : i < items.size
    · simp [known]
    · simp [known]
  · simp [same,Ne.symm same]

theorem getD_push [Inhabited α] (items : Array α) (item : α) (j : Nat) :
    (items.push item)[j]?.getD default = if j = items.size then item else items[j]?.getD default := by
  rw [Array.getElem?_push]
  split <;> simp

theorem group_modifyGroup (model : Model) (id other : GroupId) (change : Group → Group) :
    (model.modifyGroup id change).group other =
      if other = id ∧ id.index < model.groups.size then change (model.group other)
      else model.group other := by
  cases id; cases other
  simp only [GroupId.mk.injEq]
  exact getD_modify ..

theorem timeline_modifyTimeline (model : Model) (id other : TimelineId)
    (change : Timeline → Timeline) :
    (model.modifyTimeline id change).timeline other =
      if other = id ∧ id.index < model.timelines.size then change (model.timeline other)
      else model.timeline other := by
  cases id; cases other
  simp only [TimelineId.mk.injEq]
  exact getD_modify ..

theorem node_modifyNode (model : Model) (id other : NodeId) (change : Node → Node) :
    (model.modifyNode id change).node other =
      if other = id ∧ id.index < model.nodes.size then change (model.node other)
      else model.node other := by
  cases id; cases other
  simp only [NodeId.mk.injEq]
  exact getD_modify ..

theorem message_modifyMessage (model : Model) (id other : MessageId) (change : Message → Message) :
    (model.modifyMessage id change).message other =
      if other = id ∧ id.index < model.messages.size then change (model.message other)
      else model.message other := by
  cases id; cases other
  simp only [MessageId.mk.injEq]
  exact getD_modify ..

/-- One change that a record makes to a graph. -/
inductive Change (model : Model) : Model → Prop
  | group (name : Name) : Change model (model.findOrAddGroup name).1
  | state (group : GroupId) (name : Name) (id : UInt16) (known : group.index < model.groups.size) :
      Change model (model.addState group name id).1
  | transition (state : StateId) (target : UInt16) (known : state.index < model.states.size) :
      Change model (model.addTransition state target)
  | trigger (state : StateId) (position : Nat) (trigger : Trigger)
      (known : trigger.group.index < model.groups.size) :
      Change model (model.modifyState state fun state =>
        { state with transitions := state.transitions.modify position fun transition =>
          { transition with trigger := some trigger } })
  | triggers (state : StateId) (position : Nat) (trigger : Trigger)
      (known : trigger.group.index < model.groups.size) :
      Change model (model.modifyState state fun state =>
        { state with transitions := state.transitions.modify position fun transition =>
          { transition with triggers := transition.triggers.push trigger } })
  | guard (state : StateId) (position : Nat) (text : Name) :
      Change model (model.modifyState state fun state =>
        { state with transitions := state.transitions.modify position fun transition =>
          { transition with condition := some text } })
  | timeline (group : GroupId) (name : Name) (known : group.index < model.groups.size) :
      Change model (model.addTimeline group name).1
  | node (timeline : TimelineId) (id : UInt16) (flags : Flags)
      (known : timeline.index < model.timelines.size) : Change model (model.addNode timeline id flags).1
  | message (sender : NodeId) (sending : Sending) (known : sender.index < model.nodes.size) :
      Change model (model.addMessage sender sending.sender sending.receiver sending.timeline
        sending.message).1
  | condition (node : NodeId) (text : Name) :
      Change model (model.modifyNode node ({ · with condition := some text }))
  | application (name : Name) : Change model (Builder.findOrAddApplication model name).1
  | applicationContent (position : Nat) (change : Application → Application) :
      Change model (Builder.changeApplication model position change)
  | api (group : GroupId) (change : Api → Api) : Change model (Builder.changeApi model group change)
  | sample (sample : Sample) :
      Change model (model.modifyGroup root fun group =>
        { group with samples := group.samples.push sample })

abbrev Changes := Relation.ReflTransGen Change

theorem Changes.keep {P : Model → Prop} (keeps : ∀ before after, P before → Change before after → P after)
    {before after : Model} (changes : Changes before after) (holds : P before) : P after := by
  induction changes with
  | refl => exact holds
  | tail _ change ih => exact keeps _ _ ih change

theorem findGroup?_known {model : Model} (document : 0 < model.groups.size) {name : Bytes}
    {id : GroupId} {how : Selection} (found : model.findGroup? name = some (id,how)) :
    id.index < model.groups.size := by
  unfold findGroup? at found
  split at found
  · split at found
    · rename_i several
      cases found
      exact several
    · cases found
  · split at found
    · cases found
      exact document
    · obtain ⟨index,at_,same⟩ := Option.map_eq_some_iff.mp found
      cases same
      exact (Array.findIdx?_eq_some_iff_getElem.mp at_).choose

theorem findOrAddGroup_known {model : Model} (document : 0 < model.groups.size) (name : Name) :
    (model.findOrAddGroup name).2.index < (model.findOrAddGroup name).1.groups.size := by
  unfold findOrAddGroup
  split
  · rename_i id how found
    exact findGroup?_known document found
  · simp [addGroup]

theorem findOrAddGroup_keeps (model : Model) (name : Name) :
    model.groups.size ≤ (model.findOrAddGroup name).1.groups.size ∧
    (model.findOrAddGroup name).1.states = model.states ∧
    (model.findOrAddGroup name).1.timelines = model.timelines ∧
    (model.findOrAddGroup name).1.nodes = model.nodes ∧
    (model.findOrAddGroup name).1.messages = model.messages := by
  unfold findOrAddGroup
  split <;> simp [addGroup]

end Model

/-- The items that an open section refers to are in the graph. -/
def Section.Within (model : Model) : Section → Prop
  | outside | stateMachine .idle | sequence .idle => True
  | stateMachine (.state id) | stateMachine (.transition id _) => id.index < model.states.size
  | sequence (.timeline id) => id.index < model.timelines.size
  | sequence (.node timeline id) =>
    timeline.index < model.timelines.size ∧ id.index < model.nodes.size
  | api group _ => group.index < model.groups.size
  | application position _ => (Builder.application? model position).isSome

namespace Builder

/-- The document is there, and so is what the open section refers to. -/
structure Sound (builder : Builder) : Prop where
  document : 0 < builder.model.groups.size
  within : builder.current.Within builder.model

theorem initial_sound : Sound {} := ⟨Nat.one_pos,trivial⟩

/-- What a record leaves behind. -/
structure Follows (builder : Builder) (applied : Applied) : Prop where
  changes : Model.Changes builder.model applied.1.model
  sound : applied.1.Sound

variable {builder : Builder}

theorem follows_reject (sound : builder.Sound) (reason : Rejection) :
    builder.Follows (builder.reject reason) := ⟨.refl,sound⟩

theorem follows_move (sound : builder.Sound) {current : Section}
    (within : current.Within builder.model) :
    builder.Follows (accept { builder with current }) := ⟨.refl,sound.document,within⟩

theorem findOrAddApplication_size (model : Model) (name : Name) :
    (findOrAddApplication model name).1.groups.size = model.groups.size := by
  simp only [findOrAddApplication]
  split <;> simp

theorem findOrAddApplication_known {model : Model} (document : 0 < model.groups.size) (name : Name) :
    (application? (findOrAddApplication model name).1 (findOrAddApplication model name).2).isSome := by
  simp only [findOrAddApplication]
  split
  · rename_i position found
    simp [application?,(Array.findIdx?_eq_some_iff_getElem.mp found).choose]
  · simp [application?,Model.group_modifyGroup,Model.root,document]

theorem changeApplication_isSome (model : Model) (position other : Nat)
    (change : Application → Application) :
    (application? (changeApplication model position change) other).isSome =
      (application? model other).isSome := by
  simp only [application?, changeApplication, Model.group_modifyGroup]
  split
  · rw [Array.getElem?_modify]
    split <;> simp
  · rfl

theorem follows_outside (sound : builder.Sound) (inside : builder.current = .outside)
    (record : Record) : builder.Follows (builder.applyOutside record) := by
  cases record with
  | stateMachineStart name | sequenceStart name =>
    exact ⟨.single (.group name),
      Nat.lt_of_lt_of_le sound.document (builder.model.findOrAddGroup_keeps name).1,trivial⟩
  | apiStart name =>
    exact ⟨.single (.group name),
      Nat.lt_of_lt_of_le sound.document (builder.model.findOrAddGroup_keeps name).1,
      Model.findOrAddGroup_known sound.document name⟩
  | applicationStart name =>
    exact ⟨.single (.application name),
      Nat.lt_of_lt_of_eq sound.document (findOrAddApplication_size builder.model name).symm,
      findOrAddApplication_known sound.document name⟩
  | sample sample =>
    refine ⟨.single (.sample ⟨sample.title,sample.body⟩),?_,?_⟩
    · simpa only [applyOutside, accept, Model.size_groups_modifyGroup] using sound.document
    · simp only [applyOutside, accept, inside, Section.Within]
  | _ => exact follows_reject sound _

theorem follows_changeTransition (sound : builder.Sound) (record : Tag)
    (change : Transition → Transition)
    (allowed : ∀ state position, Model.Change builder.model (builder.model.modifyState state fun state =>
      { state with transitions := state.transitions.modify position change })) :
    builder.Follows (builder.changeTransition record change) := by
  unfold changeTransition
  split
  · rename_i state position inside
    refine ⟨.single (allowed state position),sound.document,?_⟩
    have within := sound.within
    rw [inside] at within
    simpa only [accept, inside, Section.Within, Model.size_states_modifyState] using within
  · exact follows_reject sound _

theorem sound_of_group (sound : builder.Sound) {cursor : StateCursor}
    (inside : builder.current = .stateMachine cursor) (name : Name) :
    Sound { builder with model := (builder.model.findOrAddGroup name).1 } := by
  obtain ⟨more,states,_⟩ := builder.model.findOrAddGroup_keeps name
  refine ⟨Nat.lt_of_lt_of_le sound.document more,?_⟩
  have within := sound.within
  rw [inside] at within
  simp only [inside]
  cases cursor with
  | idle => trivial
  | state | transition => simpa only [Section.Within, states] using within

theorem follows_applyTrigger (sound : builder.Sound) {cursor : StateCursor}
    (inside : builder.current = .stateMachine cursor) (record : Tag) (subject : Qualified)
    (change : Trigger → Transition → Transition)
    (allowed : ∀ model : Model, ∀ trigger : Trigger, trigger.group.index < model.groups.size →
      ∀ state position, model.Change (model.modifyState state fun state =>
        { state with transitions := state.transitions.modify position (change trigger) })) :
    builder.Follows (builder.applyTrigger record subject change) := by
  have known := Model.findOrAddGroup_known sound.document subject.group
  have follows := follows_changeTransition (sound_of_group sound inside subject.group) record
    (change ⟨(builder.model.findOrAddGroup subject.group).2,subject.name⟩) (allowed _ _ known)
  exact ⟨.head (.group subject.group) follows.changes,follows.sound⟩

theorem addState_sizes (model : Model) (group : GroupId) (name : Name) (id : UInt16) :
    (model.addState group name id).1.groups.size = model.groups.size ∧
    (model.addState group name id).2.index < (model.addState group name id).1.states.size := by
  simp [Model.addState,Model.modifyGroup]

theorem follows_stateMachine (sound : builder.Sound) {cursor : StateCursor}
    (inside : builder.current = .stateMachine cursor) (record : Record) :
    builder.Follows (builder.applyStateMachine cursor record) := by
  cases record with
  | state id subject =>
    have known := Model.findOrAddGroup_known sound.document subject.group
    obtain ⟨groups,added⟩ := addState_sizes (builder.model.findOrAddGroup subject.group).1
      (builder.model.findOrAddGroup subject.group).2 subject.name id
    refine ⟨.head (.group subject.group) (.single (.state _ subject.name id known)),?_,?_⟩
    · exact Nat.lt_of_le_of_lt (Nat.zero_le _) (Nat.lt_of_lt_of_eq known groups.symm)
    · exact added
  | transition target =>
    have within := sound.within
    rw [inside] at within
    cases cursor with
    | idle => exact follows_reject sound _
    | state id | transition id position =>
      exact ⟨.single (.transition id target within),sound.document,
        Nat.lt_of_lt_of_eq within (builder.model.size_states_modifyState id _).symm⟩
  | trigger subject =>
    exact follows_applyTrigger sound inside .trigger subject
      (fun trigger transition => { transition with trigger := some trigger })
      fun model trigger known state position => .trigger state position trigger known
  | triggers subject =>
    exact follows_applyTrigger sound inside .triggers subject
      (fun trigger transition => { transition with triggers := transition.triggers.push trigger })
      fun model trigger known state position => .triggers state position trigger known
  | condition text =>
    exact follows_changeTransition sound .condition _ fun state position => .guard state position text
  | itemEnd | stateMachineEnd => exact follows_move sound trivial
  | _ => exact follows_reject sound _

theorem addTimeline_sizes (model : Model) (group : GroupId) (name : Name) :
    (model.addTimeline group name).1.groups.size = model.groups.size ∧
    (model.addTimeline group name).2.index < (model.addTimeline group name).1.timelines.size := by
  simp [Model.addTimeline,Model.modifyGroup]

theorem addNode_sizes (model : Model) (timeline : TimelineId) (id : UInt16) (flags : Flags) :
    (model.addNode timeline id flags).1.groups = model.groups ∧
    (model.addNode timeline id flags).1.timelines.size = model.timelines.size ∧
    (model.addNode timeline id flags).2.index < (model.addNode timeline id flags).1.nodes.size := by
  simp only [Model.addNode]
  split <;> simp [Model.modifyNode,Model.modifyTimeline]

theorem addMessage_sizes (model : Model) (sender : NodeId) (senderId receiverId : UInt8)
    (timeline name : Name) :
    let added := (model.addMessage sender senderId receiverId timeline name).1
    added.groups.size = model.groups.size ∧ added.timelines = model.timelines ∧
      added.nodes.size = model.nodes.size := by
  simp [Model.addMessage,Model.modifyNode,Model.modifyGroup]

theorem timeline_within {model : Model} {cursor : SequenceCursor} {line : TimelineId}
    (within : (Section.sequence cursor).Within model) (found : cursor.timeline? = some line) :
    line.index < model.timelines.size := by
  cases cursor with
  | idle => cases found
  | timeline => cases found; exact within
  | node => cases found; exact within.1

theorem follows_sequence (sound : builder.Sound) {cursor : SequenceCursor}
    (inside : builder.current = .sequence cursor) (record : Record) :
    builder.Follows (builder.applySequence cursor record) := by
  have within := sound.within
  rw [inside] at within
  cases record with
  | timeline subject =>
    have known := Model.findOrAddGroup_known sound.document subject.group
    obtain ⟨groups,added⟩ := addTimeline_sizes (builder.model.findOrAddGroup subject.group).1
      (builder.model.findOrAddGroup subject.group).2 subject.name
    refine ⟨.head (.group subject.group) (.single (.timeline _ subject.name known)),?_,?_⟩
    · exact Nat.lt_of_le_of_lt (Nat.zero_le _) (Nat.lt_of_lt_of_eq known groups.symm)
    · exact added
  | nodeStart id flags =>
    cases cursor with
    | idle => exact follows_reject sound _
    | timeline line | node line other =>
      have known := timeline_within within rfl
      obtain ⟨groups,timelines,added⟩ := addNode_sizes builder.model line id ⟨flags⟩
      refine ⟨.single (.node line id ⟨flags⟩ known),?_,?_,added⟩
      · exact Nat.lt_of_lt_of_eq sound.document (congrArg Array.size groups).symm
      · exact Nat.lt_of_lt_of_eq known timelines.symm
  | sentMessage sending =>
    cases cursor with
    | idle | timeline => exact follows_reject sound _
    | node line sender =>
      obtain ⟨groups,timelines,nodes⟩ := addMessage_sizes builder.model sender sending.sender
        sending.receiver sending.timeline sending.message
      refine ⟨.single (.message sender sending within.2),?_,?_⟩
      · exact Nat.lt_of_lt_of_eq sound.document groups.symm
      · change Section.Within _ builder.current
        rw [inside]
        exact ⟨Nat.lt_of_lt_of_eq within.1 (congrArg Array.size timelines.symm),
          Nat.lt_of_lt_of_eq within.2 nodes.symm⟩
  | condition text =>
    cases cursor with
    | idle | timeline => exact follows_reject sound _
    | node line id =>
      refine ⟨.single (.condition id text),sound.document,?_⟩
      change Section.Within _ builder.current
      rw [inside]
      exact ⟨within.1,Nat.lt_of_lt_of_eq within.2 (Model.size_nodes_modifyNode ..).symm⟩
  | nodeEnd =>
    refine follows_move sound ?_
    cases cursor with
    | node line id => exact within.1
    | idle | timeline => exact within
  | sequenceEnd => exact follows_move sound trivial
  | _ => exact follows_reject sound _

theorem follows_changeApi (sound : builder.Sound) {group : GroupId} {cursor : ApiCursor}
    (inside : builder.current = .api group cursor) (change : Api → Api) (next : ApiCursor) :
    builder.Follows (accept { builder with
      model := changeApi builder.model group change, current := .api group next }) := by
  have within := sound.within
  rw [inside] at within
  refine ⟨.single (.api group change),?_,?_⟩
  · simpa only [accept, changeApi, Model.size_groups_modifyGroup] using sound.document
  · simpa only [accept, Section.Within, changeApi, Model.size_groups_modifyGroup] using within

theorem follows_changeFunction (sound : builder.Sound) {group : GroupId} {cursor : ApiCursor}
    (inside : builder.current = .api group cursor) (record : Tag)
    (change : Api.Function → Api.Function) :
    builder.Follows (builder.changeFunction group cursor record change) := by
  unfold changeFunction
  split
  · exact follows_reject sound _
  · rename_i position _
    have follows := follows_changeApi sound inside (Api.changeFunction · position change) cursor
    simpa only [← inside] using follows

theorem follows_api (sound : builder.Sound) {group : GroupId} {cursor : ApiCursor}
    (inside : builder.current = .api group cursor) (record : Record) :
    builder.Follows (builder.applyApi group cursor record) := by
  have within := sound.within
  rw [inside] at within
  cases record with
  | apiFunction | apiTypeStart | apiConstantsStart => exact follows_changeApi sound inside _ _
  | apiAction | apiDescription | apiParameter | apiReturns =>
    exact follows_changeFunction sound inside _ _
  | apiTypeField field =>
    simp only [applyApi]
    split
    · exact follows_reject sound _
    · exact follows_changeApi sound inside _ _
  | apiConstant constant =>
    simp only [applyApi]
    split
    · exact follows_reject sound _
    · exact follows_changeApi sound inside _ _
  | apiFunctionEnd | apiTypeEnd | apiConstantsEnd => exact follows_move sound within
  | itemEnd => exact ⟨.refl,sound⟩
  | apiEnd => exact follows_move sound trivial
  | _ => exact follows_reject sound _

theorem follows_changeApplication (sound : builder.Sound) {position : Nat} {opened : Option Nat}
    (inside : builder.current = .application position opened) (change : Application → Application)
    (next : Option Nat) :
    builder.Follows (accept { builder with
      model := changeApplication builder.model position change
      current := .application position next }) := by
  have within := sound.within
  rw [inside] at within
  refine ⟨.single (.applicationContent position change),?_,?_⟩
  · simpa only [accept, changeApplication, Model.size_groups_modifyGroup] using sound.document
  · exact (changeApplication_isSome builder.model position position change).trans within

theorem follows_application (sound : builder.Sound) {position : Nat} {opened : Option Nat}
    (inside : builder.current = .application position opened) (record : Record) :
    builder.Follows (builder.applyApplication position opened record) := by
  have follows (change : Application → Application) :
      builder.Follows (accept { builder with
        model := changeApplication builder.model position change }) := by
    simpa only [← inside] using follows_changeApplication sound inside change opened
  cases record with
  | applicationSection content => exact follows_changeApplication sound inside _ _
  | applicationSubSection content =>
    cases opened with
    | none => exact follows_reject sound _
    | some parent => exact follows _
  | applicationOption | applicationCommand | applicationSynopsis => exact follows _
  | applicationEnd => exact follows_move sound trivial
  | _ => exact follows_reject sound _

/-- Every record makes listed changes and leaves the builder sound, rejected or not. -/
theorem apply_follows (sound : builder.Sound) (record : Record) :
    builder.Follows (builder.apply record) := by
  unfold apply
  split
  · exact ⟨.refl,sound⟩
  · obtain ⟨model,current,limits,records⟩ := builder
    have counted : Sound ⟨model,current,limits,records + 1⟩ := ⟨sound.document,sound.within⟩
    suffices follows : Follows ⟨model,current,limits,records + 1⟩ _ from
      ⟨follows.changes,follows.sound⟩
    cases current with
    | outside => exact follows_outside counted rfl record
    | stateMachine cursor => exact follows_stateMachine counted rfl record
    | sequence cursor => exact follows_sequence counted rfl record
    | api group cursor => exact follows_api counted rfl record
    | application position opened => exact follows_application counted rfl record

/-- Builders that records lead to from an empty one, rejected records included. -/
inductive Reachable : Builder → Prop
  | initial : Reachable {}
  | apply {before : Builder} (record : Record) (reachable : Reachable before) :
      Reachable (before.apply record).1

theorem Reachable.sound (reachable : builder.Reachable) : builder.Sound := by
  induction reachable with
  | initial => exact initial_sound
  | apply record _ sound => exact (apply_follows sound record).sound

/-- What every change keeps holds of every graph that is built. -/
theorem Reachable.model_holds {P : Model → Prop} (reachable : builder.Reachable) (empty : P {})
    (keeps : ∀ before after, P before → before.Change after → P after) : P builder.model := by
  induction reachable with
  | initial => exact empty
  | apply record reachable holds =>
    exact (apply_follows reachable.sound record).changes.keep keeps holds

theorem addRecords_reachable (reachable : builder.Reachable) (notices : List Notice) (bytes : Bytes) :
    (builder.addRecords notices bytes).builder.Reachable := by
  fun_induction addRecords builder notices bytes with
  | case1 => exact reachable
  | case2 => exact reachable
  | case3 builder _ _ _ record _ _ _ _ _ _ applied =>
    have next := Reachable.apply record reachable
    rwa [applied] at next
  | case4 builder _ _ _ record _ _ _ _ _ applied ih =>
    have next := Reachable.apply record reachable
    rw [applied] at next
    exact ih next

theorem addBlock_reachable (reachable : builder.Reachable) (number : Nat) (block : Bytes) :
    (builder.addBlock number block).builder.Reachable := by
  have whole := addRecords_reachable reachable [] block
  simp only [addBlock]
  split
  · exact whole
  · exact whole

/-- A builder that has been given numbered blocks, and goes on behind those with a fault. -/
def afterBlocks (blocks : List (Nat × Bytes)) : Builder :=
  blocks.foldl (fun builder block => (builder.addBlock block.1 block.2).builder) {}

theorem afterBlocks_reachable (blocks : List (Nat × Bytes)) : (afterBlocks blocks).Reachable :=
  List.foldlRecOn (motive := Reachable) blocks _ .initial
    fun _ reachable block _ => addBlock_reachable reachable block.1 block.2

end Builder

theorem Loaded.build_reachable {reader : Reader} {builder : Builder} {number : Nat}
    {notices : List Notice} {built : Built} (reachable : builder.Reachable)
    (found : (build reader builder number notices).result = .ok built) : built.builder.Reachable := by
  fun_induction build reader builder number notices with
  | case1 => cases found
  | case2 => cases found; exact reachable
  | case3 => cases found
  | case4 =>
    rename_i ih
    exact ih (Builder.addBlock_reachable reachable _ _) found

/-- A graph that is loaded is one that was built, linked and named. -/
theorem load_reachable {source : Source} {file : String} {loaded : Loaded}
    (found : (load source file).result = .ok loaded) :
    ∃ builder : Builder, builder.Reachable ∧
      loaded.model = (Loaded.nameDocument (builder.model.link builder.limits).model).1 ∧
      loaded.report = (builder.model.link builder.limits).report ∧
      loaded.records = builder.records := by
  simp only [load] at found
  split at found
  · cases found
  · split at found
    · cases found
    · rename_i builder blocks built
      cases found
      exact ⟨builder,Loaded.build_reachable .initial built,rfl,rfl,rfl⟩

end DocGraph
