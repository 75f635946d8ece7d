import DocGraph.Proofs.DiagramPlaces
import DocGraph.Proofs.StateMachines

/-! The positions that the items of a graph store, all of which are taken. -/
namespace DocGraph

namespace Model

abbrev HasGroup (model : Model) (id : GroupId) : Prop := id.index < model.groups.size
abbrev HasState (model : Model) (id : StateId) : Prop := id.index < model.states.size
abbrev HasTimeline (model : Model) (id : TimelineId) : Prop := id.index < model.timelines.size
abbrev HasNode (model : Model) (id : NodeId) : Prop := id.index < model.nodes.size
abbrev HasMessage (model : Model) (id : MessageId) : Prop := id.index < model.messages.size

/-- Items are added and never taken away. -/
structure Grown (before after : Model) : Prop where
  groups : before.groups.size ≤ after.groups.size
  states : before.states.size ≤ after.states.size
  timelines : before.timelines.size ≤ after.timelines.size
  nodes : before.nodes.size ≤ after.nodes.size
  messages : before.messages.size ≤ after.messages.size

end Model

structure Group.Known (model : Model) (group : Group) : Prop where
  states : ∀ id ∈ group.states.getD #[], model.HasState id
  timelines : ∀ id ∈ group.timelines.getD #[], model.HasTimeline id

/-- A group that has only a name lists nothing. -/
theorem Group.known_blank (model : Model) (name : Name) : ({ name } : Group).Known model := by
  refine ⟨fun id member => ?_,fun id member => ?_⟩
  · exact absurd member (Array.not_mem_empty id)
  · exact absurd member (Array.not_mem_empty id)

structure Transition.Known (model : Model) (transition : Transition) : Prop where
  target : ∀ id ∈ transition.target.target?, model.HasState id
  trigger : ∀ trigger ∈ transition.trigger, model.HasGroup trigger.group
  triggers : ∀ trigger ∈ transition.triggers, model.HasGroup trigger.group

structure State.Known (model : Model) (state : State) : Prop where
  group : model.HasGroup state.group
  transitions : ∀ transition ∈ state.transitions, transition.Known model

structure Timeline.Known (model : Model) (line : Timeline) : Prop where
  group : model.HasGroup line.group
  nodes : ∀ id ∈ line.nodes, model.HasNode id

structure Node.Known (model : Model) (node : Node) : Prop where
  timeline : model.HasTimeline node.timeline
  sent : ∀ id ∈ node.sent, model.HasMessage id
  received : ∀ id ∈ node.received, model.HasMessage id
  functionEnd : ∀ id ∈ node.functionEnd, model.HasNode id
  functionStart : ∀ id ∈ node.functionStart, model.HasNode id
  next : ∀ id ∈ node.next, model.HasNode id

structure Message.Known (model : Model) (message : Message) : Prop where
  sender : model.HasNode message.sender
  sendingTimeline : model.HasTimeline message.sendingTimeline
  targetTimeline : ∀ id ∈ message.targetTimeline, model.HasTimeline id
  receiver : ∀ id ∈ message.receiver.target?, model.HasNode id

namespace Model

structure Known (model : Model) : Prop where
  groups : ∀ group ∈ model.groups, group.Known model
  states : ∀ state ∈ model.states, state.Known model
  timelines : ∀ line ∈ model.timelines, line.Known model
  nodes : ∀ node ∈ model.nodes, node.Known model
  messages : ∀ message ∈ model.messages, message.Known model

variable {before after model : Model}

theorem getD_mem [Inhabited α] {items : Array α} {index : Nat} (inside : index < items.size) :
    items[index]?.getD default ∈ items := by
  rw [Array.getElem?_eq_getElem inside]
  exact Array.getElem_mem inside

theorem Known.group (known : model.Known) {id : GroupId} (inside : model.HasGroup id) :
    (model.group id).Known model := known.groups _ (getD_mem inside)

theorem Known.timeline (known : model.Known) {id : TimelineId} (inside : model.HasTimeline id) :
    (model.timeline id).Known model := known.timelines _ (getD_mem inside)

theorem Known.node (known : model.Known) {id : NodeId} (inside : model.HasNode id) :
    (model.node id).Known model := known.nodes _ (getD_mem inside)

theorem Known.message (known : model.Known) {id : MessageId} (inside : model.HasMessage id) :
    (model.message id).Known model := known.messages _ (getD_mem inside)

end Model

section Grow

open Model

variable {before after : Model} (grown : Grown before after)

include grown

theorem Group.Known.grow {group : Group} (known : group.Known before) : group.Known after :=
  ⟨fun id member => Nat.lt_of_lt_of_le (known.states id member) grown.states,
    fun id member => Nat.lt_of_lt_of_le (known.timelines id member) grown.timelines⟩

theorem Transition.Known.grow {transition : Transition} (known : transition.Known before) :
    transition.Known after :=
  ⟨fun id member => Nat.lt_of_lt_of_le (known.target id member) grown.states,
    fun trigger member => Nat.lt_of_lt_of_le (known.trigger trigger member) grown.groups,
    fun trigger member => Nat.lt_of_lt_of_le (known.triggers trigger member) grown.groups⟩

theorem State.Known.grow {state : State} (known : state.Known before) : state.Known after :=
  ⟨Nat.lt_of_lt_of_le known.group grown.groups,
    fun transition member => (known.transitions transition member).grow grown⟩

theorem Timeline.Known.grow {line : Timeline} (known : line.Known before) : line.Known after :=
  ⟨Nat.lt_of_lt_of_le known.group grown.groups,
    fun id member => Nat.lt_of_lt_of_le (known.nodes id member) grown.nodes⟩

theorem Node.Known.grow {node : Node} (known : node.Known before) : node.Known after :=
  ⟨Nat.lt_of_lt_of_le known.timeline grown.timelines,
    fun id member => Nat.lt_of_lt_of_le (known.sent id member) grown.messages,
    fun id member => Nat.lt_of_lt_of_le (known.received id member) grown.messages,
    fun id member => Nat.lt_of_lt_of_le (known.functionEnd id member) grown.nodes,
    fun id member => Nat.lt_of_lt_of_le (known.functionStart id member) grown.nodes,
    fun id member => Nat.lt_of_lt_of_le (known.next id member) grown.nodes⟩

theorem Message.Known.grow {message : Message} (known : message.Known before) :
    message.Known after :=
  ⟨Nat.lt_of_lt_of_le known.sender grown.nodes,
    Nat.lt_of_lt_of_le known.sendingTimeline grown.timelines,
    fun id member => Nat.lt_of_lt_of_le (known.targetTimeline id member) grown.timelines,
    fun id member => Nat.lt_of_lt_of_le (known.receiver id member) grown.nodes⟩

/-- A graph is known when each of its items was there before or is known. -/
theorem Model.Known.grow (known : before.Known)
    (groups : ∀ group ∈ after.groups, group ∈ before.groups ∨ group.Known after)
    (states : ∀ state ∈ after.states, state ∈ before.states ∨ state.Known after)
    (timelines : ∀ line ∈ after.timelines, line ∈ before.timelines ∨ line.Known after)
    (nodes : ∀ node ∈ after.nodes, node ∈ before.nodes ∨ node.Known after)
    (messages : ∀ message ∈ after.messages, message ∈ before.messages ∨ message.Known after) :
    after.Known where
  groups group member :=
    (groups group member).elim (fun old => (known.groups group old).grow grown) id
  states state member :=
    (states state member).elim (fun old => (known.states state old).grow grown) id
  timelines line member :=
    (timelines line member).elim (fun old => (known.timelines line old).grow grown) id
  nodes node member :=
    (nodes node member).elim (fun old => (known.nodes node old).grow grown) id
  messages message member :=
    (messages message member).elim (fun old => (known.messages message old).grow grown) id

end Grow

namespace Model

variable {before after model : Model}

theorem mem_modify {items : Array α} {P Q : α → Prop} (holds : ∀ item ∈ items, P item) {index : Nat}
    {change : α → α} (keeps : ∀ item, P item → Q (change item)) :
    ∀ item ∈ items.modify index change, item ∈ items ∨ Q item := by
  intro item member
  obtain ⟨place,inside,rfl⟩ := Array.mem_iff_getElem.mp member
  rw [Array.getElem_modify]
  split
  · exact .inr (keeps _ (holds _ (Array.getElem_mem _)))
  · exact .inl (Array.getElem_mem _)

theorem mem_push {items : Array α} {Q : α → Prop} {added : α} (holds : Q added) :
    ∀ item ∈ items.push added, item ∈ items ∨ Q item := by
  intro item member
  rcases Array.mem_push.mp member with old | rfl
  · exact .inl old
  · exact .inr holds

theorem Known.modifyGroup (known : model.Known) (id : GroupId) {change : Group → Group}
    (keeps : ∀ group, group.Known model → (change group).Known model) :
    (model.modifyGroup id change).Known := by
  have grown : Grown model (model.modifyGroup id change) :=
    ⟨Nat.le_of_eq (size_groups_modifyGroup ..).symm,Nat.le_refl _,Nat.le_refl _,Nat.le_refl _,
      Nat.le_refl _⟩
  refine known.grow grown ?_ (fun _ => .inl) (fun _ => .inl) (fun _ => .inl) fun _ => .inl
  exact mem_modify known.groups fun group there => (keeps group there).grow grown

theorem Known.modifyState (known : model.Known) (id : StateId) {change : State → State}
    (keeps : ∀ state, state.Known model → (change state).Known model) :
    (model.modifyState id change).Known := by
  have grown : Grown model (model.modifyState id change) :=
    ⟨Nat.le_refl _,Nat.le_of_eq (size_states_modifyState ..).symm,Nat.le_refl _,Nat.le_refl _,
      Nat.le_refl _⟩
  refine known.grow grown (fun _ => .inl) ?_ (fun _ => .inl) (fun _ => .inl) fun _ => .inl
  exact mem_modify known.states fun state there => (keeps state there).grow grown

theorem Known.modifyTimeline (known : model.Known) (id : TimelineId) {change : Timeline → Timeline}
    (keeps : ∀ line, line.Known model → (change line).Known model) :
    (model.modifyTimeline id change).Known := by
  have grown : Grown model (model.modifyTimeline id change) :=
    ⟨Nat.le_refl _,Nat.le_refl _,Nat.le_of_eq (size_timelines_modifyTimeline ..).symm,Nat.le_refl _,
      Nat.le_refl _⟩
  refine known.grow grown (fun _ => .inl) (fun _ => .inl) ?_ (fun _ => .inl) fun _ => .inl
  exact mem_modify known.timelines fun line there => (keeps line there).grow grown

theorem Known.modifyNode (known : model.Known) (id : NodeId) {change : Node → Node}
    (keeps : ∀ node, node.Known model → (change node).Known model) :
    (model.modifyNode id change).Known := by
  have grown : Grown model (model.modifyNode id change) :=
    ⟨Nat.le_refl _,Nat.le_refl _,Nat.le_refl _,Nat.le_of_eq (size_nodes_modifyNode ..).symm,
      Nat.le_refl _⟩
  refine known.grow grown (fun _ => .inl) (fun _ => .inl) (fun _ => .inl) ?_ fun _ => .inl
  exact mem_modify known.nodes fun node there => (keeps node there).grow grown

theorem Known.modifyMessage (known : model.Known) (id : MessageId) {change : Message → Message}
    (keeps : ∀ message, message.Known model → (change message).Known model) :
    (model.modifyMessage id change).Known := by
  have grown : Grown model (model.modifyMessage id change) :=
    ⟨Nat.le_refl _,Nat.le_refl _,Nat.le_refl _,Nat.le_refl _,
      Nat.le_of_eq (size_messages_modifyMessage ..).symm⟩
  refine known.grow grown (fun _ => .inl) (fun _ => .inl) (fun _ => .inl) (fun _ => .inl) ?_
  exact mem_modify known.messages fun message there => (keeps message there).grow grown

/-- A change of a group that leaves its machine and its diagram alone. -/
theorem Known.modifyGroup_other (known : model.Known) (id : GroupId) {change : Group → Group}
    (keeps : ∀ group, (change group).states = group.states ∧
      (change group).timelines = group.timelines) : (model.modifyGroup id change).Known := by
  refine known.modifyGroup id fun group there => ?_
  obtain ⟨states,timelines⟩ := keeps group
  refine ⟨?_,?_⟩
  · rw [states]
    exact there.states
  · rw [timelines]
    exact there.timelines

/-- A change of one transition of a state. -/
theorem Known.modifyTransition (known : model.Known) (id : StateId) (position : Nat)
    {change : Transition → Transition}
    (keeps : ∀ transition, transition.Known model → (change transition).Known model) :
    (model.modifyState id fun state =>
      { state with transitions := state.transitions.modify position change }).Known := by
  refine known.modifyState id fun state there => ⟨there.group,fun transition member => ?_⟩
  rcases mem_modify there.transitions keeps transition member with old | changed
  · exact there.transitions transition old
  · exact changed

theorem Known.findOrAddGroup (known : model.Known) (name : Name) :
    (model.findOrAddGroup name).1.Known := by
  unfold Model.findOrAddGroup
  split
  · exact known
  · have grown : Grown model (model.addGroup name).1 :=
      ⟨by simp [addGroup],Nat.le_refl _,Nat.le_refl _,Nat.le_refl _,Nat.le_refl _⟩
    exact known.grow grown (mem_push (Group.known_blank _ name)) (fun _ => .inl) (fun _ => .inl)
      (fun _ => .inl) fun _ => .inl

theorem Known.addState (known : model.Known) {group : GroupId} (name : Name) (id : UInt16)
    (inside : model.HasGroup group) : (model.addState group name id).1.Known := by
  have grown : Grown model { model with states := model.states.push { name, group, id } } :=
    ⟨Nat.le_refl _,by simp,Nat.le_refl _,Nat.le_refl _,Nat.le_refl _⟩
  have pushed : Known { model with states := model.states.push { name, group, id } } :=
    known.grow grown (fun _ => .inl) (mem_push ⟨inside,nofun⟩) (fun _ => .inl) (fun _ => .inl)
      fun _ => .inl
  refine pushed.modifyGroup group fun group there => ⟨fun state member => ?_,there.timelines⟩
  rcases Array.mem_push.mp member with old | rfl
  · exact there.states state old
  · simp [HasState]

theorem Known.addTimeline (known : model.Known) {group : GroupId} (name : Name)
    (inside : model.HasGroup group) : (model.addTimeline group name).1.Known := by
  have grown : Grown model { model with timelines := model.timelines.push { name, group } } :=
    ⟨Nat.le_refl _,Nat.le_refl _,by simp,Nat.le_refl _,Nat.le_refl _⟩
  have pushed : Known { model with timelines := model.timelines.push { name, group } } :=
    known.grow grown (fun _ => .inl) (fun _ => .inl) (mem_push ⟨inside,nofun⟩) (fun _ => .inl)
      fun _ => .inl
  refine pushed.modifyGroup group fun group there => ⟨there.states,fun line member => ?_⟩
  rcases Array.mem_push.mp member with old | rfl
  · exact there.timelines line old
  · simp [HasTimeline]

theorem Known.addNode (known : model.Known) {line : TimelineId} (id : UInt16) (flags : Flags)
    (inside : model.HasTimeline line) : (model.addNode line id flags).1.Known := by
  let longer : Model := { model with nodes := model.nodes.push { id, flags, timeline := line } }
  have grown : Grown model longer :=
    ⟨Nat.le_refl _,Nat.le_refl _,Nat.le_refl _,by simp [longer],Nat.le_refl _⟩
  have added : longer.HasNode ⟨model.nodes.size⟩ := by simp [HasNode,longer]
  have pushed : longer.Known :=
    known.grow grown (fun _ => .inl) (fun _ => .inl) (fun _ => .inl)
      (mem_push ⟨inside,nofun,nofun,nofun,nofun,nofun⟩) fun _ => .inl
  have listed {model : Model} (known : model.Known) {added : NodeId} (there : model.HasNode added) :
      (model.modifyTimeline line fun timeline =>
        { timeline with nodes := timeline.nodes.push added }).Known := by
    refine known.modifyTimeline line fun timeline kept => ⟨kept.group,fun node member => ?_⟩
    rcases Array.mem_push.mp member with old | rfl
    · exact kept.nodes node old
    · exact there
  simp only [Model.addNode]
  split
  · rename_i last _
    have chained : (longer.modifyNode last ({ · with next := some ⟨model.nodes.size⟩ })).Known := by
      refine pushed.modifyNode last fun node there => { there with next := ?_ }
      rintro next ⟨⟩
      exact added
    exact listed chained (Nat.lt_of_lt_of_eq added (size_nodes_modifyNode ..).symm)
  · exact listed pushed added

theorem Known.addMessage (known : model.Known) {sender : NodeId} (senderId receiverId : UInt8)
    (timeline name : Name) (inside : model.HasNode sender) :
    (model.addMessage sender senderId receiverId timeline name).1.Known := by
  let message : Message :=
    { name, sender, senderId, sendingTimeline := (model.node sender).timeline,
      targetTimelineName := timeline, receiver := .unresolved receiverId.toUInt16 }
  let longer : Model := { model with messages := model.messages.push message }
  have grown : Grown model longer :=
    ⟨Nat.le_refl _,Nat.le_refl _,Nat.le_refl _,Nat.le_refl _,by simp [longer]⟩
  have pushed : longer.Known :=
    known.grow grown (fun _ => .inl) (fun _ => .inl) (fun _ => .inl) (fun _ => .inl)
      (mem_push ⟨inside,(known.node inside).timeline,nofun,nofun⟩)
  have noted : (longer.modifyNode sender ({ · with sent := some ⟨model.messages.size⟩ })).Known := by
    refine pushed.modifyNode sender fun node there => { there with sent := ?_ }
    rintro id ⟨⟩
    simp [HasMessage,longer]
  exact noted.modifyGroup_other _ fun _ => ⟨rfl,rfl⟩

theorem empty_known : Known {} := by
  refine ⟨fun group member => ?_,nofun,nofun,nofun,nofun⟩
  rw [Array.mem_singleton.mp member]
  exact Group.known_blank _ default

theorem Change.known (known : before.Known) (change : before.Change after) : after.Known := by
  cases change with
  | group name => exact known.findOrAddGroup name
  | state group name id inside => exact known.addState name id inside
  | transition id target inside =>
    refine known.modifyState id fun state there => ⟨there.group,fun transition member => ?_⟩
    rcases Array.mem_push.mp member with old | rfl
    · exact there.transitions transition old
    · exact ⟨nofun,nofun,nofun⟩
  | trigger id position trigger inside =>
    refine known.modifyTransition id position fun transition there => { there with trigger := ?_ }
    rintro other ⟨⟩
    exact inside
  | triggers id position trigger inside =>
    refine known.modifyTransition id position fun transition there =>
      { there with triggers := fun other member => ?_ }
    rcases Array.mem_push.mp member with old | rfl
    · exact there.triggers other old
    · exact inside
  | guard id position text =>
    exact known.modifyTransition id position fun transition there => { there with }
  | timeline group name inside => exact known.addTimeline name inside
  | node line id flags inside => exact known.addNode id flags inside
  | message sender sending inside => exact known.addMessage _ _ _ _ inside
  | condition id text => exact known.modifyNode id fun node there => { there with }
  | application name =>
    simp only [Builder.findOrAddApplication]
    split
    · exact known
    · exact known.modifyGroup_other _ fun _ => ⟨rfl,rfl⟩
  | applicationContent | api | sample => exact known.modifyGroup_other _ fun _ => ⟨rfl,rfl⟩

/-- A message is said to be sent from the timeline that its sender is on. -/
def Homed (model : Model) : Prop :=
  ∀ id, model.HasMessage id →
    (model.message id).sendingTimeline = (model.node (model.message id).sender).timeline

theorem Homed.of_same (homed : before.Homed) (messages : after.messages = before.messages)
    (timeline : ∀ id, (after.node id).timeline = (before.node id).timeline) : after.Homed := by
  intro id inside
  have message : after.message id = before.message id := by simp only [Model.message, messages]
  rw [HasMessage, messages] at inside
  rw [message, timeline]
  exact homed id inside

theorem Change.homed (built : before.Built) (known : before.Known) (homed : before.Homed)
    (change : before.Change after) : after.Homed := by
  cases change with
  | node line id flags inside =>
    have messages : (before.addNode line id flags).1.messages = before.messages := by
      simp only [addNode]
      split
      · rfl
      · rfl
    intro other there
    have message : (before.addNode line id flags).1.message other = before.message other := by
      simp only [Model.message, messages]
    rw [HasMessage, messages] at there
    rw [message, timeline_addNode_known built.drawn.lined _ _ _ (known.message there).sender]
    exact homed other there
  | message sender sending inside =>
    have timeline (other : NodeId) :
        ((before.addMessage sender sending.sender sending.receiver sending.timeline
          sending.message).1.node other).timeline = (before.node other).timeline := by
      rw [node_addMessage inside]
      split
      · rfl
      · rfl
    intro other there
    rw [timeline, message_addMessage]
    split
    · rfl
    · rename_i old
      have there : other.index < before.messages.size + 1 :=
        Nat.lt_of_lt_of_eq there (Array.size_push ..)
      exact homed other (by omega)
  | condition id text =>
    refine homed.of_same rfl fun other => ?_
    rw [node_modifyNode]
    split
    · rfl
    · rfl
  | group name =>
    obtain ⟨_,_,_,nodes,messages⟩ := before.findOrAddGroup_keeps name
    refine homed.of_same messages fun other => ?_
    simp only [Model.node, nodes]
  | application name =>
    simp only [Builder.findOrAddApplication]
    split
    · exact homed
    · exact homed.of_same rfl fun _ => rfl
  | state | transition | trigger | triggers | guard | timeline | applicationContent | api | sample =>
    exact homed.of_same rfl fun _ => rfl

end Model

namespace Builder

variable {builder : Builder}

theorem Reachable.known (reachable : builder.Reachable) : builder.model.Known :=
  reachable.model_holds Model.empty_known fun _ _ => Model.Change.known

theorem Reachable.homed (reachable : builder.Reachable) : builder.model.Homed := by
  have all : builder.model.Built ∧ builder.model.Known ∧ builder.model.Homed := by
    refine reachable.model_holds (P := fun model => model.Built ∧ model.Known ∧ model.Homed)
      ⟨Model.empty_built,Model.empty_known,nofun⟩ ?_
    rintro before after ⟨built,known,homed⟩ change
    exact ⟨change.built built,change.known known,change.homed built known homed⟩
  exact all.2.2

end Builder

end DocGraph
