import DocGraph.Proofs.KnownItems

/-! Machines share out the states, diagrams the timelines, and timelines the nodes, each to the place that it
names itself. -/
namespace DocGraph

/-- The items are divided among the places. Each of them is listed once, at its own place. -/
structure Divided (places : List κ) (lists : κ → List ι) (own : ι → κ) (items : List ι) : Prop where
  once : (places.flatMap lists).Perm items
  own : ∀ place, ∀ item ∈ lists place, own item = place

theorem Divided.intro {places : List κ} {lists : κ → List ι} {own : ι → κ} {items : List ι}
    (apart : places.Nodup) (distinct : items.Nodup) (once : ∀ place, (lists place).Nodup)
    (known : ∀ place, ∀ item ∈ lists place, place ∈ places ∧ item ∈ items ∧ own item = place)
    (listed : ∀ item ∈ items, item ∈ lists (own item)) : Divided places lists own items := by
  refine ⟨?_,fun place item member => (known place item member).2.2⟩
  have nodup : (places.flatMap lists).Nodup := by
    refine List.nodup_flatMap.mpr ⟨fun place _ => once place,?_⟩
    refine apart.imp fun {place other} away item member member' => away ?_
    exact (known place item member).2.2.symm.trans (known other item member').2.2
  refine (List.perm_ext_iff_of_nodup nodup distinct).mpr fun item => ?_
  constructor
  · intro member
    obtain ⟨place,_,inside⟩ := List.mem_flatMap.mp member
    exact (known place item inside).2.1
  · intro member
    have here := listed item member
    exact List.mem_flatMap.mpr ⟨_,(known _ item here).1,here⟩

namespace Model

def timelineIds (model : Model) : List TimelineId :=
  (List.range model.timelines.size).map TimelineId.mk

def nodeIds (model : Model) : List NodeId := (List.range model.nodes.size).map NodeId.mk

variable {before after model : Model}

theorem mem_timelineIds_iff {id : TimelineId} : id ∈ model.timelineIds ↔ model.HasTimeline id := by
  cases id
  simp [timelineIds]

theorem mem_nodeIds_iff {id : NodeId} : id ∈ model.nodeIds ↔ model.HasNode id := by
  cases id
  simp [nodeIds]

theorem nodup_timelineIds (model : Model) : model.timelineIds.Nodup := by
  refine List.Nodup.map ?_ List.nodup_range
  exact fun _ _ => congrArg TimelineId.index

theorem nodup_nodeIds (model : Model) : model.nodeIds.Nodup := by
  refine List.Nodup.map ?_ List.nodup_range
  exact fun _ _ => congrArg NodeId.index

/-- A known graph whose items agree on where they are. -/
structure WellFormed (model : Model) : Prop extends model.Known where
  machines : Divided model.groupIds model.machine (fun id => (model.state id).group) model.stateIds
  diagrams : Divided model.groupIds model.diagram (fun id => (model.timeline id).group)
    model.timelineIds
  lines : Divided model.timelineIds model.nodesOf (fun id => (model.node id).timeline) model.nodeIds
  /-- The nodes of a timeline are a chain. -/
  chained : ∀ line position id, (model.nodesOf line)[position]? = some id →
    (model.node id).next = (model.nodesOf line)[position + 1]?
  homed : model.Homed
  sent : ∀ sender id, (model.node sender).sent = some id → (model.message id).sender = sender

theorem WellFormed.drawnNodes_perm (wellFormed : model.WellFormed) :
    model.drawnNodes.Perm model.nodeIds := by
  have split : model.drawnNodes = (model.groupIds.flatMap model.diagram).flatMap model.nodesOf :=
    List.flatMap_assoc.symm
  rw [split]
  exact (wellFormed.diagrams.once.flatMap_right _).trans wellFormed.lines.once

theorem Placed.diagrams (placed : model.Placed) :
    Divided model.groupIds model.diagram (fun id => (model.timeline id).group)
      model.timelineIds := by
  refine .intro model.nodup_groupIds model.nodup_timelineIds placed.once (fun group line member => ?_)
    fun line member => placed.drawn line (mem_timelineIds_iff.mp member)
  exact ⟨mem_groupIds_iff.mpr (known_of_diagram member),
    mem_timelineIds_iff.mpr (placed.known group line member),placed.own group line member⟩

theorem known_of_nodesOf {line : TimelineId} {id : NodeId} (member : id ∈ model.nodesOf line) :
    model.HasTimeline line := by
  refine Nat.lt_of_not_le fun outside => ?_
  have missing : model.timeline line = default := getD_outside outside
  rw [nodesOf, missing] at member
  cases member

theorem Built.lines (built : model.Built) :
    Divided model.timelineIds model.nodesOf (fun id => (model.node id).timeline) model.nodeIds := by
  obtain ⟨⟨lined,_⟩,placed,_⟩ := built
  refine .intro model.nodup_timelineIds model.nodup_nodeIds lined.nodup (fun line id member => ?_)
    fun id member => (placed.listed id (mem_nodeIds_iff.mp member)).2
  exact ⟨mem_timelineIds_iff.mpr (known_of_nodesOf member),
    mem_nodeIds_iff.mpr (lined.within line id member),lined.own line id member⟩

/-- What comes after has the same items in the same places. -/
structure Unmoved (before after : Model) : Prop extends Framed before after where
  groups : after.groups.size = before.groups.size
  machine : ∀ group, after.machine group = before.machine group
  states : after.states.size = before.states.size
  owner : ∀ id, (after.state id).group = (before.state id).group
  next : ∀ id, (after.node id).next = (before.node id).next
  messages : after.messages.size = before.messages.size
  sender : ∀ id, (after.message id).sender = (before.message id).sender
  home : ∀ id, (after.message id).sendingTimeline = (before.message id).sendingTimeline

theorem Unmoved.refl (model : Model) : Unmoved model model :=
  ⟨.refl model,rfl,fun _ => rfl,rfl,fun _ => rfl,fun _ => rfl,rfl,fun _ => rfl,fun _ => rfl⟩

theorem Unmoved.trans {first second third : Model} (before : Unmoved first second)
    (after : Unmoved second third) : Unmoved first third where
  toFramed := before.toFramed.trans after.toFramed
  groups := after.groups.trans before.groups
  machine group := (after.machine group).trans (before.machine group)
  states := after.states.trans before.states
  owner id := (after.owner id).trans (before.owner id)
  next id := (after.next id).trans (before.next id)
  messages := after.messages.trans before.messages
  sender id := (after.sender id).trans (before.sender id)
  home id := (after.home id).trans (before.home id)

theorem unmoved_modifyGroup (model : Model) (id : GroupId) {change : Group → Group}
    (keeps : ∀ group, (change group).states = group.states ∧
      (change group).timelines = group.timelines) : Unmoved model (model.modifyGroup id change) where
  toFramed := framed_modifyGroup model id fun group => (keeps group).2
  groups := size_groups_modifyGroup ..
  machine := machine_modifyGroup model id fun group => (keeps group).1
  states := rfl
  owner _ := rfl
  next _ := rfl
  messages := rfl
  sender _ := rfl
  home _ := rfl

theorem unmoved_modifyState (model : Model) (id : StateId) {change : State → State}
    (keeps : ∀ state, (change state).group = state.group) :
    Unmoved model (model.modifyState id change) where
  toFramed := framed_of_eq (fun _ => rfl) rfl rfl
  groups := rfl
  machine _ := rfl
  states := size_states_modifyState ..
  owner other := by
    rw [state_modifyState]
    split
    · exact keeps _
    · rfl
  next _ := rfl
  messages := rfl
  sender _ := rfl
  home _ := rfl

theorem unmoved_modifyNode (model : Model) (id : NodeId) {change : Node → Node}
    (keeps : ∀ node, (change node).id = node.id ∧ (change node).timeline = node.timeline ∧
      (change node).sent = node.sent) (next : ∀ node, (change node).next = node.next) :
    Unmoved model (model.modifyNode id change) where
  toFramed := framed_modifyNode model id keeps
  groups := rfl
  machine _ := rfl
  states := rfl
  owner _ := rfl
  next other := by
    rw [node_modifyNode]
    split
    · exact next _
    · rfl
  messages := rfl
  sender _ := rfl
  home _ := rfl

theorem unmoved_modifyMessage (model : Model) (id : MessageId) {change : Message → Message}
    (keeps : ∀ message, (change message).sender = message.sender ∧
      (change message).sendingTimeline = message.sendingTimeline) :
    Unmoved model (model.modifyMessage id change) := by
  have kept (other : MessageId) :
      ((model.modifyMessage id change).message other).sender = (model.message other).sender ∧
      ((model.modifyMessage id change).message other).sendingTimeline =
        (model.message other).sendingTimeline := by
    rw [message_modifyMessage]
    split
    · exact keeps _
    · exact ⟨rfl,rfl⟩
  exact ⟨framed_of_eq (fun _ => rfl) rfl rfl,rfl,fun _ => rfl,rfl,fun _ => rfl,fun _ => rfl,
    size_messages_modifyMessage ..,fun other => (kept other).1,fun other => (kept other).2⟩

/-- Whatever else changes, a graph in which nothing is moved keeps its shape. -/
theorem WellFormed.unmoved (wellFormed : before.WellFormed) (unmoved : Unmoved before after)
    (known : after.Known) : after.WellFormed := by
  have line (id : TimelineId) : after.timeline id = before.timeline id := by
    simp only [Model.timeline, unmoved.timelines]
  have nodesOf (id : TimelineId) : after.nodesOf id = before.nodesOf id := by
    simp only [Model.nodesOf, line]
  have groupIds : after.groupIds = before.groupIds := by simp only [Model.groupIds, unmoved.groups]
  have stateIds : after.stateIds = before.stateIds := by simp only [Model.stateIds, unmoved.states]
  have timelineIds : after.timelineIds = before.timelineIds := by
    simp only [Model.timelineIds, unmoved.timelines]
  have nodeIds : after.nodeIds = before.nodeIds := by simp only [Model.nodeIds, unmoved.size]
  refine ⟨known,?_,?_,?_,?_,?_,?_⟩
  · rw [groupIds, stateIds, funext unmoved.machine]
    simp only [unmoved.owner]
    exact wellFormed.machines
  · rw [groupIds, timelineIds, funext unmoved.diagram]
    simp only [line]
    exact wellFormed.diagrams
  · rw [timelineIds, nodeIds, funext nodesOf]
    simp only [unmoved.timeline]
    exact wellFormed.lines
  · intro id position node found
    rw [nodesOf] at found ⊢
    rw [unmoved.next]
    exact wellFormed.chained id position node found
  · intro id inside
    rw [HasMessage, unmoved.messages] at inside
    rw [unmoved.home, unmoved.sender, unmoved.timeline]
    exact wellFormed.homed id inside
  · intro sender id sent
    rw [unmoved.sent] at sent
    rw [unmoved.sender]
    exact wellFormed.sent sender id sent

theorem WellFormed.nameDocument (wellFormed : model.WellFormed) :
    (Loaded.nameDocument model).1.WellFormed := by
  unfold Loaded.nameDocument
  split
  · split
    · exact wellFormed
    · exact wellFormed.unmoved (unmoved_modifyGroup model root fun _ => ⟨rfl,rfl⟩)
        (wellFormed.toKnown.modifyGroup_other root fun _ => ⟨rfl,rfl⟩)
  · exact wellFormed

end Model

theorem Builder.Reachable.wellFormed {builder : Builder} (reachable : builder.Reachable) :
    builder.model.WellFormed where
  toKnown := reachable.known
  machines := ⟨reachable.enrolled.machineStates_perm,reachable.enrolled.lists.own⟩
  diagrams := reachable.built.placed.diagrams
  lines := reachable.built.lines
  chained := reachable.built.drawn.lined.chained
  homed := reachable.homed
  sent sender id sent := (reachable.built.posted.own sender id sent).2

end DocGraph
