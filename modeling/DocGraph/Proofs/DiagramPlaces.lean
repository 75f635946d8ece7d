import DocGraph.Proofs.GroupItems
import DocGraph.Proofs.TimelineOrder

/-! Timelines, nodes and sent messages of graphs that nothing has been linked in yet, each at one place. -/
namespace DocGraph

namespace Model

/-- What comes after has the same diagrams, with the same nodes, which send the same messages. -/
structure Framed (before after : Model) : Prop where
  diagram : ∀ group, after.diagram group = before.diagram group
  timelines : after.timelines = before.timelines
  size : after.nodes.size = before.nodes.size
  number : ∀ id, (after.node id).id = (before.node id).id
  timeline : ∀ id, (after.node id).timeline = (before.node id).timeline
  sent : ∀ id, (after.node id).sent = (before.node id).sent

/-- No message has changed, and none has arrived. -/
structure Still (before after : Model) : Prop where
  messages : after.messages = before.messages
  received : ∀ id, (after.node id).received = (before.node id).received

variable {before after model : Model}

theorem Framed.refl (model : Model) : Framed model model :=
  ⟨fun _ => rfl,rfl,rfl,fun _ => rfl,fun _ => rfl,fun _ => rfl⟩

theorem Framed.trans {first second third : Model} (before : Framed first second)
    (after : Framed second third) : Framed first third where
  diagram group := (after.diagram group).trans (before.diagram group)
  timelines := after.timelines.trans before.timelines
  size := after.size.trans before.size
  number id := (after.number id).trans (before.number id)
  timeline id := (after.timeline id).trans (before.timeline id)
  sent id := (after.sent id).trans (before.sent id)

theorem Still.refl (model : Model) : Still model model := ⟨rfl,fun _ => rfl⟩

theorem Still.trans {first second third : Model} (before : Still first second)
    (after : Still second third) : Still first third :=
  ⟨after.messages.trans before.messages,fun id => (after.received id).trans (before.received id)⟩

theorem framed_of_eq (diagram : ∀ group, after.diagram group = before.diagram group)
    (timelines : after.timelines = before.timelines) (nodes : after.nodes = before.nodes) :
    Framed before after := by
  have same (id : NodeId) : after.node id = before.node id := by simp only [node, nodes]
  refine ⟨diagram,timelines,congrArg Array.size nodes,?_,?_,?_⟩
  all_goals
    intro id
    rw [same id]

theorem still_of_eq (nodes : after.nodes = before.nodes) (messages : after.messages = before.messages) :
    Still before after := by
  refine ⟨messages,fun id => ?_⟩
  simp only [node, nodes]

theorem diagram_modifyGroup (model : Model) (id : GroupId) {change : Group → Group}
    (keeps : ∀ group, (change group).timelines = group.timelines) (group : GroupId) :
    (model.modifyGroup id change).diagram group = model.diagram group :=
  congrArg (fun lines : Option (Array TimelineId) => (lines.getD #[]).toList)
    (field_modifyGroup Group.timelines keeps model id group)

theorem framed_modifyGroup (model : Model) (id : GroupId) {change : Group → Group}
    (keeps : ∀ group, (change group).timelines = group.timelines) :
    Framed model (model.modifyGroup id change) :=
  framed_of_eq (diagram_modifyGroup model id keeps) rfl rfl

theorem framed_modifyNode (model : Model) (id : NodeId) {change : Node → Node}
    (keeps : ∀ node, (change node).id = node.id ∧ (change node).timeline = node.timeline ∧
      (change node).sent = node.sent) : Framed model (model.modifyNode id change) := by
  have kept (other : NodeId) :
      ((model.modifyNode id change).node other).id = (model.node other).id ∧
      ((model.modifyNode id change).node other).timeline = (model.node other).timeline ∧
      ((model.modifyNode id change).node other).sent = (model.node other).sent := by
    rw [node_modifyNode]
    split
    · exact keeps _
    · exact ⟨rfl,rfl,rfl⟩
  exact ⟨fun _ => rfl,rfl,size_nodes_modifyNode ..,fun other => (kept other).1,
    fun other => (kept other).2.1,fun other => (kept other).2.2⟩

theorem still_modifyNode (model : Model) (id : NodeId) {change : Node → Node}
    (keeps : ∀ node, (change node).received = node.received) :
    Still model (model.modifyNode id change) := by
  refine ⟨rfl,fun other => ?_⟩
  rw [node_modifyNode]
  split
  · exact keeps _
  · rfl

structure Placed (model : Model) : Prop where
  known : ∀ group, ∀ line ∈ model.diagram group, line.index < model.timelines.size
  own : ∀ group, ∀ line ∈ model.diagram group, (model.timeline line).group = group
  once : ∀ group, (model.diagram group).Nodup
  drawn : ∀ line : TimelineId, line.index < model.timelines.size →
    line ∈ model.diagram (model.timeline line).group
  listed : ∀ id : NodeId, id.index < model.nodes.size →
    (model.node id).timeline.index < model.timelines.size ∧
      id ∈ model.nodesOf (model.node id).timeline

theorem Placed.lists (placed : model.Placed) :
    Listed TimelineId.index model.timelines.size (fun line => (model.timeline line).group)
      model.diagram :=
  ⟨placed.known,placed.own,placed.once,placed.drawn⟩

theorem Placed.of_lists
    (lists : Listed TimelineId.index model.timelines.size (fun line => (model.timeline line).group)
      model.diagram)
    (listed : ∀ id : NodeId, id.index < model.nodes.size →
      (model.node id).timeline.index < model.timelines.size ∧
        id ∈ model.nodesOf (model.node id).timeline) : model.Placed :=
  ⟨lists.known,lists.own,lists.once,lists.listed,listed⟩

theorem Placed.of_same (placed : before.Placed)
    (diagram : ∀ group, after.diagram group = before.diagram group)
    (timelines : after.timelines = before.timelines) (size : after.nodes.size = before.nodes.size)
    (timeline : ∀ id, (after.node id).timeline = (before.node id).timeline) : after.Placed := by
  have line (id : TimelineId) : after.timeline id = before.timeline id := by
    simp only [Model.timeline, timelines]
  refine .of_lists ?_ fun id known => ?_
  · rw [timelines]
    exact placed.lists.of_same (fun id => congrArg Timeline.group (line id)) diagram
  · rw [size] at known
    rw [timeline, timelines, nodesOf, line]
    exact placed.listed id known

theorem Placed.framed (placed : before.Placed) (framed : Framed before after) : after.Placed :=
  placed.of_same framed.diagram framed.timelines framed.size framed.timeline

theorem empty_placed : Placed {} := by
  have blank (group : GroupId) : diagram {} group = [] := by
    have none_ : (Model.group {} group).timelines = none := by
      unfold Model.group
      rcases group with ⟨_ | index⟩
      · rfl
      · rfl
    simp [diagram,none_]
  exact .of_lists (.empty blank) fun id known => absurd known (Nat.not_lt_zero _)

theorem diagram_addTimeline (model : Model) {group : GroupId} (name : Name)
    (known : group.index < model.groups.size) (other : GroupId) :
    (model.addTimeline group name).1.diagram other =
      if other = group then model.diagram group ++ [⟨model.timelines.size⟩]
      else model.diagram other := by
  unfold diagram addTimeline
  simp only
  rw [group_modifyGroup]
  by_cases same : other = group
  · subst same
    rw [if_pos ⟨rfl,known⟩, if_pos rfl]
    simp only [Option.getD_some, Array.toList_push]
    rfl
  · rw [if_neg (fun both => same both.1), if_neg same]
    rfl

theorem Placed.addTimeline (placed : model.Placed) {group : GroupId} (name : Name)
    (known : group.index < model.groups.size) : (model.addTimeline group name).1.Placed := by
  have size : (model.addTimeline group name).1.timelines.size = model.timelines.size + 1 := by
    simp [Model.addTimeline,modifyGroup]
  have nodes : (model.addTimeline group name).1.nodes = model.nodes := rfl
  have same (id : NodeId) : (model.addTimeline group name).1.node id = model.node id := rfl
  have owned (line : TimelineId) : ((model.addTimeline group name).1.timeline line).group =
      if line.index = model.timelines.size then group else (model.timeline line).group := by
    rw [timeline_addTimeline]
    split
    · rfl
    · rfl
  have lists := placed.lists.push TimelineId.index_injective ⟨model.timelines.size⟩ rfl owned
    (diagram_addTimeline model name known)
  rw [← size] at lists
  refine .of_lists lists fun id inside => ?_
  rw [nodes] at inside
  rw [same, size, nodesOf_addTimeline]
  obtain ⟨line,member⟩ := placed.listed id inside
  exact ⟨Nat.lt_succ_of_lt line,member⟩

theorem group_addNode (model : Model) (line : TimelineId) (id : UInt16) (flags : Flags)
    (other : TimelineId) :
    ((model.addNode line id flags).1.timeline other).group = (model.timeline other).group := by
  simp only [Model.addNode]
  split
  all_goals
    rw [timeline_modifyTimeline]
    split
    · rfl
    · rfl

theorem Placed.addNode (placed : model.Placed) (lined : model.Lined) {line : TimelineId} (id : UInt16)
    (flags : Flags) (known : line.index < model.timelines.size) :
    (model.addNode line id flags).1.Placed := by
  obtain ⟨groups,size,_⟩ := Builder.addNode_sizes model line id flags
  have diagram (group : GroupId) :
      (model.addNode line id flags).1.diagram group = model.diagram group := by
    simp only [Model.diagram, Model.group, groups]
  refine .of_lists ?_ fun other inside => ?_
  · rw [size]
    exact placed.lists.of_same (group_addNode model line id flags) diagram
  · rw [size_addNode] at inside
    rw [size, nodesOf_addNode _ _ _ known]
    by_cases new : other.index = model.nodes.size
    · rw [node_addNode lined, if_pos new, if_pos rfl]
      have last : other = ⟨model.nodes.size⟩ := by
        cases other
        cases new
        rfl
      refine ⟨known,?_⟩
      rw [last]
      exact List.mem_append_right _ List.mem_cons_self
    · have old : other.index < model.nodes.size := by omega
      rw [timeline_addNode_known lined _ _ _ old]
      obtain ⟨inside,member⟩ := placed.listed other old
      refine ⟨inside,?_⟩
      split
      · rename_i here
        rw [here] at member
        exact List.mem_append_left _ member
      · exact member

structure Posted (model : Model) : Prop where
  own : ∀ (sender : NodeId) (id : MessageId), (model.node sender).sent = some id →
    id.index < model.messages.size ∧ (model.message id).sender = sender
  latest : ∀ id : MessageId, id.index < model.messages.size → ∃ last : MessageId,
    (model.node (model.message id).sender).sent = some last ∧ id.index ≤ last.index
  waiting : ∀ id : MessageId, id.index < model.messages.size →
    ∃ number, (model.message id).receiver = .unresolved number
  nowhere : ∀ id : MessageId, (model.message id).targetTimeline = none
  unread : ∀ id : NodeId, (model.node id).received = none

theorem known_of_sent {sender : NodeId} {id : MessageId} (sent : (model.node sender).sent = some id) :
    sender.index < model.nodes.size := by
  refine Nat.lt_of_not_le fun outside => ?_
  have missing : model.node sender = default := getD_outside outside
  rw [missing] at sent
  cases sent

theorem Posted.of_same (posted : before.Posted) (messages : after.messages = before.messages)
    (sent : ∀ id, (after.node id).sent = (before.node id).sent)
    (received : ∀ id, (after.node id).received = (before.node id).received) : after.Posted := by
  have message (id : MessageId) : after.message id = before.message id := by
    simp only [Model.message, messages]
  refine ⟨?_,?_,?_,?_,?_⟩
  · intro sender id found
    rw [sent] at found
    rw [messages, message]
    exact posted.own sender id found
  · intro id known
    rw [messages] at known
    rw [message, sent]
    exact posted.latest id known
  · intro id known
    rw [messages] at known
    rw [message]
    exact posted.waiting id known
  · intro id
    rw [message]
    exact posted.nowhere id
  · intro id
    rw [received]
    exact posted.unread id

theorem Posted.still (posted : before.Posted) (framed : Framed before after)
    (still : Still before after) : after.Posted :=
  posted.of_same still.messages framed.sent still.received

theorem empty_posted : Posted {} := by
  refine ⟨?_,?_,?_,fun _ => rfl,fun _ => rfl⟩
  · intro sender id found
    cases found
  · intro id known
    cases known
  · intro id known
    cases known

/-- A node that is added has no messages. -/
theorem Posted.addNode (posted : model.Posted) (lined : model.Lined) (line : TimelineId) (id : UInt16)
    (flags : Flags) : (model.addNode line id flags).1.Posted := by
  have messages : (model.addNode line id flags).1.messages = model.messages := by
    simp only [Model.addNode]
    split
    · rfl
    · rfl
  have blank (other : NodeId) (new : other.index = model.nodes.size) : model.node other = default := by
    simp only [node, new, Array.getElem?_size, Option.getD_none]
  have kept (other : NodeId) :
      ((model.addNode line id flags).1.node other).sent = (model.node other).sent ∧
      ((model.addNode line id flags).1.node other).received = (model.node other).received := by
    rw [node_addNode lined]
    split
    · rename_i new
      rw [blank other new]
      exact ⟨rfl,rfl⟩
    · split
      · exact ⟨rfl,rfl⟩
      · exact ⟨rfl,rfl⟩
  exact posted.of_same messages (fun other => (kept other).1) fun other => (kept other).2

theorem message_addMessage (model : Model) (sender : NodeId) (senderId receiverId : UInt8)
    (timeline name : Name) (id : MessageId) :
    (model.addMessage sender senderId receiverId timeline name).1.message id =
      if id.index = model.messages.size then
        { name, sender, senderId, sendingTimeline := (model.node sender).timeline,
          targetTimelineName := timeline, receiver := .unresolved receiverId.toUInt16 }
      else model.message id := getD_push ..

theorem node_addMessage {model : Model} {sender : NodeId} (known : sender.index < model.nodes.size)
    (senderId receiverId : UInt8) (timeline name : Name) (id : NodeId) :
    (model.addMessage sender senderId receiverId timeline name).1.node id =
      if id = sender then { model.node id with sent := some ⟨model.messages.size⟩ }
      else model.node id := by
  have noted := node_modifyNode model sender id ({ · with sent := some ⟨model.messages.size⟩ })
  simp only [known, and_true] at noted
  exact noted

/-- The message that is added is the last one of its sender. -/
theorem Posted.addMessage (posted : model.Posted) {sender : NodeId}
    (known : sender.index < model.nodes.size) (senderId receiverId : UInt8) (timeline name : Name) :
    (model.addMessage sender senderId receiverId timeline name).1.Posted := by
  have size : (model.addMessage sender senderId receiverId timeline name).1.messages.size =
      model.messages.size + 1 := Array.size_push ..
  have message := model.message_addMessage sender senderId receiverId timeline name
  have node := node_addMessage known senderId receiverId timeline name
  have old (id : MessageId) (inside : id.index < model.messages.size) :
      (model.addMessage sender senderId receiverId timeline name).1.message id = model.message id := by
    rw [message, if_neg (Nat.ne_of_lt inside)]
  refine ⟨?_,?_,?_,?_,?_⟩
  · intro other id found
    rw [node] at found
    rw [size]
    split at found
    · rename_i here
      cases found
      refine ⟨Nat.lt_succ_self _,?_⟩
      rw [message, if_pos rfl, here]
    · obtain ⟨inside,own⟩ := posted.own other id found
      rw [old id inside]
      exact ⟨Nat.lt_succ_of_lt inside,own⟩
  · intro id inside
    rw [size] at inside
    rw [node]
    split
    · exact ⟨_,rfl,Nat.le_of_lt_succ inside⟩
    · rename_i apart
      by_cases new : id.index = model.messages.size
      · rw [message, if_pos new] at apart
        exact absurd rfl apart
      · rw [message, if_neg new]
        exact posted.latest id (by omega)
  · intro id inside
    rw [size] at inside
    rw [message]
    split
    · exact ⟨_,rfl⟩
    · exact posted.waiting id (by omega)
  · intro id
    rw [message]
    split
    · rfl
    · exact posted.nowhere id
  · intro id
    rw [node]
    split
    · exact posted.unread id
    · exact posted.unread id

/-- Graphs as they are built: in order, with no function paired and no message arrived. -/
structure Built (model : Model) : Prop where
  drawn : model.Drawn
  placed : model.Placed
  posted : model.Posted

theorem Built.still (built : before.Built) (drawn : after.Drawn) (framed : Framed before after)
    (still : Still before after) : after.Built :=
  ⟨drawn,built.placed.framed framed,built.posted.still framed still⟩

theorem empty_built : Built {} :=
  ⟨⟨empty_lined,empty_unpaired⟩,empty_placed,empty_posted⟩

theorem diagram_findOrAddGroup (model : Model) (name : Name) (group : GroupId) :
    (model.findOrAddGroup name).1.diagram group = model.diagram group :=
  congrArg (fun lines : Option (Array TimelineId) => (lines.getD #[]).toList)
    (field_findOrAddGroup Group.timelines (fun _ => rfl) model name group)

theorem Change.built (built : before.Built) (change : before.Change after) : after.Built := by
  have drawn := change.drawn built.drawn
  cases change with
  | timeline group name known =>
    exact ⟨drawn,built.placed.addTimeline name known,
      built.posted.of_same rfl (fun _ => rfl) fun _ => rfl⟩
  | node line id flags known =>
    have lined := built.drawn.lined
    exact ⟨drawn,built.placed.addNode lined id flags known,
      built.posted.addNode lined line id flags⟩
  | message sender sending known =>
    refine ⟨drawn,?_,built.posted.addMessage known ..⟩
    refine built.placed.of_same (diagram_modifyGroup _ _ fun _ => rfl) rfl
      (size_nodes_modifyNode ..) fun id => ?_
    rw [node_addMessage known]
    split
    · rfl
    · rfl
  | group name =>
    obtain ⟨_,_,timelines,nodes,messages⟩ := before.findOrAddGroup_keeps name
    exact built.still drawn (framed_of_eq (before.diagram_findOrAddGroup name) timelines nodes)
      (still_of_eq nodes messages)
  | application name =>
    simp only [Builder.findOrAddApplication]
    split
    · exact built
    · exact built.still (built.drawn.of_eq rfl rfl) (framed_modifyGroup before _ fun _ => rfl)
        (still_of_eq rfl rfl)
  | state group name id known =>
    exact built.still drawn (framed_of_eq (diagram_modifyGroup _ _ fun _ => rfl) rfl rfl)
      (still_of_eq rfl rfl)
  | applicationContent | api | sample =>
    exact built.still drawn (framed_modifyGroup before _ fun _ => rfl) (still_of_eq rfl rfl)
  | transition | trigger | triggers | guard =>
    exact built.still drawn (framed_of_eq (fun _ => rfl) rfl rfl) (still_of_eq rfl rfl)
  | condition id text =>
    exact built.still drawn (framed_modifyNode before id fun _ => ⟨rfl,rfl,rfl⟩)
      (still_modifyNode before id fun _ => rfl)

/-- The group in whose diagram a node is. -/
def groupOf (model : Model) (id : NodeId) : GroupId := (model.timeline (model.node id).timeline).group

/-- The nodes of all diagrams, in the order in which they are linked. -/
def drawnNodes (model : Model) : List NodeId := model.groupIds.flatMap model.diagramNodes

theorem Built.mem_diagramNodes_iff (built : model.Built) {group : GroupId} {id : NodeId} :
    id ∈ model.diagramNodes group ↔ id.index < model.nodes.size ∧ model.groupOf id = group := by
  obtain ⟨⟨lined,_⟩,placed,_⟩ := built
  constructor
  · intro member
    obtain ⟨line,inside,member⟩ := List.mem_flatMap.mp member
    refine ⟨lined.within line id member,?_⟩
    rw [groupOf, lined.own line id member]
    exact placed.own group line inside
  · rintro ⟨known,rfl⟩
    obtain ⟨line,member⟩ := placed.listed id known
    exact List.mem_flatMap.mpr ⟨_,placed.drawn _ line,member⟩

theorem Built.nodup_diagramNodes (built : model.Built) (group : GroupId) :
    (model.diagramNodes group).Nodup := by
  obtain ⟨⟨lined,_⟩,placed,_⟩ := built
  refine List.nodup_flatMap.mpr ⟨fun line _ => lined.nodup line,?_⟩
  refine (placed.once group).imp fun {line other} apart => ?_
  intro id member member'
  exact apart ((lined.own line id member).symm.trans (lined.own other id member'))

theorem known_of_diagram {group : GroupId} {line : TimelineId} (member : line ∈ model.diagram group) :
    group.index < model.groups.size := by
  refine Nat.lt_of_not_le fun outside => ?_
  have missing : model.group group = default := getD_outside outside
  rw [diagram, missing] at member
  cases member

theorem mem_groupIds_of_member {group : GroupId} {node : NodeId}
    (member : node ∈ model.diagramNodes group) : group ∈ model.groupIds := by
  obtain ⟨line,inside,_⟩ := List.mem_flatMap.mp member
  exact mem_groupIds_iff.mpr (known_of_diagram inside)

/-- The diagrams list every node. -/
theorem Built.mem_drawnNodes_iff (built : model.Built) {id : NodeId} :
    id ∈ model.drawnNodes ↔ id.index < model.nodes.size := by
  constructor
  · intro member
    obtain ⟨group,_,member⟩ := List.mem_flatMap.mp member
    exact (built.mem_diagramNodes_iff.mp member).1
  · intro known
    have here := built.mem_diagramNodes_iff.mpr ⟨known,rfl⟩
    exact List.mem_flatMap.mpr ⟨_,mem_groupIds_of_member here,here⟩

/-- The diagrams list no node twice. -/
theorem Built.nodup_drawnNodes (built : model.Built) : model.drawnNodes.Nodup := by
  refine List.nodup_flatMap.mpr ⟨fun group _ => built.nodup_diagramNodes group,?_⟩
  refine model.nodup_groupIds.imp fun {group other} apart => ?_
  intro id member member'
  have here := (built.mem_diagramNodes_iff.mp member).2
  have there := (built.mem_diagramNodes_iff.mp member').2
  exact apart (here.symm.trans there)

end Model

theorem Builder.Reachable.built {builder : Builder} (reachable : builder.Reachable) :
    builder.model.Built :=
  reachable.model_holds Model.empty_built fun _ _ => Model.Change.built

end DocGraph
