import DocGraph.Proofs.GraphShape
import DocGraph.Proofs.RecordEffects
import DocGraph.Proofs.RecordRun

/-! What a record may do to items that are there already. Linking and the naming of the document are not among
the changes considered. -/
namespace DocGraph

/-- What stays of a state. -/
def State.bare (state : State) : State := { state with transitions := #[] }

def Timeline.bare (line : Timeline) : Timeline := { line with nodes := #[] }

def Node.bare (node : Node) : Node := { node with sent := none, condition := none, next := none }

namespace Model

/-- Every item has its place, and stays what it is. -/
structure Lasting (before after : Model) : Prop where
  groups : Keeps Group.name before.groups after.groups
  states : Keeps State.bare before.states after.states
  timelines : Keeps Timeline.bare before.timelines after.timelines
  nodes : Keeps Node.bare before.nodes after.nodes
  messages : Keeps id before.messages after.messages

theorem Lasting.refl (model : Model) : Lasting model model :=
  ⟨.refl _ _,.refl _ _,.refl _ _,.refl _ _,.refl _ _⟩

theorem Lasting.trans {first second third : Model} (earlier : Lasting first second)
    (later : Lasting second third) : Lasting first third where
  groups := earlier.groups.trans later.groups
  states := earlier.states.trans later.states
  timelines := earlier.timelines.trans later.timelines
  nodes := earlier.nodes.trans later.nodes
  messages := earlier.messages.trans later.messages

variable {before after : Model}

theorem Regrouped.lasting (regrouped : Regrouped before after) : Lasting before after := by
  obtain ⟨_,_,_,_,_⟩ := before
  obtain ⟨_,_,_,_,_⟩ := after
  obtain ⟨rfl,rfl,rfl,rfl,groups⟩ := regrouped
  exact { Lasting.refl _ with groups }

theorem Regrouped.lined (regrouped : Regrouped before after) (lined : before.Lined) : after.Lined := by
  obtain ⟨_,_,_,_,_⟩ := before
  obtain ⟨_,_,_,_,_⟩ := after
  obtain ⟨rfl,rfl,rfl,rfl,_⟩ := regrouped
  exact ⟨lined.within,lined.own,lined.sorted,lined.chained⟩

theorem lasting_modifyGroup (model : Model) (id : GroupId) {change : Group → Group}
    (same : ∀ group, (change group).name = group.name) : Lasting model (model.modifyGroup id change) :=
  (regrouped_modifyGroup model id same).lasting

theorem lasting_modifyState (model : Model) (id : StateId) {change : State → State}
    (same : ∀ state, (change state).bare = state.bare) : Lasting model (model.modifyState id change) :=
  { Lasting.refl model with states := .modify same .. }

theorem lasting_modifyTimeline (model : Model) (id : TimelineId) {change : Timeline → Timeline}
    (same : ∀ line, (change line).bare = line.bare) : Lasting model (model.modifyTimeline id change) :=
  { Lasting.refl model with timelines := .modify same .. }

theorem lasting_modifyNode (model : Model) (id : NodeId) {change : Node → Node}
    (same : ∀ node, (change node).bare = node.bare) : Lasting model (model.modifyNode id change) :=
  { Lasting.refl model with nodes := .modify same .. }

theorem lasting_addState (model : Model) (group : GroupId) (name : Name) (id : UInt16) :
    Lasting model (model.addState group name id).1 := by
  let added : Model := { model with states := model.states.push { name, group, id } }
  have pushed : Lasting model added := { Lasting.refl model with states := .push .. }
  exact pushed.trans (added.lasting_modifyGroup group fun _ => rfl)

theorem lasting_addTimeline (model : Model) (group : GroupId) (name : Name) :
    Lasting model (model.addTimeline group name).1 := by
  let added : Model := { model with timelines := model.timelines.push { name, group } }
  have pushed : Lasting model added := { Lasting.refl model with timelines := .push .. }
  exact pushed.trans (added.lasting_modifyGroup group fun _ => rfl)

theorem lasting_addNode (model : Model) (line : TimelineId) (id : UInt16) (flags : Flags) :
    Lasting model (model.addNode line id flags).1 := by
  let added : Model := { model with nodes := model.nodes.push { id, flags, timeline := line } }
  have pushed : Lasting model added := { Lasting.refl model with nodes := .push .. }
  simp only [addNode]
  split
  · rename_i last _
    let chained := added.modifyNode last ({ · with next := some ⟨model.nodes.size⟩ })
    have linked : Lasting model chained := pushed.trans (added.lasting_modifyNode last fun _ => rfl)
    exact linked.trans (chained.lasting_modifyTimeline line fun _ => rfl)
  · exact pushed.trans (added.lasting_modifyTimeline line fun _ => rfl)

theorem lasting_addMessage (model : Model) (sender : NodeId) (senderId receiverId : UInt8)
    (target name : Name) : Lasting model (model.addMessage sender senderId receiverId target name).1 := by
  let message : Message :=
    { name, sender, senderId, sendingTimeline := (model.node sender).timeline,
      targetTimelineName := target, receiver := .unresolved receiverId.toUInt16 }
  let added : Model := { model with messages := model.messages.push message }
  let noted := added.modifyNode sender ({ · with sent := some ⟨model.messages.size⟩ })
  have pushed : Lasting model added := { Lasting.refl model with messages := .push .. }
  have sent : Lasting model noted := pushed.trans (added.lasting_modifyNode sender fun _ => rfl)
  exact sent.trans (noted.lasting_modifyGroup _ fun _ => rfl)

theorem nodesOf_addNode_other (model : Model) {line other : TimelineId} (id : UInt16) (flags : Flags)
    (different : other ≠ line) : (model.addNode line id flags).1.nodesOf other = model.nodesOf other := by
  simp only [addNode]
  split
  all_goals
    rw [nodesOf, timeline_modifyTimeline, if_neg fun both => different both.1]
    rfl

end Model

namespace Section.Effect

open Model

variable {current : Section} {before after : Model} {limits limits' : Limits}

theorem lasting (effect : current.Effect before limits after limits') : Lasting before after := by
  cases effect with
  | none => exact .refl before
  | state group name id => exact before.lasting_addState group name id
  | transitions id => exact before.lasting_modifyState id fun _ => rfl
  | timeline group name => exact before.lasting_addTimeline group name
  | node line _ id flags => exact before.lasting_addNode line id flags
  | message sender => exact before.lasting_addMessage sender ..
  | condition id => exact before.lasting_modifyNode id fun _ => rfl

end Section.Effect

namespace Builder

theorem lasting_apply (builder : Builder) (record : Record) :
    builder.model.Lasting (builder.apply record).1.model := by
  obtain ⟨_,regrouped,effect⟩ := builder.apply_effected record
  exact regrouped.lasting.trans effect.lasting

/-- A builder that has been given records, and goes on behind those that it rejects. -/
def afterRecords (builder : Builder) (records : List Record) : Builder :=
  records.foldl (fun builder record => (builder.apply record).1) builder

theorem lasting_afterRecords (builder : Builder) (records : List Record) :
    builder.model.Lasting (builder.afterRecords records).model :=
  List.foldlRecOn (motive := fun after : Builder => builder.model.Lasting after.model) records _
    (.refl builder.model) fun after lasting record _ => lasting.trans (after.lasting_apply record)

end Builder

/-- What may become of the items that a graph has while a section is open: of states, the transitions of
the open one; of timelines, the open one gets a node more; of nodes, what the open one sends and its
condition, and where the last one of the open timeline leads, when a node is added after it. -/
structure Section.Confines (current : Section) (before after : Model) : Prop where
  state : ∀ id, before.HasState id → current.state? ≠ some id → after.state id = before.state id
  nodesOf : ∀ line, before.HasTimeline line → after.nodesOf line = before.nodesOf line ∨
    current.timeline? = some line ∧ after.nodesOf line = before.nodesOf line ++ [⟨before.nodes.size⟩]
  sent : ∀ id, before.HasNode id → current.node? ≠ some id →
    (after.node id).sent = (before.node id).sent
  condition : ∀ id, before.HasNode id → current.node? ≠ some id →
    (after.node id).condition = (before.node id).condition
  next : ∀ id, before.HasNode id → (after.node id).next = (before.node id).next ∨
    ∃ line, current.timeline? = some line ∧ (before.nodesOf line).getLast? = some id ∧
      after.nodesOf line = before.nodesOf line ++ [⟨before.nodes.size⟩] ∧
      (after.node id).next = some ⟨before.nodes.size⟩

namespace Section

open Model

variable {current : Section} {before middle after : Model} {limits limits' : Limits}

theorem Confines.of_regrouped (regrouped : before.Regrouped middle)
    (confines : current.Confines middle after) : current.Confines before after := by
  obtain ⟨_,_,_,_,_⟩ := before
  obtain ⟨_,_,_,_,_⟩ := middle
  obtain ⟨rfl,rfl,rfl,rfl,_⟩ := regrouped
  exact ⟨confines.state,confines.nodesOf,confines.sent,confines.condition,confines.next⟩

theorem confines_of_state (timelines : ∀ line, before.HasTimeline line →
      after.timeline line = before.timeline line) (nodes : after.nodes = before.nodes)
    (state : ∀ id, before.HasState id → current.state? ≠ some id → after.state id = before.state id) :
    current.Confines before after where
  state := state
  nodesOf line known := .inl (congrArg (·.nodes.toList) (timelines line known))
  sent id _ _ := by simp only [Model.node, nodes]
  condition id _ _ := by simp only [Model.node, nodes]
  next id _ := .inl (by simp only [Model.node, nodes])

/-- A change of the open node is confined when it leads nowhere else. -/
theorem confines_modifyNode {opened : NodeId} (inside : current.node? = some opened)
    {change : Node → Node} (next : ∀ node, (change node).next = node.next) :
    current.Confines before (before.modifyNode opened change) := by
  have stay {id : NodeId} (apart : current.node? ≠ some id) :
      (before.modifyNode opened change).node id = before.node id := by
    have different : id ≠ opened := fun same => apart (same ▸ inside)
    rw [node_modifyNode, if_neg fun both => different both.1]
  refine ⟨fun _ _ _ => rfl,fun _ _ => .inl rfl,?_,?_,fun id _ => .inl ?_⟩
  · exact fun id _ apart => congrArg Node.sent (stay apart)
  · exact fun id _ apart => congrArg Node.condition (stay apart)
  · rw [node_modifyNode]
    split
    · exact next _
    · rfl

theorem confines_addNode (lined : before.Lined) {line : TimelineId}
    (inside : current.timeline? = some line) (id : UInt16) (flags : Flags) :
    current.Confines before (before.addNode line id flags).1 := by
  refine ⟨fun other _ _ => ?_,fun other known => ?_,?_,?_,fun other known => ?_⟩
  · simp only [Model.state, states_addNode]
  · by_cases same : other = line
    · subst same
      right
      rw [nodesOf_addNode before id flags known, if_pos rfl]
      exact ⟨inside,rfl⟩
    · exact .inl (nodesOf_addNode_other before id flags same)
  · intro other known _
    rw [node_addNode_known lined line id flags known]
    split
    · rfl
    · rfl
  · intro other known _
    rw [node_addNode_known lined line id flags known]
    split
    · rfl
    · rfl
  · rw [node_addNode_known lined line id flags known]
    split
    · rename_i last
      have there := known_of_nodesOf (List.mem_of_getLast? last)
      right
      refine ⟨line,inside,last,?_,rfl⟩
      rw [nodesOf_addNode before id flags there, if_pos rfl]
    · exact .inl rfl

theorem Effect.confines (effect : current.Effect before limits after limits') (lined : before.Lined) :
    current.Confines before after := by
  cases effect with
  | none => exact confines_of_state (fun _ _ => rfl) rfl fun _ _ _ => rfl
  | state group name id =>
    refine confines_of_state (fun _ _ => rfl) rfl fun other known _ => ?_
    have pushed : (before.addState group name id).1.state other =
        if other.index = before.states.size then { name, group, id } else before.state other :=
      getD_push ..
    rw [pushed, if_neg (Nat.ne_of_lt known)]
  | transitions id inside =>
    refine confines_of_state (fun _ _ => rfl) rfl fun other _ apart => ?_
    have different : other ≠ id := fun same => apart (same ▸ inside)
    rw [state_modifyState, if_neg fun both => different both.1]
  | timeline group name =>
    refine confines_of_state (fun other known => ?_) rfl fun _ _ _ => rfl
    have pushed : (before.addTimeline group name).1.timeline other =
        if other.index = before.timelines.size then { name, group } else before.timeline other :=
      getD_push ..
    rw [pushed, if_neg (Nat.ne_of_lt known)]
  | node line inside id flags => exact confines_addNode lined inside id flags
  | message sender inside sending =>
    have noted : current.Confines before
        (before.modifyNode sender ({ · with sent := some ⟨before.messages.size⟩ })) :=
      confines_modifyNode inside fun _ => rfl
    exact ⟨noted.state,noted.nodesOf,noted.sent,noted.condition,noted.next⟩
  | condition id inside => exact confines_modifyNode inside fun _ => rfl

end Section

/-- A record, rejected or not, leaves every item what it is and changes the open ones only; and no run of
records makes another item of one that is there. -/
theorem Builder.Reachable.apply_confined {builder : Builder} (reachable : builder.Reachable) :
    (∀ record, builder.model.Lasting (builder.apply record).1.model ∧
      builder.current.Confines builder.model (builder.apply record).1.model) ∧
    ∀ records, builder.model.Lasting (builder.afterRecords records).model := by
  refine ⟨fun record => ⟨builder.lasting_apply record,?_⟩,builder.lasting_afterRecords⟩
  obtain ⟨model,regrouped,effect⟩ := builder.apply_effected record
  exact (effect.confines (regrouped.lined reachable.built.drawn.lined)).of_regrouped regrouped

/-- Two timelines, with a node each. The second node is open, and the first has sent a message. -/
def pending : List Record :=
  let name (letter : UInt8) : Name := ⟨[letter],false⟩
  [.sequenceStart (name 103), .timeline ⟨name 103,name 65⟩, .nodeStart 1 0,
    .sentMessage ⟨1,2,name 66,name 109⟩, .nodeEnd, .timeline ⟨name 103,name 66⟩, .nodeStart 2 0]

/-- A record for another node moves on from the open one: only the open timeline lists more, and only its
last node leads on. A record for a state is rejected, and one for a trigger outside of a transition is
rejected after it has added its group. -/
theorem pending_confined :
    ∃ builder, Builder.applyAll {} pending = some builder ∧
      let next := (builder.apply (.nodeStart 3 0)).1
      let name (letter : UInt8) : Name := ⟨[letter],false⟩
      let later := builder.afterRecords [.state 4 ⟨name 103,name 97⟩, .nodeStart 3 0, .sequenceEnd,
        .stateMachineStart (name 103), .trigger ⟨name 104,name 98⟩]
      next.model.nodesOf ⟨0⟩ = builder.model.nodesOf ⟨0⟩ ∧
      next.model.nodesOf ⟨1⟩ = builder.model.nodesOf ⟨1⟩ ++ [⟨2⟩] ∧
      (next.model.node ⟨0⟩).sent = some ⟨0⟩ ∧ (next.model.node ⟨0⟩).next = none ∧
      (next.model.node ⟨1⟩).next = some ⟨2⟩ ∧
      builder.model.groups.size = 2 ∧ later.model.groups.size = 3 ∧
      Keeps Node.bare builder.model.nodes later.model.nodes := by
  have checked : (Builder.applyAll {} pending).any fun builder =>
      let next := (builder.apply (.nodeStart 3 0)).1
      let name (letter : UInt8) : Name := ⟨[letter],false⟩
      let later := builder.afterRecords [.state 4 ⟨name 103,name 97⟩, .nodeStart 3 0, .sequenceEnd,
        .stateMachineStart (name 103), .trigger ⟨name 104,name 98⟩]
      builder.current.timeline? = some ⟨1⟩ ∧ builder.current.node? = some ⟨1⟩ ∧
      builder.model.nodes.size = 2 ∧ builder.model.timelines.size = 2 ∧
      (builder.model.nodesOf ⟨1⟩).getLast? = some ⟨1⟩ ∧
      (builder.model.node ⟨0⟩).sent = some ⟨0⟩ ∧ (builder.model.node ⟨0⟩).next = none ∧
      (builder.model.node ⟨1⟩).next = none ∧ (next.model.node ⟨1⟩).next = some ⟨2⟩ ∧
      builder.model.groups.size = 2 ∧ later.model.groups.size = 3 := by
    decide +kernel
  obtain ⟨builder,accepted,holds⟩ := (Option.any_eq_true _ _).mp checked
  obtain ⟨line,node,nodes,lines,last,sent,unled,free,led,groups,more⟩ := of_decide_eq_true holds
  have reachable := Builder.applyAll_reachable .initial accepted
  obtain ⟨step,run⟩ := reachable.apply_confined
  obtain ⟨_,confines⟩ := step (.nodeStart 3 0)
  have first : builder.model.HasNode ⟨0⟩ := by simp [nodes]
  have second : builder.model.HasNode ⟨1⟩ := by simp [nodes]
  refine ⟨builder,accepted,?_,?_,?_,?_,led,groups,more,(run _).nodes⟩
  · rcases confines.nodesOf ⟨0⟩ (by simp [lines]) with same | ⟨opened,_⟩
    · exact same
    · simp [line] at opened
  · rcases confines.next ⟨1⟩ second with same | ⟨other,opened,_,grown,_⟩
    · simp [free,led] at same
    · rw [line] at opened
      cases opened
      rwa [nodes] at grown
  · rw [confines.sent ⟨0⟩ first (by simp [node])]
    exact sent
  · rcases confines.next ⟨0⟩ first with same | ⟨other,opened,stands,_⟩
    · exact same.trans unled
    · rw [line] at opened
      cases opened
      simp [last] at stands

end DocGraph
