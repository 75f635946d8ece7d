import DocGraph.Proofs.GraphChanges

namespace DocGraph

namespace Model

def nodesOf (model : Model) (line : TimelineId) : List NodeId := (model.timeline line).nodes.toList

structure Lined (model : Model) : Prop where
  within : ∀ line, ∀ id ∈ model.nodesOf line, id.index < model.nodes.size
  own : ∀ line, ∀ id ∈ model.nodesOf line, (model.node id).timeline = line
  sorted : ∀ line, (model.nodesOf line).Pairwise fun earlier later => earlier.index < later.index
  chained : ∀ line position id, (model.nodesOf line)[position]? = some id →
    (model.node id).next = (model.nodesOf line)[position + 1]?

theorem Lined.nodup {model : Model} (lined : model.Lined) (line : TimelineId) :
    (model.nodesOf line).Nodup :=
  (lined.sorted line).imp fun {_ _} up same => absurd (congrArg NodeId.index same) (Nat.ne_of_lt up)

/-- A node leads to what follows it on its timeline. -/
theorem Lined.next_eq {model : Model} (lined : model.Lined) {line : TimelineId} {id : NodeId}
    {before after : List NodeId} (split : model.nodesOf line = before ++ id :: after) :
    (model.node id).next = after.head? := by
  have found : (model.nodesOf line)[before.length]? = some id := by simp [split]
  rw [lined.chained line before.length id found, split, List.head?_eq_getElem?]
  simp [List.getElem?_append_right]

/-- No function start has been paired with an end. -/
def Unpaired (model : Model) : Prop :=
  ∀ id, (model.node id).functionEnd = none ∧ (model.node id).functionStart = none

/-- What comes after has the same timelines, with the same nodes in the same places. -/
structure Settled (before after : Model) : Prop where
  timelines : after.timelines = before.timelines
  size : after.nodes.size = before.nodes.size
  timeline : ∀ id, (after.node id).timeline = (before.node id).timeline
  next : ∀ id, (after.node id).next = (before.node id).next
  flags : ∀ id, (after.node id).flags = (before.node id).flags

theorem Settled.refl (model : Model) : Settled model model :=
  ⟨rfl,rfl,fun _ => rfl,fun _ => rfl,fun _ => rfl⟩

theorem Settled.trans {first second third : Model} (before : Settled first second)
    (after : Settled second third) : Settled first third where
  timelines := after.timelines.trans before.timelines
  size := after.size.trans before.size
  timeline id := (after.timeline id).trans (before.timeline id)
  next id := (after.next id).trans (before.next id)
  flags id := (after.flags id).trans (before.flags id)

theorem settled_of_eq {before after : Model} (timelines : after.timelines = before.timelines)
    (nodes : after.nodes = before.nodes) : Settled before after := by
  have same (id : NodeId) : after.node id = before.node id := by simp only [node, nodes]
  exact ⟨timelines,congrArg Array.size nodes,fun id => congrArg _ (same id),
    fun id => congrArg _ (same id),fun id => congrArg _ (same id)⟩

theorem settled_modifyNode {model : Model} (id : NodeId) {change : Node → Node}
    (keeps : ∀ node, (change node).timeline = node.timeline ∧ (change node).next = node.next ∧
      (change node).flags = node.flags) : Settled model (model.modifyNode id change) := by
  have kept (other : NodeId) : ((model.modifyNode id change).node other).timeline =
      (model.node other).timeline ∧ ((model.modifyNode id change).node other).next =
      (model.node other).next ∧ ((model.modifyNode id change).node other).flags =
      (model.node other).flags := by
    rw [node_modifyNode]
    split
    · exact keeps _
    · exact ⟨rfl,rfl,rfl⟩
  exact ⟨rfl,size_nodes_modifyNode ..,fun other => (kept other).1,fun other => (kept other).2.1,
    fun other => (kept other).2.2⟩

variable {before after model : Model}

theorem Settled.nodesOf (settled : Settled before after) (line : TimelineId) :
    after.nodesOf line = before.nodesOf line := by
  simp only [Model.nodesOf, Model.timeline, settled.timelines]

theorem Lined.settled (lined : before.Lined) (settled : Settled before after) : after.Lined where
  within line id member := by
    rw [settled.nodesOf] at member
    rw [settled.size]
    exact lined.within line id member
  own line id member := by
    rw [settled.nodesOf] at member
    rw [settled.timeline]
    exact lined.own line id member
  sorted line := by
    rw [settled.nodesOf]
    exact lined.sorted line
  chained line position id found := by
    rw [settled.nodesOf] at found ⊢
    rw [settled.next]
    exact lined.chained line position id found

theorem Unpaired.of_eq (unpaired : before.Unpaired) (nodes : after.nodes = before.nodes) :
    after.Unpaired := by
  intro id
  simpa only [node, nodes] using unpaired id

theorem Unpaired.modifyNode (unpaired : model.Unpaired) (id : NodeId) {change : Node → Node}
    (keeps : ∀ node, (change node).functionEnd = node.functionEnd ∧
      (change node).functionStart = node.functionStart) : (model.modifyNode id change).Unpaired := by
  intro other
  rw [node_modifyNode]
  split
  · rw [(keeps _).1, (keeps _).2]
    exact unpaired other
  · exact unpaired other

theorem timeline_addTimeline (model : Model) (group : GroupId) (name : Name) (line : TimelineId) :
    (model.addTimeline group name).1.timeline line =
      if line.index = model.timelines.size then { name, group } else model.timeline line := by
  simp only [addTimeline, timeline, modifyGroup]
  exact getD_push ..

theorem nodesOf_addTimeline (model : Model) (group : GroupId) (name : Name) (line : TimelineId) :
    (model.addTimeline group name).1.nodesOf line = model.nodesOf line := by
  simp only [nodesOf, timeline_addTimeline]
  split
  · rename_i last
    simp only [timeline, last, Array.getElem?_size, Option.getD_none]
    rfl
  · rfl

theorem Lined.addTimeline (lined : model.Lined) (group : GroupId) (name : Name) :
    (model.addTimeline group name).1.Lined where
  within line id member := by
    rw [nodesOf_addTimeline] at member
    exact lined.within line id member
  own line id member := by
    rw [nodesOf_addTimeline] at member
    exact lined.own line id member
  sorted line := by
    rw [nodesOf_addTimeline]
    exact lined.sorted line
  chained line position id found := by
    rw [nodesOf_addTimeline] at found ⊢
    exact lined.chained line position id found

theorem nodesOf_push {model : Model} {line : TimelineId} (known : line.index < model.timelines.size)
    (added : NodeId) (other : TimelineId) :
    (model.modifyTimeline line fun timeline =>
        { timeline with nodes := timeline.nodes.push added }).nodesOf other =
      if other = line then model.nodesOf line ++ [added] else model.nodesOf other := by
  simp only [nodesOf, timeline_modifyTimeline, known, and_true]
  split
  · rename_i same
    rw [same, Array.toList_push]
  · rfl

theorem nodesOf_addNode (model : Model) {line : TimelineId} (id : UInt16) (flags : Flags)
    (known : line.index < model.timelines.size) (other : TimelineId) :
    (model.addNode line id flags).1.nodesOf other =
      if other = line then model.nodesOf line ++ [⟨model.nodes.size⟩] else model.nodesOf other := by
  simp only [addNode]
  split
  · exact nodesOf_push known _ other
  · exact nodesOf_push known _ other

theorem size_addNode (model : Model) (line : TimelineId) (id : UInt16) (flags : Flags) :
    (model.addNode line id flags).1.nodes.size = model.nodes.size + 1 := by
  simp only [addNode]
  split <;> simp [modifyNode,modifyTimeline]

/-- The new node is at the end, and the node that was there leads to it. -/
theorem node_addNode (lined : model.Lined) (line : TimelineId) (id : UInt16) (flags : Flags)
    (other : NodeId) :
    (model.addNode line id flags).1.node other =
      if other.index = model.nodes.size then { id, flags, timeline := line }
      else if (model.nodesOf line).getLast? = some other then
        { model.node other with next := some ⟨model.nodes.size⟩ }
      else model.node other := by
  have pushed (other : NodeId) : ({ model with
      nodes := model.nodes.push { id, flags, timeline := line } } : Model).node other =
      if other.index = model.nodes.size then { id, flags, timeline := line }
      else model.node other := getD_push ..
  have ends : (model.nodesOf line).getLast? = (model.timeline line).nodes.back? :=
    Array.getLast?_toList _
  simp only [addNode, ends]
  cases found : (model.timeline line).nodes.back? with
  | none =>
    simp only [reduceCtorEq, if_false]
    exact pushed other
  | some last =>
    have known : last.index < model.nodes.size :=
      lined.within line last (List.mem_of_getLast? (ends.trans found))
    change (modifyNode _ last _).node other = _
    rw [node_modifyNode, pushed, Array.size_push]
    by_cases new : other.index = model.nodes.size
    · have apart : ¬ other = last := by
        rintro rfl
        omega
      simp only [new, apart, false_and, if_false, if_true]
    · by_cases same : other = last
      · subst same
        have inside : other.index < model.nodes.size + 1 := by omega
        simp only [new, inside, and_self, if_true, if_false]
      · have apart : ¬ some last = some other := fun eq => same (Option.some.inj eq).symm
        simp only [new, same, apart, false_and, if_false]

theorem node_addNode_known (lined : model.Lined) (line : TimelineId) (id : UInt16) (flags : Flags)
    {other : NodeId} (known : other.index < model.nodes.size) :
    (model.addNode line id flags).1.node other =
      if (model.nodesOf line).getLast? = some other then
        { model.node other with next := some ⟨model.nodes.size⟩ }
      else model.node other := by
  rw [node_addNode lined, if_neg (Nat.ne_of_lt known)]

theorem timeline_addNode_known (lined : model.Lined) (line : TimelineId) (id : UInt16) (flags : Flags)
    {other : NodeId} (known : other.index < model.nodes.size) :
    ((model.addNode line id flags).1.node other).timeline = (model.node other).timeline := by
  rw [node_addNode_known lined _ _ _ known]
  split <;> rfl

/-- Only the last node of a list that goes up stands at its end. -/
theorem Lined.getLast?_iff (lined : model.Lined) {line : TimelineId} {position : Nat} {id : NodeId}
    (found : (model.nodesOf line)[position]? = some id) :
    (model.nodesOf line).getLast? = some id ↔ position + 1 = (model.nodesOf line).length := by
  obtain ⟨inside,rfl⟩ := List.getElem?_eq_some_iff.mp found
  rw [List.getLast?_eq_getElem?]
  constructor
  · intro last
    obtain ⟨bound,same⟩ := List.getElem?_eq_some_iff.mp last
    rcases Nat.lt_or_eq_of_le (Nat.succ_le_of_lt inside) with apart | ends
    · have up := List.pairwise_iff_getElem.mp (lined.sorted line) position
        ((model.nodesOf line).length - 1) inside bound (by omega)
      rw [same] at up
      exact absurd up (Nat.lt_irrefl _)
    · exact ends
  · intro ends
    rw [← ends, Nat.add_sub_cancel]
    exact found

theorem Lined.addNode (lined : model.Lined) {line : TimelineId} (id : UInt16) (flags : Flags)
    (known : line.index < model.timelines.size) : (model.addNode line id flags).1.Lined where
  within other item member := by
    rw [size_addNode]
    rw [nodesOf_addNode _ _ _ known] at member
    split at member
    · rcases List.mem_append.mp member with old | new
      · exact Nat.lt_succ_of_lt (lined.within _ _ old)
      · rw [List.mem_singleton.mp new]
        exact Nat.lt_succ_self _
    · exact Nat.lt_succ_of_lt (lined.within _ _ member)
  own other item member := by
    rw [nodesOf_addNode _ _ _ known] at member
    split at member
    · rename_i same
      subst same
      rcases List.mem_append.mp member with old | new
      · rw [timeline_addNode_known lined _ _ _ (lined.within _ _ old)]
        exact lined.own _ _ old
      · rw [List.mem_singleton.mp new, node_addNode lined, if_pos rfl]
    · rw [timeline_addNode_known lined _ _ _ (lined.within _ _ member)]
      exact lined.own _ _ member
  sorted other := by
    rw [nodesOf_addNode _ _ _ known]
    split
    · rw [List.pairwise_append]
      refine ⟨lined.sorted line,List.pairwise_singleton _ _,?_⟩
      intro item old new member
      rw [List.mem_singleton.mp member]
      exact lined.within _ _ old
    · exact lined.sorted other
  chained other position item found := by
    rw [nodesOf_addNode _ _ _ known] at found ⊢
    by_cases same : other = line
    · subst same
      rw [if_pos rfl] at found ⊢
      -- The chain grows at its end: only the node that was last gets another successor.
      by_cases old : position < (model.nodesOf other).length
      · rw [List.getElem?_append_left old] at found
        have here := lined.within _ _ (List.mem_of_getElem? found)
        rw [node_addNode_known lined _ _ _ here]
        by_cases ends : position + 1 = (model.nodesOf other).length
        · rw [if_pos ((lined.getLast?_iff found).mpr ends), ends, List.getElem?_concat_length]
        · rw [if_neg (mt (lined.getLast?_iff found).mp ends), List.getElem?_append_left (by omega)]
          exact lined.chained _ _ _ found
      · have bound := (List.getElem?_eq_some_iff.mp found).choose
        rw [List.length_append, List.length_singleton] at bound
        have ends : position = (model.nodesOf other).length := by omega
        rw [ends, List.getElem?_concat_length] at found
        cases found
        rw [node_addNode lined, if_pos rfl, List.getElem?_eq_none (by simp; omega)]
    · rw [if_neg same] at found ⊢
      have member := List.mem_of_getElem? found
      have apart : ¬ (model.nodesOf line).getLast? = some item := by
        intro last
        have there := lined.own _ _ (List.mem_of_getLast? last)
        exact same ((lined.own _ _ member).symm.trans there)
      rw [node_addNode_known lined _ _ _ (lined.within _ _ member), if_neg apart]
      exact lined.chained _ _ _ found

theorem Unpaired.addNode (unpaired : model.Unpaired) (lined : model.Lined) (line : TimelineId)
    (id : UInt16) (flags : Flags) : (model.addNode line id flags).1.Unpaired := by
  intro other
  rw [node_addNode lined]
  split
  · exact ⟨rfl,rfl⟩
  · split
    · exact unpaired other
    · exact unpaired other

theorem empty_lined : Lined {} where
  within _ _ member := nomatch member
  own _ _ member := nomatch member
  sorted _ := .nil
  chained _ _ _ found := nomatch found

theorem empty_unpaired : Unpaired {} := fun _ => ⟨rfl,rfl⟩

/-- Graphs in which nothing has been paired yet and the timelines are in order. -/
structure Drawn (model : Model) : Prop where
  lined : model.Lined
  unpaired : model.Unpaired

theorem Drawn.of_eq (drawn : before.Drawn) (timelines : after.timelines = before.timelines)
    (nodes : after.nodes = before.nodes) : after.Drawn :=
  ⟨drawn.lined.settled (settled_of_eq timelines nodes),drawn.unpaired.of_eq nodes⟩

theorem Drawn.modifyNode (drawn : model.Drawn) (id : NodeId) {change : Node → Node}
    (moves : ∀ node, (change node).timeline = node.timeline ∧ (change node).next = node.next ∧
      (change node).flags = node.flags)
    (pairs : ∀ node, (change node).functionEnd = node.functionEnd ∧
      (change node).functionStart = node.functionStart) : (model.modifyNode id change).Drawn :=
  ⟨drawn.lined.settled (settled_modifyNode id moves),drawn.unpaired.modifyNode id pairs⟩

theorem Change.drawn (drawn : before.Drawn) (change : before.Change after) : after.Drawn := by
  cases change with
  | timeline group name _ =>
    exact ⟨drawn.lined.addTimeline group name,drawn.unpaired.of_eq rfl⟩
  | node line id flags known =>
    exact ⟨drawn.lined.addNode id flags known,drawn.unpaired.addNode drawn.lined line id flags⟩
  | message sender sending known =>
    have noted : (before.modifyNode sender ({ · with sent := some ⟨before.messages.size⟩ })).Drawn :=
      drawn.modifyNode sender (fun _ => ⟨rfl,rfl,rfl⟩) fun _ => ⟨rfl,rfl⟩
    exact noted.of_eq rfl rfl
  | condition id text =>
    exact drawn.modifyNode id (fun _ => ⟨rfl,rfl,rfl⟩) fun _ => ⟨rfl,rfl⟩
  | group name =>
    obtain ⟨_,_,timelines,nodes,_⟩ := before.findOrAddGroup_keeps name
    exact drawn.of_eq timelines nodes
  | application name =>
    simp only [Builder.findOrAddApplication]
    split
    · exact drawn
    · exact drawn.of_eq rfl rfl
  | state | transition | trigger | triggers | guard | applicationContent | api | sample =>
    exact drawn.of_eq rfl rfl

end Model

theorem Builder.Reachable.drawn {builder : Builder} (reachable : builder.Reachable) :
    builder.model.Drawn :=
  reachable.model_holds ⟨Model.empty_lined,Model.empty_unpaired⟩ fun _ _ => Model.Change.drawn

end DocGraph
