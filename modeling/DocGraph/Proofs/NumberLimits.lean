import DocGraph.Proofs.KnownItems
import DocGraph.Proofs.MessageDelivery
import DocGraph.Proofs.RecordEffects
import DocGraph.Proofs.RecordRun

/-! The largest numbers of a graph, and the size of the tables that linking looks them up in. -/
namespace DocGraph

/-- The largest of some numbers, or zero when there are none. -/
structure Largest (numbers : List UInt16) (limit : UInt16) : Prop where
  bounds : ∀ number ∈ numbers, number ≤ limit
  reached : limit ∈ numbers ∨ numbers = [] ∧ limit = 0

theorem largest_nil : Largest [] 0 := ⟨List.forall_mem_nil _,.inr ⟨rfl,rfl⟩⟩

theorem Largest.concat {numbers : List UInt16} {limit : UInt16} (largest : Largest numbers limit)
    (number : UInt16) : Largest (numbers ++ [number]) (max limit number) := by
  have larger : max limit number = if limit ≤ number then number else limit := rfl
  rw [larger]
  split
  · rename_i above
    refine ⟨fun other member => ?_,.inl (by simp)⟩
    rcases List.mem_append.mp member with old | new
    · exact UInt16.le_trans (largest.bounds other old) above
    · rw [List.mem_singleton.mp new]
      exact UInt16.le_refl _
  · rename_i below
    have under : number ≤ limit := UInt16.le_of_lt (UInt16.not_le.mp below)
    refine ⟨fun other member => ?_,?_⟩
    · rcases List.mem_append.mp member with old | new
      · exact largest.bounds other old
      · rwa [List.mem_singleton.mp new]
    · rcases largest.reached with reached | ⟨_,rfl⟩
      · exact .inl (List.mem_append_left _ reached)
      · exact absurd (UInt16.zero_le) below

namespace Model

def stateNumbers (model : Model) : List UInt16 := model.states.toList.map State.id

def nodeNumbers (model : Model) : List UInt16 := model.nodes.toList.map Node.id

theorem stateNumbers_modifyState (model : Model) (id : StateId) {change : State → State}
    (keeps : ∀ state, (change state).id = state.id) :
    (model.modifyState id change).stateNumbers = model.stateNumbers := by
  have same := congrArg Array.toList (map_modify_of_same keeps model.states id.index)
  rwa [Array.toList_map, Array.toList_map] at same

theorem nodeNumbers_modifyNode (model : Model) (id : NodeId) {change : Node → Node}
    (keeps : ∀ node, (change node).id = node.id) :
    (model.modifyNode id change).nodeNumbers = model.nodeNumbers := by
  have same := congrArg Array.toList (map_modify_of_same keeps model.nodes id.index)
  rwa [Array.toList_map, Array.toList_map] at same

theorem stateNumbers_addState (model : Model) (group : GroupId) (name : Name) (id : UInt16) :
    (model.addState group name id).1.stateNumbers = model.stateNumbers ++ [id] := by
  simp [stateNumbers,addState,modifyGroup]

theorem nodeNumbers_addNode (model : Model) (line : TimelineId) (id : UInt16) (flags : Flags) :
    (model.addNode line id flags).1.nodeNumbers = model.nodeNumbers ++ [id] := by
  let added : Model := { model with nodes := model.nodes.push { id, flags, timeline := line } }
  have pushed : added.nodeNumbers = model.nodeNumbers ++ [id] := by simp [added,nodeNumbers]
  have linked (last : NodeId) (next : NodeId) :
      (added.modifyNode last ({ · with next := some next })).nodeNumbers = added.nodeNumbers :=
    added.nodeNumbers_modifyNode last fun _ => rfl
  simp only [addNode]
  split
  · exact (linked _ _).trans pushed
  · exact pushed

end Model

/-- The limits are the largest numbers of a graph. -/
structure Limits.Tally (limits : Limits) (model : Model) : Prop where
  state : Largest model.stateNumbers limits.state
  node : Largest model.nodeNumbers limits.node

theorem Limits.Tally.of_same {limits : Limits} {before after : Model} (tally : limits.Tally before)
    (states : after.stateNumbers = before.stateNumbers) (nodes : after.nodeNumbers = before.nodeNumbers) :
    limits.Tally after := by
  refine ⟨?_,?_⟩
  · rw [states]
    exact tally.state
  · rw [nodes]
    exact tally.node

theorem Section.Effect.tally {current : Section} {before after : Model} {limits limits' : Limits}
    (effect : current.Effect before limits after limits') (tally : limits.Tally before) :
    limits'.Tally after := by
  cases effect with
  | none => exact tally
  | state group name id =>
    refine ⟨?_,tally.node⟩
    rw [Model.stateNumbers_addState]
    exact tally.state.concat id
  | node line _ id flags =>
    refine ⟨?_,?_⟩
    · rw [Model.stateNumbers, Model.states_addNode]
      exact tally.state
    · rw [Model.nodeNumbers_addNode]
      exact tally.node.concat id
  | transitions id => exact tally.of_same (before.stateNumbers_modifyState id fun _ => rfl) rfl
  | timeline => exact tally.of_same rfl rfl
  | message id _ sending =>
    have noted : (before.modifyNode id
        ({ · with sent := some ⟨before.messages.size⟩ })).nodeNumbers = before.nodeNumbers :=
      before.nodeNumbers_modifyNode id fun _ => rfl
    exact tally.of_same rfl noted
  | condition id => exact tally.of_same rfl (before.nodeNumbers_modifyNode id fun _ => rfl)

theorem Builder.Reachable.tally {builder : Builder} (reachable : builder.Reachable) :
    builder.limits.Tally builder.model := by
  induction reachable with
  | initial => exact ⟨largest_nil,largest_nil⟩
  | @apply before record _ tally =>
    obtain ⟨model,regrouped,effect⟩ := before.apply_effected record
    refine effect.tally (tally.of_same ?_ ?_)
    · rw [Model.stateNumbers, regrouped.states, Model.stateNumbers]
    · rw [Model.nodeNumbers, regrouped.nodes, Model.nodeNumbers]

/-- A table that holds every number of a list finds what a longer one finds. -/
theorem Numbering.find?_ofList_of_le {limit wider : UInt16} {items : List (UInt16 × α)}
    (bounds : ∀ item ∈ items, item.1 ≤ limit) (within : limit ≤ wider) (id : UInt16) :
    (ofList limit items).find? id = (ofList wider items).find? id := by
  rw [find?_ofList, find?_ofList]
  by_cases inside : id ≤ limit
  · rw [if_pos inside, if_pos (UInt16.le_trans inside within)]
  · have nobody : items.reverse.find? (·.1 == id) = none := by
      refine List.find?_eq_none.mpr fun item member same => inside ?_
      rw [← eq_of_beq same]
      exact bounds item (List.mem_reverse.mp member)
    simp [inside,nobody]

theorem le_getD [Inhabited α] {items : Array α} {number : α → UInt16} {limit : UInt16}
    (bounds : ∀ id ∈ items.toList.map number, id ≤ limit) (blank : number default = 0) (index : Nat) :
    number (items[index]?.getD default) ≤ limit := by
  by_cases known : index < items.size
  · exact bounds _ (List.mem_map_of_mem (Array.mem_toList_iff.mpr (Model.getD_mem known)))
  · rw [Model.getD_outside (Nat.le_of_not_lt known), blank]
    exact UInt16.zero_le

namespace Limits.Tally

variable {limits : Limits} {model : Model} {linked : Linked}

theorem state_le (tally : limits.Tally model) (id : StateId) : (model.state id).id ≤ limits.state :=
  le_getD tally.state.bounds rfl id.index

theorem node_le (tally : limits.Tally model) (id : NodeId) : (model.node id).id ≤ limits.node :=
  le_getD tally.node.bounds rfl id.index

theorem retarget (tally : limits.Tally linked.model) (numbering : Numbering StateId)
    (state : StateId) : limits.Tally (linked.retarget numbering state).model :=
  tally.of_same (linked.model.stateNumbers_modifyState state fun _ => rfl) rfl

theorem linkStates (tally : limits.Tally linked.model) (limit : UInt16)
    (group : GroupId) : limits.Tally (linked.linkStates limit group).model := by
  unfold Linked.linkStates
  exact List.foldlRecOn (motive := fun after : Linked => limits.Tally after.model) _ _ tally
    fun _ tally state _ => tally.retarget _ state

theorem joinPair (tally : limits.Tally model) (pair : NodeId × NodeId) :
    limits.Tally (Linked.joinPair model pair) := by
  let opened := model.modifyNode pair.1 ({ · with functionEnd := some pair.2 })
  have first : limits.Tally opened :=
    tally.of_same rfl (model.nodeNumbers_modifyNode pair.1 fun _ => rfl)
  exact first.of_same rfl (opened.nodeNumbers_modifyNode pair.2 fun _ => rfl)

theorem pairFunctions (tally : limits.Tally linked.model) (line : TimelineId) :
    limits.Tally (linked.pairFunctions line).model :=
  List.foldlRecOn (motive := limits.Tally) _ _ tally fun _ tally pair _ => tally.joinPair pair

theorem pairAll (tally : limits.Tally linked.model) (lines : List TimelineId) :
    limits.Tally (lines.foldl Linked.pairFunctions linked).model :=
  List.foldlRecOn (motive := fun after : Linked => limits.Tally after.model) lines _ tally
    fun _ tally line _ => tally.pairFunctions line

theorem deliverMessage (tally : limits.Tally linked.model) (numbering : Numbering NodeId)
    (id : MessageId) : limits.Tally (linked.deliverMessage numbering id).model := by
  simp only [Linked.deliverMessage]
  split
  · split
    · rename_i receiver _
      let noted := linked.model.modifyNode receiver ({ · with received := some id })
      have same : noted.nodeNumbers = linked.model.nodeNumbers :=
        linked.model.nodeNumbers_modifyNode receiver fun _ => rfl
      exact tally.of_same rfl same
    · exact tally.of_same rfl rfl
  · exact tally

theorem deliver (tally : limits.Tally linked.model) (numbering : Numbering NodeId)
    (node : NodeId) : limits.Tally (linked.deliver numbering node).model := by
  unfold Linked.deliver
  split
  · exact tally.deliverMessage numbering _
  · exact tally

theorem linkNodes (tally : limits.Tally linked.model) (limit : UInt16)
    (group : GroupId) : limits.Tally (linked.linkNodes limit group).model := by
  have paired := tally.pairAll (linked.model.diagram group)
  exact List.foldlRecOn (motive := fun after : Linked => limits.Tally after.model) _ _ paired
    fun _ tally node _ => tally.deliver _ node

end Limits.Tally

namespace Linked

/-- Resolving goes by what is found, not by how long the table is. -/
theorem retarget_congr {numbering other : Numbering StateId}
    (same : ∀ id, numbering.find? id = other.find? id) : retarget numbering = retarget other := by
  have resolved (link : Link StateId) : link.resolve numbering = link.resolve other := by
    cases link with
    | unresolved id => simp only [Link.resolve, same]
    | _ => rfl
  funext linked state
  simp only [retarget, resolved]

theorem deliver_congr {numbering other : Numbering NodeId}
    (same : ∀ id, numbering.find? id = other.find? id) : deliver numbering = deliver other := by
  funext linked node
  simp only [deliver, deliverMessage, same]

variable {limits wider : Limits} {linked : Linked}

theorem linkStates_wider (tally : limits.Tally linked.model) (within : limits.state ≤ wider.state)
    (group : GroupId) : linked.linkStates limits.state group = linked.linkStates wider.state group := by
  have bounds : ∀ item ∈ ((linked.model.group group).states.getD #[]).toList.map
      (fun id => ((linked.model.state id).id,id)), item.1 ≤ limits.state :=
    List.forall_mem_map.mpr fun id _ => tally.state_le id
  simp only [linkStates]
  rw [retarget_congr (Numbering.find?_ofList_of_le bounds within)]

theorem nodeNumbering_wider {model : Model} (tally : limits.Tally model)
    (within : limits.node ≤ wider.node) (group : GroupId) (id : UInt16) :
    (nodeNumbering limits.node model group).find? id =
      (nodeNumbering wider.node model group).find? id := by
  refine Numbering.find?_ofList_of_le (fun item member => ?_) within id
  obtain ⟨node,_,rfl⟩ := List.mem_map.mp (List.mem_filter.mp member).1
  exact tally.node_le node

theorem linkNodes_wider (tally : limits.Tally linked.model) (within : limits.node ≤ wider.node)
    (group : GroupId) : linked.linkNodes limits.node group = linked.linkNodes wider.node group := by
  have paired := tally.pairAll (linked.model.diagram group)
  simp only [linkNodes]
  rw [deliver_congr (nodeNumbering_wider paired within group)]

theorem linkGroups_wider (tally : limits.Tally linked.model) (states : limits.state ≤ wider.state)
    (nodes : limits.node ≤ wider.node) (groups : List GroupId) :
    groups.foldl (linkGroup limits) linked = groups.foldl (linkGroup wider) linked := by
  induction groups generalizing linked with
  | nil => rw [List.foldl_nil, List.foldl_nil]
  | cons group groups ih =>
    have stated := tally.linkStates limits.state group
    have same : linked.linkGroup limits group = linked.linkGroup wider group := by
      simp only [linkGroup]
      rw [← linkStates_wider tally states, linkNodes_wider stated nodes]
    rw [List.foldl_cons, List.foldl_cons, ← same]
    exact ih (stated.linkNodes limits.node group)

end Linked

theorem Limits.Tally.link_wider {limits wider : Limits} {model : Model} (tally : limits.Tally model)
    (states : limits.state ≤ wider.state) (nodes : limits.node ≤ wider.node) :
    model.link wider = model.link limits :=
  (Linked.linkGroups_wider tally states nodes model.groupIds).symm

/-- However a builder was reached, its limits are the largest number of a state and of a node, and linking
does the same with every larger pair of limits. -/
theorem Builder.Reachable.limits_suffice {builder : Builder} (reachable : builder.Reachable) :
    Largest builder.model.stateNumbers builder.limits.state ∧
    Largest builder.model.nodeNumbers builder.limits.node ∧
    ∀ wider : Limits, builder.limits.state ≤ wider.state → builder.limits.node ≤ wider.node →
      builder.model.link wider = builder.model.link builder.limits := by
  have tally := reachable.tally
  exact ⟨tally.state,tally.node,fun _ states nodes => tally.link_wider states nodes⟩

/-- Two machines and two timelines with numbers in no order. A transition and a message lead to the largest
numbers, and others to numbers nobody has. -/
def scattered : List Record :=
  let name (letter : UInt8) : Name := ⟨[letter],false⟩
  let subject (group letter : UInt8) : Qualified := ⟨name group,name letter⟩
  [.stateMachineStart (name 103),
    .state 300 (subject 103 97), .transition 7, .transition 301, .transition 300, .itemEnd,
    .state 7 (subject 104 98), .transition 300, .itemEnd, .stateMachineEnd,
    .sequenceStart (name 103),
    .timeline (subject 103 65), .nodeStart 40 0, .sentMessage ⟨1,12,name 66,name 109⟩, .nodeEnd,
    .timeline (subject 103 66), .nodeStart 12 0, .sentMessage ⟨2,41,name 65,name 110⟩, .nodeEnd,
    .nodeStart 5 0, .sentMessage ⟨3,40,name 65,name 111⟩, .nodeEnd]

/-- A state with a larger number that stands in the wrong section is rejected and leaves no mark: the
largest tables find what the tables of the builder find, the state and the node with the largest numbers
among it, and smaller tables do not find these two. -/
theorem scattered_suffice :
    ∃ builder, Builder.applyAll {} scattered = some builder ∧
      let next := builder.apply (.state 60000 ⟨⟨[103],false⟩,⟨[99],false⟩⟩)
      next.2 = some .unexpected ∧ next.1.limits = ⟨300,40⟩ ∧
      Largest next.1.model.stateNumbers 300 ∧ Largest next.1.model.nodeNumbers 40 ∧
      next.1.model.link ⟨65535,65535⟩ = next.1.model.link ⟨300,40⟩ ∧
      (next.1.model.link ⟨65535,65535⟩).report =
        { transitionsResolved := 1, transitionsAbsent := 3, messagesResolved := 2, messagesAbsent := 1 } ∧
      (next.1.model.link ⟨299,39⟩).report =
        { transitionsResolved := 0, transitionsAbsent := 4, messagesResolved := 1, messagesAbsent := 2 } := by
  have checked : (Builder.applyAll {} scattered).any fun builder =>
      let next := builder.apply (.state 60000 ⟨⟨[103],false⟩,⟨[99],false⟩⟩)
      next.2 = some .unexpected ∧ next.1.limits = ⟨300,40⟩ ∧
      (next.1.model.link ⟨300,40⟩).report =
        { transitionsResolved := 1, transitionsAbsent := 3, messagesResolved := 2, messagesAbsent := 1 } ∧
      (next.1.model.link ⟨299,39⟩).report =
        { transitionsResolved := 0, transitionsAbsent := 4, messagesResolved := 1, messagesAbsent := 2 } := by
    decide +kernel
  obtain ⟨builder,accepted,holds⟩ := (Option.any_eq_true _ _).mp checked
  obtain ⟨rejected,limits,reported,fewer⟩ := of_decide_eq_true holds
  have reachable := (Builder.applyAll_reachable .initial accepted).apply
    (.state 60000 ⟨⟨[103],false⟩,⟨[99],false⟩⟩)
  obtain ⟨states,nodes,wider⟩ := reachable.limits_suffice
  rw [limits] at states nodes wider
  have same := wider ⟨65535,65535⟩ (by decide) (by decide)
  refine ⟨builder,accepted,rejected,limits,states,nodes,same,?_,fewer⟩
  rw [same]
  exact reported

end DocGraph
