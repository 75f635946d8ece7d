import DocGraph.Proofs.GroupItems

/-! States and their machines before any transition has a target. -/
namespace DocGraph

namespace Model

/-- The states of a group's machine, in the order in which they were added. -/
def machine (model : Model) (group : GroupId) : List StateId :=
  ((model.group group).states.getD #[]).toList

/-- States in machines, with transitions that lead to numbers. -/
structure Enrolled (model : Model) : Prop where
  lists : Listed StateId.index model.states.size (fun id => (model.state id).group) model.machine
  waiting : ∀ id, ∀ transition ∈ (model.state id).transitions,
    ∃ number, transition.target = .unresolved number

variable {before after model : Model}

theorem state_modifyState (model : Model) (id other : StateId) (change : State → State) :
    (model.modifyState id change).state other =
      if other = id ∧ id.index < model.states.size then change (model.state other)
      else model.state other := by
  cases id; cases other
  simp only [StateId.mk.injEq]
  exact getD_modify ..

theorem Enrolled.of_eq (enrolled : before.Enrolled) (states : after.states = before.states)
    (machine : ∀ group, after.machine group = before.machine group) : after.Enrolled := by
  have state (id : StateId) : after.state id = before.state id := by simp only [Model.state, states]
  refine ⟨?_,fun id => ?_⟩
  · rw [states]
    exact enrolled.lists.of_same (fun id => congrArg State.group (state id)) machine
  · rw [state]
    exact enrolled.waiting id

/-- Changes of the transitions of a state that give none of them a target. -/
theorem Enrolled.modifyTransitions (enrolled : model.Enrolled) (id : StateId)
    (change : Array Transition → Array Transition)
    (waiting : ∀ transitions : Array Transition,
      (∀ transition ∈ transitions, ∃ number, transition.target = .unresolved number) →
      ∀ transition ∈ change transitions, ∃ number, transition.target = .unresolved number) :
    (model.modifyState id fun state =>
      { state with transitions := change state.transitions }).Enrolled := by
  refine ⟨?_,fun other => ?_⟩
  · rw [size_states_modifyState]
    refine enrolled.lists.of_same (fun other => ?_) fun _ => rfl
    rw [state_modifyState]
    split
    · rfl
    · rfl
  · rw [state_modifyState]
    split
    · exact waiting _ (enrolled.waiting other)
    · exact enrolled.waiting other

theorem Enrolled.modifyTransition (enrolled : model.Enrolled) (id : StateId) (position : Nat)
    {change : Transition → Transition}
    (keeps : ∀ transition, (change transition).target = transition.target) :
    (model.modifyState id fun state =>
      { state with transitions := state.transitions.modify position change }).Enrolled := by
  refine enrolled.modifyTransitions id (·.modify position change)
    fun transitions waiting transition member => ?_
  obtain ⟨place,inside,rfl⟩ := Array.mem_iff_getElem.mp member
  rw [Array.getElem_modify]
  split
  · rw [keeps]
    exact waiting _ (Array.getElem_mem _)
  · exact waiting _ (Array.getElem_mem _)

theorem state_addState (model : Model) (group : GroupId) (name : Name) (id : UInt16) (other : StateId) :
    (model.addState group name id).1.state other =
      if other.index = model.states.size then { name, group, id } else model.state other := getD_push ..

theorem machine_addState (model : Model) {group : GroupId} (name : Name) (id : UInt16)
    (known : group.index < model.groups.size) (other : GroupId) :
    (model.addState group name id).1.machine other =
      if other = group then model.machine group ++ [⟨model.states.size⟩] else model.machine other := by
  unfold machine addState
  simp only
  rw [group_modifyGroup]
  by_cases same : other = group
  · subst same
    rw [if_pos ⟨rfl,known⟩, if_pos rfl]
    simp only [Option.getD_some, Array.toList_push]
    rfl
  · rw [if_neg (fun both => same both.1), if_neg same]
    rfl

theorem Enrolled.addState (enrolled : model.Enrolled) {group : GroupId} (name : Name) (id : UInt16)
    (known : group.index < model.groups.size) : (model.addState group name id).1.Enrolled := by
  have size : (model.addState group name id).1.states.size = model.states.size + 1 :=
    Array.size_push ..
  refine ⟨?_,fun other => ?_⟩
  · rw [size]
    refine enrolled.lists.push StateId.index_injective ⟨model.states.size⟩ rfl (fun other => ?_)
      (machine_addState model name id known)
    rw [state_addState]
    split
    · rfl
    · rfl
  · rw [state_addState]
    split
    · simp
    · exact enrolled.waiting other

theorem empty_enrolled : Enrolled {} := by
  have blank (group : GroupId) : machine {} group = [] := by
    rcases group with ⟨_ | index⟩
    · rfl
    · rfl
  exact ⟨.empty blank,fun id transition member => absurd member (Array.not_mem_empty transition)⟩

theorem machine_modifyGroup (model : Model) (id : GroupId) {change : Group → Group}
    (keeps : ∀ group, (change group).states = group.states) (group : GroupId) :
    (model.modifyGroup id change).machine group = model.machine group :=
  congrArg (fun states : Option (Array StateId) => (states.getD #[]).toList)
    (field_modifyGroup Group.states keeps model id group)

theorem machine_findOrAddGroup (model : Model) (name : Name) (group : GroupId) :
    (model.findOrAddGroup name).1.machine group = model.machine group :=
  congrArg (fun states : Option (Array StateId) => (states.getD #[]).toList)
    (field_findOrAddGroup Group.states (fun _ => rfl) model name group)

theorem Change.enrolled (enrolled : before.Enrolled) (change : before.Change after) :
    after.Enrolled := by
  cases change with
  | state group name id known => exact enrolled.addState name id known
  | transition id target _ =>
    refine enrolled.modifyTransitions id (·.push (.to target))
      fun transitions waiting transition member => ?_
    rcases Array.mem_push.mp member with old | rfl
    · exact waiting transition old
    · exact ⟨target,rfl⟩
  | trigger id position | triggers id position | guard id position =>
    exact enrolled.modifyTransition id position fun _ => rfl
  | group name =>
    obtain ⟨_,states,_⟩ := before.findOrAddGroup_keeps name
    exact enrolled.of_eq states (before.machine_findOrAddGroup name)
  | application name =>
    simp only [Builder.findOrAddApplication]
    split
    · exact enrolled
    · exact enrolled.of_eq rfl (machine_modifyGroup _ _ fun _ => rfl)
  | node line id flags _ =>
    simp only [addNode]
    split
    · exact enrolled.of_eq rfl fun _ => rfl
    · exact enrolled.of_eq rfl fun _ => rfl
  | timeline | message | applicationContent | api | sample =>
    exact enrolled.of_eq rfl (machine_modifyGroup _ _ fun _ => rfl)
  | condition => exact enrolled.of_eq rfl fun _ => rfl

def stateIds (model : Model) : List StateId := (List.range model.states.size).map StateId.mk

/-- The states of all machines, in the order in which they are linked. -/
def machineStates (model : Model) : List StateId := model.groupIds.flatMap model.machine

theorem mem_stateIds_iff {id : StateId} : id ∈ model.stateIds ↔ id.index < model.states.size := by
  cases id
  simp [stateIds]

theorem mem_groupIds_of_machine {group : GroupId} {id : StateId} (member : id ∈ model.machine group) :
    group ∈ model.groupIds := by
  refine mem_groupIds_iff.mpr (Nat.lt_of_not_le fun outside => ?_)
  have missing : model.group group = default := getD_outside outside
  rw [machine, missing] at member
  cases member

theorem Enrolled.mem_machine_iff (enrolled : model.Enrolled) {group : GroupId} {id : StateId} :
    id ∈ model.machine group ↔ id.index < model.states.size ∧ (model.state id).group = group := by
  constructor
  · intro member
    exact ⟨enrolled.lists.known group id member,enrolled.lists.own group id member⟩
  · rintro ⟨known,rfl⟩
    exact enrolled.lists.listed id known

theorem Enrolled.nodup_machineStates (enrolled : model.Enrolled) : model.machineStates.Nodup := by
  refine List.nodup_flatMap.mpr ⟨fun group _ => enrolled.lists.once group,?_⟩
  refine model.nodup_groupIds.imp fun {group other} away => ?_
  intro id member member'
  exact away ((enrolled.lists.own _ _ member).symm.trans (enrolled.lists.own _ _ member'))

/-- The machines list every state, and none of them twice. -/
theorem Enrolled.machineStates_perm (enrolled : model.Enrolled) :
    model.machineStates.Perm model.stateIds := by
  have once : model.stateIds.Nodup := by
    refine List.Nodup.map ?_ List.nodup_range
    exact fun _ _ => congrArg StateId.index
  refine (List.perm_ext_iff_of_nodup enrolled.nodup_machineStates once).mpr fun id => ?_
  rw [mem_stateIds_iff]
  constructor
  · intro member
    obtain ⟨group,_,inside⟩ := List.mem_flatMap.mp member
    exact enrolled.lists.known group id inside
  · intro known
    have here := enrolled.lists.listed id known
    exact List.mem_flatMap.mpr ⟨_,mem_groupIds_of_machine here,here⟩

end Model

theorem Builder.Reachable.enrolled {builder : Builder} (reachable : builder.Reachable) :
    builder.model.Enrolled :=
  reachable.model_holds Model.empty_enrolled fun _ _ => Model.Change.enrolled

end DocGraph
