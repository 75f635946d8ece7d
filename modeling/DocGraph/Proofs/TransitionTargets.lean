import DocGraph.Proofs.LinkedMessages
import DocGraph.Proofs.StateMachines

/-! Linking as one lookup for every transition, in the machine that the transition is in. States with one number
are not told apart: the last one is meant. -/
namespace DocGraph

theorem Link.eq_absent_iff {link : Link α} (settled : link.isUnresolved = false) :
    link = .absent ↔ ¬link.isResolved = true := by
  cases link with
  | unresolved number => cases settled
  | resolved target => simp [isResolved]
  | absent => simp [isResolved]

namespace Model

variable {model : Model}

/-- The state that a number stands for in the transitions of a group: the last one in the group's
machine that has it. Numbers above the limit stand for nothing. -/
def destination (model : Model) (limit : UInt16) (group : GroupId) (number : UInt16) : Option StateId :=
  if limit < number then none
  else (model.machine group).reverse.find? fun id => (model.state id).id == number

theorem destination_eq_some_iff {limit : UInt16} {group : GroupId} {number : UInt16} {id : StateId} :
    model.destination limit group number = some id ↔ number ≤ limit ∧
      ∃ front back, model.machine group = front ++ id :: back ∧
        (model.state id).id = number ∧ ∀ other ∈ back, (model.state other).id ≠ number := by
  unfold destination
  by_cases above : limit < number
  · rw [if_pos above]
    exact ⟨nofun,fun both => absurd above (UInt16.not_lt.mpr both.1)⟩
  · rw [if_neg above, find?_reverse_eq_some_iff]
    simp only [beq_iff_eq, UInt16.not_lt.mp above, ne_eq, true_and]

/-- A link, resolved among the states of a group. -/
def aim (model : Model) (limit : UInt16) (group : GroupId) : Link StateId → Link StateId
  | .unresolved number =>
    match model.destination limit group number with
    | some id => .resolved id
    | none => .absent
  | link => link

theorem resolve_eq_aim {numbering : Numbering StateId} {limit : UInt16} {group : GroupId}
    (looked : ∀ number, numbering.find? number = model.destination limit group number)
    (link : Link StateId) : link.resolve numbering = model.aim limit group link := by
  cases link with
  | unresolved number =>
    rw [Link.resolve, aim, looked]
    cases model.destination limit group number with
    | some id => rfl
    | none => rfl
  | resolved | absent => rfl

theorem aim_settled (limit : UInt16) (group : GroupId) (link : Link StateId) :
    (model.aim limit group link).isUnresolved = false := by
  cases link with
  | unresolved number =>
    rw [aim]
    cases model.destination limit group number with
    | some id => rfl
    | none => rfl
  | resolved | absent => rfl

/-- A state whose transitions have been resolved. -/
def aimed (model : Model) (limit : UInt16) (id : StateId) : State :=
  let state := model.state id
  { state with transitions := state.transitions.map fun transition =>
                { transition with target := model.aim limit state.group transition.target } }

def transitionsOf (state : StateId → State) (ids : List StateId) : List Transition :=
  ids.flatMap fun id => (state id).transitions.toList

theorem transitionsOf_append (state : StateId → State) (ids : List StateId) (id : StateId) :
    transitionsOf state (ids ++ [id]) = transitionsOf state ids ++ (state id).transitions.toList := by
  simp [transitionsOf]

def transitions (model : Model) : List Transition := transitionsOf model.state model.stateIds

theorem find?_numbered (limit : UInt16) (group : GroupId) (number : UInt16) :
    (Numbering.ofList limit ((model.machine group).map fun id => ((model.state id).id,id))).find?
      number = model.destination limit group number := by
  rw [Numbering.find?_ofList, destination, ← List.map_reverse, List.find?_map, Option.map_map]
  simp only [Function.comp_def, Option.map_id_fun', id_eq]
  by_cases above : limit < number
  · rw [if_neg (UInt16.not_le.mpr above), if_pos above]
  · rw [if_pos (UInt16.not_lt.mp above), if_neg above]

end Model

open Model

/-- The transitions of some states have been resolved, and no others. -/
structure Retargeted (limit : UInt16) (model : Model) (ids : List StateId) (linked : Linked) : Prop
    where
  groups : linked.model.groups = model.groups
  size : linked.model.states.size = model.states.size
  state : ∀ id, linked.model.state id = if id ∈ ids then model.aimed limit id else model.state id
  resolved : linked.report.transitionsResolved =
    (transitionsOf (model.aimed limit) ids).countP fun transition => transition.target.isResolved
  absent : linked.report.transitionsAbsent =
    (transitionsOf (model.aimed limit) ids).countP fun transition => transition.target = .absent

namespace Retargeted

variable {limit : UInt16} {model : Model} {ids : List StateId} {linked after : Linked}

theorem start : Retargeted limit model [] { model } where
  groups := rfl
  size := rfl
  state id := by simp
  resolved := rfl
  absent := rfl

theorem still (retargeted : Retargeted limit model ids linked)
    (groups : after.model.groups = linked.model.groups)
    (states : after.model.states = linked.model.states)
    (resolved : after.report.transitionsResolved = linked.report.transitionsResolved)
    (absent : after.report.transitionsAbsent = linked.report.transitionsAbsent) :
    Retargeted limit model ids after where
  groups := groups.trans retargeted.groups
  size := (congrArg Array.size states).trans retargeted.size
  state id := by
    rw [← retargeted.state id]
    simp only [Model.state, states]
  resolved := resolved.trans retargeted.resolved
  absent := absent.trans retargeted.absent

theorem machine (retargeted : Retargeted limit model ids linked) (group : GroupId) :
    linked.model.machine group = model.machine group := by
  simp only [Model.machine, Model.group, retargeted.groups]

theorem number (retargeted : Retargeted limit model ids linked) (id : StateId) :
    (linked.model.state id).id = (model.state id).id := by
  rw [retargeted.state]
  split
  · rfl
  · rfl

/-- One more state is resolved. Its transitions all wait, so that all of them are counted. -/
theorem retarget (enrolled : model.Enrolled) (retargeted : Retargeted limit model ids linked)
    {id : StateId} (known : id.index < model.states.size) (fresh : id ∉ ids)
    {numbering : Numbering StateId} (looked : ∀ number,
      numbering.find? number = model.destination limit (model.state id).group number) :
    Retargeted limit model (ids ++ [id]) (linked.retarget numbering id) := by
  have untouched : linked.model.state id = model.state id := by
    rw [retargeted.state, if_neg fresh]
  have waits : (model.state id).transitions.toList.filter (·.target.isUnresolved) =
      (model.state id).transitions.toList := by
    refine List.filter_eq_self.mpr fun transition member => ?_
    obtain ⟨number,waiting⟩ := enrolled.waiting id transition (Array.mem_toList_iff.mp member)
    rw [waiting]
    rfl
  have resolved : (model.aimed limit id).transitions.toList.countP (·.target.isResolved) =
      (model.state id).transitions.toList.countP fun transition =>
        (transition.target.resolve numbering).isResolved := by
    simp only [aimed, Array.toList_map, List.countP_map, Function.comp_def, resolve_eq_aim looked]
  have absent : (model.aimed limit id).transitions.toList.countP (·.target = .absent) =
      (model.state id).transitions.toList.length -
        (model.state id).transitions.toList.countP fun transition =>
          (transition.target.resolve numbering).isResolved := by
    simp only [aimed, Array.toList_map, List.countP_map, Function.comp_def, resolve_eq_aim looked,
      Link.eq_absent_iff (model.aim_settled limit _ _)]
    have all := (model.state id).transitions.toList.length_eq_countP_add_countP fun transition =>
      (model.aim limit (model.state id).group transition.target).isResolved
    omega
  refine ⟨retargeted.groups,?_,?_,?_,?_⟩
  · exact (size_states_modifyState ..).trans retargeted.size
  · intro other
    refine (state_modifyState linked.model id other _).trans ?_
    rw [retargeted.size]
    by_cases here : other = id
    · subst here
      rw [if_pos ⟨rfl,known⟩, if_pos (by simp), untouched, aimed]
      simp only [resolve_eq_aim looked]
    · rw [if_neg (fun both => here both.1), retargeted.state]
      simp [here]
  · rw [transitionsOf_append, List.countP_append, resolved, ← retargeted.resolved]
    simp only [Linked.retarget, untouched, waits]
  · rw [transitionsOf_append, List.countP_append, absent, ← retargeted.absent]
    simp only [Linked.retarget, untouched, waits]

theorem retargetAll (enrolled : model.Enrolled) {numbering : Numbering StateId} {group : GroupId}
    (looked : ∀ number, numbering.find? number = model.destination limit group number)
    (retargeted : Retargeted limit model ids linked) (states : List StateId)
    (fresh : (ids ++ states).Nodup) (inside : ∀ id ∈ states, id ∈ model.machine group) :
    Retargeted limit model (ids ++ states) (states.foldl (Linked.retarget numbering) linked) := by
  induction states generalizing ids linked with
  | nil => rwa [List.append_nil]
  | cons id states ih =>
    obtain ⟨known,own⟩ := enrolled.mem_machine_iff.mp (inside id List.mem_cons_self)
    rw [List.append_cons] at fresh ⊢
    have apart := (List.nodup_append.mp (List.nodup_append.mp fresh).1).2.2
    refine ih (retargeted.retarget enrolled known ?_ ?_) fresh fun other member =>
      inside other (List.mem_cons_of_mem _ member)
    · exact fun member => apart id member id List.mem_cons_self rfl
    · rwa [own]

theorem linkStates (enrolled : model.Enrolled) (retargeted : Retargeted limit model ids linked)
    (group : GroupId) (fresh : (ids ++ model.machine group).Nodup) :
    Retargeted limit model (ids ++ model.machine group) (linked.linkStates limit group) := by
  have looked (number : UInt16) : (Numbering.ofList limit ((linked.model.machine group).map
      fun id => ((linked.model.state id).id,id))).find? number =
        model.destination limit group number := by
    simp only [retargeted.machine, retargeted.number, find?_numbered]
  rw [← retargeted.machine] at fresh ⊢
  exact retargeted.retargetAll enrolled looked (linked.model.machine group) fresh fun _ member =>
    retargeted.machine group ▸ member

theorem joinPairs_keeps (pairs : List (NodeId × NodeId)) (model : Model) :
    (pairs.foldl Linked.joinPair model).groups = model.groups ∧
      (pairs.foldl Linked.joinPair model).states = model.states := by
  induction pairs generalizing model with
  | nil => exact ⟨rfl,rfl⟩
  | cons pair pairs ih => exact ih (Linked.joinPair model pair)

theorem pairFunctions (retargeted : Retargeted limit model ids linked) (line : TimelineId) :
    Retargeted limit model ids (linked.pairFunctions line) := by
  obtain ⟨groups,states⟩ := joinPairs_keeps
    (Pairing.ofNodes linked.model none (linked.model.nodesOf line)).pairs linked.model
  exact retargeted.still groups states rfl rfl

theorem deliver (retargeted : Retargeted limit model ids linked) (numbering : Numbering NodeId)
    (node : NodeId) : Retargeted limit model ids (linked.deliver numbering node) := by
  unfold Linked.deliver
  split
  · unfold Linked.deliverMessage
    dsimp only
    split
    · split
      · exact retargeted.still rfl rfl rfl rfl
      · exact retargeted.still rfl rfl rfl rfl
    · exact retargeted
  · exact retargeted

theorem linkNodes (retargeted : Retargeted limit model ids linked) (bound : UInt16)
    (group : GroupId) : Retargeted limit model ids (linked.linkNodes bound group) := by
  have paired := List.foldlRecOn (motive := Retargeted limit model ids)
    (linked.model.diagram group) Linked.pairFunctions retargeted
    fun _ retargeted line _ => retargeted.pairFunctions line
  exact List.foldlRecOn (motive := Retargeted limit model ids) _ _ paired
    fun _ retargeted node _ => retargeted.deliver _ node

theorem linkGroups (enrolled : model.Enrolled) {limits : Limits} (groups : List GroupId)
    (retargeted : Retargeted limits.state model ids linked)
    (fresh : (ids ++ groups.flatMap model.machine).Nodup) :
    Retargeted limits.state model (ids ++ groups.flatMap model.machine)
      (groups.foldl (Linked.linkGroup limits) linked) := by
  induction groups generalizing ids linked with
  | nil => rwa [List.flatMap_nil, List.append_nil]
  | cons group groups ih =>
    rw [List.flatMap_cons, ← List.append_assoc] at fresh ⊢
    have stated := retargeted.linkStates enrolled group (List.nodup_append.mp fresh).1
    have next : Retargeted limits.state model (ids ++ model.machine group)
        (linked.linkGroup limits group) := stated.linkNodes limits.node group
    rw [List.foldl_cons]
    exact ih next fresh

end Retargeted

/-- Linking resolves the transitions of every state. -/
theorem Model.Enrolled.link_retargeted {model : Model} (enrolled : model.Enrolled) (limits : Limits) :
    Retargeted limits.state model model.machineStates (model.link limits) :=
  .linkGroups enrolled model.groupIds .start enrolled.nodup_machineStates

namespace Retargeted

variable {limit : UInt16} {model : Model} {linked : Linked} (enrolled : model.Enrolled)
  (retargeted : Retargeted limit model model.machineStates linked)

include enrolled retargeted

theorem state_known {id : StateId} (known : id ∈ model.stateIds) :
    linked.model.state id = model.aimed limit id := by
  rw [retargeted.state, if_pos (enrolled.machineStates_perm.mem_iff.mpr known)]

theorem transitions_eq :
    linked.model.transitions = transitionsOf (model.aimed limit) model.stateIds := by
  have ids : linked.model.stateIds = model.stateIds := by simp only [stateIds, retargeted.size]
  rw [Model.transitions, ids]
  refine List.flatMap_congr fun id known => ?_
  rw [retargeted.state_known enrolled known]

theorem length_transitions : linked.model.transitions.length = model.transitions.length := by
  rw [retargeted.transitions_eq enrolled, Model.transitions]
  simp only [transitionsOf, List.length_flatMap, aimed, Array.toList_map, List.length_map]

theorem countP_transitions (wanted : Transition → Bool) :
    (transitionsOf (model.aimed limit) model.machineStates).countP wanted =
      linked.model.transitions.countP wanted := by
  rw [retargeted.transitions_eq enrolled]
  exact (enrolled.machineStates_perm.flatMap_right _).countP_eq wanted

theorem settled (id : StateId) :
    ∀ transition ∈ (linked.model.state id).transitions, transition.target.isUnresolved = false := by
  intro transition member
  by_cases known : id ∈ model.stateIds
  · rw [retargeted.state_known enrolled known] at member
    obtain ⟨before,_,rfl⟩ := Array.mem_map.mp member
    exact model.aim_settled limit _ before.target
  · rw [mem_stateIds_iff, ← retargeted.size] at known
    have missing : linked.model.state id = default := getD_outside (Nat.le_of_not_lt known)
    rw [missing] at member
    exact absurd member (Array.not_mem_empty transition)

theorem total_eq :
    linked.report.transitionsResolved + linked.report.transitionsAbsent =
      linked.model.transitions.length := by
  rw [retargeted.resolved, retargeted.absent, retargeted.countP_transitions enrolled,
    retargeted.countP_transitions enrolled,
    linked.model.transitions.length_eq_countP_add_countP fun transition =>
      transition.target.isResolved]
  congr 1
  refine List.countP_congr fun transition member => ?_
  obtain ⟨id,_,inside⟩ := List.mem_flatMap.mp member
  have known := retargeted.settled enrolled id transition (Array.mem_toList_iff.mp inside)
  simp only [decide_eq_true_iff, Link.eq_absent_iff known]

end Retargeted

/-- Where transitions lead. The target of a transition is the last state with the number of the target
in the machine that lists the state of the transition, if there is one within the limit, and every
transition of the graph is counted as resolved or as absent. -/
theorem Builder.Reachable.link_transitions {builder : Builder} (reachable : builder.Reachable)
    (limits : Limits) :
    let model := builder.model
    let linked := model.link limits
    (∀ group, ∀ id ∈ model.machine group,
      (∀ transition ∈ (model.state id).transitions,
        ∃ number, transition.target = .unresolved number) ∧
      (linked.model.state id).transitions = (model.state id).transitions.map fun transition =>
        { transition with target := model.aim limits.state group transition.target }) ∧
    (∀ group number id, model.destination limits.state group number = some id ↔
      number ≤ limits.state ∧ ∃ front back, model.machine group = front ++ id :: back ∧
        (model.state id).id = number ∧ ∀ other ∈ back, (model.state other).id ≠ number) ∧
    (∀ group, ∀ id ∈ model.machine group, (model.state id).group = group) ∧
    (∀ id, ∀ transition ∈ (linked.model.state id).transitions,
      transition.target.isUnresolved = false) ∧
    linked.report.transitionsResolved =
      linked.model.transitions.countP (fun transition => transition.target.isResolved) ∧
    linked.report.transitionsAbsent =
      linked.model.transitions.countP (fun transition => transition.target = .absent) ∧
    linked.report.transitionsResolved + linked.report.transitionsAbsent = model.transitions.length := by
  intro model linked
  have enrolled : model.Enrolled := reachable.enrolled
  have retargeted := enrolled.link_retargeted limits
  refine ⟨?_,fun _ _ _ => destination_eq_some_iff,enrolled.lists.own,retargeted.settled enrolled,
    ?_,?_,?_⟩
  · intro group id member
    obtain ⟨known,own⟩ := enrolled.mem_machine_iff.mp member
    refine ⟨enrolled.waiting id,?_⟩
    rw [retargeted.state_known enrolled (mem_stateIds_iff.mpr known), aimed]
    simp only [own]
  · rw [retargeted.resolved, retargeted.countP_transitions enrolled]
  · rw [retargeted.absent, retargeted.countP_transitions enrolled]
  · rw [retargeted.total_eq enrolled, retargeted.length_transitions enrolled]

/-- Two states with one number, a number that nothing has, and a state that a section of another group
adds. -/
def doors : List Record :=
  let name (letter : UInt8) : Name := ⟨[letter],false⟩
  let state (group : UInt8) (id : UInt16) (targets : List UInt16) : List Record :=
    .state id ⟨name group,name 115⟩ :: targets.map .transition ++ [.itemEnd]
  .stateMachineStart (name 103) ::
    state 103 0 [1, 7] ++ state 103 1 [0] ++ state 103 1 [] ++ state 104 2 [1] ++ [.stateMachineEnd]

/-- The first door leads to the later one of two that have its number. The one of the other group leads
nowhere, though the number is in use. -/
theorem doors_lead :
    ∃ builder, Builder.applyAll {} doors = some builder ∧
      let linked := builder.model.link builder.limits
      (linked.model.state ⟨0⟩).transitions.map (·.target) = #[.resolved ⟨2⟩,.absent] ∧
      (linked.model.state ⟨1⟩).transitions.map (·.target) = #[.resolved ⟨0⟩] ∧
      (linked.model.state ⟨3⟩).transitions.map (·.target) = #[.absent] ∧
      linked.report.transitionsResolved + linked.report.transitionsAbsent = 4 := by
  have checked : (Builder.applyAll {} doors).any fun builder =>
      let model := builder.model
      let targets (group : GroupId) (id : StateId) : Array (Link StateId) :=
        (model.state id).transitions.map fun transition =>
          model.aim builder.limits.state group transition.target
      model.machine ⟨1⟩ = [⟨0⟩,⟨1⟩,⟨2⟩] ∧ model.machine ⟨2⟩ = [⟨3⟩] ∧
        targets ⟨1⟩ ⟨0⟩ = #[.resolved ⟨2⟩,.absent] ∧ targets ⟨1⟩ ⟨1⟩ = #[.resolved ⟨0⟩] ∧
        targets ⟨2⟩ ⟨3⟩ = #[.absent] ∧ model.transitions.length = 4 := by decide +kernel
  obtain ⟨builder,accepted,holds⟩ := (Option.any_eq_true _ _).mp checked
  obtain ⟨first,second,early,back,late,four⟩ := of_decide_eq_true holds
  have reachable := Builder.applyAll_reachable .initial accepted
  obtain ⟨targets,_,_,_,_,_,total⟩ := reachable.link_transitions builder.limits
  refine ⟨builder,accepted,?_,?_,?_,total.trans four⟩
  · rw [(targets ⟨1⟩ ⟨0⟩ (by rw [first]; decide)).2, Array.map_map]
    exact early
  · rw [(targets ⟨1⟩ ⟨1⟩ (by rw [first]; decide)).2, Array.map_map]
    exact back
  · rw [(targets ⟨2⟩ ⟨3⟩ (by rw [second]; decide)).2, Array.map_map]
    exact late

end DocGraph
