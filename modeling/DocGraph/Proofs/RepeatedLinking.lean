import DocGraph.Proofs.PairedFunctions
import DocGraph.Proofs.TransitionTargets

/-! Linking a graph that has been linked. Links are looked up once; functions are counted each time. -/
namespace DocGraph

theorem modify_eq_self [Inhabited α] {items : Array α} {index : Nat} {change : α → α}
    (same : change (items[index]?.getD default) = items[index]?.getD default) :
    items.modify index change = items := by
  refine Array.ext Array.size_modify fun other _ inside => ?_
  rw [Array.getElem_modify]
  split
  · rename_i here
    subst here
    simpa [inside] using same
  · rfl

theorem Link.resolve_settled {link : Link α} (settled : link.isUnresolved = false)
    (numbering : Numbering α) : link.resolve numbering = link := by
  cases link with
  | unresolved number => cases settled
  | resolved | absent => rfl

namespace Model

variable {model : Model}

/-- Nothing is left to be linked. A message that its sender no longer has does not count. -/
structure Complete (model : Model) : Prop where
  transitions : ∀ id, ∀ transition ∈ (model.state id).transitions,
    transition.target.isUnresolved = false
  messages : ∀ sender id, (model.node sender).sent = some id →
    (model.message id).receiver.isUnresolved = false
  ends : ∀ line ∈ model.lines, ∀ pair ∈ (model.pairing line).pairs,
    (model.node pair.1).functionEnd = some pair.2
  starts : ∀ line ∈ model.lines, ∀ pair ∈ (model.pairing line).pairs,
    (model.node pair.2).functionStart = some pair.1

theorem modifyState_eq_self {id : StateId} {change : State → State}
    (same : change (model.state id) = model.state id) : model.modifyState id change = model := by
  rw [modifyState, modify_eq_self same]

theorem modifyNode_eq_self {id : NodeId} {change : Node → Node}
    (same : change (model.node id) = model.node id) : model.modifyNode id change = model := by
  rw [modifyNode, modify_eq_self same]

theorem joinPair_eq_self {pair : NodeId × NodeId}
    (ends : (model.node pair.1).functionEnd = some pair.2)
    (starts : (model.node pair.2).functionStart = some pair.1) : Linked.joinPair model pair = model := by
  have first : model.modifyNode pair.1 ({ · with functionEnd := some pair.2 }) = model :=
    modifyNode_eq_self (by rw [← ends])
  rw [Linked.joinPair, first]
  exact modifyNode_eq_self (by rw [← starts])

end Model

open Model

/-- A graph is as it was, and no link has been looked up. -/
structure Idle (model : Model) (linked : Linked) : Prop where
  model : linked.model = model
  transitionsResolved : linked.report.transitionsResolved = 0
  transitionsAbsent : linked.report.transitionsAbsent = 0
  messagesResolved : linked.report.messagesResolved = 0
  messagesAbsent : linked.report.messagesAbsent = 0

namespace Idle

variable {model : Model} {linked : Linked} (complete : model.Complete) (idle : Idle model linked)

include complete idle

theorem retarget (numbering : Numbering StateId) (id : StateId) :
    Idle model (linked.retarget numbering id) := by
  have settled := complete.transitions id
  have none_ : (model.state id).transitions.toList.filter (·.target.isUnresolved) = [] := by
    refine List.filter_eq_nil_iff.mpr fun transition member => ?_
    simp [settled transition (Array.mem_toList_iff.mp member)]
  have same : (model.state id).transitions.map (fun transition =>
      { transition with target := transition.target.resolve numbering }) =
        (model.state id).transitions := by
    refine (Array.map_congr_left fun transition member => ?_).trans (Array.map_id' _)
    rw [Link.resolve_settled (settled transition member)]
  refine ⟨?_,?_,?_,idle.messagesResolved,idle.messagesAbsent⟩
  · simp only [Linked.retarget, idle.model]
    exact modifyState_eq_self (by rw [same])
  · simp [Linked.retarget,idle.model,none_,idle.transitionsResolved]
  · simp [Linked.retarget,idle.model,none_,idle.transitionsAbsent]

theorem pairFunctions {line : TimelineId} (inside : line ∈ model.lines) :
    Idle model (linked.pairFunctions line) := by
  have run := List.foldlRecOn (motive := fun after : Model => after = model)
    (model.pairing line).pairs Linked.joinPair rfl fun after same pair member => by
      rw [same]
      exact joinPair_eq_self (complete.ends line inside pair member)
        (complete.starts line inside pair member)
  refine ⟨?_,idle.transitionsResolved,idle.transitionsAbsent,idle.messagesResolved,
    idle.messagesAbsent⟩
  simp only [Linked.pairFunctions, idle.model]
  exact run

theorem deliver (numbering : Numbering NodeId) (node : NodeId) :
    Idle model (linked.deliver numbering node) := by
  unfold Linked.deliver
  split
  · rename_i id sent
    rw [idle.model] at sent
    have settled := complete.messages node id sent
    unfold Linked.deliverMessage
    dsimp only
    split
    · rename_i number waiting
      rw [idle.model] at waiting
      rw [waiting] at settled
      cases settled
    · exact idle
  · exact idle

theorem linkStates (limit : UInt16) (group : GroupId) : Idle model (linked.linkStates limit group) := by
  unfold Linked.linkStates
  exact List.foldlRecOn (motive := Idle model) _ _ idle fun _ idle id _ => idle.retarget complete _ id

theorem linkNodes (limit : UInt16) {group : GroupId} (known : group ∈ model.groupIds) :
    Idle model (linked.linkNodes limit group) := by
  have paired := List.foldlRecOn (motive := Idle model) (linked.model.diagram group)
    Linked.pairFunctions idle fun _ earlier line member => by
      rw [idle.model] at member
      exact earlier.pairFunctions complete (List.mem_flatMap.mpr ⟨group,known,member⟩)
  exact List.foldlRecOn (motive := Idle model) _ _ paired fun _ idle node _ =>
    idle.deliver complete _ node

end Idle

theorem Model.Complete.link_idle {model : Model} (complete : model.Complete) (limits : Limits) :
    Idle model (model.link limits) := by
  have start : Idle model { model } := ⟨rfl,rfl,rfl,rfl,rfl⟩
  exact List.foldlRecOn (motive := Idle model) _ _ start fun _ idle group known =>
    (idle.linkStates complete limits.state group).linkNodes complete limits.node known

theorem Builder.Reachable.link_complete {builder : Builder} (reachable : builder.Reachable)
    (limits : Limits) : (builder.model.link limits).model.Complete := by
  have built := reachable.built
  have enrolled := reachable.enrolled
  have retargeted := enrolled.link_retargeted limits
  have delivered := built.link_delivered limits
  have paired := built.drawn.lined.link_paired limits
  have wired := built.drawn.link_wired limits
  have ends : ∀ line ∈ (builder.model.link limits).model.lines,
      ∀ pair ∈ ((builder.model.link limits).model.pairing line).pairs,
        ((builder.model.link limits).model.node pair.1).functionEnd = some pair.2 := by
    intro line inside pair member
    rw [paired.lines_eq] at inside
    rw [paired.settled.pairing] at member
    exact paired.joined line inside pair member
  refine ⟨retargeted.settled enrolled,fun sender id sent => ?_,ends,fun line inside pair member => ?_⟩
  · rw [delivered.framed.sent] at sent
    obtain ⟨known,own⟩ := built.posted.own sender id sent
    refine (delivered.unresolved_iff built known).mpr ?_
    rw [Kept, own]
    exact sent
  · exact (wired.inverse _ _).mp (ends line inside pair member)

/-- Linking twice is harmless. Whatever the limits are, the second time changes nothing, resolves nothing
and finds nothing absent, and counts the functions that the first time counted. -/
theorem Builder.Reachable.link_again {builder : Builder} (reachable : builder.Reachable)
    (limits limits' : Limits) :
    let first := builder.model.link limits
    let second := first.model.link limits'
    second.model = first.model ∧
      second.report =
        { functionPairs := first.report.functionPairs
          unpairedFunctionEnds := first.report.unpairedFunctionEnds } := by
  intro first second
  have lined : builder.model.Lined := reachable.drawn.lined
  have idle : Idle first.model second := (reachable.link_complete limits).link_idle limits'
  have paired : Paired builder.model builder.model.lines first := lined.link_paired limits
  -- Functions are counted each time. What is counted depends on nothing that linking changes.
  have again : Paired first.model first.model.lines second :=
    (lined.settled paired.settled).link_paired limits'
  have pairs : second.report.functionPairs = first.report.functionPairs := by
    simp only [again.pairs, paired.pairs, paired.lines_eq, paired.settled.pairing]
  have unmatched : second.report.unpairedFunctionEnds = first.report.unpairedFunctionEnds := by
    simp only [again.unmatched, paired.unmatched, paired.lines_eq, paired.settled.pairing]
  refine ⟨idle.model,?_⟩
  rw [← pairs, ← unmatched]
  obtain ⟨_,resolved,absent,arrived,lost⟩ := idle
  generalize second.report = report at resolved absent arrived lost
  cases report
  simp_all

/-- A transition, a message, and a timeline with a function and the end of another one. -/
def errand : List Record :=
  let name (letter : UInt8) : Name := ⟨[letter],false⟩
  .stateMachineStart (name 103) :: .state 1 ⟨name 103,name 115⟩ :: .transition 1 :: .itemEnd ::
  .stateMachineEnd :: .sequenceStart (name 103) :: .timeline ⟨name 103,name 65⟩ ::
  .nodeStart 1 0 :: .sentMessage ⟨1,2,name 66,name 109⟩ :: .nodeEnd ::
  .nodeStart 2 0x100 :: .nodeEnd :: .nodeStart 3 0x80 :: .nodeEnd :: .nodeStart 4 0x80 :: .nodeEnd ::
  [.sequenceEnd]

/-- What limits that are too small have made absent, limits that would do for it leave absent. -/
theorem errand_over :
    ∃ builder, Builder.applyAll {} errand = some builder ∧ builder.limits = ⟨1,4⟩ ∧
      let first := builder.model.link {}
      let second := first.model.link builder.limits
      first.report = { transitionsAbsent := 1, messagesAbsent := 1, functionPairs := 1,
                       unpairedFunctionEnds := 1 } ∧
      second.model = first.model ∧
      second.report = { functionPairs := 1, unpairedFunctionEnds := 1 } := by
  have checked : (Builder.applyAll {} errand).any fun builder =>
      builder.limits = ⟨1,4⟩ ∧ (builder.model.link {}).report =
        { transitionsAbsent := 1, messagesAbsent := 1, functionPairs := 1,
          unpairedFunctionEnds := 1 } := by decide +kernel
  obtain ⟨builder,accepted,holds⟩ := (Option.any_eq_true _ _).mp checked
  obtain ⟨limits,first⟩ := of_decide_eq_true holds
  have reachable := Builder.applyAll_reachable .initial accepted
  obtain ⟨same,counted⟩ := reachable.link_again {} builder.limits
  rw [first] at counted
  exact ⟨builder,accepted,limits,first,same,counted⟩

end DocGraph
