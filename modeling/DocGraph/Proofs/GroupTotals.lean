import DocGraph.CommandLine.Summary
import DocGraph.Proofs.FlatFunctions
import DocGraph.Proofs.TransitionTargets

/-! Counts of summaries, of the report and of the arenas, against each other. -/
namespace DocGraph

theorem toList_eq_map_getD [Inhabited α] (items : Array α) :
    items.toList = (List.range items.size).map fun index => items[index]?.getD default := by
  refine List.ext_getElem (by simp) fun index here _ => ?_
  rw [Array.length_toList] at here
  simp [here]

/-- What is counted in the lists of all places is counted among the items. -/
theorem Divided.sum_countP {places : List κ} {lists : κ → List ι} {own : ι → κ} {items : List ι}
    (divided : Divided places lists own items) (wanted : ι → Bool) :
    (places.map fun place => (lists place).countP wanted).sum = items.countP wanted := by
  rw [← divided.once.countP_eq wanted, List.countP_flatMap]
  rfl

theorem Divided.sum_length {places : List κ} {lists : κ → List ι} {own : ι → κ} {items : List ι}
    (divided : Divided places lists own items) :
    (places.map fun place => (lists place).length).sum = items.length := by
  rw [← divided.once.length_eq, List.length_flatMap]

namespace Model

variable {before after model : Model}

theorem nodes_toList (model : Model) : model.nodes.toList = model.nodeIds.map model.node := by
  rw [toList_eq_map_getD, nodeIds, List.map_map]
  rfl

theorem countP_ends (model : Model) :
    model.nodes.toList.countP
        (fun node => node.flags.contains .functionEnd && !node.flags.contains .function) =
      model.nodeIds.countP (model.Ends ·) := by
  rw [nodes_toList, List.countP_map]
  refine List.countP_congr fun id _ => ?_
  rw [decide_eq_true_iff, Function.comp_apply, Bool.and_eq_true, Bool.not_eq_true', Ends]

theorem Settled.ends (settled : Settled before after) (id : NodeId) : after.Ends id ↔ before.Ends id := by
  simp only [Ends, settled.flags]

theorem WellFormed.drawn (wellFormed : model.WellFormed) :
    Divided model.groupIds model.diagramNodes model.groupOf model.nodeIds :=
  ⟨wellFormed.drawnNodes_perm,fun _ _ member => (wellFormed.mem_diagramNodes_iff.mp member).2⟩

theorem length_pairings (model : Model) (lines : List TimelineId) :
    (lines.flatMap fun line => (model.pairing line).pairs).length +
        (lines.flatMap fun line => (model.pairing line).unmatched).length =
      (lines.flatMap model.nodesOf).countP (model.Ends ·) := by
  induction lines with
  | nil => rfl
  | cons line lines ih =>
    have ends := (Pairing.ends_perm model none (model.nodesOf line)).length_eq
    rw [List.length_append, List.length_map, ← List.countP_eq_length_filter] at ends
    simp only [List.flatMap_cons, List.length_append, List.countP_append, ← ih, ← ends, pairing]
    omega

end Model

theorem Loaded.nameDocument_states (model : Model) : (nameDocument model).1.states = model.states := by
  unfold nameDocument
  split
  · split
    · rfl
    · rfl
  · rfl

open Model

/-- The messages that are counted by linking are the ones that nodes send. -/
theorem Delivered.total_sent {limit : UInt16} {model : Model} {linked : Linked} (built : model.Built)
    (delivered : Delivered limit model (model.sentBy model.drawnNodes) linked) :
    linked.report.messagesResolved + linked.report.messagesAbsent =
      linked.model.nodeIds.countP fun id => (linked.model.node id).sent.isSome := by
  have ids : linked.model.nodeIds = model.nodeIds := by simp only [nodeIds, delivered.framed.size]
  have sent (id : NodeId) : (linked.model.node id).sent = (model.node id).sent := delivered.framed.sent id
  have placed : model.drawnNodes.Perm model.nodeIds := by
    refine (List.perm_ext_iff_of_nodup built.nodup_drawnNodes model.nodup_nodeIds).mpr fun id => ?_
    rw [built.mem_drawnNodes_iff, mem_nodeIds_iff]
  rw [delivered.total_eq built, List.countP_eq_length_filter, ← built.sentBy_perm.length_eq, sentBy,
    List.length_filterMap_eq_countP, placed.countP_eq, ids]
  simp only [sent]

/-- The ends of functions are counted along the timelines of all diagrams, which list every node. -/
theorem Paired.total_ends {model : Model} {linked : Linked} (wellFormed : model.WellFormed)
    (paired : Paired model model.lines linked) :
    linked.report.functionPairs + linked.report.unpairedFunctionEnds =
      linked.model.nodeIds.countP (linked.model.Ends ·) := by
  have ids : linked.model.nodeIds = model.nodeIds := by simp only [nodeIds, paired.settled.size]
  have split : model.lines.flatMap model.nodesOf = model.drawnNodes := List.flatMap_assoc
  rw [paired.pairs, paired.unmatched, length_pairings, split, wellFormed.drawnNodes_perm.countP_eq, ids]
  simp only [paired.settled.ends]

/-- What is shown of a file adds up. The groups list all states, timelines and nodes; the messages that
their nodes send are the ones that were resolved or found absent; every transition was resolved or found
absent; and every end of a function is in a pair or left over. -/
theorem load_summaries_add_up {source : Source} {file : String} {loaded : Loaded}
    (found : (load source file).result = .ok loaded) :
    let model := loaded.model
    let report := loaded.report
    let groups := CommandLine.summaries model
    (groups.map (·.states)).sum = model.states.size ∧
    (groups.map (·.timelines)).sum = model.timelines.size ∧
    (groups.map (·.nodes)).sum = model.nodes.size ∧
    (groups.map (·.messages)).sum = report.messagesResolved + report.messagesAbsent ∧
    report.transitionsResolved + report.transitionsAbsent = model.transitions.length ∧
    report.functionPairs + report.unpairedFunctionEnds = model.nodes.toList.countP fun node =>
      node.flags.contains .functionEnd && !node.flags.contains .function := by
  intro model report groups
  have wellFormed : model.WellFormed := (Obtained.loaded found).wellFormed
  obtain ⟨builder,reachable,named,reported,_⟩ := load_reachable found
  obtain ⟨_,nodes,_⟩ := Loaded.nameDocument_keeps (builder.model.link builder.limits).model
  have states := Loaded.nameDocument_states (builder.model.link builder.limits).model
  rw [← named] at nodes states
  simp only [groups, CommandLine.summaries, List.map_map]
  refine ⟨?_,?_,?_,?_,?_,?_⟩
  · exact wellFormed.machines.sum_length.trans (by simp [stateIds])
  · exact wellFormed.diagrams.sum_length.trans (by simp [timelineIds])
  · exact wellFormed.drawn.sum_length.trans (by simp [nodeIds])
  · obtain ⟨builder,reachable,delivered⟩ := load_delivered found
    rw [delivered.total_sent reachable.built]
    exact wellFormed.drawn.sum_countP _
  · have enrolled := reachable.enrolled
    have total := (enrolled.link_retargeted builder.limits).total_eq enrolled
    rw [← reported] at total
    simp only [report, total, model, transitions, stateIds, states, transitionsOf, Model.state]
  · have total := (reachable.drawn.lined.link_paired builder.limits).total_ends reachable.wellFormed
    rw [← reported] at total
    rw [total, ← countP_ends, nodes]

/-- Two machines, and a diagram in which a message is lost and functions overlap. -/
def ledger : List Record := doors ++ letters ++ overlaps

/-- Of the four messages the one that is lost is counted nowhere, and each of the four ends once. -/
theorem ledger_adds_up :
    ∃ bytes loaded, Writer.file {} ledger = .ok bytes ∧
      (load ⟨bytes,[]⟩ "model").result = .ok loaded ∧
      let groups := CommandLine.summaries loaded.model
      groups.map (·.states) = [0,3,1] ∧ loaded.model.states.size = 4 ∧
      (groups.map (·.nodes)).sum = loaded.model.nodes.size ∧
      loaded.model.messages.size = 4 ∧
      loaded.report.messagesResolved + loaded.report.messagesAbsent = 3 ∧
      loaded.report.transitionsResolved + loaded.report.transitionsAbsent = 4 ∧
      loaded.report.functionPairs + loaded.report.unpairedFunctionEnds = 4 := by
  obtain ⟨bytes,written⟩ : ∃ bytes, Writer.file {} ledger = .ok bytes := ⟨_,rfl⟩
  have checked : (graphOf ledger).any fun model =>
      let groups := CommandLine.summaries model
      groups.map (·.states) = [0,3,1] ∧ groups.map (·.messages) = [0,3,0] ∧
        model.messages.size = 4 ∧ model.transitions.length = 4 ∧
        model.nodes.toList.countP (fun node =>
          node.flags.contains .functionEnd && !node.flags.contains .function) = 4 := by
    decide +kernel
  obtain ⟨loaded,found,holds⟩ := load_graphOf written checked "model"
  obtain ⟨machines,sent,size,transitions,ends⟩ := of_decide_eq_true holds
  obtain ⟨states,_,nodes,messages,targets,functions⟩ := load_summaries_add_up found
  rw [machines] at states
  rw [sent] at messages
  exact ⟨bytes,loaded,written,found,machines,states.symm,nodes,size,messages.symm,
    targets.trans transitions,functions.trans ends⟩

end DocGraph
