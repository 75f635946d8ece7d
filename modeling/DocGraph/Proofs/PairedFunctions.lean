import DocGraph.Proofs.FunctionPairs

/-! Linking as one pairing for every timeline of a diagram. No node is on two timelines, so that later pairings
leave the earlier ones alone. -/
namespace DocGraph

namespace Model

/-- The timelines of all diagrams, in the order in which they are linked. -/
def lines (model : Model) : List TimelineId := model.groupIds.flatMap model.diagram

def pairing (model : Model) (line : TimelineId) : Pairing :=
  .ofNodes model none (model.nodesOf line)

variable {before after model : Model}

theorem Settled.pairing (settled : Settled before after) (line : TimelineId) :
    after.pairing line = before.pairing line := by
  simp only [Model.pairing, settled.nodesOf, Pairing.ofNodes_congr settled.flags]

theorem joined_of_mem {line : TimelineId} {pair : NodeId × NodeId}
    (member : pair ∈ (model.pairing line).pairs) : model.Joined pair.1 pair.2 := ⟨line,member⟩

/-- Joining a pair leaves every other pair joined, since two pairs share no node. -/
theorem Lined.joinPair_keeps (lined : model.Lined) {pair other : NodeId × NodeId}
    (joined : model.Joined pair.1 pair.2) (joined' : model.Joined other.1 other.2)
    (tied : (model.node other.1).functionEnd = some other.2) :
    ((Linked.joinPair model pair).node other.1).functionEnd = some other.2 := by
  obtain ⟨line,member⟩ := joined
  obtain ⟨begins,ends⟩ := Joined.members member
  rw [(node_joinPair (lined.within _ _ begins) (lined.within _ _ ends) other.1).1]
  split
  · rename_i same
    have one := lined.joined_unique ⟨line,member⟩ joined' (.inl same.symm)
    rw [(Prod.mk.inj one).2]
  · exact tied

theorem Lined.joinPair_ties (lined : model.Lined) {pair : NodeId × NodeId}
    (joined : model.Joined pair.1 pair.2) :
    ((Linked.joinPair model pair).node pair.1).functionEnd = some pair.2 := by
  obtain ⟨line,member⟩ := joined
  obtain ⟨begins,ends⟩ := Joined.members member
  rw [(node_joinPair (lined.within _ _ begins) (lined.within _ _ ends) pair.1).1, if_pos rfl]

theorem settled_joinPairs (model : Model) (pairs : List (NodeId × NodeId)) :
    Settled model (pairs.foldl Linked.joinPair model) :=
  List.foldlRecOn (motive := Settled model) pairs _ (.refl model)
    fun after settled pair _ => settled.trans (settled_joinPair after pair)

/-- What is joined stays so while more pairs are joined, and in the end all of them are. -/
theorem Lined.joinPairs (lined : model.Lined) (pairs : List (NodeId × NodeId))
    (joined : ∀ pair ∈ pairs, model.Joined pair.1 pair.2) :
    (∀ other : NodeId × NodeId, model.Joined other.1 other.2 →
      (model.node other.1).functionEnd = some other.2 →
      ((pairs.foldl Linked.joinPair model).node other.1).functionEnd = some other.2) ∧
    ∀ pair ∈ pairs, ((pairs.foldl Linked.joinPair model).node pair.1).functionEnd = some pair.2 := by
  induction pairs generalizing model with
  | nil => exact ⟨fun _ _ tied => tied,nofun⟩
  | cons pair pairs ih =>
    have settled := settled_joinPair model pair
    have here := joined pair List.mem_cons_self
    obtain ⟨keeps,ties⟩ := ih (lined.settled settled) fun other member =>
      (Joined.settled settled).mpr (joined other (List.mem_cons_of_mem _ member))
    refine ⟨fun other joined' tied => ?_,fun other member => ?_⟩
    · exact keeps other ((Joined.settled settled).mpr joined') (lined.joinPair_keeps here joined' tied)
    · rcases List.mem_cons.mp member with rfl | member
      · exact keeps other ((Joined.settled settled).mpr here) (lined.joinPair_ties here)
      · exact ties other member

end Model

open Model

/-- The functions of some timelines have been paired. -/
structure Paired (model : Model) (lines : List TimelineId) (linked : Linked) : Prop where
  settled : Settled model linked.model
  groups : linked.model.groups = model.groups
  joined : ∀ line ∈ lines, ∀ pair ∈ (model.pairing line).pairs,
    (linked.model.node pair.1).functionEnd = some pair.2
  pairs : linked.report.functionPairs = (lines.flatMap fun line => (model.pairing line).pairs).length
  unmatched : linked.report.unpairedFunctionEnds =
    (lines.flatMap fun line => (model.pairing line).unmatched).length

namespace Paired

variable {model : Model} {lines : List TimelineId} {linked after : Linked}

theorem start : Paired model [] { model } where
  settled := .refl model
  groups := rfl
  joined := nofun
  pairs := rfl
  unmatched := rfl

theorem diagram_eq (paired : Paired model lines linked) (group : GroupId) :
    linked.model.diagram group = model.diagram group := by
  simp only [Model.diagram, Model.group, paired.groups]

theorem lines_eq (paired : Paired model lines linked) : linked.model.lines = model.lines := by
  simp only [Model.lines, groupIds, paired.groups, funext paired.diagram_eq]

theorem still (paired : Paired model lines linked) (settled : Settled linked.model after.model)
    (groups : after.model.groups = linked.model.groups)
    (ends : ∀ id, (after.model.node id).functionEnd = (linked.model.node id).functionEnd)
    (pairs : after.report.functionPairs = linked.report.functionPairs)
    (unmatched : after.report.unpairedFunctionEnds = linked.report.unpairedFunctionEnds) :
    Paired model lines after where
  settled := paired.settled.trans settled
  groups := groups.trans paired.groups
  joined line member pair inside := (ends pair.1).trans (paired.joined line member pair inside)
  pairs := pairs.trans paired.pairs
  unmatched := unmatched.trans paired.unmatched

theorem still_of_eq (paired : Paired model lines linked)
    (timelines : after.model.timelines = linked.model.timelines)
    (nodes : after.model.nodes = linked.model.nodes) (groups : after.model.groups = linked.model.groups)
    (pairs : after.report.functionPairs = linked.report.functionPairs)
    (unmatched : after.report.unpairedFunctionEnds = linked.report.unpairedFunctionEnds) :
    Paired model lines after := by
  refine paired.still (settled_of_eq timelines nodes) groups (fun id => ?_) pairs unmatched
  simp only [Model.node, nodes]

theorem pairFunctions (lined : model.Lined) (paired : Paired model lines linked) (line : TimelineId) :
    Paired model (lines ++ [line]) (linked.pairFunctions line) := by
  have same : linked.model.pairing line = model.pairing line := paired.settled.pairing line
  obtain ⟨keeps,ties⟩ := (lined.settled paired.settled).joinPairs (linked.model.pairing line).pairs
    fun pair member => joined_of_mem member
  refine ⟨?_,?_,?_,?_,?_⟩
  · exact paired.settled.trans (settled_joinPairs ..)
  · exact List.foldlRecOn (motive := fun after : Model => after.groups = model.groups) _ _
      paired.groups fun _ groups _ _ => groups
  · intro other member pair inside
    rcases List.mem_append.mp member with old | new
    · refine keeps pair ?_ (paired.joined other old pair inside)
      exact (Joined.settled paired.settled).mpr (joined_of_mem inside)
    · rw [List.mem_singleton.mp new, ← same] at inside
      exact ties pair inside
  · have counted : (linked.pairFunctions line).report.functionPairs =
        linked.report.functionPairs + (linked.model.pairing line).pairs.length := rfl
    simp [counted,paired.pairs,same]
  · have counted : (linked.pairFunctions line).report.unpairedFunctionEnds =
        linked.report.unpairedFunctionEnds + (linked.model.pairing line).unmatched.length := rfl
    simp [counted,paired.unmatched,same]

theorem linkStates (paired : Paired model lines linked) (limit : UInt16) (group : GroupId) :
    Paired model lines (linked.linkStates limit group) := by
  unfold Linked.linkStates
  exact List.foldlRecOn (motive := Paired model lines) _ _ paired
    fun _ paired _ _ => paired.still_of_eq rfl rfl rfl rfl rfl

theorem deliver (paired : Paired model lines linked) (numbering : Numbering NodeId) (node : NodeId) :
    Paired model lines (linked.deliver numbering node) := by
  unfold Linked.deliver
  split
  · rename_i id _
    unfold Linked.deliverMessage
    dsimp only
    split
    · split
      · rename_i receiver _
        have noted : Settled linked.model (linked.model.modifyNode receiver ({ · with received := some id })) :=
          settled_modifyNode receiver fun _ => ⟨rfl,rfl,rfl⟩
        refine paired.still (noted.trans (settled_of_eq rfl rfl)) rfl (fun other => ?_) rfl rfl
        refine (congrArg Node.functionEnd (node_modifyNode linked.model receiver other _)).trans ?_
        split
        · rfl
        · rfl
      · exact paired.still_of_eq rfl rfl rfl rfl rfl
    · exact paired
  · exact paired

theorem linkNodes (lined : model.Lined) (paired : Paired model lines linked) (limit : UInt16)
    (group : GroupId) : Paired model (lines ++ model.diagram group) (linked.linkNodes limit group) := by
  have run (rest : List TimelineId) {lines : List TimelineId} {linked : Linked}
      (paired : Paired model lines linked) :
      Paired model (lines ++ rest) (rest.foldl Linked.pairFunctions linked) := by
    induction rest generalizing lines linked with
    | nil => rwa [List.append_nil]
    | cons line rest ih =>
      rw [List.append_cons, List.foldl_cons]
      exact ih (paired.pairFunctions lined line)
  unfold Linked.linkNodes
  rw [paired.diagram_eq group]
  exact List.foldlRecOn (motive := Paired model (lines ++ model.diagram group)) _ _
    (run (model.diagram group) paired) fun _ paired node _ => paired.deliver _ node

theorem linkGroups (lined : model.Lined) (limits : Limits) (groups : List GroupId)
    (paired : Paired model lines linked) :
    Paired model (lines ++ groups.flatMap model.diagram)
      (groups.foldl (Linked.linkGroup limits) linked) := by
  induction groups generalizing lines linked with
  | nil => rwa [List.flatMap_nil, List.append_nil]
  | cons group groups ih =>
    rw [List.flatMap_cons, ← List.append_assoc, List.foldl_cons]
    exact ih ((paired.linkStates limits.state group).linkNodes lined limits.node group)

end Paired

/-- Linking pairs the functions of every timeline of a diagram. -/
theorem Model.Lined.link_paired {model : Model} (lined : model.Lined) (limits : Limits) :
    Paired model model.lines (model.link limits) :=
  .linkGroups lined limits model.groupIds .start

end DocGraph
