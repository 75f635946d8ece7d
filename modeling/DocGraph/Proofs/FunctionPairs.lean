import DocGraph.Proofs.TimelineOrder
import Mathlib.Data.List.Pairwise

/-! References between the starts and the ends of functions. Linking moves no node and changes no flag, so that
the pairs can be read off the loaded graph. -/
namespace DocGraph

namespace Pairing

theorem ofNodes_congr {before after : Model}
    (flags : ∀ id, (after.node id).flags = (before.node id).flags) (opened : Option NodeId)
    (nodes : List NodeId) : ofNodes after opened nodes = ofNodes before opened nodes := by
  induction nodes generalizing opened with
  | nil => rfl
  | cons node rest ih => simp only [ofNodes, flags, ih]

variable {model : Model} {opened : Option NodeId} {nodes : List NodeId}

/-- What the first node of a list has to do with a pair: it opens a function, it ends the open one, it
ends none, or it is neither start nor end. -/
theorem pairs_cons {node : NodeId} {rest : List NodeId} {pair : NodeId × NodeId}
    (member : pair ∈ (ofNodes model opened (node :: rest)).pairs) :
    let flags := (model.node node).flags
    flags.contains .function = true ∧ pair ∈ (ofNodes model (some node) rest).pairs ∨
    flags.contains .function = false ∧
      (flags.contains .functionEnd = true ∧
        (opened = some pair.1 ∧ pair.2 = node ∨ pair ∈ (ofNodes model none rest).pairs) ∨
      flags.contains .functionEnd = false ∧ pair ∈ (ofNodes model opened rest).pairs) := by
  simp only [ofNodes] at member
  split at member
  · rename_i starts
    exact .inl ⟨starts,member⟩
  · rename_i plain
    refine .inr ⟨eq_false_of_ne_true plain,?_⟩
    split at member
    · rename_i ends
      refine .inl ⟨ends,?_⟩
      cases opened with
      | none => exact .inr member
      | some start =>
        rcases List.mem_cons.mp member with rfl | later
        · exact .inl ⟨rfl,rfl⟩
        · exact .inr later
    · rename_i plain'
      exact .inr ⟨eq_false_of_ne_true plain',member⟩

/-- A pair starts at the open function or later, and ends at a function end of the list. -/
theorem mem_pairs {first last : NodeId} (member : (first,last) ∈ (ofNodes model opened nodes).pairs) :
    (opened = some first ∨ first ∈ nodes) ∧ last ∈ nodes ∧
      (model.node last).flags.contains .functionEnd = true := by
  induction nodes generalizing opened with
  | nil => cases member
  | cons node rest ih =>
    have further {opened' : Option NodeId} (later : (first,last) ∈ (ofNodes model opened' rest).pairs)
        (start : opened' = some first → opened = some first ∨ first = node) :
        (opened = some first ∨ first ∈ node :: rest) ∧ last ∈ node :: rest ∧
          (model.node last).flags.contains .functionEnd = true := by
      obtain ⟨place,ends,flag⟩ := ih later
      refine ⟨?_,List.mem_cons_of_mem _ ends,flag⟩
      rw [List.mem_cons, ← or_assoc]
      exact place.imp_left start
    rcases pairs_cons member with ⟨_,later⟩ | ⟨_,⟨ends,⟨here,rfl⟩ | later⟩ | ⟨_,later⟩⟩
    · exact further later fun here => .inr (Option.some.inj here).symm
    · exact ⟨.inl here,List.mem_cons_self,ends⟩
    · exact further later fun absent => absurd absent (Option.some_ne_none first).symm
    · exact further later .inl

/-- No node starts two pairs, and no node ends two. -/
theorem pairs_apart (distinct : nodes.Nodup) (apart : ∀ start, opened = some start → start ∉ nodes) :
    (ofNodes model opened nodes).pairs.Pairwise
      fun pair other => pair.1 ≠ other.1 ∧ pair.2 ≠ other.2 := by
  induction nodes generalizing opened with
  | nil => exact .nil
  | cons node rest ih =>
    obtain ⟨fresh,distinct⟩ := List.nodup_cons.mp distinct
    by_cases starts : (model.node node).flags.contains .function
    · rw [ofNodes, if_pos starts]
      exact ih distinct fun _ same => Option.some.inj same ▸ fresh
    rw [ofNodes, if_neg starts]
    by_cases stops : (model.node node).flags.contains .functionEnd
    · rw [if_pos stops]
      have later := @ih none distinct nofun
      cases opened with
      | none => exact later
      | some start =>
        refine List.pairwise_cons.mpr ⟨?_,later⟩
        rintro ⟨first,last⟩ member
        obtain ⟨begins,ends,_⟩ := mem_pairs member
        refine ⟨?_,?_⟩
        · rintro rfl
          rcases begins with absent | begins
          · cases absent
          · exact apart start rfl (List.mem_cons_of_mem _ begins)
        · rintro rfl
          exact fresh ends
    · rw [if_neg stops]
      exact ih distinct fun start same member => apart start same (List.mem_cons_of_mem _ member)

/-- Pairs that share a node are the same. -/
theorem pairs_unique (distinct : nodes.Nodup) {pair other : NodeId × NodeId}
    (member : pair ∈ (ofNodes model none nodes).pairs)
    (member' : other ∈ (ofNodes model none nodes).pairs)
    (share : pair.1 = other.1 ∨ pair.2 = other.2) : pair = other := by
  have symmetric : Std.Symm fun pair other : NodeId × NodeId =>
      pair.1 ≠ other.1 ∧ pair.2 ≠ other.2 := ⟨fun _ _ away => ⟨away.1.symm,away.2.symm⟩⟩
  by_cases same : pair = other
  · exact same
  · have apart : ∀ start, (none : Option NodeId) = some start → start ∉ nodes := by
      rintro _ ⟨⟩
    obtain ⟨firsts,lasts⟩ := (pairs_apart distinct apart).forall member member' same
    rcases share with shared | shared
    · exact absurd shared firsts
    · exact absurd shared lasts

end Pairing

namespace Model

/-- The pairing of some timeline joins a function start with an end. -/
def Joined (model : Model) (first last : NodeId) : Prop :=
  ∃ line, (first,last) ∈ (Pairing.ofNodes model none (model.nodesOf line)).pairs

variable {before after model : Model}

theorem Joined.flag {first last : NodeId} (joined : model.Joined first last) :
    (model.node last).flags.contains .functionEnd = true := by
  obtain ⟨line,member⟩ := joined
  exact (Pairing.mem_pairs member).2.2

theorem Joined.members {first last : NodeId} {line : TimelineId}
    (member : (first,last) ∈ (Pairing.ofNodes model none (model.nodesOf line)).pairs) :
    first ∈ model.nodesOf line ∧ last ∈ model.nodesOf line := by
  obtain ⟨begins,ends,_⟩ := Pairing.mem_pairs member
  rcases begins with absent | begins
  · cases absent
  · exact ⟨begins,ends⟩

theorem Lined.joined_unique (lined : model.Lined) {first last first' last' : NodeId}
    (joined : model.Joined first last) (joined' : model.Joined first' last')
    (share : first = first' ∨ last = last') : (first,last) = (first',last') := by
  obtain ⟨line,member⟩ := joined
  obtain ⟨line',member'⟩ := joined'
  obtain ⟨begins,ends⟩ := Joined.members member
  obtain ⟨begins',ends'⟩ := Joined.members member'
  have same : line = line' := by
    rcases share with rfl | rfl
    · exact (lined.own _ _ begins).symm.trans (lined.own _ _ begins')
    · exact (lined.own _ _ ends).symm.trans (lined.own _ _ ends')
  subst same
  exact Pairing.pairs_unique (lined.nodup line) member member' share

theorem Joined.settled (settled : Settled before after) {first last : NodeId} :
    after.Joined first last ↔ before.Joined first last := by
  have same (line : TimelineId) : Pairing.ofNodes after none (after.nodesOf line) =
      Pairing.ofNodes before none (before.nodesOf line) := by
    rw [settled.nodesOf, Pairing.ofNodes_congr settled.flags]
  simp only [Joined, same]

/-- Function starts and ends refer to each other, and only as the pairing has it. -/
structure Wired (model : Model) : Prop where
  lined : model.Lined
  inverse : ∀ first last,
    (model.node first).functionEnd = some last ↔ (model.node last).functionStart = some first
  joined : ∀ first last, (model.node first).functionEnd = some last → model.Joined first last

theorem Drawn.wired (drawn : model.Drawn) : model.Wired where
  lined := drawn.lined
  inverse first last := by
    rw [(drawn.unpaired first).1, (drawn.unpaired last).2]
    exact ⟨nofun,nofun⟩
  joined first last found := by
    rw [(drawn.unpaired first).1] at found
    cases found

theorem Wired.keep (wired : before.Wired) (settled : Settled before after)
    (same : ∀ id, (after.node id).functionEnd = (before.node id).functionEnd ∧
      (after.node id).functionStart = (before.node id).functionStart) : after.Wired where
  lined := wired.lined.settled settled
  inverse first last := by
    rw [(same first).1, (same last).2]
    exact wired.inverse first last
  joined first last found := by
    rw [(same first).1] at found
    exact (Joined.settled settled).mpr (wired.joined first last found)

theorem Wired.of_eq (wired : before.Wired) (timelines : after.timelines = before.timelines)
    (nodes : after.nodes = before.nodes) : after.Wired := by
  refine wired.keep (settled_of_eq timelines nodes) fun id => ?_
  have same : after.node id = before.node id := by simp only [node, nodes]
  rw [same]
  exact ⟨rfl,rfl⟩

theorem settled_joinPair (model : Model) (pair : NodeId × NodeId) :
    Settled model (Linked.joinPair model pair) := by
  refine Settled.trans (settled_modifyNode pair.1 ?_) (settled_modifyNode pair.2 ?_)
  · exact fun _ => ⟨rfl,rfl,rfl⟩
  · exact fun _ => ⟨rfl,rfl,rfl⟩

theorem node_joinPair {first last : NodeId} (begins : first.index < model.nodes.size)
    (ends : last.index < model.nodes.size) (id : NodeId) :
    ((Linked.joinPair model (first,last)).node id).functionEnd =
        (if id = first then some last else (model.node id).functionEnd) ∧
      ((Linked.joinPair model (first,last)).node id).functionStart =
        (if id = last then some first else (model.node id).functionStart) := by
  simp only [Linked.joinPair, node_modifyNode, size_nodes_modifyNode, begins, ends, and_true]
  split <;> split <;> exact ⟨rfl,rfl⟩

theorem Wired.joinPair (wired : model.Wired) {first last : NodeId}
    (joined : model.Joined first last) : (Linked.joinPair model (first,last)).Wired := by
  obtain ⟨line,member⟩ := joined
  obtain ⟨begins,ends⟩ := Joined.members member
  have joined : model.Joined first last := ⟨line,member⟩
  have after := node_joinPair (wired.lined.within _ _ begins) (wired.lined.within _ _ ends)
  have settled := settled_joinPair model (first,last)
  -- A reference that one of the two nodes had before is of the same pairing, so it is the same.
  refine ⟨wired.lined.settled settled,fun start stop => ?_,fun start stop found => ?_⟩
  · rw [(after start).1, (after stop).2]
    by_cases here : start = first
    · subst here
      rw [if_pos rfl]
      by_cases there : stop = last
      · subst there
        rw [if_pos rfl]
        exact ⟨fun _ => rfl,fun _ => rfl⟩
      · rw [if_neg there]
        refine ⟨fun same => absurd (Option.some.inj same).symm there,fun found => ?_⟩
        have old := wired.joined _ _ ((wired.inverse _ _).mpr found)
        exact absurd (Prod.mk.inj (wired.lined.joined_unique joined old (.inl rfl))).2.symm there
    · rw [if_neg here]
      by_cases there : stop = last
      · subst there
        rw [if_pos rfl]
        refine ⟨fun found => ?_,fun same => absurd (Option.some.inj same).symm here⟩
        have old := wired.joined _ _ found
        exact absurd (Prod.mk.inj (wired.lined.joined_unique joined old (.inr rfl))).1.symm here
      · rw [if_neg there]
        exact wired.inverse start stop
  · rw [Joined.settled settled]
    rw [(after start).1] at found
    by_cases here : start = first
    · rw [if_pos here] at found
      cases found
      rwa [here]
    · rw [if_neg here] at found
      exact wired.joined _ _ found

end Model

namespace Linked

open Model

variable {linked : Linked}

theorem retarget_wired (wired : linked.model.Wired) (numbering : Numbering StateId) (state : StateId) :
    (linked.retarget numbering state).model.Wired := wired.of_eq rfl rfl

theorem linkStates_wired (wired : linked.model.Wired) (limit : UInt16) (group : GroupId) :
    (linked.linkStates limit group).model.Wired := by
  unfold linkStates
  exact List.foldlRecOn (motive := fun linked : Linked => linked.model.Wired) _ _ wired
    fun _ wired state _ => retarget_wired wired _ state

/-- The pairs of a timeline are joined one after another; none of them changes the pairing. -/
theorem pairFunctions_wired (wired : linked.model.Wired) (line : TimelineId) :
    (linked.pairFunctions line).model.Wired := by
  have joined : ∀ pair ∈ (Pairing.ofNodes linked.model none (linked.model.nodesOf line)).pairs,
      linked.model.Joined pair.1 pair.2 := fun pair member => ⟨line,member⟩
  have run := List.foldlRecOn (motive := fun model : Model => Settled linked.model model ∧ model.Wired)
    _ joinPair ⟨.refl linked.model,wired⟩ fun model kept pair member =>
      ⟨kept.1.trans (settled_joinPair model pair),
        kept.2.joinPair ((Joined.settled kept.1).mpr (joined pair member))⟩
  exact run.2

theorem deliverMessage_wired (wired : linked.model.Wired) (numbering : Numbering NodeId)
    (id : MessageId) : (linked.deliverMessage numbering id).model.Wired := by
  simp only [deliverMessage]
  split
  · split
    · rename_i receiver _
      have noted : (linked.model.modifyNode receiver ({ · with received := some id })).Wired := by
        refine wired.keep (settled_modifyNode receiver fun _ => ⟨rfl,rfl,rfl⟩) fun other => ?_
        rw [node_modifyNode]
        split
        · exact ⟨rfl,rfl⟩
        · exact ⟨rfl,rfl⟩
      exact noted.of_eq rfl rfl
    · exact wired.of_eq rfl rfl
  · exact wired

theorem deliver_wired (wired : linked.model.Wired) (numbering : Numbering NodeId) (node : NodeId) :
    (linked.deliver numbering node).model.Wired := by
  unfold deliver
  split
  · exact deliverMessage_wired wired numbering _
  · exact wired

theorem linkNodes_wired (wired : linked.model.Wired) (limit : UInt16) (group : GroupId) :
    (linked.linkNodes limit group).model.Wired := by
  have paired : ((linked.model.diagram group).foldl pairFunctions linked).model.Wired :=
    List.foldlRecOn (motive := fun linked : Linked => linked.model.Wired) _ _ wired
      fun _ wired line _ => pairFunctions_wired wired line
  exact List.foldlRecOn (motive := fun linked : Linked => linked.model.Wired) _ _ paired
    fun _ wired node _ => deliver_wired wired _ node

end Linked

theorem Model.Drawn.link_wired {model : Model} (drawn : model.Drawn) (limits : Limits) :
    (model.link limits).model.Wired :=
  List.foldlRecOn (motive := fun linked : Linked => linked.model.Wired) _ _ drawn.wired
    fun _ wired group _ => Linked.linkNodes_wired (Linked.linkStates_wired wired _ group) _ group

theorem Loaded.nameDocument_keeps (model : Model) :
    (nameDocument model).1.timelines = model.timelines ∧ (nameDocument model).1.nodes = model.nodes ∧
      (nameDocument model).1.messages = model.messages := by
  unfold nameDocument
  split
  · split
    · exact ⟨rfl,rfl,rfl⟩
    · exact ⟨rfl,rfl,rfl⟩
  · exact ⟨rfl,rfl,rfl⟩

theorem load_wired {source : Source} {file : String} {loaded : Loaded}
    (found : (load source file).result = .ok loaded) : loaded.model.Wired := by
  obtain ⟨builder,reachable,model,_⟩ := load_reachable found
  obtain ⟨timelines,nodes,_⟩ :=
    Loaded.nameDocument_keeps (builder.model.link builder.limits).model
  rw [model]
  exact (reachable.drawn.link_wired builder.limits).of_eq timelines nodes

end DocGraph
