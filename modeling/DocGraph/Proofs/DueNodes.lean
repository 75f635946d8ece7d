import DocGraph.Proofs.NotedCalls
import Mathlib.Data.List.Flatten

/-! The nodes of a timeline that are due and not covered start its inner walks, in order, whatever the calls on
the way note. -/
namespace DocGraph

namespace Model

/-- The nodes of a timeline that are due and not covered, in their order. -/
def dueNodes (model : Model) (line : TimelineId) : List NodeId :=
  (model.nodesOf line).filter fun id => model.Due id ∧ ¬model.Covered line id

end Model

namespace Walker

open Model

variable {model : Model} {line : TimelineId} {group : GroupId}

/-- From a place that is not covered, the inner walks start at the nodes behind it that are due. -/
theorem Tour.starts_eq (closed : model.Closed) {budget : Nat} {walker : Walker} {cursor : Option NodeId}
    {cursors : List NodeId} {starts : List Start} {walked : Walked WalkStep}
    (tour : Tour model (model.timeline line) budget walker cursor cursors starts walked)
    {rest : List NodeId} (on : rest <:+ model.nodesOf line) (here : cursor = rest.head?)
    (uncovered : ∀ id ∈ cursor, ¬model.Covered line id) :
    starts.map Start.node = rest.filter fun id => model.Due id ∧ ¬model.Covered line id := by
  have dropped {skipped : List NodeId} (left : ∀ id ∈ skipped, model.Due id → model.Covered line id) :
      skipped.filter (fun id => model.Due id ∧ ¬model.Covered line id) = [] := by
    refine List.filter_eq_nil_iff.mpr fun id member waits => ?_
    obtain ⟨due,apart⟩ := of_decide_eq_true waits
    exact apart (left id member due)
  induction tour generalizing rest with
  | ended =>
    obtain rfl := List.head?_eq_none_iff.mp here.symm
    rfl
  | idle scanned _ ih =>
    obtain ⟨rfl,left⟩ := scanned.ends closed on here
    rw [dropped left]
    exact ih List.nil_suffix rfl nofun
  | @inner _ _ active _ _ _ _ _ scanned _ ih =>
    obtain ⟨skipped,after,rfl,rfl,due,left,free,place⟩ := scanned.finds closed on here
    have free := free uncovered
    have member := place.subset List.mem_cons_self
    have behind : ∀ id ∈ after.head?, ¬model.Covered line id := by
      intro id next
      refine skip_uncovered closed member free ?_
      rw [skip, due.1, Bool.false_and, if_neg Bool.false_ne_true, closed.lined.next_suffix place]
      exact next
    have later := ih ((List.suffix_cons active after).trans place) rfl behind
    have wanted : decide (model.Due active ∧ ¬model.Covered line active) = true :=
      decide_eq_true ⟨due,free⟩
    rw [List.map_cons, later, List.filter_append, dropped left, List.nil_append, List.filter_cons,
      if_pos wanted]

theorem starts_dueNodes (closed : model.Closed) (walker : Walker) (line : TimelineId) :
    (starts model walker line).map Start.node = model.dueNodes line := by
  obtain ⟨_,tour,_⟩ := tour_walkTimeline closed walker line
  refine tour.starts_eq closed List.suffix_rfl rfl fun id first covered => ?_
  obtain ⟨_,start,begins,_,_,_,_,_,above,_⟩ := closed.lined.covered_iff.mp covered
  obtain ⟨after,split⟩ := List.head?_eq_some_iff.mp first
  have whole : model.nodesOf line = [] ++ id :: after := split
  have larger := (closed.lined.around whole).2
  rw [split] at begins
  rcases List.mem_cons.mp begins with rfl | later
  · omega
  · have := larger start later
    omega

theorem nodes_follow (stop : Option NodeId) (budget : Nat) (walker : Walker) (id : NodeId) :
    ∃ rest, (follow model stop budget walker id).nodes = id :: rest := by
  rcases follow_cases model stop budget walker id with ⟨_,_,trail⟩ | ⟨_,_,_,_,trail⟩
  · exact ⟨[],congrArg Trail.nodes trail⟩
  · exact ⟨_,congrArg Trail.nodes trail⟩

theorem dueNodes_sublist (closed : model.Closed) (walker : Walker) (line : TimelineId) :
    (model.dueNodes line).Sublist ((walkTimeline model walker line).steps.map WalkStep.node) := by
  have shown (start : Start) : [start.node].Sublist
      (((trail model line start).nodes.map (step model)).map WalkStep.node) := by
    obtain ⟨rest,first⟩ : ∃ rest, (trail model line start).nodes = start.node :: rest :=
      nodes_follow start.next _ start.walker start.node
    rw [first, List.map_cons, List.map_cons]
    exact (List.nil_sublist _).cons_cons start.node
  rw [← starts_dueNodes closed walker line, walkTimeline_steps, List.map_flatMap, List.map_eq_flatMap]
  exact List.Sublist.flatMap_right _ fun start _ => shown start

theorem steps_walkTimelines (group : GroupId) (walker : Walker) {lines : List TimelineId}
    (member : line ∈ lines) :
    ∃ before, (walkTimeline model before line).steps.Sublist
      (walkTimelines model group (budget model group) walker lines).steps := by
  induction lines generalizing walker with
  | nil => cases member
  | cons first rest ih =>
    rw [walkTimelines_cons]
    rcases List.mem_cons.mp member with rfl | member
    · exact ⟨walker,List.sublist_append_left _ _⟩
    · obtain ⟨before,later⟩ := ih (walkTimeline model walker first).walker member
      exact ⟨before,later.trans (List.sublist_append_right _ _)⟩

theorem dueNodes_drawn (closed : model.Closed) (walker : Walker) (drawn : line ∈ model.diagram group)
    {id : NodeId} (due : id ∈ model.dueNodes line) :
    step model id ∈ (walker.drawDiagram model group).steps := by
  obtain ⟨before,within⟩ : ∃ before, (walkTimeline model before line).steps.Sublist
      (walker.drawDiagram model group).steps := steps_walkTimelines group walker.reset drawn
  obtain ⟨moved,member,rfl⟩ := List.mem_map.mp ((dueNodes_sublist closed before line).subset due)
  rw [walkTimeline_steps] at member
  obtain ⟨start,_,moved'⟩ := List.mem_flatMap.mp member
  obtain ⟨node,_,rfl⟩ := List.mem_map.mp moved'
  refine within.subset ?_
  rw [walkTimeline_steps]
  exact member

end Walker

/-- No message that is due is lost. The walk of a timeline starts its inner walks at the nodes that are due
and not covered, each of them once and in their order, and so its steps have them in this order; where the
message of one of them reaches a receiver, it is drawn. -/
theorem load_due_drawn {source : Source} {file : String} {loaded : Loaded}
    (found : (load source file).result = .ok loaded) (walker : Walker) (line : TimelineId) :
    let model := loaded.model
    let due := model.dueNodes line
    (Walker.starts model walker line).map Walker.Start.node = due ∧ due.Nodup ∧
    due.Sublist ((Walker.walkTimeline model walker line).steps.map WalkStep.node) ∧
    ∀ id ∈ due, ∀ message receiver, (model.node id).sent = some message →
      (model.message message).receiver = .resolved receiver →
      ∃ emission ∈ (walker.drawEmissions model (model.timeline line).group).steps,
        emission.sender = id ∧ emission.message = message ∧ emission.receiver = receiver := by
  intro model due
  have closed : model.Closed := load_closed found
  refine ⟨Walker.starts_dueNodes closed walker line,(closed.lined.nodup line).filter _,
    Walker.dueNodes_sublist closed walker line,fun id member message receiver sent arrives => ?_⟩
  have here := List.mem_of_mem_filter member
  have drawn := closed.mem_diagram_iff.mpr ⟨Model.known_of_nodesOf here,rfl⟩
  have shown := Walker.dueNodes_drawn closed walker drawn member
  let emission : Emission :=
    ⟨message,id,receiver,(model.message message).sendingTimeline,(model.node receiver).timeline⟩
  refine ⟨emission,List.mem_filterMap.mpr ⟨_,shown,?_⟩,rfl,rfl,rfl⟩
  simp [Walker.emission?,Walker.step,sent,arrives,Link.target?,emission]

/-- A function that has been accounted for, between two nodes that are due. -/
def service : List Record :=
  drawing [
    (65,[⟨1,.messageSend,some (6,66)⟩,⟨2,Flags.function.union .responds,none⟩,
      ⟨3,Flags.inFunction.union .messageSend,some (6,66)⟩,
      ⟨4,Flags.functionEnd.union .responds,none⟩,⟨5,.messageSend,some (6,66)⟩]),
    (66,[⟨6,.responds,none⟩])]

/-- The two nodes are walked from and drawn, and the one in the function is not walked from. -/
theorem service_drawn :
    ∃ bytes loaded, Writer.file {} service = .ok bytes ∧
      (load ⟨bytes,[]⟩ "model").result = .ok loaded ∧
      let model := loaded.model
      let walker := Walker.after model [.diagram ⟨1⟩]
      (Walker.starts model walker ⟨0⟩).map Walker.Start.node = [⟨0⟩,⟨4⟩] ∧
        [⟨0⟩,⟨4⟩].Sublist ((Walker.walkTimeline model walker ⟨0⟩).steps.map WalkStep.node) ∧
        ∃ emission ∈ (walker.drawEmissions model ⟨1⟩).steps,
          emission.sender = ⟨4⟩ ∧ emission.message = ⟨2⟩ ∧ emission.receiver = ⟨5⟩ := by
  obtain ⟨bytes,written⟩ : ∃ bytes, Writer.file {} service = .ok bytes := ⟨_,rfl⟩
  have checked : (graphOf service).any fun model =>
      model.dueNodes ⟨0⟩ = [⟨0⟩,⟨4⟩] ∧ (model.timeline ⟨0⟩).group = ⟨1⟩ ∧
        (model.node ⟨4⟩).sent = some ⟨2⟩ ∧ (model.message ⟨2⟩).receiver = .resolved ⟨5⟩ := by
    decide +kernel
  obtain ⟨loaded,found,holds⟩ := load_graphOf written checked "model"
  obtain ⟨due,own,sent,arrives⟩ := of_decide_eq_true holds
  obtain ⟨starts,_,order,drawn⟩ :=
    load_due_drawn found (Walker.after loaded.model [.diagram ⟨1⟩]) ⟨0⟩
  rw [due] at starts order drawn
  rw [own] at drawn
  exact ⟨bytes,loaded,written,found,starts,order,drawn ⟨4⟩ (by simp) ⟨2⟩ ⟨5⟩ sent arrives⟩

end DocGraph
