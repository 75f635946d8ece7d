import DocGraph.Proofs.NotedCalls
import Mathlib.Data.List.Duplicate

/-! Walks of loaded graphs. The bound on the outer walk is never reached there, and the budget of an inner walk
only when it comes to a node again. Graphs that are put together by hand may have timelines without an end,
and nothing is claimed of them. -/
namespace DocGraph

theorem exists_twice_of_length_lt [DecidableEq α] {items all : List α}
    (within : ∀ item ∈ items, item ∈ all) (more : all.length < items.length) :
    ∃ item, 2 ≤ items.count item := by
  have repeats : ¬items.Nodup := fun distinct =>
    absurd (distinct.subperm within).length_le (Nat.not_le_of_lt more)
  obtain ⟨item,twice⟩ := List.exists_duplicate_iff_not_nodup.mpr repeats
  exact ⟨item,List.duplicate_iff_two_le_count.mp twice⟩

namespace Walker

variable {model : Model}

/-- An inner walk takes one step more than its budget at most, and all of them when it is cut off. -/
theorem length_follow (stop : Option NodeId) (budget : Nat) (walker : Walker) (id : NodeId) :
    let trail := follow model stop budget walker id
    trail.nodes.length ≤ budget + 1 ∧ (trail.stopped = true → trail.nodes.length = budget + 1) := by
  induction budget generalizing walker id with
  | zero =>
    rcases follow_cases model stop 0 walker id with ⟨stopped,_,trail⟩ | ⟨fewer,_,more,_⟩
    · rw [trail]
      exact ⟨Nat.le_refl 1,fun _ => rfl⟩
    · cases more
  | succ budget ih =>
    rcases follow_cases model stop (budget + 1) walker id with
      ⟨stopped,last,trail⟩ | ⟨fewer,active,more,_,trail⟩
    · rw [trail]
      exact ⟨Nat.le_add_left 1 _,fun cut => absurd (last cut) (Nat.succ_ne_zero budget)⟩
    · cases more
      obtain ⟨short,whole⟩ := ih (advance model walker id).1 active
      rw [trail]
      exact ⟨Nat.succ_le_succ short,fun stopped => congrArg Nat.succ (whole stopped)⟩

theorem Tour.notices {line : Timeline} {budget : Nat} {walker : Walker} {cursor : Option NodeId}
    {cursors : List NodeId} {starts : List Start} {walked : Walked WalkStep}
    (tour : Tour model line budget walker cursor cursors starts walked) :
    walked.notices = starts.flatMap fun start =>
      (follow model start.next budget start.walker start.node).notices line := by
  induction tour with
  | ended => rfl
  | idle _ _ ih => exact ih
  | inner _ _ ih => rw [List.flatMap_cons, ← ih, Trail.joined]

theorem exists_scans (closed : model.Closed) {id : NodeId} (inside : model.HasNode id) :
    ∃ passed, Scans model (some id) passed (search model (some id)) := by
  obtain ⟨before,after,split⟩ := List.append_of_mem (closed.mem_nodesOf_iff.mpr ⟨inside,rfl⟩)
  have on : id :: after <:+ model.nodesOf (model.node id).timeline := ⟨before,split.symm⟩
  exact scans_search closed on

/-- An inner walk stays among the nodes of its diagram, so that it is not cut off before it comes to one of
them again. -/
theorem trail_repeats (closed : model.Closed) {walker : Walker} (truthful : walker.Truthful model)
    {line : TimelineId} {start : Start} (member : start ∈ starts model walker line) :
    let nodes := model.diagramNodes (model.timeline line).group
    let trail := trail model line start
    trail.nodes.length ≤ nodes.length + 2 ∧ (∀ node ∈ trail.nodes, node ∈ nodes) ∧
      (trail.stopped = true → ∃ node, 2 ≤ trail.nodes.count node) := by
  obtain ⟨truthful,there⟩ := starts_truthful closed truthful member
  have limit : (trail model line start).nodes.length ≤ budget model (model.timeline line).group + 1 ∧
      ((trail model line start).stopped = true →
        (trail model line start).nodes.length = budget model (model.timeline line).group + 1) :=
    length_follow start.next _ start.walker start.node
  obtain ⟨_,within⟩ := follow_notes closed start.next (budget model (model.timeline line).group) truthful
    (closed.mem_diagramNodes_of_nodesOf there)
  refine ⟨limit.1,within,fun stopped => exists_twice_of_length_lt within ?_⟩
  have whole := limit.2 stopped
  rw [budget] at whole
  omega

end Walker

/-- The inner walks of a timeline. The outer walk ends by itself and records them one after another. Of one
that would end by itself too it records every step if there are no more than two over the number of nodes in
the diagram, and then has the same calls noted behind it; of a longer one it records as many steps as that. -/
theorem load_inner_walks {source : Source} {file : String} {loaded : Loaded}
    (found : (load source file).result = .ok loaded) (requests : List Walker.Request)
    (line : TimelineId) :
    let model := loaded.model
    let walker := Walker.after model requests
    let nodes := model.diagramNodes (model.timeline line).group
    let limit := nodes.length + 2
    let starts := Walker.starts model walker line
    let walked := Walker.walkTimeline model walker line
    (∃ cursors, Walker.Tour model (model.timeline line) (nodes.length + 1) walker
      (model.nodesOf line).head? cursors starts walked) ∧
    (walked.steps = starts.flatMap fun start =>
      (Walker.trail model line start).nodes.map (Walker.step model)) ∧
    ∀ start ∈ starts, ∀ count, Walker.EndsAfter model start.next count start.walker start.node →
      let whole := Walker.iterate model count start.walker (some start.node)
      let trail := Walker.trail model line start
      trail.nodes = whole.nodes.take limit ∧
        (trail.nodes = whole.nodes ↔ count ≤ limit) ∧
        (count ≤ limit → trail.walker = whole.walker) ∧
        (trail.stopped = true ↔ limit < count ∨ limit = count ∧ whole.active ≠ start.next) := by
  intro model walker nodes limit starts walked
  have closed : model.Closed := load_closed found
  obtain ⟨cursors,tour,_⟩ := Walker.tour_walkTimeline closed walker line
  exact ⟨⟨cursors,tour⟩,Walker.walkTimeline_steps walker line,fun _ _ _ ends => Walker.trail_ends ends⟩

def sixCalls : List Record :=
  let call (id : UInt8) : Stroke := ⟨id,Flags.inFunction.union .messageSend,some (10,67)⟩
  drawing [
    (65,[⟨1,.messageSend,some (2,66)⟩]),
    (66,⟨2,Flags.function.union .responds,none⟩ :: [3, 4, 5, 6, 7, 8].map call ++
      [⟨9,Flags.functionEnd.union .responds,none⟩]),
    (67,[⟨10,.responds,none⟩])]

namespace Walker

theorem sixCalls_loaded :
    ∃ bytes loaded start, Writer.file {} sixCalls = .ok bytes ∧
      (load ⟨bytes,[]⟩ "model").result = .ok loaded ∧ start ∈ starts loaded.model {} ⟨0⟩ ∧
      EndsAfter loaded.model start.next 15 start.walker start.node ∧
      (loaded.model.diagramNodes (loaded.model.timeline ⟨0⟩).group).length = 10 ∧
      (trail loaded.model ⟨0⟩ start).nodes ≠
        (iterate loaded.model 15 start.walker (some start.node)).nodes := by
  obtain ⟨bytes,written⟩ : ∃ bytes, Writer.file {} sixCalls = .ok bytes := ⟨_,rfl⟩
  have checked : (graphOf sixCalls).any fun model => (starts model {} ⟨0⟩).any fun start =>
      EndsAfter model start.next 15 start.walker start.node ∧
        (model.diagramNodes (model.timeline ⟨0⟩).group).length = 10 ∧
        (trail model ⟨0⟩ start).nodes ≠
          (iterate model 15 start.walker (some start.node)).nodes := by decide +kernel
  obtain ⟨loaded,found,holds⟩ := load_graphOf written checked "model"
  obtain ⟨start,member,holds⟩ := List.any_eq_true.mp holds
  obtain ⟨ends,size,cut⟩ := of_decide_eq_true holds
  exact ⟨bytes,loaded,start,written,found,member,ends,size,cut⟩

/-- A walk may take more steps than there are nodes and still end: with ten nodes, one of fifteen
steps is cut off. -/
theorem six_calls_cut :
    ∃ bytes loaded start, Writer.file {} sixCalls = .ok bytes ∧
      (load ⟨bytes,[]⟩ "model").result = .ok loaded ∧ start ∈ starts loaded.model {} ⟨0⟩ ∧
      EndsAfter loaded.model start.next 15 start.walker start.node ∧
      (trail loaded.model ⟨0⟩ start).nodes ≠
        (iterate loaded.model 15 start.walker (some start.node)).nodes := by
  obtain ⟨bytes,loaded,start,written,found,member,ends,_,cut⟩ := sixCalls_loaded
  exact ⟨bytes,loaded,start,written,found,member,ends,cut⟩

theorem six_calls_stopped :
    ∃ bytes loaded start, Writer.file {} sixCalls = .ok bytes ∧
      (load ⟨bytes,[]⟩ "model").result = .ok loaded ∧ start ∈ starts loaded.model {} ⟨0⟩ ∧
      EndsAfter loaded.model start.next 15 start.walker start.node ∧
      (trail loaded.model ⟨0⟩ start).stopped = true ∧
      (trail loaded.model ⟨0⟩ start).nodes =
        (iterate loaded.model 15 start.walker (some start.node)).nodes.take 12 := by
  obtain ⟨bytes,loaded,start,written,found,member,ends,size,_⟩ := sixCalls_loaded
  obtain ⟨_,_,inner⟩ := load_inner_walks found [] ⟨0⟩
  obtain ⟨nodes,_,_,stopped⟩ := inner start member 15 ends
  rw [size] at nodes stopped
  exact ⟨bytes,loaded,start,written,found,member,ends,stopped.mpr (.inl (by decide)),nodes⟩

end Walker

/-- Walks end. The scans of a timeline and the walk of it need no bound of their own: the places that the
walk scans on from go up the timeline, and so there are no more inner walks than nodes on it. An inner walk
takes no more than two steps over the number of nodes in the diagram, all of them there, and when it is cut
off, which leaves a notice, some node occurs in it twice. -/
theorem load_walks_end {source : Source} {file : String} {loaded : Loaded}
    (found : (load source file).result = .ok loaded) (requests : List Walker.Request)
    (line : TimelineId) :
    let model := loaded.model
    let walker := Walker.after model requests
    let nodes := model.diagramNodes (model.timeline line).group
    let starts := Walker.starts model walker line
    let walked := Walker.walkTimeline model walker line
    (∃ cursors, Walker.Tour model (model.timeline line) (nodes.length + 1) walker
        (model.nodesOf line).head? cursors starts walked ∧ cursors.Sublist (model.nodesOf line)) ∧
    (model.nodesOf line).Nodup ∧ starts.length ≤ (model.nodesOf line).length ∧
    (∀ start ∈ starts,
      let trail := Walker.trail model line start
      trail.nodes.length ≤ nodes.length + 2 ∧ (∀ node ∈ trail.nodes, node ∈ nodes) ∧
        (trail.stopped = true → ∃ node, 2 ≤ trail.nodes.count node) ∧
        (trail.nodes.Nodup → trail.stopped = false)) ∧
    (walked.notices = starts.flatMap fun start =>
      (Walker.trail model line start).notices (model.timeline line)) ∧
    ∀ id, model.HasNode id →
      ∃ passed, Walker.Scans model (some id) passed (Walker.search model (some id)) := by
  intro model walker nodes starts walked
  have closed : model.Closed := load_closed found
  have truthful : walker.Truthful model := Walker.after_truthful closed requests
  obtain ⟨cursors,tour,up⟩ := Walker.tour_walkTimeline closed walker line
  refine ⟨⟨cursors,tour,up⟩,closed.lined.nodup line,?_,?_,tour.notices,fun id => Walker.exists_scans closed⟩
  · exact Nat.le_trans tour.length_starts up.length_le
  · intro start member
    obtain ⟨short,within,repeats⟩ := Walker.trail_repeats closed truthful member
    refine ⟨short,within,repeats,fun distinct => Bool.eq_false_of_not_eq_true fun stopped => ?_⟩
    obtain ⟨node,twice⟩ := repeats stopped
    have once := List.nodup_iff_count_le_one.mp distinct node
    omega

def circle : List Record :=
  drawing [
    (65,[⟨1,.messageSend,some (2,66)⟩]),
    (66,[⟨2,Flags.responds.union .messageSend,some (1,65)⟩])]

/-- A walk in a circle is cut off after four steps, with both nodes in it twice or more. -/
theorem circle_ends :
    ∃ bytes loaded start, Writer.file {} circle = .ok bytes ∧
      (load ⟨bytes,[]⟩ "model").result = .ok loaded ∧
      let model := loaded.model
      let walker := Walker.after model [.advance ⟨1⟩]
      start ∈ Walker.starts model walker ⟨0⟩ ∧
        (Walker.trail model ⟨0⟩ start).stopped = true ∧
        (Walker.trail model ⟨0⟩ start).nodes.length ≤ 4 ∧
        (∃ node, 2 ≤ (Walker.trail model ⟨0⟩ start).nodes.count node) ∧
        (Walker.walkTimeline model walker ⟨0⟩).notices ≠ [] ∧
        ∃ passed, Walker.Scans model (some ⟨1⟩) passed (Walker.search model (some ⟨1⟩)) := by
  obtain ⟨bytes,written⟩ : ∃ bytes, Writer.file {} circle = .ok bytes := ⟨_,rfl⟩
  have checked : (graphOf circle).any fun model =>
      (Walker.starts model (Walker.after model [.advance ⟨1⟩]) ⟨0⟩).any fun start =>
        (Walker.trail model ⟨0⟩ start).stopped = true ∧ model.HasNode ⟨1⟩ ∧
          (model.diagramNodes (model.timeline ⟨0⟩).group).length = 2 := by decide +kernel
  obtain ⟨loaded,found,holds⟩ := load_graphOf written checked "model"
  obtain ⟨start,member,holds⟩ := List.any_eq_true.mp holds
  obtain ⟨stopped,inside,size⟩ := of_decide_eq_true holds
  obtain ⟨_,_,_,inner,notices,scans⟩ := load_walks_end found [.advance ⟨1⟩] ⟨0⟩
  obtain ⟨short,_,repeats,_⟩ := inner start member
  rw [size] at short
  refine ⟨bytes,loaded,start,written,found,member,stopped,short,repeats stopped,?_,scans ⟨1⟩ inside⟩
  rw [notices]
  intro none_
  have left := List.flatMap_eq_nil_iff.mp none_ start member
  rw [Walker.Trail.notices, stopped] at left
  cases left

end DocGraph
