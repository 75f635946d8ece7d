import DocGraph.Proofs.MessageReturns
import DocGraph.Proofs.NestedCalls
import DocGraph.Proofs.ObtainedGraphs

/-! What a node leads to, along its timeline, by its function or by its message, is in its own diagram. -/
namespace DocGraph

theorem NodeId.index_injective {id other : NodeId} (same : id.index = other.index) : id = other := by
  cases id
  cases other
  exact congrArg NodeId.mk same

namespace Pairing

variable {model : Model} {opened : Option NodeId} {nodes : List NodeId}

/-- A function from its start to its end, with no other start or end between them. The start may be open
already before the list. -/
def Encloses (model : Model) (opened : Option NodeId) (nodes : List NodeId) (first last : NodeId) :
    Prop :=
  ∃ before between after,
    (opened = some first ∧ nodes = between ++ last :: after ∨
      nodes = before ++ first :: between ++ last :: after) ∧
    (model.node last).flags.contains .function = false ∧
    ∀ id ∈ between, (model.node id).flags.contains .function = false ∧
      (model.node id).flags.contains .functionEnd = false

theorem Encloses.cons {first last : NodeId} (encloses : Encloses model none nodes first last)
    (node : NodeId) : Encloses model opened (node :: nodes) first last := by
  obtain ⟨before,between,after,place,plain,flat⟩ := encloses
  rcases place with ⟨absent,_⟩ | split
  · cases absent
  · exact ⟨node :: before,between,after,.inr (by rw [split]; rfl),plain,flat⟩

theorem encloses_of_mem {first last : NodeId}
    (member : (first,last) ∈ (ofNodes model opened nodes).pairs) :
    Encloses model opened nodes first last := by
  induction nodes generalizing opened with
  | nil => cases member
  | cons node rest ih =>
    rcases pairs_cons member with ⟨_,later⟩ | ⟨plain,⟨_,⟨here,rfl⟩ | later⟩ | ⟨plain',later⟩⟩
    · obtain ⟨before,between,after,place,ending,flat⟩ := ih later
      rcases place with ⟨here,split⟩ | split
      · cases here
        exact ⟨[],between,after,.inr (by rw [split]; rfl),ending,flat⟩
      · exact ⟨node :: before,between,after,.inr (by rw [split]; rfl),ending,flat⟩
    · exact ⟨[],[],rest,.inl ⟨here,rfl⟩,plain,List.forall_mem_nil _⟩
    · exact (ih later).cons node
    · obtain ⟨before,between,after,place,ending,flat⟩ := ih later
      rcases place with ⟨here,split⟩ | split
      · refine ⟨[],node :: between,after,.inl ⟨here,by rw [split]; rfl⟩,ending,?_⟩
        intro id inside
        rcases List.mem_cons.mp inside with rfl | inside
        · exact ⟨plain,plain'⟩
        · exact flat id inside
      · exact ⟨node :: before,between,after,.inr (by rw [split]; rfl),ending,flat⟩

end Pairing

namespace Model

variable {model : Model} {line : TimelineId} {id : NodeId}

/-- The nodes of a timeline go up, so that a node splits them into smaller and larger ones. -/
theorem Lined.around (lined : model.Lined) {before after : List NodeId}
    (split : model.nodesOf line = before ++ id :: after) :
    (∀ other ∈ before, other.index < id.index) ∧ ∀ other ∈ after, id.index < other.index := by
  have sorted := lined.sorted line
  rw [split] at sorted
  obtain ⟨_,later,across⟩ := List.pairwise_append.mp sorted
  exact ⟨fun other member => across other member id List.mem_cons_self,
    (List.pairwise_cons.mp later).1⟩

theorem Lined.mem_after (lined : model.Lined) {before after : List NodeId} {other : NodeId}
    (split : model.nodesOf line = before ++ id :: after) (member : other ∈ model.nodesOf line)
    (larger : id.index < other.index) : other ∈ after := by
  obtain ⟨smaller,_⟩ := lined.around split
  rw [split] at member
  rcases List.mem_append.mp member with early | late
  · have := smaller other early
    omega
  · rcases List.mem_cons.mp late with rfl | late
    · omega
    · exact late

/-- A function ends after it starts, on its own timeline, and no other starts in between. -/
theorem Wired.flat (wired : model.Wired) {start stop : NodeId}
    (tied : (model.node start).functionEnd = some stop) (member : start ∈ model.nodesOf line) :
    stop ∈ model.nodesOf line ∧ start.index < stop.index ∧
      ∀ id ∈ model.nodesOf line, start.index < id.index → id.index < stop.index →
        (model.node id).flags.contains .function = false := by
  obtain ⟨own,paired⟩ := wired.joined start stop tied
  obtain ⟨begins,ends⟩ := Joined.members paired
  obtain rfl : own = line := (wired.lined.own _ _ begins).symm.trans (wired.lined.own _ _ member)
  obtain ⟨before,between,after,place,_,flat⟩ := Pairing.encloses_of_mem paired
  rcases place with ⟨absent,_⟩ | split
  · cases absent
  have back : model.nodesOf own = before ++ start :: (between ++ stop :: after) := by
    rw [split, List.append_assoc, List.cons_append]
  obtain ⟨_,larger⟩ := wired.lined.around back
  obtain ⟨_,beyond⟩ := wired.lined.around split
  refine ⟨ends,larger stop (by simp),fun id inside above below => ?_⟩
  rcases List.mem_append.mp (wired.lined.mem_after back inside above) with here | there
  · exact (flat id here).1
  · rcases List.mem_cons.mp there with rfl | there
    · omega
    · have := beyond id there
      omega

theorem WellFormed.mem_nodesOf_iff (wellFormed : model.WellFormed) :
    id ∈ model.nodesOf line ↔ model.HasNode id ∧ (model.node id).timeline = line := by
  have listed (id : NodeId) : id ∈ model.timelineIds.flatMap model.nodesOf ↔ model.HasNode id := by
    rw [wellFormed.lines.once.mem_iff, mem_nodeIds_iff]
  constructor
  · intro member
    have known := mem_timelineIds_iff.mpr (known_of_nodesOf member)
    exact ⟨(listed id).mp (List.mem_flatMap.mpr ⟨line,known,member⟩),wellFormed.lines.own line id member⟩
  · rintro ⟨inside,rfl⟩
    obtain ⟨other,_,member⟩ := List.mem_flatMap.mp ((listed id).mpr inside)
    have own : (model.node id).timeline = other := wellFormed.lines.own other id member
    rwa [own]

theorem WellFormed.mem_diagram_iff (wellFormed : model.WellFormed) {group : GroupId} :
    line ∈ model.diagram group ↔ model.HasTimeline line ∧ (model.timeline line).group = group := by
  have listed (line : TimelineId) : line ∈ model.groupIds.flatMap model.diagram ↔
      model.HasTimeline line := by
    rw [wellFormed.diagrams.once.mem_iff, mem_timelineIds_iff]
  constructor
  · intro member
    have known := mem_groupIds_iff.mpr (known_of_diagram member)
    exact ⟨(listed line).mp (List.mem_flatMap.mpr ⟨group,known,member⟩),
      wellFormed.diagrams.own group line member⟩
  · rintro ⟨inside,rfl⟩
    obtain ⟨other,_,member⟩ := List.mem_flatMap.mp ((listed line).mpr inside)
    have own : (model.timeline line).group = other := wellFormed.diagrams.own other line member
    rwa [own]

/-- A node is in the diagram of one group, which is the group of its timeline. -/
theorem WellFormed.mem_diagramNodes_iff (wellFormed : model.WellFormed) {group : GroupId} :
    id ∈ model.diagramNodes group ↔ model.HasNode id ∧ model.groupOf id = group := by
  constructor
  · intro member
    obtain ⟨line,drawn,member⟩ := List.mem_flatMap.mp member
    obtain ⟨inside,rfl⟩ := wellFormed.mem_nodesOf_iff.mp member
    exact ⟨inside,(wellFormed.mem_diagram_iff.mp drawn).2⟩
  · rintro ⟨inside,own⟩
    have known := (wellFormed.toKnown.node inside).timeline
    exact List.mem_flatMap.mpr ⟨(model.node id).timeline,wellFormed.mem_diagram_iff.mpr ⟨known,own⟩,
      wellFormed.mem_nodesOf_iff.mpr ⟨inside,rfl⟩⟩

theorem WellFormed.mem_diagramNodes_of_nodesOf (wellFormed : model.WellFormed)
    (member : id ∈ model.nodesOf line) : id ∈ model.diagramNodes (model.timeline line).group := by
  obtain ⟨inside,rfl⟩ := wellFormed.mem_nodesOf_iff.mp member
  exact wellFormed.mem_diagramNodes_iff.mpr ⟨inside,rfl⟩

theorem WellFormed.timeline_mem (wellFormed : model.WellFormed) {group : GroupId}
    (member : id ∈ model.diagramNodes group) : (model.node id).timeline ∈ model.diagram group := by
  obtain ⟨inside,own⟩ := wellFormed.mem_diagramNodes_iff.mp member
  exact wellFormed.mem_diagram_iff.mpr ⟨(wellFormed.toKnown.node inside).timeline,own⟩

/-- A graph in order, with its functions paired and its messages delivered within their diagrams. -/
structure Closed (model : Model) : Prop extends model.WellFormed, model.Wired where
  delivered : ∀ id node, model.Arrives id node →
    model.groupOf node = model.groupOf (model.message id).sender ∧
      (model.message id).targetTimeline = some (model.node node).timeline

variable {group : GroupId}

theorem Closed.functionStart_mem (closed : model.Closed) {start : NodeId}
    (member : id ∈ model.diagramNodes group) (tied : (model.node id).functionStart = some start) :
    start ∈ model.diagramNodes group := by
  obtain ⟨own,paired⟩ := closed.joined start id ((closed.inverse start id).mpr tied)
  obtain ⟨begins,ends⟩ := Joined.members paired
  obtain ⟨_,drawn⟩ := closed.mem_diagramNodes_iff.mp member
  obtain ⟨inside,place⟩ := closed.mem_nodesOf_iff.mp begins
  obtain ⟨_,place'⟩ := closed.mem_nodesOf_iff.mp ends
  refine closed.mem_diagramNodes_iff.mpr ⟨inside,?_⟩
  rw [← drawn, groupOf, groupOf, place, place']

theorem Closed.next_mem (closed : model.Closed) {after : NodeId}
    (member : id ∈ model.diagramNodes group) (next : (model.node id).next = some after) :
    after ∈ model.diagramNodes group := by
  obtain ⟨inside,rfl⟩ := closed.mem_diagramNodes_iff.mp member
  have here := closed.mem_nodesOf_iff.mpr ⟨inside,rfl⟩
  obtain ⟨before,later,split⟩ := List.append_of_mem here
  rw [closed.lined.next_eq split] at next
  have there : after ∈ model.nodesOf (model.node id).timeline := by
    rw [split]
    exact List.mem_append_right _ (List.mem_cons_of_mem _ (List.mem_of_head? next))
  exact closed.mem_diagramNodes_of_nodesOf there

theorem Closed.arrives_mem (closed : model.Closed) {message : MessageId} {receiver : NodeId}
    (member : id ∈ model.diagramNodes group) (sent : (model.node id).sent = some message)
    (arrives : (model.message message).receiver = .resolved receiver) :
    receiver ∈ model.diagramNodes group := by
  obtain ⟨inside,rfl⟩ := closed.mem_diagramNodes_iff.mp member
  have posted := (closed.toKnown.node inside).sent message sent
  refine closed.mem_diagramNodes_iff.mpr ⟨?_,?_⟩
  · exact (closed.toKnown.message posted).receiver receiver (by rw [arrives]; rfl)
  · rw [(closed.delivered message receiver ⟨⟨id,sent⟩,arrives⟩).1, closed.sent id message sent]

theorem Closed.sends_mem (closed : model.Closed) {receiver : NodeId}
    (member : id ∈ model.diagramNodes group) (sends : model.Sends id receiver) :
    receiver ∈ model.diagramNodes group := by
  obtain ⟨message,sent,arrives,_⟩ := sends
  exact closed.arrives_mem member sent arrives

theorem Closed.sender_mem (closed : model.Closed) {sender receiver : NodeId}
    (sends : model.Sends sender receiver) (member : receiver ∈ model.diagramNodes group) :
    sender ∈ model.diagramNodes group := by
  have sent := sends.choose_spec.1
  have drawn := closed.mem_diagramNodes_iff.mpr ⟨known_of_sent sent,rfl⟩
  have there := (closed.mem_diagramNodes_iff.mp (closed.sends_mem drawn sends)).2
  rwa [← (closed.mem_diagramNodes_iff.mp member).2, there]

end Model

theorem load_closed {source : Source} {file : String} {loaded : Loaded}
    (found : (load source file).result = .ok loaded) : loaded.model.Closed where
  toWellFormed := (Obtained.loaded found).wellFormed
  toWired := load_wired found
  delivered id node arrives := by
    obtain ⟨builder,reachable,delivered⟩ := load_delivered found
    have built := reachable.built
    have timelines : loaded.model.timelines = builder.model.timelines := delivered.framed.timelines
    have timeline (id : NodeId) : (loaded.model.node id).timeline = (builder.model.node id).timeline :=
      delivered.framed.timeline id
    have groupOf (id : NodeId) : loaded.model.groupOf id = builder.model.groupOf id := by
      simp only [Model.groupOf, Model.timeline, timelines, timeline]
    obtain ⟨_,goal⟩ := (delivered.arrives_iff built).mp arrives
    refine ⟨?_,delivered.targetTimeline_of_arrives built arrives⟩
    have sender : (loaded.model.message id).sender = (builder.model.message id).sender :=
      delivered.sender_eq
    rw [groupOf, groupOf, sender]
    exact built.groupOf_goal goal

end DocGraph
