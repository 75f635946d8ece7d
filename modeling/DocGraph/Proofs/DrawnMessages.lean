import DocGraph.Proofs.NotedCalls

/-! Drawn messages against the nodes and timelines that they are drawn between. The order of the drawing is
not dealt with here. -/
namespace DocGraph

/-- What is drawn is a message of the group that its sender sends and that reaches its receiver, between
the timelines that the two nodes are on and that the message names. -/
structure Emission.Real (model : Model) (group : GroupId) (emission : Emission) : Prop where
  sent : (model.node emission.sender).sent = some emission.message
  sender : (model.message emission.message).sender = emission.sender
  receiver : (model.message emission.message).receiver = .resolved emission.receiver
  origin : emission.origin = (model.node emission.sender).timeline
  sendingTimeline : emission.origin = (model.message emission.message).sendingTimeline
  destination : emission.destination = (model.node emission.receiver).timeline
  targetTimeline : (model.message emission.message).targetTimeline = some emission.destination
  leaves : emission.origin ∈ model.diagram group
  arrives : emission.destination ∈ model.diagram group

theorem Link.target?_eq_some_iff {link : Link α} {target : α} :
    link.target? = some target ↔ link = .resolved target := by
  cases link with
  | resolved other => simp [target?]
  | unresolved | absent => simp [target?]

namespace Walker

variable {model : Model} {group : GroupId}

theorem emission?_eq_some_iff {moved : WalkStep} {emission : Emission} :
    emission? model moved = some emission ↔
      moved.message = some emission.message ∧ emission.sender = moved.node ∧
        (model.message emission.message).receiver = .resolved emission.receiver ∧
        emission.origin = (model.message emission.message).sendingTimeline ∧
        emission.destination = (model.node emission.receiver).timeline := by
  simp only [emission?, Option.bind_eq_bind, Option.bind_eq_some_iff, Link.target?_eq_some_iff]
  constructor
  · rintro ⟨message,sent,receiver,arrives,drawn⟩
    cases drawn
    exact ⟨sent,rfl,arrives,rfl,rfl⟩
  · rintro ⟨sent,sender,arrives,origin,destination⟩
    refine ⟨emission.message,sent,emission.receiver,arrives,?_⟩
    rw [← sender, ← origin, ← destination]
    rfl

theorem emission_real (closed : model.Closed) {moved : WalkStep} {emission : Emission}
    (member : moved.node ∈ model.diagramNodes group) (sent : moved.message = (model.node moved.node).sent)
    (drawn : emission? model moved = some emission) : emission.Real model group := by
  obtain ⟨carried,sender,arrives,origin,destination⟩ := emission?_eq_some_iff.mp drawn
  rw [sent, ← sender] at carried
  rw [← sender] at member
  have own := closed.sent emission.sender emission.message carried
  have posted := (closed.toKnown.node (closed.mem_diagramNodes_iff.mp member).1).sent _ carried
  have home := closed.homed emission.message posted
  rw [own] at home
  have there := closed.arrives_mem member carried arrives
  have named := (closed.delivered emission.message emission.receiver ⟨⟨_,carried⟩,arrives⟩).2
  refine ⟨carried,own,arrives,origin.trans home,origin,destination,?_,?_,?_⟩
  · rw [named, destination]
  · rw [origin, home]
    exact closed.timeline_mem member
  · rw [destination]
    exact closed.timeline_mem there

end Walker

/-- What is drawn is real. The walk of a diagram shows its nodes with the messages that they send, and what
is drawn of it are messages of the group that reach their receivers. -/
theorem load_drawn_real {source : Source} {file : String} {loaded : Loaded}
    (found : (load source file).result = .ok loaded) (walker : Walker) (group : GroupId) :
    let model := loaded.model
    (∀ moved ∈ (walker.drawDiagram model group).steps, moved.node ∈ model.diagramNodes group ∧
      moved.message = (model.node moved.node).sent) ∧
    ∀ emission ∈ (walker.drawEmissions model group).steps, emission.Real model group := by
  intro model
  have closed : model.Closed := load_closed found
  have inside := Walker.drawDiagram_inside closed walker group
  refine ⟨inside.steps,fun emission member => ?_⟩
  obtain ⟨moved,shown,drawn⟩ := List.mem_filterMap.mp member
  obtain ⟨here,sent⟩ := inside.steps moved shown
  exact Walker.emission_real closed here sent drawn

/-- The call from inside a function is drawn, between the two timelines that its nodes are on. -/
theorem relay_real :
    ∃ bytes loaded emission, Writer.file {} relay = .ok bytes ∧
      (load ⟨bytes,[]⟩ "model").result = .ok loaded ∧
      let model := loaded.model
      let walker := Walker.after model [.timeline ⟨0⟩]
      emission ∈ (walker.drawEmissions model ⟨1⟩).steps ∧
        emission.sender = ⟨2⟩ ∧ emission.receiver = ⟨4⟩ ∧ emission.Real model ⟨1⟩ := by
  obtain ⟨bytes,written⟩ : ∃ bytes, Writer.file {} relay = .ok bytes := ⟨_,rfl⟩
  have checked : (graphOf relay).any fun model =>
      ((Walker.after model [.timeline ⟨0⟩]).drawEmissions model ⟨1⟩).steps.any fun emission =>
        emission.sender = ⟨2⟩ ∧ emission.receiver = ⟨4⟩ := by decide +kernel
  obtain ⟨loaded,found,holds⟩ := load_graphOf written checked "model"
  obtain ⟨emission,drawn,holds⟩ := List.any_eq_true.mp holds
  obtain ⟨sender,receiver⟩ := of_decide_eq_true holds
  obtain ⟨_,real⟩ := load_drawn_real found (Walker.after loaded.model [.timeline ⟨0⟩]) ⟨1⟩
  exact ⟨bytes,loaded,emission,written,found,drawn,sender,receiver,real emission drawn⟩

end DocGraph
