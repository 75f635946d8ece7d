import DocGraph.Proofs.NotedCalls

/-! Where a walk may go on from a node, by the graph and the calls that were noted. -/
namespace DocGraph

namespace Model

/-- The second node stands right behind the first on the timeline of the first. -/
def Follows (model : Model) (id after : NodeId) : Prop :=
  ∃ before rest, model.nodesOf (model.node id).timeline = before ++ id :: after :: rest

/-- The places where a walk may go on from a node. -/
inductive Leads (model : Model) (id : NodeId) : NodeId → Prop
  | onward {after : NodeId} (follows : model.Follows id after) : Leads model id after
  | call {receiver : NodeId} (sends : model.Sends id receiver) : Leads model id receiver
  /-- Behind a caller of the node, or of the start of the function that the node ends. -/
  | back {called caller after : NodeId}
      (here : called = id ∨ (model.node id).functionStart = some called)
      (sends : model.Sends caller called) (follows : model.Follows caller after) : Leads model id after

variable {model : Model}

theorem known_of_next {id after : NodeId} (next : (model.node id).next = some after) :
    model.HasNode id := by
  refine Nat.lt_of_not_le fun outside => ?_
  have missing : model.node id = default := getD_outside outside
  rw [missing] at next
  cases next

theorem Closed.follows_of_next (closed : model.Closed) {id after : NodeId}
    (next : (model.node id).next = some after) : model.Follows id after := by
  have here := closed.mem_nodesOf_iff.mpr ⟨known_of_next next,rfl⟩
  obtain ⟨before,later,split⟩ := List.append_of_mem here
  rw [closed.lined.next_eq split] at next
  obtain ⟨rest,rfl⟩ := List.head?_eq_some_iff.mp next
  exact ⟨before,rest,split⟩

theorem Closed.groupOf_of_sends (closed : model.Closed) {sender receiver : NodeId}
    (sends : model.Sends sender receiver) : model.groupOf sender = model.groupOf receiver := by
  have known := known_of_sent sends.choose_spec.1
  have drawn := closed.mem_diagramNodes_iff.mpr ⟨known,rfl⟩
  exact (closed.mem_diagramNodes_iff.mp (closed.sends_mem drawn sends)).2.symm

end Model

/-- A walk with real calls goes on at one of the places that there are. -/
theorem Walker.Truthful.leads {model : Model} (closed : model.Closed) {walker : Walker}
    (truthful : walker.Truthful model) {id after : NodeId}
    (goes : (advance model walker id).2 = some after) : model.Leads id after := by
  rw [advance_eq_take] at goes
  cases moves : turn model id with
  | call receiver =>
    rw [moves] at goes
    cases goes
    exact .call (sends_of_turn moves)
  | onward =>
    rw [moves] at goes
    exact .onward (closed.follows_of_next goes)
  | back called otherwise =>
    rw [moves, Turn.take] at goes
    have place := called_of_turn moves
    cases noted : walker.caller? called with
    | some caller =>
      rw [noted] at goes
      refine .back ?_ (truthful called caller noted) (closed.follows_of_next goes)
      exact place.imp And.left And.left
    | none =>
      rw [noted] at goes
      dsimp only at goes
      rcases place with ⟨_,rfl⟩ | ⟨_,rfl⟩
      · cases goes
      · exact .onward (closed.follows_of_next goes)

/-- Whatever is asked of a walker, the calls that it has noted are sent from one timeline of a group to
another, and it goes on from a node along the timeline, to the receiver of the node's message, or behind a
caller. -/
theorem load_walks_lead {source : Source} {file : String} {loaded : Loaded}
    (found : (load source file).result = .ok loaded) (requests : List Walker.Request) :
    let model := loaded.model
    let walker := Walker.after model requests
    (∀ receiver caller, walker.caller? receiver = some caller →
      model.Sends caller receiver ∧ model.groupOf caller = model.groupOf receiver) ∧
    ∀ id after, (Walker.advance model walker id).2 = some after → model.Leads id after := by
  intro model walker
  have closed : model.Closed := load_closed found
  have truthful : walker.Truthful model := Walker.after_truthful closed requests
  refine ⟨fun receiver caller noted => ?_,fun id after goes => truthful.leads closed goes⟩
  have sends := truthful receiver caller noted
  exact ⟨sends,closed.groupOf_of_sends sends⟩

/-- A walk that is taken out of its way by a call back, and then along the rest of the function by hand, has
noted three calls. From the end of the function it goes on behind the first caller, past the call back. -/
theorem callback_leads :
    ∃ bytes loaded, Writer.file {} callback = .ok bytes ∧
      (load ⟨bytes,[]⟩ "model").result = .ok loaded ∧
      let model := loaded.model
      let walker := Walker.after model [.timeline ⟨0⟩,.advance ⟨4⟩]
      walker.calls = [(⟨1⟩,⟨3⟩),(⟨2⟩,⟨0⟩),(⟨6⟩,⟨4⟩)] ∧
        model.Sends ⟨4⟩ ⟨6⟩ ∧ model.groupOf ⟨4⟩ = model.groupOf ⟨6⟩ ∧
        (Walker.advance model walker ⟨5⟩).2 = some ⟨1⟩ ∧ model.Leads ⟨5⟩ ⟨1⟩ := by
  obtain ⟨bytes,written⟩ : ∃ bytes, Writer.file {} callback = .ok bytes := ⟨_,rfl⟩
  have checked : (graphOf callback).any fun model =>
      let walker := Walker.after model [.timeline ⟨0⟩,.advance ⟨4⟩]
      walker.calls = [(⟨1⟩,⟨3⟩),(⟨2⟩,⟨0⟩),(⟨6⟩,⟨4⟩)] ∧ walker.caller? ⟨6⟩ = some ⟨4⟩ ∧
        (Walker.advance model walker ⟨5⟩).2 = some ⟨1⟩ := by decide +kernel
  obtain ⟨loaded,found,holds⟩ := load_graphOf written checked "model"
  obtain ⟨calls,noted,goes⟩ := of_decide_eq_true holds
  obtain ⟨real,leads⟩ := load_walks_lead found [.timeline ⟨0⟩,.advance ⟨4⟩]
  obtain ⟨sends,same⟩ := real ⟨6⟩ ⟨4⟩ noted
  exact ⟨bytes,loaded,written,found,calls,sends,same,goes,leads ⟨5⟩ ⟨1⟩ goes⟩

end DocGraph
