import DocGraph.Proofs.LinkedMessages

/-! Ways back from receivers to messages. A receiver has room for one, and keeps that of its last sender. -/
namespace DocGraph

open Model

namespace Model

/-- A node sends the message, and it goes to the given node. -/
structure Arrives (model : Model) (id : MessageId) (node : NodeId) : Prop where
  sent : ∃ sender, (model.node sender).sent = some id
  receiver : (model.message id).receiver = .resolved node

end Model

namespace Delivered

variable {limit : UInt16} {model : Model} {linked : Linked} {id : MessageId} {node : NodeId}
  (built : model.Built) (delivered : Delivered limit model (model.sentBy model.drawnNodes) linked)

include built delivered

theorem arrives_iff : linked.model.Arrives id node ↔ model.Kept id ∧ model.goal? limit id = some node := by
  rw [← delivered.resolved_iff built]
  refine ⟨fun arrives => arrives.receiver,fun arrived => ⟨?_,arrived⟩⟩
  have kept := ((delivered.resolved_iff built).mp arrived).1
  exact ⟨_,(delivered.framed.sent _).trans kept⟩

theorem targetTimeline_of_arrives (arrives : linked.model.Arrives id node) :
    (linked.model.message id).targetTimeline = some (linked.model.node node).timeline := by
  obtain ⟨kept,goal⟩ := (delivered.arrives_iff built).mp arrives
  rw [delivered.message_kept built kept, Model.delivered, goal, delivered.framed.timeline]

theorem member_of_arrives (arrives : linked.model.Arrives id node) :
    node ∈ model.diagramNodes (model.groupOf node) := by
  obtain ⟨kept,goal⟩ := (delivered.arrives_iff built).mp arrives
  refine built.mem_diagramNodes_iff.mpr ⟨?_,rfl⟩
  obtain ⟨number,waiting⟩ := built.posted.waiting id (built.posted.own _ id kept).1
  rw [goal?, waiting] at goal
  exact (built.addressee_known goal).1

theorem received_last (arrives : linked.model.Arrives id node) :
    ∃ last, (linked.model.node node).received = some last ∧ linked.model.Arrives last node ∧
      ∃ front back, linked.model.sentBy (linked.model.diagramNodes (linked.model.groupOf node)) =
        front ++ last :: back ∧ ∀ other ∈ back, ¬linked.model.Arrives other node := by
  have member := delivered.member_of_arrives built arrives
  have received := delivered.received_eq built member
  have here := delivered.sentBy_of_resolved built member arrives.receiver
  have senders : linked.model.sentBy (linked.model.diagramNodes (linked.model.groupOf node)) =
      model.sentBy (model.diagramNodes (model.groupOf node)) := by
    simp only [sentBy, delivered.framed.diagramNodes, groupOf, Model.timeline,
      delivered.framed.timelines, delivered.framed.timeline, delivered.framed.sent]
  rw [senders]
  cases found : (linked.model.node node).received with
  | none =>
    rw [found] at received
    have none_ := List.find?_eq_none.mp received.symm id (List.mem_reverse.mpr here)
    exact absurd (decide_eq_true arrives.receiver) none_
  | some last =>
    rw [found] at received
    obtain ⟨front,back,split,arrived,others⟩ := find?_reverse_eq_some_iff.mp received.symm
    refine ⟨last,rfl,?_,front,back,split,?_⟩
    · exact (delivered.arrives_iff built).mpr
        ((delivered.resolved_iff built).mp (of_decide_eq_true arrived))
    · exact fun other later arrives => others other later (decide_eq_true arrives.receiver)

end Delivered

/-- The way from a node back to a message that arrived there. The timeline that a message names is always
the one of its receiver. The receiver names the last of the messages that arrive, in the order of their
senders in the diagram; so each of them is found again if and only if no two arrive at one node. -/
theorem load_received_messages {source : Source} {file : String} {loaded : Loaded}
    (found : (load source file).result = .ok loaded) :
    let model := loaded.model
    (∀ id node, model.Arrives id node →
      (model.message id).targetTimeline = some (model.node node).timeline ∧
      ∃ last, (model.node node).received = some last ∧ model.Arrives last node ∧
        ∃ front back, model.sentBy (model.diagramNodes (model.groupOf node)) = front ++ last :: back ∧
          ∀ other ∈ back, ¬model.Arrives other node) ∧
    ((∀ id node, model.Arrives id node → (model.node node).received = some id) ↔
      ∀ id other node, model.Arrives id node → model.Arrives other node → id = other) := by
  intro model
  obtain ⟨builder,reachable,delivered⟩ := load_delivered found
  have built := reachable.built
  have last {id : MessageId} {node : NodeId} (arrives : model.Arrives id node) :=
    delivered.received_last built arrives
  refine ⟨fun id node arrives => ⟨?_,last arrives⟩,?_,?_⟩
  · exact delivered.targetTimeline_of_arrives built arrives
  · intro back id other node arrives arrives'
    have same := (back id node arrives).symm.trans (back other node arrives')
    exact Option.some.inj same
  · intro alone id node arrives
    obtain ⟨final,received,arrives',_⟩ := last arrives
    rw [received, alone final id node arrives' arrives]

/-- Two nodes of one timeline that send to the same node of another. -/
def rivals : List Record :=
  let name (letter : UInt8) : Name := ⟨[letter],false⟩
  let line (letter : UInt8) : Record := .timeline ⟨name 103,name letter⟩
  let sender (id : UInt8) : List Record :=
    [.nodeStart id.toUInt16 0, .sentMessage ⟨id,3,name 66,name 109⟩, .nodeEnd]
  .sequenceStart (name 103) :: line 65 :: sender 1 ++ sender 2 ++
    [line 66, .nodeStart 3 0, .nodeEnd, .sequenceEnd]

theorem rivals_loaded :
    ∃ bytes loaded, Writer.file {} rivals = .ok bytes ∧
      (load ⟨bytes,[]⟩ "model").result = .ok loaded ∧
      (loaded.model.node ⟨0⟩).sent = some ⟨0⟩ ∧ (loaded.model.node ⟨1⟩).sent = some ⟨1⟩ ∧
      (loaded.model.message ⟨0⟩).receiver = .resolved ⟨2⟩ ∧
      (loaded.model.message ⟨1⟩).receiver = .resolved ⟨2⟩ ∧
      (loaded.model.node ⟨2⟩).received = some ⟨1⟩ := by
  obtain ⟨bytes,written⟩ : ∃ bytes, Writer.file {} rivals = .ok bytes := ⟨_,rfl⟩
  have checked : (graphOf rivals).any fun model =>
      (model.node ⟨0⟩).sent = some ⟨0⟩ ∧ (model.node ⟨1⟩).sent = some ⟨1⟩ ∧
        (model.message ⟨0⟩).receiver = .resolved ⟨2⟩ ∧
        (model.message ⟨1⟩).receiver = .resolved ⟨2⟩ ∧
        (model.node ⟨2⟩).received = some ⟨1⟩ := by decide +kernel
  obtain ⟨loaded,found,holds⟩ := load_graphOf written checked "model"
  exact ⟨bytes,loaded,written,found,of_decide_eq_true holds⟩

/-- The way back leads to one of the two messages, so it does not lead to each of them. -/
theorem rivals_share :
    ∃ bytes loaded, Writer.file {} rivals = .ok bytes ∧
      (load ⟨bytes,[]⟩ "model").result = .ok loaded ∧
      (∃ last, (loaded.model.node ⟨2⟩).received = some last ∧ loaded.model.Arrives last ⟨2⟩) ∧
      (loaded.model.message ⟨0⟩).targetTimeline = some (loaded.model.node ⟨2⟩).timeline ∧
      ¬∀ id node, loaded.model.Arrives id node → (loaded.model.node node).received = some id := by
  obtain ⟨bytes,loaded,written,found,sent,sent',goes,goes',_⟩ := rivals_loaded
  obtain ⟨arrived,alone⟩ := load_received_messages found
  have first : loaded.model.Arrives ⟨0⟩ ⟨2⟩ := ⟨⟨_,sent⟩,goes⟩
  have second : loaded.model.Arrives ⟨1⟩ ⟨2⟩ := ⟨⟨_,sent'⟩,goes'⟩
  obtain ⟨line,last,received,arrives,_⟩ := arrived ⟨0⟩ ⟨2⟩ first
  refine ⟨bytes,loaded,written,found,⟨last,received,arrives⟩,line,fun back => ?_⟩
  exact absurd (alone.mp back ⟨0⟩ ⟨1⟩ ⟨2⟩ first second) (by decide)

/-- The earlier of the two messages arrives, though its receiver names the later one. -/
theorem rival_displaced :
    ∃ bytes loaded, Writer.file {} rivals = .ok bytes ∧
      (load ⟨bytes,[]⟩ "model").result = .ok loaded ∧
      (loaded.model.node ⟨0⟩).sent = some ⟨0⟩ ∧
      (loaded.model.message ⟨0⟩).receiver = .resolved ⟨2⟩ ∧
      (loaded.model.node ⟨2⟩).received = some ⟨1⟩ ∧
      (loaded.model.node ⟨2⟩).received ≠ some ⟨0⟩ := by
  obtain ⟨bytes,loaded,written,found,sent,_,goes,_,received⟩ := rivals_loaded
  refine ⟨bytes,loaded,written,found,sent,goes,received,?_⟩
  rw [received]
  decide

end DocGraph
