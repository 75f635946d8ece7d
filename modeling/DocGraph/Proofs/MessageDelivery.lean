import DocGraph.Proofs.DiagramPlaces
import Mathlib.Data.List.Induction

/-! Linking as one delivery for every node that has a message, in the order of the diagrams. -/
namespace DocGraph

theorem find?_reverse_eq_some_iff {wanted : α → Bool} {items : List α} {item : α} :
    items.reverse.find? wanted = some item ↔ ∃ front back, items = front ++ item :: back ∧
      wanted item = true ∧ ∀ other ∈ back, ¬wanted other = true := by
  rw [List.find?_eq_some_iff_append]
  constructor
  · rintro ⟨here,back,front,split,others⟩
    refine ⟨front.reverse,back.reverse,?_,here,?_⟩
    · rw [← items.reverse_reverse, split]
      simp
    · intro other member
      simpa using others other (List.mem_reverse.mp member)
  · rintro ⟨front,back,rfl,here,others⟩
    refine ⟨here,back.reverse,front.reverse,by simp,?_⟩
    intro other member
    simpa using others other (List.mem_reverse.mp member)

namespace Numbering

theorem find?_empty (limit id : UInt16) : (empty limit : Numbering α).find? id = none := by
  unfold find? empty
  rw [Array.getElem?_replicate]
  split
  · rfl
  · rfl

theorem find?_assign (numbering : Numbering α) (id other : UInt16) (item : α) :
    (numbering.assign id item).find? other =
      if other = id ∧ id.toNat < numbering.slots.size then some item else numbering.find? other := by
  simp only [find?, assign, Array.getElem?_setIfInBounds, UInt16.toNat_inj]
  by_cases same : id = other
  · subst same
    by_cases inside : id.toNat < numbering.slots.size
    · simp [inside]
    · simp [inside]
  · simp [same,Ne.symm same]

theorem ofList_append (limit : UInt16) (items : List (UInt16 × α)) (id : UInt16) (item : α) :
    ofList limit (items ++ [(id,item)]) = (ofList limit items).assign id item := by
  simp [ofList]

theorem size_ofList (limit : UInt16) (items : List (UInt16 × α)) :
    (ofList limit items).slots.size = limit.toNat + 1 := by
  induction items using List.reverseRecOn with
  | nil => simp [ofList,empty]
  | append_singleton items item ih =>
    rw [ofList_append, assign, Array.size_setIfInBounds]
    exact ih

/-- The last item of a number is found, unless the number is above the limit. -/
theorem find?_ofList (limit : UInt16) (items : List (UInt16 × α)) (id : UInt16) :
    (ofList limit items).find? id =
      if id ≤ limit then (items.reverse.find? (·.1 == id)).map Prod.snd else none := by
  induction items using List.reverseRecOn with
  | nil =>
    refine (find?_empty limit id).trans ?_
    split
    · rfl
    · rfl
  | append_singleton items item ih =>
    obtain ⟨number,item⟩ := item
    have bound : number.toNat < limit.toNat + 1 ↔ number ≤ limit := by
      rw [UInt16.le_iff_toNat_le]
      omega
    rw [ofList_append, find?_assign, ih, size_ofList, List.reverse_append]
    simp only [bound]
    by_cases same : id = number
    · subst same
      by_cases inside : id ≤ limit
      · simp [inside]
      · simp [inside]
    · simp [same,Ne.symm same]

end Numbering

namespace Model

variable {model : Model}

/-- The node that a number stands for in the messages of a group: the last one in the group's diagram
that has it. Zero stands for nobody, and so do numbers above the limit. -/
def addressee (model : Model) (limit : UInt16) (group : GroupId) (number : UInt16) : Option NodeId :=
  if number = 0 ∨ limit < number then none
  else (model.diagramNodes group).reverse.find? fun id => (model.node id).id == number

theorem find?_nodeNumbering (limit : UInt16) (group : GroupId) (number : UInt16) :
    (Linked.nodeNumbering limit model group).find? number = model.addressee limit group number := by
  have found : (Linked.nodeNumbering limit model group).find? number =
      if number ≤ limit then (model.diagramNodes group).reverse.find? fun id =>
        (model.node id).id != 0 && (model.node id).id == number else none := by
    simp only [Linked.nodeNumbering, Numbering.find?_ofList, List.filter_map, ← List.map_reverse,
      ← List.filter_reverse, List.find?_map, List.find?_filter, Option.map_map]
    simp only [Function.comp_def, Bool.decide_and, Bool.decide_eq_true, Option.map_id_fun', id_eq]
  rw [found, addressee]
  by_cases zero : number = 0
  · simp [zero]
  have wanted (id : UInt16) : (id != 0 && id == number) = (id == number) := by
    by_cases same : id = number
    · simp [same,zero]
    · simp [same]
  simp only [wanted, zero, false_or]
  by_cases above : limit < number
  · rw [if_neg (UInt16.not_le.mpr above), if_pos above]
  · rw [if_pos (UInt16.not_lt.mp above), if_neg above]

theorem addressee_eq_some_iff {limit : UInt16} {group : GroupId} {number : UInt16} {node : NodeId} :
    model.addressee limit group number = some node ↔ number ≠ 0 ∧ number ≤ limit ∧
      ∃ front back, model.diagramNodes group = front ++ node :: back ∧
        (model.node node).id = number ∧ ∀ other ∈ back, (model.node other).id ≠ number := by
  unfold addressee
  by_cases outside : number = 0 ∨ limit < number
  · rw [if_pos outside]
    refine ⟨nofun,?_⟩
    rintro ⟨nonzero,inside,_⟩
    rcases outside with zero | above
    · exact absurd zero nonzero
    · exact absurd inside (UInt16.not_le.mpr above)
  · rw [if_neg outside, find?_reverse_eq_some_iff]
    obtain ⟨nonzero,inside⟩ := not_or.mp outside
    simp only [beq_iff_eq, nonzero, UInt16.not_lt.mp inside, ne_eq, not_false_eq_true, true_and]

theorem Built.addressee_known (built : model.Built) {limit number : UInt16} {group : GroupId}
    {node : NodeId} (found : model.addressee limit group number = some node) :
    node.index < model.nodes.size ∧ model.groupOf node = group := by
  obtain ⟨_,_,front,back,split,_⟩ := addressee_eq_some_iff.mp found
  refine built.mem_diagramNodes_iff.mp ?_
  rw [split]
  exact List.mem_append_right _ List.mem_cons_self

theorem Framed.diagramNodes {before after : Model} (framed : Framed before after) (group : GroupId) :
    after.diagramNodes group = before.diagramNodes group := by
  simp only [Model.diagramNodes, Model.timeline, framed.diagram, framed.timelines]

theorem Framed.addressee {before after : Model} (framed : Framed before after) (limit : UInt16)
    (group : GroupId) (number : UInt16) :
    after.addressee limit group number = before.addressee limit group number := by
  simp only [Model.addressee, framed.diagramNodes, framed.number]

/-- The node that a message goes to, which is in the diagram of its sender. -/
def goal? (model : Model) (limit : UInt16) (id : MessageId) : Option NodeId :=
  match (model.message id).receiver with
  | .unresolved number => model.addressee limit (model.groupOf (model.message id).sender) number
  | _ => none

/-- A message after its receiver has been looked for. -/
def delivered (model : Model) (limit : UInt16) (id : MessageId) : Message :=
  match model.goal? limit id with
  | some node =>
    { model.message id with
      receiver := .resolved node, targetTimeline := some (model.node node).timeline }
  | none => { model.message id with receiver := .absent }

theorem message_modifyMessage_known {id : MessageId} (known : id.index < model.messages.size)
    {change : Message → Message} {message : Message} (written : change (model.message id) = message)
    (other : MessageId) : (model.modifyMessage id change).message other =
      if other = id then message else model.message other := by
  rw [message_modifyMessage]
  by_cases here : other = id
  · subst here
    rw [if_pos ⟨rfl,known⟩, if_pos rfl, written]
  · rw [if_neg (fun both => here both.1), if_neg here]

/-- The messages that some nodes have, in the order of their senders. -/
def sentBy (model : Model) (senders : List NodeId) : List MessageId :=
  senders.filterMap fun sender => (model.node sender).sent

theorem mem_sentBy {senders : List NodeId} {id : MessageId} :
    id ∈ model.sentBy senders ↔ ∃ sender ∈ senders, (model.node sender).sent = some id :=
  List.mem_filterMap

theorem sentBy_append (senders others : List NodeId) :
    model.sentBy (senders ++ others) = model.sentBy senders ++ model.sentBy others :=
  List.filterMap_append

/-- Nodes do not share messages. -/
theorem Posted.sender_unique (posted : model.Posted) {sender other : NodeId} {id : MessageId}
    (sent : (model.node sender).sent = some id) (sent' : (model.node other).sent = some id) :
    sender = other :=
  (posted.own sender id sent).2.symm.trans (posted.own other id sent').2

theorem Posted.nodup_sentBy (posted : model.Posted) {senders : List NodeId} (once : senders.Nodup) :
    (model.sentBy senders).Nodup :=
  once.filterMap fun _ _ _ sent sent' => posted.sender_unique sent sent'

end Model

open Model

/-- Some messages have been delivered, in this order, and no others. -/
structure Delivered (limit : UInt16) (model : Model) (ids : List MessageId) (linked : Linked) :
    Prop where
  framed : Framed model linked.model
  size : linked.model.messages.size = model.messages.size
  message : ∀ id, linked.model.message id =
    if id ∈ ids then model.delivered limit id else model.message id
  received : ∀ node, (linked.model.node node).received =
    ids.reverse.find? fun id => model.goal? limit id = some node
  resolved : linked.report.messagesResolved = ids.countP fun id => (model.goal? limit id).isSome
  absent : linked.report.messagesAbsent = ids.countP fun id => (model.goal? limit id).isNone

namespace Delivered

variable {limit : UInt16} {model : Model} {ids : List MessageId} {linked after : Linked}

theorem start (posted : model.Posted) : Delivered limit model [] { model } where
  framed := .refl model
  size := rfl
  message id := by simp
  received node := posted.unread node
  resolved := rfl
  absent := rfl

theorem still (delivered : Delivered limit model ids linked) (framed : Framed linked.model after.model)
    (still : Still linked.model after.model)
    (resolved : after.report.messagesResolved = linked.report.messagesResolved)
    (absent : after.report.messagesAbsent = linked.report.messagesAbsent) :
    Delivered limit model ids after where
  framed := delivered.framed.trans framed
  size := (congrArg Array.size still.messages).trans delivered.size
  message id := by
    rw [← delivered.message id]
    simp only [Model.message, still.messages]
  received node := (still.received node).trans (delivered.received node)
  resolved := resolved.trans delivered.resolved
  absent := absent.trans delivered.absent

theorem send (delivered : Delivered limit model ids linked) {id : MessageId}
    (framed : Framed linked.model after.model)
    (size : after.model.messages.size = linked.model.messages.size)
    (message : ∀ other, after.model.message other =
      if other = id then model.delivered limit id else linked.model.message other)
    (received : ∀ node, (after.model.node node).received =
      if model.goal? limit id = some node then some id else (linked.model.node node).received)
    (resolved : after.report.messagesResolved =
      linked.report.messagesResolved + if (model.goal? limit id).isSome then 1 else 0)
    (absent : after.report.messagesAbsent =
      linked.report.messagesAbsent + if (model.goal? limit id).isNone then 1 else 0) :
    Delivered limit model (ids ++ [id]) after where
  framed := delivered.framed.trans framed
  size := size.trans delivered.size
  message other := by
    rw [message, delivered.message other]
    by_cases here : other = id
    · simp [here]
    · simp [here]
  received node := by
    rw [received, delivered.received node, List.reverse_append]
    by_cases goes : model.goal? limit id = some node
    · simp [goes]
    · simp [goes]
  resolved := by rw [resolved, delivered.resolved, List.countP_append, List.countP_singleton]
  absent := by rw [absent, delivered.absent, List.countP_append, List.countP_singleton]

theorem deliverMessage (built : model.Built) (delivered : Delivered limit model ids linked)
    {id : MessageId} (known : id.index < model.messages.size) (fresh : id ∉ ids)
    {numbering : Numbering NodeId} (looked : ∀ number, numbering.find? number =
      model.addressee limit (model.groupOf (model.message id).sender) number) :
    Delivered limit model (ids ++ [id]) (linked.deliverMessage numbering id) := by
  obtain ⟨number,waiting⟩ := built.posted.waiting id known
  have untouched : linked.model.message id = model.message id := by
    rw [delivered.message id, if_neg fresh]
  have goal : model.goal? limit id = numbering.find? number := by rw [looked, goal?, waiting]
  have inside : id.index < linked.model.messages.size := delivered.size ▸ known
  cases found : numbering.find? number with
  | some node =>
    simp only [Linked.deliverMessage, untouched, waiting, found]
    rw [found] at goal
    rw [looked] at found
    have reached : node.index < linked.model.nodes.size := by
      rw [delivered.framed.size]
      exact (built.addressee_known found).1
    have noted : Framed linked.model (linked.model.modifyNode node ({ · with received := some id })) :=
      framed_modifyNode linked.model node fun _ => ⟨rfl,rfl,rfl⟩
    refine delivered.send ?_ ?_ ?_ ?_ ?_ ?_
    · exact noted.trans (framed_of_eq (fun _ => rfl) rfl rfl)
    · exact size_messages_modifyMessage ..
    · refine message_modifyMessage_known inside ?_
      simp only [Model.delivered, goal, ← delivered.framed.timeline, ← untouched]
    · intro other
      refine (congrArg Node.received (node_modifyNode linked.model node other _)).trans ?_
      simp only [goal, reached, and_true, Option.some_inj, eq_comm]
      split
      · rfl
      · rfl
    · simp [goal]
    · simp [goal]
  | none =>
    simp only [Linked.deliverMessage, untouched, waiting, found]
    rw [found] at goal
    refine delivered.send ?_ ?_ ?_ ?_ ?_ ?_
    · exact framed_of_eq (fun _ => rfl) rfl rfl
    · exact size_messages_modifyMessage ..
    · refine message_modifyMessage_known inside ?_
      simp only [Model.delivered, goal, ← untouched]
    · intro other
      rw [goal, if_neg nofun]
      rfl
    · simp [goal]
    · simp [goal]

theorem linkStates (delivered : Delivered limit model ids linked) (bound : UInt16)
    (group : GroupId) : Delivered limit model ids (linked.linkStates bound group) := by
  unfold Linked.linkStates
  exact List.foldlRecOn (motive := Delivered limit model ids) _ _ delivered
    fun _ delivered _ _ =>
      delivered.still (framed_of_eq (fun _ => rfl) rfl rfl) (still_of_eq rfl rfl) rfl rfl

theorem pairFunctions (delivered : Delivered limit model ids linked) (line : TimelineId) :
    Delivered limit model ids (linked.pairFunctions line) := by
  have joined (model : Model) (pair : NodeId × NodeId) :
      Framed model (Linked.joinPair model pair) ∧ Still model (Linked.joinPair model pair) := by
    unfold Linked.joinPair
    refine ⟨.trans (framed_modifyNode model pair.1 ?_) (framed_modifyNode _ pair.2 ?_),
      .trans (still_modifyNode model pair.1 ?_) (still_modifyNode _ pair.2 ?_)⟩
    · exact fun _ => ⟨rfl,rfl,rfl⟩
    · exact fun _ => ⟨rfl,rfl,rfl⟩
    · exact fun _ => rfl
    · exact fun _ => rfl
  have run := List.foldlRecOn
    (motive := fun after : Model => Framed linked.model after ∧ Still linked.model after)
    (Pairing.ofNodes linked.model none (linked.model.nodesOf line)).pairs Linked.joinPair
    ⟨.refl linked.model,.refl linked.model⟩ fun after kept pair _ =>
      ⟨kept.1.trans (joined after pair).1,kept.2.trans (joined after pair).2⟩
  exact delivered.still run.1 run.2 rfl rfl

theorem deliver (built : model.Built) {numbering : Numbering NodeId} (group : GroupId)
    (looked : ∀ number, numbering.find? number = model.addressee limit group number)
    (delivered : Delivered limit model ids linked) (senders : List NodeId)
    (fresh : (ids ++ model.sentBy senders).Nodup)
    (inside : ∀ sender ∈ senders, model.groupOf sender = group) :
    Delivered limit model (ids ++ model.sentBy senders)
      (senders.foldl (Linked.deliver numbering) linked) := by
  induction senders generalizing ids linked with
  | nil =>
    rw [sentBy, List.filterMap_nil, List.append_nil]
    exact delivered
  | cons sender senders ih =>
    have later : ∀ other ∈ senders, model.groupOf other = group := fun other member =>
      inside other (List.mem_cons_of_mem _ member)
    rw [List.foldl_cons, Linked.deliver, delivered.framed.sent]
    rw [sentBy, List.filterMap_cons] at fresh ⊢
    cases sent : (model.node sender).sent with
    | none =>
      rw [sent] at fresh
      exact ih delivered fresh later
    | some id =>
      rw [sent] at fresh
      obtain ⟨known,own⟩ := built.posted.own sender id sent
      rw [List.append_cons] at fresh ⊢
      refine ih (delivered.deliverMessage built known ?_ ?_) fresh later
      · intro member
        have apart := (List.nodup_append.mp (List.nodup_append.mp fresh).1).2.2
        exact apart id member id List.mem_cons_self rfl
      · rw [own, inside sender List.mem_cons_self]
        exact looked

theorem linkNodes (built : model.Built) (delivered : Delivered limit model ids linked)
    (group : GroupId) (fresh : (ids ++ model.sentBy (model.diagramNodes group)).Nodup) :
    Delivered limit model (ids ++ model.sentBy (model.diagramNodes group))
      (linked.linkNodes limit group) := by
  have paired := List.foldlRecOn (motive := Delivered limit model ids)
    (linked.model.diagram group) Linked.pairFunctions delivered
    fun _ delivered line _ => delivered.pairFunctions line
  simp only [Linked.linkNodes]
  rw [paired.framed.diagramNodes group]
  refine paired.deliver built group (fun number => ?_) _ fresh fun sender member => ?_
  · rw [find?_nodeNumbering, paired.framed.addressee]
  · exact (built.mem_diagramNodes_iff.mp member).2

theorem linkGroups (built : model.Built) {limits : Limits} (groups : List GroupId)
    (delivered : Delivered limits.node model ids linked)
    (fresh : (ids ++ model.sentBy (groups.flatMap model.diagramNodes)).Nodup) :
    Delivered limits.node model (ids ++ model.sentBy (groups.flatMap model.diagramNodes))
      (groups.foldl (Linked.linkGroup limits) linked) := by
  induction groups generalizing ids linked with
  | nil =>
    rw [List.flatMap_nil, sentBy, List.filterMap_nil, List.append_nil]
    exact delivered
  | cons group groups ih =>
    rw [List.flatMap_cons, sentBy_append, ← List.append_assoc] at fresh ⊢
    have stated := delivered.linkStates limits.state group
    have next : Delivered limits.node model (ids ++ model.sentBy (model.diagramNodes group))
        (linked.linkGroup limits group) :=
      stated.linkNodes built group (List.nodup_append.mp fresh).1
    rw [List.foldl_cons]
    exact ih next fresh

end Delivered

/-- Linking delivers the message of every node, in the order of the diagrams. -/
theorem Model.Built.link_delivered {model : Model} (built : model.Built) (limits : Limits) :
    Delivered limits.node model (model.sentBy model.drawnNodes) (model.link limits) := by
  have once := built.posted.nodup_sentBy built.nodup_drawnNodes
  exact .linkGroups built model.groupIds (.start built.posted) once

end DocGraph
