import DocGraph.Proofs.FileLoading
import DocGraph.Proofs.FunctionPairs
import DocGraph.Proofs.MessageDelivery
import Mathlib.Data.List.Find

/-! Messages of linked graphs. A message that its sender gave up for a later one is not linked at all. -/
namespace DocGraph

open Model

theorem findSome?_eq_of_only {f : α → Option β} {items : List α} {item : α} (member : item ∈ items)
    (only : ∀ other ∈ items, other ≠ item → f other = none) : items.findSome? f = f item := by
  have alone {other : α} {result : β} (inside : other ∈ items) (found : f other = some result) :
      other = item := by
    by_contra apart
    rw [only other inside apart] at found
    cases found
  cases all : items.findSome? f with
  | none => exact (List.findSome?_eq_none_iff.mp all item member).symm
  | some result =>
    obtain ⟨other,inside,found⟩ := List.exists_of_findSome?_eq_some all
    rw [← alone inside found, found]

theorem Link.isResolved_iff {link : Link α} :
    link.isResolved = true ↔ ∃ target, link = .resolved target := by
  cases link with
  | resolved target => simp [isResolved]
  | unresolved | absent => simp [isResolved]

namespace Model

variable {model : Model}

/-- The sender of the message still has it; a node that sends another message has only that one. -/
def Kept (model : Model) (id : MessageId) : Prop :=
  (model.node (model.message id).sender).sent = some id

instance (model : Model) : DecidablePred model.Kept := fun _ => inferInstanceAs (Decidable (_ = _))

theorem Posted.undelivered (posted : model.Posted) (id : MessageId) (node : NodeId) :
    (model.message id).receiver ≠ .resolved node := by
  intro arrived
  by_cases known : id.index < model.messages.size
  · obtain ⟨number,waiting⟩ := posted.waiting id known
    rw [waiting] at arrived
    cases arrived
  · have missing : model.message id = default := getD_outside (Nat.le_of_not_lt known)
    rw [missing] at arrived
    cases arrived

theorem mem_messageIds_iff {id : MessageId} : id ∈ model.messageIds ↔ id.index < model.messages.size := by
  unfold messageIds
  cases id
  simp

theorem nodup_messageIds (model : Model) : model.messageIds.Nodup := by
  refine List.Nodup.map ?_ List.nodup_range
  intro index other same
  exact congrArg MessageId.index same

theorem Built.mem_sentBy_iff (built : model.Built) {id : MessageId} :
    id ∈ model.sentBy model.drawnNodes ↔ model.Kept id := by
  rw [mem_sentBy]
  constructor
  · rintro ⟨sender,_,sent⟩
    rw [Kept, (built.posted.own sender id sent).2]
    exact sent
  · intro kept
    exact ⟨_,built.mem_drawnNodes_iff.mpr (known_of_sent kept),kept⟩

theorem Built.sentBy_perm (built : model.Built) :
    (model.sentBy model.drawnNodes).Perm (model.messageIds.filter model.Kept) := by
  have once := built.posted.nodup_sentBy built.nodup_drawnNodes
  refine (List.perm_ext_iff_of_nodup once (model.nodup_messageIds.filter _)).mpr fun id => ?_
  rw [built.mem_sentBy_iff, List.mem_filter, mem_messageIds_iff, decide_eq_true_iff]
  exact ⟨fun kept => ⟨(built.posted.own _ id kept).1,kept⟩,And.right⟩

/-- A node has the last of the messages that it sent. -/
theorem Posted.kept_iff_last (posted : model.Posted) {id : MessageId} (known : id ∈ model.messageIds) :
    model.Kept id ↔ ∀ other ∈ model.messageIds,
      (model.message other).sender = (model.message id).sender → other.index ≤ id.index := by
  rw [mem_messageIds_iff] at known
  constructor
  · intro kept other known' same
    obtain ⟨last,sent,later⟩ := posted.latest other (mem_messageIds_iff.mp known')
    rw [same, kept] at sent
    cases sent
    exact later
  · intro final
    obtain ⟨last,sent,later⟩ := posted.latest id known
    obtain ⟨known',own⟩ := posted.own _ last sent
    have earlier := final last (mem_messageIds_iff.mpr known') own
    have same : last = id := by
      cases last
      cases id
      exact congrArg MessageId.mk (Nat.le_antisymm earlier later)
    rw [Kept, sent, same]

theorem Posted.all_kept_iff (posted : model.Posted) :
    (∀ id ∈ model.messageIds, model.Kept id) ↔
      ∀ id ∈ model.messageIds, ∀ other ∈ model.messageIds,
        (model.message other).sender = (model.message id).sender → other = id := by
  constructor
  · intro all id known other known' same
    have kept := all id known
    have kept' := all other known'
    rw [Kept, same, kept] at kept'
    exact (Option.some.inj kept').symm
  · intro alone id known
    refine (posted.kept_iff_last known).mpr fun other known' same => ?_
    rw [alone id known other known' same]

theorem Built.groupOf_goal (built : model.Built) {limit : UInt16} {id : MessageId} {node : NodeId}
    (goal : model.goal? limit id = some node) :
    model.groupOf node = model.groupOf (model.message id).sender := by
  unfold goal? at goal
  split at goal
  · exact (built.addressee_known goal).2
  · cases goal

theorem Built.find?_sentBy_drawnNodes (built : model.Built) {group : GroupId}
    (known : group ∈ model.groupIds) {wanted : MessageId → Bool}
    (only : ∀ id, wanted id = true → id ∈ model.sentBy (model.diagramNodes group)) :
    (model.sentBy model.drawnNodes).reverse.find? wanted =
      (model.sentBy (model.diagramNodes group)).reverse.find? wanted := by
  have split : (model.sentBy model.drawnNodes).reverse.find? wanted = model.groupIds.reverse.findSome?
      fun group => (model.sentBy (model.diagramNodes group)).reverse.find? wanted := by
    simp only [sentBy, drawnNodes, List.filterMap_flatMap, List.reverse_flatMap, List.find?_flatMap,
      Function.comp_def]
  rw [split]
  refine findSome?_eq_of_only (List.mem_reverse.mpr known) fun other _ apart => ?_
  refine List.find?_eq_none.mpr fun id sent here => apart ?_
  obtain ⟨sender,member,sent⟩ := mem_sentBy.mp (List.mem_reverse.mp sent)
  obtain ⟨sender',member',sent'⟩ := mem_sentBy.mp (only id here)
  have same := built.posted.sender_unique sent sent'
  have here := (built.mem_diagramNodes_iff.mp member).2
  have there := (built.mem_diagramNodes_iff.mp member').2
  rw [← here, same, there]

end Model

namespace Delivered

variable {limit : UInt16} {model : Model} {linked : Linked} {id : MessageId} (built : model.Built)
  (delivered : Delivered limit model (model.sentBy model.drawnNodes) linked)

include delivered

theorem sender_eq : (linked.model.message id).sender = (model.message id).sender := by
  rw [delivered.message id]
  split
  · unfold Model.delivered
    split
    · rfl
    · rfl
  · rfl

include built

theorem message_kept (kept : model.Kept id) : linked.model.message id = model.delivered limit id := by
  rw [delivered.message id, if_pos (built.mem_sentBy_iff.mpr kept)]

theorem message_lost (lost : ¬model.Kept id) : linked.model.message id = model.message id := by
  rw [delivered.message id, if_neg (mt built.mem_sentBy_iff.mp lost)]

theorem resolved_iff {node : NodeId} :
    (linked.model.message id).receiver = .resolved node ↔
      model.Kept id ∧ model.goal? limit id = some node := by
  by_cases kept : model.Kept id
  · rw [delivered.message_kept built kept, Model.delivered]
    cases model.goal? limit id with
    | some other => simp [kept]
    | none => simp
  · rw [delivered.message_lost built kept]
    refine ⟨fun arrived => absurd arrived ?_,fun both => absurd both.1 kept⟩
    exact built.posted.undelivered id node

theorem absent_iff (known : id.index < model.messages.size) :
    (linked.model.message id).receiver = .absent ↔
      model.Kept id ∧ model.goal? limit id = none := by
  by_cases kept : model.Kept id
  · rw [delivered.message_kept built kept, Model.delivered]
    cases model.goal? limit id with
    | some other => simp
    | none => simp [kept]
  · obtain ⟨number,waiting⟩ := built.posted.waiting id known
    rw [delivered.message_lost built kept, waiting]
    simp [kept]

theorem unresolved_iff (known : id.index < model.messages.size) :
    (linked.model.message id).receiver.isUnresolved = false ↔ model.Kept id := by
  by_cases kept : model.Kept id
  · rw [delivered.message_kept built kept, Model.delivered]
    cases model.goal? limit id with
    | some node => simp [Link.isUnresolved,kept]
    | none => simp [Link.isUnresolved,kept]
  · obtain ⟨number,waiting⟩ := built.posted.waiting id known
    rw [delivered.message_lost built kept, waiting]
    simp [Link.isUnresolved,kept]

/-- The messages that are counted as resolved are the ones that are. -/
theorem resolved_eq :
    linked.report.messagesResolved =
      model.messageIds.countP fun id => (linked.model.message id).receiver.isResolved := by
  rw [delivered.resolved, built.sentBy_perm.countP_eq, List.countP_filter]
  refine List.countP_congr fun id _ => ?_
  rw [Bool.and_eq_true, decide_eq_true_iff, Option.isSome_iff_exists, Link.isResolved_iff]
  simp only [delivered.resolved_iff built]
  constructor
  · rintro ⟨⟨node,goal⟩,kept⟩
    exact ⟨node,kept,goal⟩
  · rintro ⟨node,kept,goal⟩
    exact ⟨⟨node,goal⟩,kept⟩

theorem absent_eq :
    linked.report.messagesAbsent =
      model.messageIds.countP fun id => (linked.model.message id).receiver = .absent := by
  rw [delivered.absent, built.sentBy_perm.countP_eq, List.countP_filter]
  refine List.countP_congr fun id member => ?_
  rw [Bool.and_eq_true, decide_eq_true_iff, decide_eq_true_iff, Option.isNone_iff_eq_none,
    delivered.absent_iff built (mem_messageIds_iff.mp member)]
  exact and_comm

theorem total_eq :
    linked.report.messagesResolved + linked.report.messagesAbsent =
      model.messageIds.countP model.Kept := by
  have missed (id : MessageId) :
      (model.goal? limit id).isNone = decide ¬(model.goal? limit id).isSome = true := by
    cases model.goal? limit id with
    | some node => rfl
    | none => rfl
  rw [delivered.resolved, delivered.absent]
  simp only [missed, ← List.length_eq_countP_add_countP]
  rw [built.sentBy_perm.length_eq, List.countP_eq_length_filter]

theorem sentBy_of_resolved {group : GroupId} {node : NodeId}
    (member : node ∈ model.diagramNodes group)
    (arrived : (linked.model.message id).receiver = .resolved node) :
    id ∈ model.sentBy (model.diagramNodes group) := by
  obtain ⟨kept,goal⟩ := (delivered.resolved_iff built).mp arrived
  refine mem_sentBy.mpr ⟨_,built.mem_diagramNodes_iff.mpr ⟨known_of_sent kept,?_⟩,kept⟩
  rw [← built.groupOf_goal goal]
  exact (built.mem_diagramNodes_iff.mp member).2

/-- A node keeps the last message that goes to it; none comes from another diagram. -/
theorem received_eq {group : GroupId} {node : NodeId}
    (member : node ∈ model.diagramNodes group) :
    (linked.model.node node).received = (model.sentBy (model.diagramNodes group)).reverse.find?
      fun id => (linked.model.message id).receiver = .resolved node := by
  have all : (linked.model.node node).received = (model.sentBy model.drawnNodes).reverse.find?
      fun id => (linked.model.message id).receiver = .resolved node := by
    rw [delivered.received node]
    refine List.find?_congr fun id sent => ?_
    have kept := built.mem_sentBy_iff.mp (List.mem_reverse.mp sent)
    simp only [delivered.resolved_iff built, kept, true_and]
  rw [all]
  refine built.find?_sentBy_drawnNodes (mem_groupIds_of_member member) fun id arrived => ?_
  exact delivered.sentBy_of_resolved built member (of_decide_eq_true arrived)

end Delivered

/-- Where messages go. The receiver of a message is the last node of its sender's diagram that has the
number of the receiver, if there is one; a node keeps the last message that came to it. -/
theorem Builder.Reachable.link_receivers {builder : Builder} (reachable : builder.Reachable)
    (limits : Limits) :
    let model := builder.model
    let linked := model.link limits
    (∀ group, ∀ sender ∈ model.diagramNodes group, ∀ id, (model.node sender).sent = some id →
      ∃ number, (model.message id).receiver = .unresolved number ∧
        match model.addressee limits.node group number with
        | some node => (linked.model.message id).receiver = .resolved node ∧
            (linked.model.message id).targetTimeline = some (model.node node).timeline
        | none => (linked.model.message id).receiver = .absent ∧
            (linked.model.message id).targetTimeline = none) ∧
    (∀ group, ∀ node ∈ model.diagramNodes group,
      (linked.model.node node).received = (model.sentBy (model.diagramNodes group)).reverse.find?
        (fun id => (linked.model.message id).receiver = .resolved node) ∧
      ∀ id, (linked.model.message id).receiver = .resolved node →
        id ∈ model.sentBy (model.diagramNodes group)) ∧
    linked.report.messagesResolved =
      model.messageIds.countP (fun id => (linked.model.message id).receiver.isResolved) ∧
    linked.report.messagesAbsent =
      model.messageIds.countP (fun id => (linked.model.message id).receiver = .absent) := by
  intro model linked
  have built : model.Built := reachable.built
  have delivered := built.link_delivered limits
  refine ⟨?_,?_,delivered.resolved_eq built,delivered.absent_eq built⟩
  · intro group sender member id sent
    obtain ⟨known,own⟩ := built.posted.own sender id sent
    obtain ⟨number,waiting⟩ := built.posted.waiting id known
    have kept : model.Kept id := by rw [Model.Kept, own]; exact sent
    have here := (built.mem_diagramNodes_iff.mp member).2
    have goal : model.goal? limits.node id = model.addressee limits.node group number := by
      rw [goal?, waiting, own, here]
    refine ⟨number,waiting,?_⟩
    rw [delivered.message_kept built kept, Model.delivered, goal]
    cases model.addressee limits.node group number with
    | some node => exact ⟨rfl,rfl⟩
    | none => exact ⟨rfl,built.posted.nowhere id⟩
  · intro group node member
    exact ⟨delivered.received_eq built member,fun id => delivered.sentBy_of_resolved built member⟩

/-- A node that sends two messages to a number that two nodes have, and two other senders. -/
def letters : List Record :=
  let name (letter : UInt8) : Name := ⟨[letter],false⟩
  let line (letter : UInt8) : Record := .timeline ⟨name 103,name letter⟩
  let node (id : UInt8) (sends : List UInt8) : List Record :=
    .nodeStart id.toUInt16 0 ::
      sends.map (fun receiver => .sentMessage ⟨id,receiver,name 66,name 109⟩) ++ [.nodeEnd]
  .sequenceStart (name 103) ::
    line 65 :: node 1 [2, 2] ++ node 2 [] ++ node 3 [9] ++
    line 66 :: node 2 [] ++ node 4 [2] ++ [.sequenceEnd]

/-- Both letters that arrive go to the second of two nodes, which keeps the later one. -/
theorem letters_delivered :
    ∃ builder, Builder.applyAll {} letters = some builder ∧
      let linked := builder.model.link builder.limits
      (linked.model.message ⟨1⟩).receiver = .resolved ⟨3⟩ ∧
      (linked.model.message ⟨2⟩).receiver = .absent ∧
      (linked.model.message ⟨3⟩).receiver = .resolved ⟨3⟩ ∧
      (linked.model.node ⟨3⟩).received = some ⟨3⟩ := by
  have checked : (Builder.applyAll {} letters).any fun builder =>
      let model := builder.model
      model.diagramNodes ⟨1⟩ = [⟨0⟩,⟨1⟩,⟨2⟩,⟨3⟩,⟨4⟩] ∧
        model.sentBy (model.diagramNodes ⟨1⟩) = [⟨1⟩,⟨2⟩,⟨3⟩] ∧
        (model.node ⟨0⟩).sent = some ⟨1⟩ ∧ (model.message ⟨1⟩).receiver = .unresolved 2 ∧
        (model.node ⟨2⟩).sent = some ⟨2⟩ ∧ (model.message ⟨2⟩).receiver = .unresolved 9 ∧
        (model.node ⟨4⟩).sent = some ⟨3⟩ ∧ (model.message ⟨3⟩).receiver = .unresolved 2 ∧
        model.addressee builder.limits.node ⟨1⟩ 2 = some ⟨3⟩ ∧
        model.addressee builder.limits.node ⟨1⟩ 9 = none := by decide +kernel
  obtain ⟨builder,accepted,holds⟩ := (Option.any_eq_true _ _).mp checked
  obtain ⟨nodes,sent,first,two,second,nine,third,two',goal,nowhere⟩ := of_decide_eq_true holds
  have reachable := Builder.applyAll_reachable .initial accepted
  obtain ⟨receivers,received,_,_⟩ := reachable.link_receivers builder.limits
  obtain ⟨_,same,arrived⟩ := receivers ⟨1⟩ ⟨0⟩ (by rw [nodes]; decide) ⟨1⟩ first
  cases two.symm.trans same
  obtain ⟨_,same,missed⟩ := receivers ⟨1⟩ ⟨2⟩ (by rw [nodes]; decide) ⟨2⟩ second
  cases nine.symm.trans same
  obtain ⟨_,same,arrived'⟩ := receivers ⟨1⟩ ⟨4⟩ (by rw [nodes]; decide) ⟨3⟩ third
  cases two'.symm.trans same
  rw [goal] at arrived arrived'
  rw [nowhere] at missed
  refine ⟨builder,accepted,arrived.1,missed.1,arrived'.1,?_⟩
  rw [(received ⟨1⟩ ⟨3⟩ (by rw [nodes]; decide)).1, sent]
  exact List.find?_cons_of_pos (decide_eq_true arrived'.1)

theorem Loaded.nameDocument_frame (model : Model) :
    Framed model (nameDocument model).1 ∧ Still model (nameDocument model).1 := by
  unfold nameDocument
  split
  · split
    · exact ⟨.refl model,.refl model⟩
    · exact ⟨framed_modifyGroup model root fun _ => rfl,still_of_eq rfl rfl⟩
  · exact ⟨.refl model,.refl model⟩

theorem load_delivered {source : Source} {file : String} {loaded : Loaded}
    (found : (load source file).result = .ok loaded) :
    ∃ builder : Builder, builder.Reachable ∧ Delivered builder.limits.node builder.model
      (builder.model.sentBy builder.model.drawnNodes)
      { model := loaded.model, report := loaded.report } := by
  obtain ⟨builder,reachable,named,report,_⟩ := load_reachable found
  obtain ⟨framed,still⟩ := Loaded.nameDocument_frame (builder.model.link builder.limits).model
  rw [← named] at framed still
  refine ⟨builder,reachable,(reachable.built.link_delivered builder.limits).still framed still ?_ ?_⟩
  · rw [report]
  · rw [report]

theorem load_kept_messages {source : Source} {file : String} {loaded : Loaded}
    (found : (load source file).result = .ok loaded) :
    ∃ model : Model, model.Posted ∧ loaded.model.messages.size = model.messages.size ∧
      (∀ id, (loaded.model.message id).sender = (model.message id).sender) ∧
      (∀ id ∈ model.messageIds,
        (loaded.model.message id).receiver.isUnresolved = false ↔ model.Kept id) ∧
      loaded.report.messagesResolved + loaded.report.messagesAbsent =
        model.messageIds.countP model.Kept := by
  obtain ⟨builder,reachable,delivered⟩ := load_delivered found
  have built := reachable.built
  refine ⟨builder.model,built.posted,delivered.size,fun id => delivered.sender_eq,?_,?_⟩
  · exact fun id known => delivered.unresolved_iff built (mem_messageIds_iff.mp known)
  · exact delivered.total_eq built

/-- Which messages of a file are linked: of each sender the last one, and these are counted. Nothing is
left behind if and only if no node sends two messages. -/
theorem load_last_messages {source : Source} {file : String} {loaded : Loaded}
    (found : (load source file).result = .ok loaded) :
    let model := loaded.model
    let counted := loaded.report.messagesResolved + loaded.report.messagesAbsent
    (∀ id ∈ model.messageIds, (model.message id).receiver.isUnresolved = false ↔
      ∀ other ∈ model.messageIds,
        (model.message other).sender = (model.message id).sender → other.index ≤ id.index) ∧
    counted = model.messageIds.countP (fun id => (model.message id).receiver.isUnresolved = false) ∧
    ((∀ id ∈ model.messageIds, (model.message id).receiver.isUnresolved = false) ∧
        counted = model.messages.size ↔
      ∀ id ∈ model.messageIds, ∀ other ∈ model.messageIds,
        (model.message other).sender = (model.message id).sender → other = id) := by
  obtain ⟨model,posted,size,sender,settled,total⟩ := load_kept_messages found
  have ids : loaded.model.messageIds = model.messageIds := by simp only [messageIds, size]
  simp only [ids, size, sender, total]
  refine ⟨?_,?_,?_⟩
  · intro id known
    exact (settled id known).trans (posted.kept_iff_last known)
  · refine List.countP_congr fun id known => ?_
    simp only [decide_eq_true_iff, settled id known]
  · rw [← posted.all_kept_iff]
    constructor
    · rintro ⟨all,_⟩ id known
      exact (settled id known).mp (all id known)
    · intro all
      refine ⟨fun id known => (settled id known).mpr (all id known),?_⟩
      have whole : model.messageIds.countP model.Kept = model.messageIds.length :=
        List.countP_eq_length.mpr fun id known => decide_eq_true (all id known)
      rw [whole, messageIds, List.length_map, List.length_range]

theorem letters_loaded :
    ∃ bytes loaded, Writer.file {} letters = .ok bytes ∧
      (load ⟨bytes,[]⟩ "model").result = .ok loaded ∧
      loaded.model.messageIds = [⟨0⟩,⟨1⟩,⟨2⟩,⟨3⟩] ∧ loaded.model.messages.size = 4 ∧
      (loaded.model.message ⟨0⟩).sender = (loaded.model.message ⟨1⟩).sender ∧
      (∀ other ∈ loaded.model.messageIds,
        (loaded.model.message other).sender = (loaded.model.message ⟨1⟩).sender → other.index ≤ 1) ∧
      (loaded.model.message ⟨0⟩).receiver = .unresolved 2 ∧
      loaded.report.messagesResolved = 2 ∧ loaded.report.messagesAbsent = 1 := by
  obtain ⟨bytes,written⟩ : ∃ bytes, Writer.file {} letters = .ok bytes := ⟨_,rfl⟩
  have checked : (Builder.applyAll {} ((contentOf letters).map Record.plain)).any fun builder =>
      let linked := builder.model.link builder.limits
      let model := (Loaded.nameDocument linked.model).1
      model.messageIds = [⟨0⟩,⟨1⟩,⟨2⟩,⟨3⟩] ∧ model.messages.size = 4 ∧
        (model.message ⟨0⟩).sender = (model.message ⟨1⟩).sender ∧
        (∀ other ∈ model.messageIds,
          (model.message other).sender = (model.message ⟨1⟩).sender → other.index ≤ 1) ∧
        (model.message ⟨0⟩).receiver = .unresolved 2 ∧
        linked.report.messagesResolved = 2 ∧ linked.report.messagesAbsent = 1 := by decide +kernel
  obtain ⟨builder,accepted,holds⟩ := (Option.any_eq_true _ _).mp checked
  obtain ⟨_,_,found⟩ := load_file_accepted written accepted "model"
  exact ⟨bytes,_,written,found,of_decide_eq_true holds⟩

/-- Of the two messages of one node the second is linked and the first is not. -/
theorem letters_last :
    ∃ bytes loaded, Writer.file {} letters = .ok bytes ∧
      (load ⟨bytes,[]⟩ "model").result = .ok loaded ∧
      (loaded.model.message ⟨1⟩).receiver.isUnresolved = false ∧
      (loaded.model.message ⟨0⟩).receiver.isUnresolved = true := by
  obtain ⟨bytes,loaded,written,found,ids,_,same,final,_⟩ := letters_loaded
  obtain ⟨last,_,_⟩ := load_last_messages found
  have first : ⟨0⟩ ∈ loaded.model.messageIds := by rw [ids]; decide
  have second : ⟨1⟩ ∈ loaded.model.messageIds := by rw [ids]; decide
  refine ⟨bytes,loaded,written,found,(last ⟨1⟩ second).mpr final,?_⟩
  refine Bool.eq_true_of_not_eq_false fun linked => ?_
  exact absurd ((last ⟨0⟩ first).mp linked ⟨1⟩ second same.symm) (by decide)

/-- A message is left unresolved and is counted nowhere. -/
theorem letters_lost :
    ∃ bytes loaded, Writer.file {} letters = .ok bytes ∧
      (load ⟨bytes,[]⟩ "model").result = .ok loaded ∧
      (∃ id ∈ loaded.model.messageIds, (loaded.model.message id).receiver.isUnresolved = true) ∧
      loaded.report.messagesResolved + loaded.report.messagesAbsent ≠
        loaded.model.messages.size := by
  obtain ⟨bytes,loaded,written,found,ids,size,_,_,lost,resolved,absent⟩ := letters_loaded
  refine ⟨bytes,loaded,written,found,⟨⟨0⟩,?_,?_⟩,?_⟩
  · rw [ids]
    decide
  · rw [lost]
    rfl
  · rw [resolved, absent, size]
    decide

end DocGraph
