import DocGraph.Proofs.CheckedItems
import DocGraph.Proofs.FunctionPairs
import DocGraph.Proofs.MessageDelivery

/-! Linking by operations that check every position. Known graphs pass all of the checks. -/
namespace DocGraph

/-- Steps that all pass their checks and keep an invariant. -/
theorem foldlM_eq_some {I : σ → Prop} {first : σ} (start : I first) (checked : σ → ι → Option σ)
    (step : σ → ι → σ) (items : List ι)
    (each : ∀ state, I state → ∀ item ∈ items,
      checked state item = some (step state item) ∧ I (step state item)) :
    items.foldlM checked first = some (items.foldl step first) ∧ I (items.foldl step first) := by
  induction items generalizing first with
  | nil => exact ⟨rfl,start⟩
  | cons item items ih =>
    obtain ⟨passes,next⟩ := each first start item List.mem_cons_self
    rw [List.foldlM_cons, passes]
    exact ih next fun state holds other member =>
      each state holds other (List.mem_cons_of_mem _ member)

namespace Pairing

def ofNodes? (model : Model) (opened : Option NodeId) : List NodeId → Option Pairing
  | [] => some {}
  | node :: rest => do
    let flags := (← model.node? node).flags
    if flags.contains .function then ofNodes? model (some node) rest
    else if flags.contains .functionEnd then
      let later ← ofNodes? model none rest
      match opened with
      | some start => return { later with pairs := (start, node) :: later.pairs }
      | none => return { later with unmatched := node :: later.unmatched }
    else ofNodes? model opened rest

end Pairing

namespace Linked

def retarget? (numbering : Numbering StateId) (linked : Linked) (id : StateId) : Option Linked := do
  let state ← linked.model.state? id
  let fresh := state.transitions.toList.filter (·.target.isUnresolved)
  let resolved := fresh.countP (·.target.resolve numbering |>.isResolved)
  let model ← linked.model.modifyState? id fun state =>
    { state with transitions := state.transitions.map fun transition =>
                  { transition with target := transition.target.resolve numbering } }
  return { linked with
    model
    report := { linked.report with
      transitionsResolved := linked.report.transitionsResolved + resolved
      transitionsAbsent := linked.report.transitionsAbsent + (fresh.length - resolved) } }

def linkStates? (limit : UInt16) (linked : Linked) (group : GroupId) : Option Linked := do
  let states ← linked.model.machine? group
  let numbered ← states.mapM fun id => (linked.model.state? id).map fun state => (state.id, id)
  states.foldlM (retarget? (Numbering.ofList limit numbered)) linked

def joinPair? (model : Model) (pair : NodeId × NodeId) : Option Model := do
  let model ← model.modifyNode? pair.1 ({ · with functionEnd := some pair.2 })
  model.modifyNode? pair.2 ({ · with functionStart := some pair.1 })

def pairFunctions? (linked : Linked) (timeline : TimelineId) : Option Linked := do
  let line ← linked.model.timeline? timeline
  let pairing ← Pairing.ofNodes? linked.model none line.nodes.toList
  let model ← pairing.pairs.foldlM joinPair? linked.model
  let notices ← pairing.unmatched.mapM fun node => (linked.model.node? node).map fun node =>
    .unmatchedFunctionEnd line.name.text node.id.toNat
  return {
    model
    report := { linked.report with
      functionPairs := linked.report.functionPairs + pairing.pairs.length
      unpairedFunctionEnds := linked.report.unpairedFunctionEnds + pairing.unmatched.length }
    notices := linked.notices ++ notices }

def deliverMessage? (numbering : Numbering NodeId) (linked : Linked) (id : MessageId) :
    Option Linked := do
  match (← linked.model.message? id).receiver with
  | .unresolved number =>
    match numbering.find? number with
    | some receiver =>
      let timeline := (← linked.model.node? receiver).timeline
      let model ← linked.model.modifyNode? receiver ({ · with received := some id })
      let model ← model.modifyMessage? id fun message =>
        { message with receiver := .resolved receiver, targetTimeline := some timeline }
      return { linked with
        model
        report := { linked.report with
          messagesResolved := linked.report.messagesResolved + 1 } }
    | none =>
      let model ← linked.model.modifyMessage? id ({ · with receiver := .absent })
      return { linked with
        model
        report := { linked.report with messagesAbsent := linked.report.messagesAbsent + 1 } }
  | _ => return linked

def deliver? (numbering : Numbering NodeId) (linked : Linked) (node : NodeId) : Option Linked := do
  match (← linked.model.node? node).sent with
  | some id => linked.deliverMessage? numbering id
  | none => return linked

def nodeNumbering? (limit : UInt16) (model : Model) (group : GroupId) :
    Option (Numbering NodeId) := do
  let nodes ← model.diagramNodes? group
  let numbered ← nodes.mapM fun id => (model.node? id).map fun node => (node.id, id)
  return Numbering.ofList limit (numbered.filter (·.1 != 0))

def linkNodes? (limit : UInt16) (linked : Linked) (group : GroupId) : Option Linked := do
  let paired ← (← linked.model.diagram? group).foldlM pairFunctions? linked
  let numbering ← nodeNumbering? limit paired.model group
  (← paired.model.diagramNodes? group).foldlM (deliver? numbering) paired

def linkGroup? (limits : Limits) (linked : Linked) (group : GroupId) : Option Linked := do
  (← linked.linkStates? limits.state group).linkNodes? limits.node group

end Linked

/-- Links every group, unless a position is not taken. -/
def Model.link? (model : Model) (limits : Limits) : Option Linked :=
  model.groupIds.foldlM (Linked.linkGroup? limits) { model }

theorem Numbering.mem_of_find?_ofList {limit id : UInt16} {items : List (UInt16 × α)} {item : α}
    (found : (ofList limit items).find? id = some item) : ∃ number, (number,item) ∈ items := by
  rw [find?_ofList] at found
  split at found
  · obtain ⟨⟨number,_⟩,first,rfl⟩ := Option.map_eq_some_iff.mp found
    exact ⟨number,List.mem_reverse.mp (List.mem_of_find?_eq_some first)⟩
  · cases found

theorem Link.target_resolve {link : Link α} {numbering : Numbering α} {target : α}
    (led : (link.resolve numbering).target? = some target) :
    link.target? = some target ∨ ∃ number, numbering.find? number = some target := by
  unfold resolve at led
  split at led
  · rename_i number
    split at led
    · rename_i found
      cases led
      exact .inr ⟨number,found⟩
    · cases led
  · exact .inl led

theorem Pairing.mem_unmatched {model : Model} {opened : Option NodeId} {nodes : List NodeId}
    {node : NodeId} (member : node ∈ (ofNodes model opened nodes).unmatched) : node ∈ nodes := by
  induction nodes generalizing opened with
  | nil => cases member
  | cons first nodes ih =>
    simp only [ofNodes] at member
    split at member
    · exact List.mem_cons_of_mem _ (ih member)
    · split at member
      · cases opened with
        | some start => exact List.mem_cons_of_mem _ (ih member)
        | none =>
          rcases List.mem_cons.mp member with rfl | later
          · exact List.mem_cons_self
          · exact List.mem_cons_of_mem _ (ih later)
      · exact List.mem_cons_of_mem _ (ih member)

theorem Pairing.ofNodes?_eq {model : Model} {nodes : List NodeId}
    (inside : ∀ node ∈ nodes, model.HasNode node) (opened : Option NodeId) :
    ofNodes? model opened nodes = some (ofNodes model opened nodes) := by
  induction nodes generalizing opened with
  | nil => rfl
  | cons node nodes ih =>
    have later := ih fun other member => inside other (List.mem_cons_of_mem _ member)
    simp only [ofNodes?, ofNodes, model.node?_eq (inside node List.mem_cons_self), later,
      Option.bind_eq_bind, Option.bind_some]
    split
    · rfl
    · split
      · cases opened with
        | some start => rfl
        | none => rfl
      · rfl

/-- The graph is known, and nothing in it has been moved. -/
structure Intact (before after : Model) : Prop where
  known : after.Known
  unmoved : Model.Unmoved before after

namespace Intact

variable {before after : Model}

theorem refl {model : Model} (known : model.Known) : Intact model model := ⟨known,.refl model⟩

theorem trans {first second third : Model} (before : Intact first second) (after : Intact second third) :
    Intact first third := ⟨after.known,before.unmoved.trans after.unmoved⟩

theorem hasGroup (kept : Intact before after) {id : GroupId} (inside : before.HasGroup id) :
    after.HasGroup id := Nat.lt_of_lt_of_eq inside kept.unmoved.groups.symm

theorem hasState (kept : Intact before after) {id : StateId} (inside : before.HasState id) :
    after.HasState id := Nat.lt_of_lt_of_eq inside kept.unmoved.states.symm

theorem hasTimeline (kept : Intact before after) {id : TimelineId} (inside : before.HasTimeline id) :
    after.HasTimeline id :=
  Nat.lt_of_lt_of_eq inside (congrArg Array.size kept.unmoved.timelines).symm

theorem hasNode (kept : Intact before after) {id : NodeId} (inside : before.HasNode id) :
    after.HasNode id := Nat.lt_of_lt_of_eq inside kept.unmoved.size.symm

end Intact

namespace Linked

open Model

theorem joinPair?_eq {model : Model} (known : model.Known) {pair : NodeId × NodeId}
    (begins : model.HasNode pair.1) (ends : model.HasNode pair.2) :
    joinPair? model pair = some (joinPair model pair) ∧ Intact model (joinPair model pair) := by
  have first : Intact model (model.modifyNode pair.1 ({ · with functionEnd := some pair.2 })) := by
    refine ⟨known.modifyNode pair.1 fun node there => { there with functionEnd := ?_ },
      unmoved_modifyNode model pair.1 (fun _ => ⟨rfl,rfl,rfl⟩) fun _ => rfl⟩
    rintro other ⟨⟩
    exact ends
  have second : Intact (model.modifyNode pair.1 ({ · with functionEnd := some pair.2 }))
      (joinPair model pair) := by
    refine ⟨first.known.modifyNode pair.2 fun node there => { there with functionStart := ?_ },
      unmoved_modifyNode _ pair.2 (fun _ => ⟨rfl,rfl,rfl⟩) fun _ => rfl⟩
    rintro other ⟨⟩
    exact first.hasNode begins
  refine ⟨?_,first.trans second⟩
  simp only [joinPair?, modifyNode?_eq begins, Option.bind_eq_bind, Option.bind_some]
  exact modifyNode?_eq (first.hasNode ends) _

variable {linked : Linked} (known : linked.model.Known)

include known

theorem retarget?_eq {numbering : Numbering StateId}
    (hits : ∀ number id, numbering.find? number = some id → linked.model.HasState id) {id : StateId}
    (inside : linked.model.HasState id) :
    linked.retarget? numbering id = some (linked.retarget numbering id) ∧
      Intact linked.model (linked.retarget numbering id).model := by
  refine ⟨?_,?_,unmoved_modifyState linked.model id fun _ => rfl⟩
  · simp [retarget?,retarget,inside,modifyState?_eq inside]
  · refine known.modifyState id fun state there => ⟨there.group,fun transition member => ?_⟩
    obtain ⟨old,was,rfl⟩ := Array.mem_map.mp member
    refine { there.transitions old was with target := fun target led => ?_ }
    rcases Link.target_resolve led with before | ⟨number,found⟩
    · exact (there.transitions old was).target target before
    · exact hits number target found

theorem linkStates?_eq (limit : UInt16) {group : GroupId} (inside : linked.model.HasGroup group) :
    linked.linkStates? limit group = some (linked.linkStates limit group) ∧
      Intact linked.model (linked.linkStates limit group).model := by
  have numbered : (linked.model.machine group).mapM
      (fun id => (linked.model.state? id).map fun state => (state.id, id)) =
        some ((linked.model.machine group).map fun id => ((linked.model.state id).id, id)) :=
    mapM_eq_some fun id member => by simp [known.machine_known member]
  have hits (number : UInt16) (id : StateId)
      (found : (Numbering.ofList limit ((linked.model.machine group).map fun id =>
        ((linked.model.state id).id, id))).find? number = some id) : linked.model.HasState id := by
    obtain ⟨_,listed⟩ := Numbering.mem_of_find?_ofList found
    obtain ⟨_,member,same⟩ := List.mem_map.mp listed
    cases same
    exact known.machine_known member
  have run := foldlM_eq_some (I := fun after : Linked => Intact linked.model after.model)
    (.refl known) (retarget? _) (retarget _) (linked.model.machine group)
    fun after kept id member => by
      obtain ⟨passes,next⟩ := retarget?_eq kept.known
        (fun number id found => kept.hasState (hits number id found))
        (kept.hasState (known.machine_known member))
      exact ⟨passes,kept.trans next⟩
  refine ⟨?_,run.2⟩
  simp only [linkStates?, machine?_eq inside, Option.bind_eq_bind, Option.bind_some, numbered]
  exact run.1

theorem pairFunctions?_eq {line : TimelineId} (inside : linked.model.HasTimeline line) :
    linked.pairFunctions? line = some (linked.pairFunctions line) ∧
      Intact linked.model (linked.pairFunctions line).model := by
  have nodes : ∀ node ∈ linked.model.nodesOf line, linked.model.HasNode node :=
    fun node => known.nodesOf_known
  have pairing := Pairing.ofNodes?_eq nodes none
  have run := foldlM_eq_some (I := Intact linked.model) (.refl known) joinPair? joinPair
    (Pairing.ofNodes linked.model none (linked.model.nodesOf line)).pairs
    fun after kept pair member => by
      obtain ⟨begins,ends⟩ := Joined.members member
      obtain ⟨passes,next⟩ := joinPair?_eq kept.known (kept.hasNode (nodes pair.1 begins))
        (kept.hasNode (nodes pair.2 ends))
      exact ⟨passes,kept.trans next⟩
  have notices : (Pairing.ofNodes linked.model none (linked.model.nodesOf line)).unmatched.mapM
      (fun id => (linked.model.node? id).map fun node => Notice.unmatchedFunctionEnd
        (linked.model.timeline line).name.text node.id.toNat) =
      some ((Pairing.ofNodes linked.model none (linked.model.nodesOf line)).unmatched.map fun id =>
        .unmatchedFunctionEnd (linked.model.timeline line).name.text
          (linked.model.node id).id.toNat) :=
    mapM_eq_some fun id member => by simp [nodes id (Pairing.mem_unmatched member)]
  refine ⟨?_,run.2⟩
  simp only [nodesOf] at pairing run notices
  simp only [pairFunctions?, timeline?_eq inside, Option.bind_eq_bind, Option.bind_some, pairing,
    run.1, notices]
  rfl

theorem deliverMessage?_eq {numbering : Numbering NodeId}
    (hits : ∀ number id, numbering.find? number = some id → linked.model.HasNode id)
    {id : MessageId} (inside : linked.model.HasMessage id) :
    linked.deliverMessage? numbering id = some (linked.deliverMessage numbering id) ∧
      Intact linked.model (linked.deliverMessage numbering id).model := by
  simp only [deliverMessage?, deliverMessage, message?_eq inside, Option.bind_eq_bind,
    Option.bind_some]
  cases (linked.model.message id).receiver with
  | resolved | absent => exact ⟨rfl,.refl known⟩
  | unresolved number =>
    dsimp only
    cases found : numbering.find? number with
    | none =>
      simp only [modifyMessage?_eq inside, Option.bind_some]
      refine ⟨rfl,known.modifyMessage id fun message there => { there with receiver := ?_ },
        unmoved_modifyMessage linked.model id fun _ => ⟨rfl,rfl⟩⟩
      rintro other ⟨⟩
    | some receiver =>
      have reached := hits number receiver found
      let noted := linked.model.modifyNode receiver ({ · with received := some id })
      have kept : Intact linked.model noted := by
        refine ⟨known.modifyNode receiver fun node there => { there with received := ?_ },
          unmoved_modifyNode linked.model receiver (fun _ => ⟨rfl,rfl,rfl⟩) fun _ => rfl⟩
        rintro other ⟨⟩
        exact inside
      have there : noted.HasMessage id := inside
      have timeline := kept.hasTimeline (known.node reached).timeline
      simp only [node?_eq reached, modifyNode?_eq reached, Option.bind_some]
      rw [modifyMessage?_eq there]
      refine ⟨rfl,kept.trans ⟨kept.known.modifyMessage id fun message there =>
        { there with targetTimeline := ?_, receiver := ?_ },?_⟩⟩
      · rintro other ⟨⟩
        exact timeline
      · rintro other ⟨⟩
        exact kept.hasNode reached
      · exact unmoved_modifyMessage noted id fun _ => ⟨rfl,rfl⟩

theorem deliver?_eq {numbering : Numbering NodeId}
    (hits : ∀ number id, numbering.find? number = some id → linked.model.HasNode id) {node : NodeId}
    (inside : linked.model.HasNode node) :
    linked.deliver? numbering node = some (linked.deliver numbering node) ∧
      Intact linked.model (linked.deliver numbering node).model := by
  simp only [deliver?, deliver, node?_eq inside, Option.bind_eq_bind, Option.bind_some]
  cases sent : (linked.model.node node).sent with
  | none => exact ⟨rfl,.refl known⟩
  | some id => exact deliverMessage?_eq known hits ((known.node inside).sent id sent)

theorem nodeNumbering?_eq (limit : UInt16) {group : GroupId} (inside : linked.model.HasGroup group) :
    nodeNumbering? limit linked.model group = some (nodeNumbering limit linked.model group) ∧
      ∀ number id, (nodeNumbering limit linked.model group).find? number = some id →
        linked.model.HasNode id := by
  have numbered : (linked.model.diagramNodes group).mapM
      (fun id => (linked.model.node? id).map fun node => (node.id, id)) =
        some ((linked.model.diagramNodes group).map fun id => ((linked.model.node id).id, id)) :=
    mapM_eq_some fun id member => by simp [known.diagramNodes_known member]
  refine ⟨?_,fun number id found => ?_⟩
  · simp only [nodeNumbering?, known.diagramNodes?_eq inside, Option.bind_eq_bind, Option.bind_some,
      numbered]
    rfl
  · obtain ⟨_,listed⟩ := Numbering.mem_of_find?_ofList found
    obtain ⟨_,member,same⟩ := List.mem_map.mp (List.mem_filter.mp listed).1
    cases same
    exact known.diagramNodes_known member

theorem linkNodes?_eq (limit : UInt16) {group : GroupId} (inside : linked.model.HasGroup group) :
    linked.linkNodes? limit group = some (linked.linkNodes limit group) ∧
      Intact linked.model (linked.linkNodes limit group).model := by
  have paired := foldlM_eq_some (I := fun after : Linked => Intact linked.model after.model)
    (.refl known) pairFunctions? pairFunctions (linked.model.diagram group)
    fun after kept line member => by
      obtain ⟨passes,next⟩ := pairFunctions?_eq kept.known
        (kept.hasTimeline (known.diagram_known member))
      exact ⟨passes,kept.trans next⟩
  simp only [linkNodes?, linkNodes, diagram?_eq inside, Option.bind_eq_bind, Option.bind_some,
    paired.1]
  obtain ⟨_,kept⟩ := paired
  generalize (linked.model.diagram group).foldl pairFunctions linked = paired at kept ⊢
  obtain ⟨numbered,hits⟩ := nodeNumbering?_eq kept.known limit (kept.hasGroup inside)
  have delivered := foldlM_eq_some (I := fun after : Linked => Intact paired.model after.model)
    (.refl kept.known) (deliver? (nodeNumbering limit paired.model group))
    (deliver (nodeNumbering limit paired.model group)) (paired.model.diagramNodes group)
    fun after still node member => by
      obtain ⟨passes,next⟩ := deliver?_eq still.known
        (fun number id found => still.hasNode (hits number id found))
        (still.hasNode (kept.known.diagramNodes_known member))
      exact ⟨passes,still.trans next⟩
  simp only [numbered, kept.known.diagramNodes?_eq (kept.hasGroup inside), Option.bind_some]
  exact ⟨delivered.1,kept.trans delivered.2⟩

theorem linkGroup?_eq (limits : Limits) {group : GroupId} (inside : linked.model.HasGroup group) :
    linked.linkGroup? limits group = some (linked.linkGroup limits group) ∧
      Intact linked.model (linked.linkGroup limits group).model := by
  obtain ⟨stated,kept⟩ := linkStates?_eq known limits.state inside
  obtain ⟨passes,next⟩ := linkNodes?_eq kept.known limits.node (kept.hasGroup inside)
  refine ⟨?_,kept.trans next⟩
  simp only [linkGroup?, stated, Option.bind_eq_bind, Option.bind_some]
  exact passes

end Linked

/-- Linking a known graph reads and changes nothing but items that are there, and moves none. -/
theorem Model.Known.link?_eq {model : Model} (known : model.Known) (limits : Limits) :
    model.link? limits = some (model.link limits) ∧ Intact model (model.link limits).model :=
  foldlM_eq_some (I := fun after : Linked => Intact model after.model) (.refl known)
    (Linked.linkGroup? limits) (Linked.linkGroup limits) model.groupIds fun after kept group member => by
      obtain ⟨passes,next⟩ := Linked.linkGroup?_eq kept.known limits
        (kept.hasGroup (mem_groupIds_iff.mp member))
      exact ⟨passes,kept.trans next⟩

/-- Linking keeps a graph in shape, whatever the limits are. -/
theorem Model.WellFormed.link {model : Model} (wellFormed : model.WellFormed) (limits : Limits) :
    (model.link limits).model.WellFormed := by
  obtain ⟨known,unmoved⟩ := (wellFormed.toKnown.link?_eq limits).2
  exact wellFormed.unmoved unmoved known

end DocGraph
