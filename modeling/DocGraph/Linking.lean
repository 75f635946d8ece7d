import DocGraph.Model.Basic
import DocGraph.Notice

/-! Replacing the numbers of a file by references. Numbers are looked up within one group: a state
among the states of the group's machine, a node among the nodes of its diagram, the last one with
the number being found. Node number zero stands for no node. Function starts and ends are paired
along each timeline, without nesting. -/
namespace DocGraph

structure LinkReport where
  transitionsResolved : Nat := 0
  transitionsAbsent : Nat := 0
  messagesResolved : Nat := 0
  messagesAbsent : Nat := 0
  functionPairs : Nat := 0
  unpairedFunctionEnds : Nat := 0
  deriving DecidableEq, Repr

/-- Items by number, up to a limit. -/
structure Numbering (α : Type) where
  slots : Array (Option α)

namespace Numbering

def empty (limit : UInt16) : Numbering α := ⟨Array.replicate (limit.toNat + 1) none⟩

/-- Gives a number to an item; a number above the limit is not kept. -/
def assign (numbering : Numbering α) (id : UInt16) (item : α) : Numbering α :=
  ⟨numbering.slots.setIfInBounds id.toNat (some item)⟩

def ofList (limit : UInt16) (items : List (UInt16 × α)) : Numbering α :=
  items.foldl (fun numbering (id, item) => numbering.assign id item) (empty limit)

def find? (numbering : Numbering α) (id : UInt16) : Option α := numbering.slots[id.toNat]?.join

end Numbering

namespace Link

/-- Resolves a link that is not resolved yet. -/
def resolve (link : Link α) (numbering : Numbering α) : Link α :=
  match link with
  | unresolved id =>
    match numbering.find? id with
    | some target => .resolved target
    | none => .absent
  | link => link

def isUnresolved : Link α → Bool
  | unresolved _ => true
  | _ => false

def isResolved : Link α → Bool
  | resolved _ => true
  | _ => false

end Link

/-- A graph that is being linked, with what has been done so far. -/
structure Linked where
  model : Model
  report : LinkReport := {}
  notices : List Notice := []
  deriving DecidableEq, Repr

namespace Linked

def retarget (numbering : Numbering StateId) (linked : Linked) (state : StateId) : Linked :=
  let fresh := (linked.model.state state).transitions.toList.filter (·.target.isUnresolved)
  let resolved := fresh.countP (·.target.resolve numbering |>.isResolved)
  { linked with
    model := linked.model.modifyState state fun state =>
      { state with transitions := state.transitions.map fun transition =>
                    { transition with target := transition.target.resolve numbering } }
    report := { linked.report with
      transitionsResolved := linked.report.transitionsResolved + resolved
      transitionsAbsent := linked.report.transitionsAbsent + (fresh.length - resolved) } }

def linkStates (limit : UInt16) (linked : Linked) (group : GroupId) : Linked :=
  let states := ((linked.model.group group).states.getD #[]).toList
  let numbering := Numbering.ofList limit (states.map fun id => ((linked.model.state id).id, id))
  states.foldl (retarget numbering) linked

end Linked

/-- The functions of a timeline, as pairs of start and end, and the ends that have no start. -/
structure Pairing where
  pairs : List (NodeId × NodeId) := []
  unmatched : List NodeId := []
  deriving DecidableEq, Repr

namespace Pairing

/-- A start that is not ended before the next start is forgotten. -/
def ofNodes (model : Model) (opened : Option NodeId) : List NodeId → Pairing
  | [] => {}
  | node :: rest =>
    let flags := (model.node node).flags
    if flags.contains .function then ofNodes model (some node) rest
    else if flags.contains .functionEnd then
      let later := ofNodes model none rest
      match opened with
      | some start => { later with pairs := (start, node) :: later.pairs }
      | none => { later with unmatched := node :: later.unmatched }
    else ofNodes model opened rest

end Pairing

namespace Linked

def joinPair (model : Model) (pair : NodeId × NodeId) : Model :=
  (model.modifyNode pair.1 ({ · with functionEnd := some pair.2 })).modifyNode pair.2
    ({ · with functionStart := some pair.1 })

def pairFunctions (linked : Linked) (timeline : TimelineId) : Linked :=
  let line := linked.model.timeline timeline
  let pairing := Pairing.ofNodes linked.model none line.nodes.toList
  { model := pairing.pairs.foldl joinPair linked.model
    report := { linked.report with
      functionPairs := linked.report.functionPairs + pairing.pairs.length
      unpairedFunctionEnds := linked.report.unpairedFunctionEnds + pairing.unmatched.length }
    notices := linked.notices ++ pairing.unmatched.map fun node =>
      .unmatchedFunctionEnd line.name.text (linked.model.node node).id.toNat }

def deliverMessage (numbering : Numbering NodeId) (linked : Linked) (id : MessageId) : Linked :=
  let message := linked.model.message id
  match message.receiver with
  | .unresolved number =>
    match numbering.find? number with
    | some receiver =>
      let timeline := (linked.model.node receiver).timeline
      let model := linked.model.modifyNode receiver ({ · with received := some id })
      { linked with
        model := model.modifyMessage id fun message =>
          { message with receiver := .resolved receiver, targetTimeline := some timeline }
        report := { linked.report with
          messagesResolved := linked.report.messagesResolved + 1 } }
    | none =>
      { linked with
        model := linked.model.modifyMessage id ({ · with receiver := .absent })
        report := { linked.report with messagesAbsent := linked.report.messagesAbsent + 1 } }
  | _ => linked

/-- Resolves the receiver of the message that a node sends, if it sends one. -/
def deliver (numbering : Numbering NodeId) (linked : Linked) (node : NodeId) : Linked :=
  match (linked.model.node node).sent with
  | some id => linked.deliverMessage numbering id
  | none => linked

def nodeNumbering (limit : UInt16) (model : Model) (group : GroupId) : Numbering NodeId :=
  let numbered := (model.diagramNodes group).map fun node => ((model.node node).id, node)
  Numbering.ofList limit (numbered.filter (·.1 != 0))

def linkNodes (limit : UInt16) (linked : Linked) (group : GroupId) : Linked :=
  let paired := (linked.model.diagram group).foldl pairFunctions linked
  (paired.model.diagramNodes group).foldl (deliver (nodeNumbering limit paired.model group)) paired

def linkGroup (limits : Limits) (linked : Linked) (group : GroupId) : Linked :=
  (linked.linkStates limits.state group).linkNodes limits.node group

end Linked

/-- Links every group. A link that is resolved already is left alone. -/
def Model.link (model : Model) (limits : Limits) : Linked :=
  model.groupIds.foldl (Linked.linkGroup limits) { model }

end DocGraph
