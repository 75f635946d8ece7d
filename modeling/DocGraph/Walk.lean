import DocGraph.Model.Basic
import DocGraph.Notice
import Std.Data.TreeMap

/-! The order in which the messages of a sequence diagram are drawn. A walk goes along a timeline;
at a message to another timeline it moves to the receiver and notes who called, and when the
receiver is done it goes on after the caller. A walk that does not come back is stopped once it has
taken more steps than the diagram has nodes. -/
namespace DocGraph

/-- Who called, by the position of the receiving node. -/
structure Walker where
  callers : Std.TreeMap Nat NodeId := {}

/-- Where a scan of a timeline goes on, and the sending node it found. -/
structure Scan where
  next : Option NodeId
  active : Option NodeId
  deriving DecidableEq, Repr

structure WalkStep where
  node : NodeId
  message : Option MessageId
  deriving DecidableEq, Repr

/-- A message that reaches a receiver. -/
structure Emission where
  message : MessageId
  sender : NodeId
  receiver : NodeId
  origin : TimelineId
  destination : TimelineId
  deriving DecidableEq, Repr

def Emission.line (model : Model) (emission : Emission) : String :=
  let origin := (model.timeline emission.origin).name.text
  let destination := (model.timeline emission.destination).name.text
  s!"{origin} -> {destination} : {(model.message emission.message).name.text}"

structure Walked (α : Type) where
  walker : Walker
  steps : List α
  notices : List Notice

namespace Walker

def caller? (walker : Walker) (node : NodeId) : Option NodeId := walker.callers[node.index]?

/-- Notes who called a node; an earlier caller is forgotten. -/
def record (walker : Walker) (receiver sender : NodeId) : Walker :=
  { callers := walker.callers.insert receiver.index sender }

/-- The noted calls in the order of the receiving nodes. -/
def calls (walker : Walker) : List (NodeId × NodeId) :=
  walker.callers.toList.map fun (receiver, sender) => (⟨receiver⟩, sender)

/-- Where a scan goes from a node that sends nothing of its own accord: a node that has been
accounted for skips the function it starts. -/
def skip (node : Node) : Option NodeId :=
  if node.flags.contains .responds && node.flags.contains .function then
    node.functionEnd.or node.next
  else node.next

/-- Scans at most `fuel` nodes for one that sends a message and has not been accounted for. -/
def searchWithin (model : Model) : Nat → Option NodeId → Scan
  | _, none => ⟨none, none⟩
  | 0, some _ => ⟨none, none⟩
  | fuel + 1, some id =>
    let node := model.node id
    if !node.flags.contains .responds && node.sent.isSome then ⟨node.next, some id⟩
    else searchWithin model fuel (skip node)

/-- Scans a timeline from a node on; no scan visits more nodes than there are. -/
def search (model : Model) (cursor : Option NodeId) : Scan :=
  searchWithin model model.nodes.size cursor

def callee? (model : Model) (node : Node) : Option NodeId := do
  let receiver ← (model.message (← node.sent)).receiver.target?
  if (model.node receiver).timeline = node.timeline then none else some receiver

def resume? (model : Model) (walker : Walker) (node : NodeId) : Option NodeId := do
  (model.node (← walker.caller? node)).next

def advance (model : Model) (walker : Walker) (id : NodeId) : Walker × Option NodeId :=
  let node := model.node id
  if node.sent.isSome then
    match callee? model node with
    | some receiver => (walker.record receiver id, some receiver)
    | none => (walker, node.next)
  else if node.flags.intersects (Flags.function.union .inFunction) then (walker, node.next)
  else if node.flags.contains .functionEnd then
    match node.functionStart.bind walker.caller? with
    | some sender => (walker, (model.node sender).next)
    | none => (walker, node.next)
  else (walker, resume? model walker id)

/-- The nodes that follow a call, and whether it was cut off. -/
structure Trail where
  walker : Walker
  nodes : List NodeId
  stopped : Bool

/-- Follows the calls from an active node until the walk is at `stop` or nothing follows. After
`budget` more steps the walk is cut off. -/
def follow (model : Model) (stop : Option NodeId) : Nat → Walker → NodeId → Trail
  | budget, walker, node =>
    let (walker, after) := advance model walker node
    if after = stop then ⟨walker, [node], false⟩
    else match budget with
      | 0 => ⟨walker, [node], true⟩
      | budget + 1 =>
        match after with
        | none => ⟨walker, [node], false⟩
        | some active =>
          let trail := follow model stop budget walker active
          { trail with nodes := node :: trail.nodes }
termination_by structural budget => budget

def step (model : Model) (node : NodeId) : WalkStep := ⟨node, (model.node node).sent⟩

/-- The number of steps that a call may take in the diagram of a group before it is cut off. -/
def budget (model : Model) (group : GroupId) : Nat := (model.diagramNodes group).length + 1

def walkFrom (model : Model) (line : Timeline) (budget : Nat) :
    Nat → Walker → Option NodeId → Walked WalkStep
  | _, walker, none => ⟨walker, [], []⟩
  | 0, walker, some _ => ⟨walker, [], []⟩
  | fuel + 1, walker, some cursor =>
    let scan := search model (some cursor)
    match scan.active with
    | none => walkFrom model line budget fuel walker scan.next
    | some active =>
      let trail := follow model scan.next budget walker active
      let later := walkFrom model line budget fuel trail.walker scan.next
      let notices :=
        if trail.stopped then [.walkStopped line.name.text trail.nodes.length] else []
      { walker := later.walker
        steps := trail.nodes.map (step model) ++ later.steps
        notices := notices ++ later.notices }

def walkLine (model : Model) (budget : Nat) (walker : Walker) (line : Timeline) : Walked WalkStep :=
  walkFrom model line budget line.nodes.size walker line.nodes[0]?

def walkTimeline (model : Model) (walker : Walker) (timeline : TimelineId) : Walked WalkStep :=
  let line := model.timeline timeline
  walkLine model (budget model line.group) walker line

/-- Walks timelines one after another, with the calls noted on the way. The budget of one group is
known, so that the nodes of its diagram are not counted for every timeline. -/
def walkTimelines (model : Model) (group : GroupId) (known : Nat) (walker : Walker) :
    List TimelineId → Walked WalkStep
  | [] => ⟨walker, [], []⟩
  | timeline :: rest =>
    let line := model.timeline timeline
    let limit := if line.group = group then known else budget model line.group
    let first := walkLine model limit walker line
    let later := walkTimelines model group known first.walker rest
    ⟨later.walker, first.steps ++ later.steps, first.notices ++ later.notices⟩

/-- Walks the diagram of a group. Calls noted by earlier walks play no part. -/
def walkDiagram (model : Model) (group : GroupId) : Walked WalkStep :=
  walkTimelines model group (budget model group) {} (model.diagram group)

def emission? (model : Model) (step : WalkStep) : Option Emission := do
  let id ← step.message
  let message := model.message id
  let receiver ← message.receiver.target?
  return ⟨id, step.node, receiver, message.sendingTimeline, (model.node receiver).timeline⟩

/-- The messages of a group's diagram that reach a receiver, in drawing order. -/
def emissions (model : Model) (group : GroupId) : Walked Emission :=
  let walked := walkDiagram model group
  { walked with steps := walked.steps.filterMap (emission? model) }

end Walker

end DocGraph
