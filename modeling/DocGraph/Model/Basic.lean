import DocGraph.Model.Application
import DocGraph.Model.Flags

/-! The graph of a model file. Groups, states, timelines, nodes and messages each live in an array
of their own, in the order they are added, and refer to each other by position. References that
come from the file by number start unresolved. The first group is the document itself; it has no
name until the file is loaded. -/
namespace DocGraph

/-- The largest numbers that a file gives to states and nodes. -/
structure Limits where
  state : UInt16 := 0
  node : UInt16 := 0
  deriving DecidableEq, Repr

structure GroupId where
  index : Nat
  deriving DecidableEq, Repr, Inhabited

structure StateId where
  index : Nat
  deriving DecidableEq, Repr, Inhabited

structure TimelineId where
  index : Nat
  deriving DecidableEq, Repr, Inhabited

structure NodeId where
  index : Nat
  deriving DecidableEq, Repr, Inhabited

structure MessageId where
  index : Nat
  deriving DecidableEq, Repr, Inhabited

/-- A reference by a number of the file. -/
inductive Link (α : Type)
  | unresolved (id : UInt16)
  | resolved (target : α)
  /-- The number belongs to nothing. -/
  | absent
  deriving DecidableEq, Repr

def Link.target? : Link α → Option α
  | .resolved target => some target
  | .unresolved _ | .absent => none

structure Trigger where
  group : GroupId
  name : Name
  deriving DecidableEq, Repr

structure Transition where
  target : Link StateId
  /-- What causes the transition. -/
  trigger : Option Trigger := none
  condition : Option Name := none
  /-- What the transition causes. -/
  triggers : Array Trigger := #[]
  deriving DecidableEq, Repr

def Transition.to (id : UInt16) : Transition := { target := .unresolved id }

structure State where
  name : Name
  group : GroupId
  /-- The number of the state in the file. -/
  id : UInt16
  transitions : Array Transition := #[]
  deriving DecidableEq, Repr, Inhabited

structure Timeline where
  name : Name
  group : GroupId
  nodes : Array NodeId := #[]
  deriving DecidableEq, Repr, Inhabited

structure Node where
  /-- The number of the node in the file. -/
  id : UInt16
  flags : Flags
  timeline : TimelineId
  sent : Option MessageId := none
  received : Option MessageId := none
  condition : Option Name := none
  /-- On a node that starts a function, the node that ends it. -/
  functionEnd : Option NodeId := none
  /-- On a node that ends a function, the node that starts it. -/
  functionStart : Option NodeId := none
  /-- The node after this one on its timeline. -/
  next : Option NodeId := none
  deriving DecidableEq, Repr, Inhabited

structure Message where
  name : Name
  sender : NodeId
  /-- The number of the sender in the file. -/
  senderId : UInt8
  sendingTimeline : TimelineId
  /-- The timeline that the file names as the destination. -/
  targetTimelineName : Name
  /-- The timeline of the receiver. -/
  targetTimeline : Option TimelineId := none
  receiver : Link NodeId
  deriving DecidableEq, Repr

instance : Inhabited Message where
  default :=
    { name := default, sender := default, senderId := 0, sendingTimeline := default,
      targetTimelineName := default, receiver := .absent }

structure Sample where
  name : Name
  payload : Name
  deriving DecidableEq, Repr

structure Group where
  name : Name
  /-- The states of the group's state machine, if it has one. -/
  states : Option (Array StateId) := none
  /-- The timelines of the group's sequence diagram, if it has one. -/
  timelines : Option (Array TimelineId) := none
  api : Option Api := none
  applications : Array Application := #[]
  samples : Array Sample := #[]
  /-- The length of the longest message name in the sequence diagram. -/
  messageWidth : Nat := 0
  deriving DecidableEq, Repr, Inhabited

structure Model where
  groups : Array Group := #[{ name := default }]
  states : Array State := #[]
  timelines : Array Timeline := #[]
  nodes : Array Node := #[]
  messages : Array Message := #[]
  deriving DecidableEq, Repr

/-- How a name selected a group. -/
inductive Selection
  /-- By the group's own name. -/
  | normal
  /-- `all`: the first group after the document. -/
  | all
  /-- `document`: the document itself. -/
  | document
  deriving DecidableEq, Repr

namespace Model

/-- The group of the document itself. -/
def root : GroupId := ⟨0⟩

def allName : Bytes := Bytes.ofText "all"
def documentName : Bytes := Bytes.ofText "document"

/-- The name that the document is given when nothing else has it. -/
def defaultName : Bytes := Bytes.ofText "default"

def group (model : Model) (id : GroupId) : Group := model.groups[id.index]?.getD default
def state (model : Model) (id : StateId) : State := model.states[id.index]?.getD default
def timeline (model : Model) (id : TimelineId) : Timeline := model.timelines[id.index]?.getD default
def node (model : Model) (id : NodeId) : Node := model.nodes[id.index]?.getD default
def message (model : Model) (id : MessageId) : Message := model.messages[id.index]?.getD default

def modifyGroup (model : Model) (id : GroupId) (change : Group → Group) : Model :=
  { model with groups := model.groups.modify id.index change }

def modifyState (model : Model) (id : StateId) (change : State → State) : Model :=
  { model with states := model.states.modify id.index change }

def modifyTimeline (model : Model) (id : TimelineId) (change : Timeline → Timeline) : Model :=
  { model with timelines := model.timelines.modify id.index change }

def modifyNode (model : Model) (id : NodeId) (change : Node → Node) : Model :=
  { model with nodes := model.nodes.modify id.index change }

def modifyMessage (model : Model) (id : MessageId) (change : Message → Message) : Model :=
  { model with messages := model.messages.modify id.index change }

def groupIds (model : Model) : List GroupId := (List.range model.groups.size).map GroupId.mk

/-- The group a name selects. Two names are reserved; any other must be a group's own. -/
def findGroup? (model : Model) (name : Bytes) : Option (GroupId × Selection) :=
  if name = allName then if 1 < model.groups.size then some (⟨1⟩, .all) else none
  else if name = documentName then some (root, .document)
  else (model.groups.findIdx? (·.name.bytes == name)).map fun index => (⟨index⟩, .normal)

def addGroup (model : Model) (name : Name) : Model × GroupId :=
  ({ model with groups := model.groups.push { name } }, ⟨model.groups.size⟩)

def findOrAddGroup (model : Model) (name : Name) : Model × GroupId :=
  match model.findGroup? name.bytes with
  | some (id, _) => (model, id)
  | none => model.addGroup name

def renameGroup (model : Model) (id : GroupId) (name : Name) : Model :=
  model.modifyGroup id ({ · with name })

/-- Adds a state to the group's state machine, which is created when there is none. -/
def addState (model : Model) (group : GroupId) (name : Name) (id : UInt16) : Model × StateId :=
  let added : StateId := ⟨model.states.size⟩
  let model := { model with states := model.states.push { name, group, id } }
  (model.modifyGroup group fun group =>
    { group with states := some ((group.states.getD #[]).push added) }, added)

def addTransition (model : Model) (state : StateId) (target : UInt16) : Model :=
  model.modifyState state fun state =>
    { state with transitions := state.transitions.push (.to target) }

/-- Adds a timeline to the group's sequence diagram, which is created when there is none. -/
def addTimeline (model : Model) (group : GroupId) (name : Name) : Model × TimelineId :=
  let added : TimelineId := ⟨model.timelines.size⟩
  let model := { model with timelines := model.timelines.push { name, group } }
  (model.modifyGroup group fun group =>
    { group with timelines := some ((group.timelines.getD #[]).push added) }, added)

def addNode (model : Model) (timeline : TimelineId) (id : UInt16) (flags : Flags) : Model × NodeId :=
  let added : NodeId := ⟨model.nodes.size⟩
  let last? := (model.timeline timeline).nodes.back?
  let model := { model with nodes := model.nodes.push { id, flags, timeline } }
  let model := match last? with
    | some last => model.modifyNode last ({ · with next := some added })
    | none => model
  (model.modifyTimeline timeline fun timeline =>
    { timeline with nodes := timeline.nodes.push added }, added)

/-- Adds a message sent by a node. A message that the node sent before stays in the model, but the
node no longer has it. -/
def addMessage (model : Model) (sender : NodeId) (senderId receiverId : UInt8)
    (targetTimelineName name : Name) : Model × MessageId :=
  let added : MessageId := ⟨model.messages.size⟩
  let sendingTimeline := (model.node sender).timeline
  let message : Message :=
    { name, sender, senderId, sendingTimeline, targetTimelineName,
      receiver := .unresolved receiverId.toUInt16 }
  let model := { model with messages := model.messages.push message }
  let model := model.modifyNode sender ({ · with sent := some added })
  (model.modifyGroup (model.timeline sendingTimeline).group fun group =>
    { group with messageWidth := max group.messageWidth name.length }, added)

def diagram (model : Model) (group : GroupId) : List TimelineId :=
  ((model.group group).timelines.getD #[]).toList

def diagramNodes (model : Model) (group : GroupId) : List NodeId :=
  (model.diagram group).flatMap fun timeline => (model.timeline timeline).nodes.toList

def messageIds (model : Model) : List MessageId := (List.range model.messages.size).map MessageId.mk

/-- Which messages some node has, by position. -/
def sentMarks (model : Model) : Array Bool :=
  model.nodes.foldl
    (fun marks node =>
      match node.sent with
      | some message => marks.setIfInBounds message.index true
      | none => marks)
    (Array.replicate model.messages.size false)

/-- The messages that some node has, in the order they were added. -/
def sentMessages (model : Model) : List MessageId :=
  let marks := model.sentMarks
  model.messageIds.filter fun id => marks[id.index]?.getD false

end Model

end DocGraph
