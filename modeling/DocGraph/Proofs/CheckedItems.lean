import DocGraph.Proofs.GraphShape

/-! Graph operations that check every position. The total ones read a blank item where there is none, and
change nothing there. -/
namespace DocGraph

theorem mapM_eq_some {checked : ι → Option α} {read : ι → α} {items : List ι}
    (each : ∀ item ∈ items, checked item = some (read item)) :
    items.mapM checked = some (items.map read) := by
  induction items with
  | nil => rfl
  | cons item items ih =>
    have rest := ih fun other member => each other (List.mem_cons_of_mem _ member)
    simp [List.mapM_cons,each item List.mem_cons_self,rest]

namespace Model

def group? (model : Model) (id : GroupId) : Option Group := model.groups[id.index]?
def state? (model : Model) (id : StateId) : Option State := model.states[id.index]?
def timeline? (model : Model) (id : TimelineId) : Option Timeline := model.timelines[id.index]?
def node? (model : Model) (id : NodeId) : Option Node := model.nodes[id.index]?
def message? (model : Model) (id : MessageId) : Option Message := model.messages[id.index]?

def modifyState? (model : Model) (id : StateId) (change : State → State) : Option Model := do
  let _ ← model.state? id
  return model.modifyState id change

def modifyNode? (model : Model) (id : NodeId) (change : Node → Node) : Option Model := do
  let _ ← model.node? id
  return model.modifyNode id change

def modifyMessage? (model : Model) (id : MessageId) (change : Message → Message) : Option Model := do
  let _ ← model.message? id
  return model.modifyMessage id change

def machine? (model : Model) (group : GroupId) : Option (List StateId) := do
  return ((← model.group? group).states.getD #[]).toList

def diagram? (model : Model) (group : GroupId) : Option (List TimelineId) := do
  return ((← model.group? group).timelines.getD #[]).toList

def nodesOf? (model : Model) (line : TimelineId) : Option (List NodeId) := do
  return (← model.timeline? line).nodes.toList

def diagramNodes? (model : Model) (group : GroupId) : Option (List NodeId) := do
  return (← (← model.diagram? group).mapM model.nodesOf?).flatten

variable {model : Model}

theorem getElem?_eq_some_getD [Inhabited α] {items : Array α} {index : Nat}
    (inside : index < items.size) : items[index]? = some (items[index]?.getD default) := by
  simp [inside]

@[simp] theorem group?_eq {id : GroupId} (inside : model.HasGroup id) :
    model.group? id = some (model.group id) := getElem?_eq_some_getD inside

@[simp] theorem state?_eq {id : StateId} (inside : model.HasState id) :
    model.state? id = some (model.state id) := getElem?_eq_some_getD inside

@[simp] theorem timeline?_eq {id : TimelineId} (inside : model.HasTimeline id) :
    model.timeline? id = some (model.timeline id) := getElem?_eq_some_getD inside

@[simp] theorem node?_eq {id : NodeId} (inside : model.HasNode id) :
    model.node? id = some (model.node id) := getElem?_eq_some_getD inside

@[simp] theorem message?_eq {id : MessageId} (inside : model.HasMessage id) :
    model.message? id = some (model.message id) := getElem?_eq_some_getD inside

theorem modifyState?_eq {id : StateId} (inside : model.HasState id) (change : State → State) :
    model.modifyState? id change = some (model.modifyState id change) := by
  simp [modifyState?,inside]

theorem modifyNode?_eq {id : NodeId} (inside : model.HasNode id) (change : Node → Node) :
    model.modifyNode? id change = some (model.modifyNode id change) := by
  simp [modifyNode?,inside]

theorem modifyMessage?_eq {id : MessageId} (inside : model.HasMessage id)
    (change : Message → Message) :
    model.modifyMessage? id change = some (model.modifyMessage id change) := by
  simp [modifyMessage?,inside]

theorem Known.machine_known (known : model.Known) {group : GroupId} {id : StateId}
    (member : id ∈ model.machine group) : model.HasState id := by
  have inside := mem_groupIds_iff.mp (mem_groupIds_of_machine member)
  exact (known.group inside).states id (Array.mem_toList_iff.mp member)

theorem Known.diagram_known (known : model.Known) {group : GroupId} {line : TimelineId}
    (member : line ∈ model.diagram group) : model.HasTimeline line :=
  (known.group (known_of_diagram member)).timelines line (Array.mem_toList_iff.mp member)

theorem Known.nodesOf_known (known : model.Known) {line : TimelineId} {id : NodeId}
    (member : id ∈ model.nodesOf line) : model.HasNode id :=
  (known.timeline (known_of_nodesOf member)).nodes id (Array.mem_toList_iff.mp member)

theorem Known.diagramNodes_known (known : model.Known) {group : GroupId} {id : NodeId}
    (member : id ∈ model.diagramNodes group) : model.HasNode id := by
  obtain ⟨line,_,inside⟩ := List.mem_flatMap.mp member
  exact known.nodesOf_known inside

theorem machine?_eq {group : GroupId} (inside : model.HasGroup group) :
    model.machine? group = some (model.machine group) := by
  simp [machine?,machine,inside]

theorem diagram?_eq {group : GroupId} (inside : model.HasGroup group) :
    model.diagram? group = some (model.diagram group) := by
  simp [diagram?,diagram,inside]

theorem nodesOf?_eq {line : TimelineId} (inside : model.HasTimeline line) :
    model.nodesOf? line = some (model.nodesOf line) := by
  simp [nodesOf?,nodesOf,inside]

theorem Known.diagramNodes?_eq (known : model.Known) {group : GroupId}
    (inside : model.HasGroup group) :
    model.diagramNodes? group = some (model.diagramNodes group) := by
  have nodes : (model.diagram group).mapM model.nodesOf? =
      some ((model.diagram group).map model.nodesOf) :=
    mapM_eq_some fun line member => nodesOf?_eq (known.diagram_known member)
  simp only [diagramNodes?, diagram?_eq inside, Option.bind_eq_bind, Option.bind_some, nodes]
  rfl

end Model

end DocGraph
