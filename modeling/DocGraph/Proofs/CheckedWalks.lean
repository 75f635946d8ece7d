import DocGraph.Proofs.CheckedItems
import DocGraph.Proofs.NestedCalls

/-! Walks by operations that check every position. A walker that has walked along another graph may have noted
callers that this one does not have; only used walkers of the graph itself are covered. -/
namespace DocGraph

namespace Walker

def searchWithin? (model : Model) : Nat → Option NodeId → Option Scan
  | _, none => some ⟨none, none⟩
  | 0, some _ => some ⟨none, none⟩
  | fuel + 1, some id => do
    let node ← model.node? id
    if !node.flags.contains .responds && node.sent.isSome then return ⟨node.next, some id⟩
    else searchWithin? model fuel (skip node)

def search? (model : Model) (cursor : Option NodeId) : Option Scan :=
  searchWithin? model model.nodes.size cursor

def calleeOf? (model : Model) (node : Node) : Option (Option NodeId) :=
  match node.sent with
  | none => some none
  | some id => do
    match (← model.message? id).receiver.target? with
    | none => return none
    | some receiver =>
      if (← model.node? receiver).timeline = node.timeline then return none
      else return some receiver

/-- The node after a caller, if there is a caller. -/
def afterCaller? (model : Model) : Option NodeId → Option (Option NodeId)
  | none => some none
  | some sender => do return (← model.node? sender).next

def advance? (model : Model) (walker : Walker) (id : NodeId) :
    Option (Walker × Option NodeId) := do
  let node ← model.node? id
  if node.sent.isSome then
    match ← calleeOf? model node with
    | some receiver => return (walker.record receiver id, some receiver)
    | none => return (walker, node.next)
  else if node.flags.intersects (Flags.function.union .inFunction) then return (walker, node.next)
  else if node.flags.contains .functionEnd then
    match node.functionStart.bind walker.caller? with
    | some sender => return (walker, ← afterCaller? model (some sender))
    | none => return (walker, node.next)
  else return (walker, ← afterCaller? model (walker.caller? id))

def follow? (model : Model) (stop : Option NodeId) : Nat → Walker → NodeId → Option Trail
  | budget, walker, node => do
    let moved ← advance? model walker node
    if moved.2 = stop then return ⟨moved.1, [node], false⟩
    else match budget with
      | 0 => return ⟨moved.1, [node], true⟩
      | budget + 1 =>
        match moved.2 with
        | none => return ⟨moved.1, [node], false⟩
        | some active =>
          let trail ← follow? model stop budget moved.1 active
          return { trail with nodes := node :: trail.nodes }
termination_by structural budget => budget

def step? (model : Model) (node : NodeId) : Option WalkStep := do
  return ⟨node, (← model.node? node).sent⟩

def budget? (model : Model) (group : GroupId) : Option Nat := do
  return (← model.diagramNodes? group).length + 1

def walkFrom? (model : Model) (line : Timeline) (budget : Nat) :
    Nat → Walker → Option NodeId → Option (Walked WalkStep)
  | _, walker, none => some ⟨walker, [], []⟩
  | 0, walker, some _ => some ⟨walker, [], []⟩
  | fuel + 1, walker, some cursor => do
    let scan ← search? model (some cursor)
    match scan.active with
    | none => walkFrom? model line budget fuel walker scan.next
    | some active =>
      let trail ← follow? model scan.next budget walker active
      let steps ← trail.nodes.mapM (step? model)
      let later ← walkFrom? model line budget fuel trail.walker scan.next
      let notices :=
        if trail.stopped then [.walkStopped line.name.text trail.nodes.length] else []
      return {
        walker := later.walker
        steps := steps ++ later.steps
        notices := notices ++ later.notices }

def walkLine? (model : Model) (budget : Nat) (walker : Walker) (line : Timeline) :
    Option (Walked WalkStep) :=
  walkFrom? model line budget line.nodes.size walker line.nodes[0]?

def walkTimeline? (model : Model) (walker : Walker) (timeline : TimelineId) :
    Option (Walked WalkStep) := do
  let line ← model.timeline? timeline
  walkLine? model (← budget? model line.group) walker line

/-- The budget of a group, when the one of another group is known. -/
def limit? (model : Model) (group : GroupId) (known : Nat) (own : GroupId) : Option Nat :=
  if own = group then some known else budget? model own

def walkTimelines? (model : Model) (group : GroupId) (known : Nat) (walker : Walker) :
    List TimelineId → Option (Walked WalkStep)
  | [] => some ⟨walker, [], []⟩
  | timeline :: rest => do
    let line ← model.timeline? timeline
    let limit ← limit? model group known line.group
    let first ← walkLine? model limit walker line
    let later ← walkTimelines? model group known first.walker rest
    return ⟨later.walker, first.steps ++ later.steps, first.notices ++ later.notices⟩

def walkDiagram? (model : Model) (group : GroupId) : Option (Walked WalkStep) := do
  walkTimelines? model group (← budget? model group) {} (← model.diagram? group)

def emissionOf? (model : Model) (step : WalkStep) : Option (Option Emission) :=
  match step.message with
  | none => some none
  | some id => do
    let message ← model.message? id
    match message.receiver.target? with
    | none => return none
    | some receiver =>
      let timeline := (← model.node? receiver).timeline
      return some ⟨id, step.node, receiver, message.sendingTimeline, timeline⟩

def emissions? (model : Model) (group : GroupId) : Option (Walked Emission) := do
  let walked ← walkDiagram? model group
  let found ← walked.steps.mapM (emissionOf? model)
  return { walked with steps := found.filterMap id }

/-- The callers that a walker has noted are there. -/
def Known (model : Model) (walker : Walker) : Prop :=
  ∀ node, ∀ sender ∈ walker.caller? node, model.HasNode sender

/-- The messages that a walk comes to are there, and so are the callers that it has noted. -/
structure Reads (model : Model) (walked : Walked WalkStep) : Prop where
  walker : walked.walker.Known model
  messages : ∀ step ∈ walked.steps, ∀ id ∈ step.message, model.HasMessage id

variable {model : Model} (known : model.Known) {walker : Walker}

theorem empty_known (model : Model) : Known model {} := by
  intro node sender called
  have nobody : ({} : Walker).caller? node = none := by simp [caller?]
  rw [nobody] at called
  cases called

theorem Known.record (callers : walker.Known model) {receiver sender : NodeId}
    (inside : model.HasNode sender) : (walker.record receiver sender).Known model := by
  intro node other called
  rw [caller?_record] at called
  split at called
  · cases called
    exact inside
  · exact callers node other called

theorem afterCaller?_eq {sender : Option NodeId} (inside : ∀ id ∈ sender, model.HasNode id) :
    afterCaller? model sender = some (sender.bind fun id => (model.node id).next) := by
  cases sender with
  | none => rfl
  | some id => simp [afterCaller?,inside id rfl]

theorem skip_known {node : Node} (there : node.Known model) : ∀ id ∈ skip node, model.HasNode id := by
  intro id next
  unfold skip at next
  split at next
  · rcases Option.or_eq_some_iff.mp next with ends | ⟨_,follows⟩
    · exact there.functionEnd id ends
    · exact there.next id follows
  · exact there.next id next

include known

theorem afterCaller_known {sender : Option NodeId} (inside : ∀ id ∈ sender, model.HasNode id) :
    ∀ id ∈ sender.bind fun id => (model.node id).next, model.HasNode id := by
  intro id follows
  obtain ⟨before,here,next⟩ := Option.bind_eq_some_iff.mp follows
  exact (known.node (inside before here)).next id next

theorem searchWithin?_eq (fuel : Nat) {cursor : Option NodeId}
    (inside : ∀ id ∈ cursor, model.HasNode id) :
    searchWithin? model fuel cursor = some (searchWithin model fuel cursor) ∧
      (∀ id ∈ (searchWithin model fuel cursor).next, model.HasNode id) ∧
      ∀ id ∈ (searchWithin model fuel cursor).active, model.HasNode id := by
  induction fuel generalizing cursor with
  | zero => cases cursor <;> exact ⟨rfl,nofun,nofun⟩
  | succ fuel ih =>
    cases cursor with
    | none => exact ⟨rfl,nofun,nofun⟩
    | some id =>
      have there := known.node (inside id rfl)
      simp only [searchWithin?, searchWithin, Model.node?_eq (inside id rfl), Option.bind_eq_bind,
        Option.bind_some]
      split
      · refine ⟨rfl,there.next,?_⟩
        rintro _ ⟨⟩
        exact inside id rfl
      · exact ih (skip_known there)

theorem search?_eq {cursor : Option NodeId} (inside : ∀ id ∈ cursor, model.HasNode id) :
    search? model cursor = some (search model cursor) ∧
      (∀ id ∈ (search model cursor).next, model.HasNode id) ∧
      ∀ id ∈ (search model cursor).active, model.HasNode id :=
  searchWithin?_eq known model.nodes.size inside

theorem calleeOf?_eq {node : Node} (there : node.Known model) :
    calleeOf? model node = some (callee? model node) ∧
      ∀ id ∈ callee? model node, model.HasNode id := by
  unfold calleeOf? callee?
  cases sent : node.sent with
  | none => exact ⟨rfl,nofun⟩
  | some id =>
    have posted := there.sent id sent
    simp only [Model.message?_eq posted, Option.bind_eq_bind, Option.bind_some]
    cases arrived : (model.message id).receiver.target? with
    | none => exact ⟨rfl,nofun⟩
    | some receiver =>
      have reached := (known.message posted).receiver receiver arrived
      simp only [Model.node?_eq reached, Option.bind_some]
      split
      · exact ⟨rfl,nofun⟩
      · refine ⟨rfl,?_⟩
        rintro _ ⟨⟩
        exact reached

theorem advance?_eq (callers : walker.Known model) {id : NodeId} (inside : model.HasNode id) :
    advance? model walker id = some (advance model walker id) ∧
      (advance model walker id).1.Known model ∧
      ∀ next ∈ (advance model walker id).2, model.HasNode next := by
  have there := known.node inside
  obtain ⟨passes,reached⟩ := calleeOf?_eq known there
  simp only [advance?, advance, Model.node?_eq inside, Option.bind_eq_bind, Option.bind_some, passes]
  split
  · cases found : callee? model (model.node id) with
    | none => exact ⟨rfl,callers,there.next⟩
    | some receiver =>
      refine ⟨rfl,callers.record inside,?_⟩
      rintro _ ⟨⟩
      exact reached receiver found
  · split
    · exact ⟨rfl,callers,there.next⟩
    · split
      · cases called : (model.node id).functionStart.bind walker.caller? with
        | none => exact ⟨rfl,callers,there.next⟩
        | some sender =>
          obtain ⟨start,_,noted⟩ := Option.bind_eq_some_iff.mp called
          have caller : ∀ id ∈ some sender, model.HasNode id := by
            rintro _ ⟨⟩
            exact callers start sender noted
          simp only [afterCaller?_eq caller, Option.bind_some]
          exact ⟨rfl,callers,afterCaller_known known caller⟩
      · simp only [afterCaller?_eq (callers id), Option.bind_some]
        exact ⟨rfl,callers,afterCaller_known known (callers id)⟩

theorem follow?_eq (stop : Option NodeId) (budget : Nat) (callers : walker.Known model) {node : NodeId}
    (inside : model.HasNode node) :
    follow? model stop budget walker node = some (follow model stop budget walker node) ∧
      (follow model stop budget walker node).walker.Known model ∧
      ∀ id ∈ (follow model stop budget walker node).nodes, model.HasNode id := by
  have alone : ∀ id ∈ [node], model.HasNode id := by simpa using inside
  induction budget generalizing walker node with
  | zero =>
    obtain ⟨passes,next,_⟩ := advance?_eq known callers inside
    rw [follow?, follow]
    simp only [passes, Option.bind_eq_bind, Option.bind_some]
    split
    · exact ⟨rfl,next,alone⟩
    · exact ⟨rfl,next,alone⟩
  | succ budget ih =>
    obtain ⟨passes,next,reached⟩ := advance?_eq known callers inside
    rw [follow?, follow]
    simp only [passes, Option.bind_eq_bind, Option.bind_some]
    split
    · exact ⟨rfl,next,alone⟩
    · cases after : (advance model walker node).2 with
      | none => exact ⟨rfl,next,alone⟩
      | some active =>
        have there := reached active after
        obtain ⟨passes,later,nodes⟩ := ih next there (by simpa using there)
        simp only [passes, Option.bind_some]
        refine ⟨rfl,later,fun id member => ?_⟩
        rcases List.mem_cons.mp member with rfl | rest
        · exact inside
        · exact nodes id rest

theorem steps?_eq {nodes : List NodeId} (inside : ∀ node ∈ nodes, model.HasNode node) :
    nodes.mapM (step? model) = some (nodes.map (step model)) ∧
      ∀ moved ∈ nodes.map (step model), ∀ id ∈ moved.message, model.HasMessage id := by
  refine ⟨mapM_eq_some fun node member => ?_,fun moved member => ?_⟩
  · simp [step?,step,inside node member]
  · obtain ⟨node,here,rfl⟩ := List.mem_map.mp member
    exact (known.node (inside node here)).sent

theorem budget?_eq {group : GroupId} (inside : model.HasGroup group) :
    budget? model group = some (budget model group) := by
  simp [budget?,budget,known.diagramNodes?_eq inside]

theorem limit?_eq (group : GroupId) (budget : Nat) {own : GroupId} (inside : model.HasGroup own) :
    limit? model group budget own =
      some (if own = group then budget else Walker.budget model own) := by
  simp only [limit?, budget?_eq known inside]
  split
  · rfl
  · rfl

theorem walkFrom?_eq (line : Timeline) (budget fuel : Nat) (callers : walker.Known model)
    {cursor : Option NodeId} (inside : ∀ id ∈ cursor, model.HasNode id) :
    walkFrom? model line budget fuel walker cursor =
        some (walkFrom model line budget fuel walker cursor) ∧
      Reads model (walkFrom model line budget fuel walker cursor) := by
  induction fuel generalizing walker cursor with
  | zero => cases cursor <;> exact ⟨rfl,callers,nofun⟩
  | succ fuel ih =>
    cases cursor with
    | none => exact ⟨rfl,callers,nofun⟩
    | some cursor =>
      obtain ⟨searched,next,active⟩ := search?_eq known inside
      simp only [walkFrom?, walkFrom, searched, Option.bind_eq_bind, Option.bind_some]
      cases found : (search model (some cursor)).active with
      | none => exact ih callers next
      | some sender =>
        obtain ⟨followed,later,nodes⟩ := follow?_eq known (search model (some cursor)).next budget callers
          (active sender found)
        obtain ⟨stepped,read⟩ := steps?_eq known nodes
        obtain ⟨walked,rest⟩ := ih later next
        simp only [followed, stepped, walked, Option.bind_some]
        refine ⟨rfl,rest.walker,fun step member => ?_⟩
        rcases List.mem_append.mp member with first | second
        · exact read step first
        · exact rest.messages step second

theorem walkLine?_eq (budget : Nat) (callers : walker.Known model) {line : Timeline}
    (there : line.Known model) :
    walkLine? model budget walker line = some (walkLine model budget walker line) ∧
      Reads model (walkLine model budget walker line) :=
  walkFrom?_eq known line budget line.nodes.size callers fun id first =>
    there.nodes id (Array.mem_of_getElem? first)

theorem walkTimeline?_eq (callers : walker.Known model) {line : TimelineId}
    (inside : model.HasTimeline line) :
    walkTimeline? model walker line = some (walkTimeline model walker line) ∧
      Reads model (walkTimeline model walker line) := by
  have there := known.timeline inside
  simp only [walkTimeline?, walkTimeline, Model.timeline?_eq inside, budget?_eq known there.group,
    Option.bind_eq_bind, Option.bind_some]
  exact walkLine?_eq known _ callers there

theorem walkTimelines?_eq (group : GroupId) (budget : Nat) (callers : walker.Known model)
    {lines : List TimelineId} (inside : ∀ line ∈ lines, model.HasTimeline line) :
    walkTimelines? model group budget walker lines =
        some (walkTimelines model group budget walker lines) ∧
      Reads model (walkTimelines model group budget walker lines) := by
  induction lines generalizing walker with
  | nil => exact ⟨rfl,callers,nofun⟩
  | cons line lines ih =>
    have here := inside line List.mem_cons_self
    have there := known.timeline here
    have limited := limit?_eq known group budget there.group
    obtain ⟨first,read⟩ := walkLine?_eq known (if (model.timeline line).group = group then budget
      else Walker.budget model (model.timeline line).group) callers there
    obtain ⟨later,rest⟩ := ih read.walker fun other member =>
      inside other (List.mem_cons_of_mem _ member)
    simp only [walkTimelines?, walkTimelines, Model.timeline?_eq here, Option.bind_eq_bind,
      Option.bind_some, limited, first, later]
    refine ⟨rfl,rest.walker,fun step member => ?_⟩
    rcases List.mem_append.mp member with early | late
    · exact read.messages step early
    · exact rest.messages step late

theorem walkDiagram?_eq {group : GroupId} (inside : model.HasGroup group) :
    walkDiagram? model group = some (walkDiagram model group) ∧
      Reads model (walkDiagram model group) := by
  simp only [walkDiagram?, walkDiagram, budget?_eq known inside, Model.diagram?_eq inside,
    Option.bind_eq_bind, Option.bind_some]
  exact walkTimelines?_eq known group _ (empty_known model) fun line => known.diagram_known

theorem emissionOf?_eq {step : WalkStep} (read : ∀ id ∈ step.message, model.HasMessage id) :
    emissionOf? model step = some (emission? model step) := by
  unfold emissionOf? emission?
  cases sent : step.message with
  | none => rfl
  | some id =>
    have posted := read id sent
    simp only [Model.message?_eq posted, Option.bind_eq_bind, Option.bind_some]
    cases arrived : (model.message id).receiver.target? with
    | none => rfl
    | some receiver =>
      simp only [Model.node?_eq ((known.message posted).receiver receiver arrived), Option.bind_some]
      rfl

theorem emissions?_eq {group : GroupId} (inside : model.HasGroup group) :
    emissions? model group = some (emissions model group) := by
  obtain ⟨walked,reads⟩ := walkDiagram?_eq known inside
  have found : (walkDiagram model group).steps.mapM (emissionOf? model) =
      some ((walkDiagram model group).steps.map (emission? model)) :=
    mapM_eq_some fun step member => emissionOf?_eq known (reads.messages step member)
  simp only [emissions?, emissions, walked, found, Option.bind_eq_bind, Option.bind_some,
    List.filterMap_map]
  rfl

end Walker

/-- Walkers that have made walks along a graph, and nothing else. -/
inductive Walker.Used (model : Model) : Walker → Prop
  | new : Used model {}
  | advance {walker : Walker} {id : NodeId} (used : Used model walker) (inside : model.HasNode id) :
      Used model (walker.advance model id).1
  | timeline {walker : Walker} {line : TimelineId} (used : Used model walker)
      (inside : model.HasTimeline line) : Used model (walkTimeline model walker line).walker
  | diagram {group : GroupId} (inside : model.HasGroup group) :
      Used model (walkDiagram model group).walker

theorem Walker.Used.known {model : Model} (known : model.Known) {walker : Walker}
    (used : Used model walker) : walker.Known model := by
  induction used with
  | new => exact empty_known model
  | advance _ inside callers => exact (advance?_eq known callers inside).2.1
  | timeline _ inside callers => exact (walkTimeline?_eq known callers inside).2.walker
  | diagram inside => exact (walkDiagram?_eq known inside).2.walker

end DocGraph
