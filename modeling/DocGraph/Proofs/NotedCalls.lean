import DocGraph.Proofs.TimelineScans

/-! Calls that walkers have noted, whatever was asked of them before. One caller is kept for a receiver, and
which one it is depends on the walks. -/
namespace DocGraph

namespace Walker

inductive Turn
  | call (receiver : NodeId)
  | onward
  /-- The walk goes on behind the caller of a node, or elsewhere when nobody has called it. -/
  | back (called : NodeId) (otherwise : Option NodeId)

def turn (model : Model) (id : NodeId) : Turn :=
  let node := model.node id
  if node.sent.isSome then
    match callee? model node with
    | some receiver => .call receiver
    | none => .onward
  else if node.flags.intersects (Flags.function.union .inFunction) then .onward
  else if node.flags.contains .functionEnd then
    match node.functionStart with
    | some start => .back start node.next
    | none => .onward
  else .back id none

def Turn.take (model : Model) (walker : Walker) (id : NodeId) : Turn → Walker × Option NodeId
  | .call receiver => (walker.record receiver id,some receiver)
  | .onward => (walker,(model.node id).next)
  | .back called otherwise =>
    (walker,match walker.caller? called with
      | some sender => (model.node sender).next
      | none => otherwise)

variable {model : Model} {walker : Walker} {id : NodeId}

theorem advance_eq_take : advance model walker id = (turn model id).take model walker id := by
  unfold advance turn
  dsimp only
  split
  · cases callee? model (model.node id) with
    | none => rfl
    | some receiver => rfl
  · split
    · rfl
    · split
      · cases (model.node id).functionStart with
        | none => rfl
        | some start =>
          simp only [Turn.take, Option.bind_some]
          cases walker.caller? start with
          | none => rfl
          | some sender => rfl
      · simp only [Turn.take, resume?, Option.bind_eq_bind]
        cases walker.caller? id with
        | none => rfl
        | some sender => rfl

theorem sends_of_turn {receiver : NodeId} (calls : turn model id = .call receiver) :
    model.Sends id receiver := by
  rw [Model.sends_iff]
  unfold turn at calls
  dsimp only at calls
  split at calls
  · split at calls
    · rename_i found
      cases calls
      exact found
    · cases calls
  · repeat' split at calls
    all_goals cases calls

/-- A walk goes back from a plain receiver, or from the end of a function to the call of its start. -/
theorem called_of_turn {called : NodeId} {otherwise : Option NodeId}
    (returns : turn model id = .back called otherwise) :
    called = id ∧ otherwise = none ∨
      (model.node id).functionStart = some called ∧ otherwise = (model.node id).next := by
  unfold turn at returns
  dsimp only at returns
  split at returns
  · split at returns
    · cases returns
    · cases returns
  · split at returns
    · cases returns
    · split at returns
      · split at returns
        · rename_i start tied
          cases returns
          exact .inr ⟨tied,rfl⟩
        · cases returns
      · cases returns
        exact .inl ⟨rfl,rfl⟩

/-- An inner walk ends with its first node, or follows on from the node that is active then. It is cut off
with its first node only when nothing is left of its budget. -/
theorem follow_cases (model : Model) (stop : Option NodeId) (budget : Nat) (walker : Walker)
    (id : NodeId) :
    (∃ stopped, (stopped = true → budget = 0) ∧
      follow model stop budget walker id = ⟨(advance model walker id).1,[id],stopped⟩) ∨
    ∃ fewer active, budget = fewer + 1 ∧ (advance model walker id).2 = some active ∧
      follow model stop budget walker id =
        { follow model stop fewer (advance model walker id).1 active with
          nodes := id :: (follow model stop fewer (advance model walker id).1 active).nodes } := by
  cases advanced : advance model walker id with
  | mk next after =>
    by_cases away : after = stop
    · subst away
      exact .inl ⟨false,nofun,follow_stop advanced budget⟩
    · cases budget with
      | zero => exact .inl ⟨true,fun _ => rfl,follow_cut advanced away⟩
      | succ fewer =>
        cases after with
        | none => exact .inl ⟨false,nofun,follow_end advanced away fewer⟩
        | some active => exact .inr ⟨fewer,active,rfl,rfl,follow_on advanced away fewer⟩

/-- The callers that have been noted do send to the nodes they are noted for. -/
def Truthful (model : Model) (walker : Walker) : Prop :=
  ∀ receiver, ∀ sender ∈ walker.caller? receiver, model.Sends sender receiver

/-- A walk in the diagram of a group notes real calls only, and none of another node. -/
structure Notes (model : Model) (group : GroupId) (before after : Walker) : Prop where
  truthful : after.Truthful model
  others : ∀ id, id ∉ model.diagramNodes group → after.caller? id = before.caller? id

theorem caller?_empty (id : NodeId) : ({} : Walker).caller? id = none := by simp [caller?]

theorem empty_truthful (model : Model) : Truthful model {} := by
  intro receiver sender called
  rw [caller?_empty] at called
  cases called

variable {group : GroupId} {first second third : Walker}

theorem Truthful.notes (truthful : walker.Truthful model) : Notes model group walker walker :=
  ⟨truthful,fun _ _ => rfl⟩

theorem Notes.trans (before : Notes model group first second) (after : Notes model group second third) :
    Notes model group first third where
  truthful := after.truthful
  others id outside := (after.others id outside).trans (before.others id outside)

theorem Truthful.record (truthful : walker.Truthful model) {sender receiver : NodeId}
    (sends : model.Sends sender receiver) : (walker.record receiver sender).Truthful model := by
  intro id other called
  rw [caller?_record] at called
  split at called
  · rename_i same
    cases called
    rwa [same]
  · exact truthful id other called

variable (closed : model.Closed)

include closed

theorem Truthful.caller_mem (truthful : walker.Truthful model) {called sender : NodeId}
    (member : called ∈ model.diagramNodes group) (noted : walker.caller? called = some sender) :
    sender ∈ model.diagramNodes group :=
  closed.sender_mem (truthful called sender noted) member

theorem called_mem {called : NodeId} {otherwise : Option NodeId}
    (member : id ∈ model.diagramNodes group) (returns : turn model id = .back called otherwise) :
    called ∈ model.diagramNodes group := by
  rcases called_of_turn returns with ⟨rfl,_⟩ | ⟨tied,_⟩
  · exact member
  · exact closed.functionStart_mem member tied

theorem advance_notes (truthful : walker.Truthful model) (member : id ∈ model.diagramNodes group) :
    Notes model group walker (advance model walker id).1 ∧
      ∀ after ∈ (advance model walker id).2, after ∈ model.diagramNodes group := by
  rw [advance_eq_take]
  cases moves : turn model id with
  | call receiver =>
    have sends := sends_of_turn moves
    have there := closed.sends_mem member sends
    refine ⟨⟨truthful.record sends,fun other outside => ?_⟩,?_⟩
    · rw [Turn.take, caller?_record, if_neg]
      rintro rfl
      exact outside there
    · rintro after ⟨⟩
      exact there
  | onward => exact ⟨truthful.notes,fun after next => closed.next_mem member next⟩
  | back called otherwise =>
    refine ⟨truthful.notes,fun after next => ?_⟩
    have here := called_mem closed member moves
    simp only [Turn.take] at next
    cases noted : walker.caller? called with
    | some sender =>
      rw [noted] at next
      exact closed.next_mem (truthful.caller_mem closed here noted) next
    | none =>
      rw [noted] at next
      rcases called_of_turn moves with ⟨_,rfl⟩ | ⟨_,rfl⟩
      · cases next
      · exact closed.next_mem member next

theorem follow_notes (stop : Option NodeId) (budget : Nat) (truthful : walker.Truthful model)
    (member : id ∈ model.diagramNodes group) :
    Notes model group walker (follow model stop budget walker id).walker ∧
      ∀ node ∈ (follow model stop budget walker id).nodes, node ∈ model.diagramNodes group := by
  induction budget generalizing walker id with
  | zero =>
    obtain ⟨notes,_⟩ := advance_notes closed truthful member
    rcases follow_cases model stop 0 walker id with ⟨stopped,_,trail⟩ | ⟨fewer,_,more,_⟩
    · rw [trail]
      exact ⟨notes,by simpa using member⟩
    · cases more
  | succ budget ih =>
    obtain ⟨notes,reached⟩ := advance_notes closed truthful member
    rcases follow_cases model stop (budget + 1) walker id with
      ⟨stopped,_,trail⟩ | ⟨fewer,active,more,after,trail⟩
    · rw [trail]
      exact ⟨notes,by simpa using member⟩
    · cases more
      obtain ⟨later,nodes⟩ := ih notes.truthful (reached active after)
      rw [trail]
      refine ⟨notes.trans later,fun node inside => ?_⟩
      rcases List.mem_cons.mp inside with rfl | inside
      · exact member
      · exact nodes node inside

/-- A walk that stays in the diagram of a group, and shows each node with the message that it sends. -/
structure Inside (model : Model) (group : GroupId) (before : Walker) (walked : Walked WalkStep) :
    Prop where
  notes : Notes model group before walked.walker
  steps : ∀ moved ∈ walked.steps, moved.node ∈ model.diagramNodes group ∧
    moved.message = (model.node moved.node).sent

/-- The inner walks of a timeline start on it, with a truthful walker, and stay in its diagram. -/
theorem Tour.inside {line : TimelineId} {budget : Nat} {cursor : Option NodeId} {cursors : List NodeId}
    {starts : List Start} {walked : Walked WalkStep}
    (tour : Tour model (model.timeline line) budget walker cursor cursors starts walked)
    (truthful : walker.Truthful model) {rest : List NodeId} (on : rest <:+ model.nodesOf line)
    (here : cursor = rest.head?) :
    Inside model (model.timeline line).group walker walked ∧
      ∀ start ∈ starts, start.walker.Truthful model ∧ start.node ∈ model.nodesOf line := by
  induction tour generalizing rest with
  | ended => exact ⟨⟨truthful.notes,nofun⟩,nofun⟩
  | idle scanned _ ih =>
    obtain ⟨rfl,_⟩ := scanned.ends closed on here
    exact ih truthful List.nil_suffix rfl
  | @inner walker cursor active next passed cursors starts walked scanned _ ih =>
    obtain ⟨skipped,after,rfl,rfl,_,_,_,place⟩ := scanned.finds closed on here
    have member := place.subset List.mem_cons_self
    obtain ⟨notes,nodes⟩ := follow_notes closed after.head? budget truthful
      (closed.mem_diagramNodes_of_nodesOf member)
    obtain ⟨later,starting⟩ := ih notes.truthful ((List.suffix_cons active after).trans place) rfl
    refine ⟨⟨notes.trans later.notes,fun moved inside => ?_⟩,fun start inside => ?_⟩
    · rcases List.mem_append.mp inside with first | rest
      · obtain ⟨node,there,rfl⟩ := List.mem_map.mp first
        exact ⟨nodes node there,rfl⟩
      · exact later.steps moved rest
    · rcases List.mem_cons.mp inside with rfl | inside
      · exact ⟨truthful,member⟩
      · exact starting start inside

theorem walkTimeline_inside (truthful : walker.Truthful model) (line : TimelineId) :
    Inside model (model.timeline line).group walker (walkTimeline model walker line) := by
  obtain ⟨_,tour,_⟩ := tour_walkTimeline closed walker line
  exact (tour.inside closed truthful List.suffix_rfl rfl).1

theorem starts_truthful (truthful : walker.Truthful model) {line : TimelineId} {start : Start}
    (member : start ∈ starts model walker line) :
    start.walker.Truthful model ∧ start.node ∈ model.nodesOf line := by
  obtain ⟨_,tour,_⟩ := tour_walkTimeline closed walker line
  exact (tour.inside closed truthful List.suffix_rfl rfl).2 start member

omit closed

theorem walkTimelines_cons (model : Model) (group : GroupId) (walker : Walker) (line : TimelineId)
    (rest : List TimelineId) :
    walkTimelines model group (budget model group) walker (line :: rest) =
      let first := walkTimeline model walker line
      let later := walkTimelines model group (budget model group) first.walker rest
      ⟨later.walker,first.steps ++ later.steps,first.notices ++ later.notices⟩ := by
  have known : (if (model.timeline line).group = group then budget model group
      else budget model (model.timeline line).group) = budget model (model.timeline line).group := by
    split
    · rename_i same
      rw [same]
    · rfl
  simp only [walkTimelines, known]
  rfl

include closed

theorem walkTimelines_inside (truthful : walker.Truthful model) {lines : List TimelineId}
    (drawn : ∀ line ∈ lines, line ∈ model.diagram group) :
    Inside model group walker (walkTimelines model group (budget model group) walker lines) := by
  induction lines generalizing walker with
  | nil => exact ⟨truthful.notes,nofun⟩
  | cons line rest ih =>
    have own := (closed.mem_diagram_iff.mp (drawn line List.mem_cons_self)).2
    have first := walkTimeline_inside closed truthful line
    rw [own] at first
    have later := ih first.notes.truthful fun other member => drawn other (List.mem_cons_of_mem _ member)
    rw [walkTimelines_cons]
    refine ⟨first.notes.trans later.notes,fun moved inside => ?_⟩
    rcases List.mem_append.mp inside with early | late
    · exact first.steps moved early
    · exact later.steps moved late

omit closed

def reset (_ : Walker) : Walker := {}

/-- Walks the diagram of a group with a walker that may have noted calls, which it forgets first. -/
def drawDiagram (model : Model) (walker : Walker) (group : GroupId) : Walked WalkStep :=
  walkTimelines model group (budget model group) walker.reset (model.diagram group)

/-- The messages of the diagram of a group that reach a receiver, with a walker in use. -/
def drawEmissions (model : Model) (walker : Walker) (group : GroupId) : Walked Emission :=
  let walked := walker.drawDiagram model group
  { walked with steps := walked.steps.filterMap (emission? model) }

/-- With a walker in use, a drawing is the one that the program asks a new walker for. -/
theorem drawDiagram_eq : walker.drawDiagram model group = walkDiagram model group := rfl

theorem drawEmissions_eq : walker.drawEmissions model group = emissions model group := rfl

inductive Request
  | search (cursor : Option NodeId)
  | caller (id : NodeId)
  | reset
  | advance (id : NodeId)
  | timeline (line : TimelineId)
  | diagram (group : GroupId)
  | emissions (group : GroupId)
  deriving DecidableEq, Repr

def serve (model : Model) (walker : Walker) : Request → Walker
  | .search _ | .caller _ => walker
  | .reset => walker.reset
  | .advance id => (advance model walker id).1
  | .timeline line => (walkTimeline model walker line).walker
  | .diagram group => (walker.drawDiagram model group).walker
  | .emissions group => (walker.drawEmissions model group).walker

/-- A walker that is new at first, after requests one after another. -/
def after (model : Model) (requests : List Request) : Walker := requests.foldl (serve model) {}

theorem after_concat (requests : List Request) (request : Request) :
    after model (requests ++ [request]) = (after model requests).serve model request := by
  simp [after]

theorem advance_outside (outside : ¬model.HasNode id) (walker : Walker) :
    (advance model walker id).1 = walker := by
  rw [advance_eq_take]
  cases moves : turn model id with
  | call receiver =>
    have sends := sends_of_turn moves
    exact absurd (Model.known_of_sent sends.choose_spec.1) outside
  | onward | back => rfl

include closed

theorem drawDiagram_inside (walker : Walker) (group : GroupId) :
    Inside model group {} (walker.drawDiagram model group) :=
  walkTimelines_inside closed (empty_truthful model) fun _ => id

theorem Truthful.serve (truthful : walker.Truthful model) (request : Request) :
    (walker.serve model request).Truthful model := by
  cases request with
  | search | caller => exact truthful
  | reset => exact empty_truthful model
  | advance id =>
    by_cases inside : model.HasNode id
    · have member := closed.mem_diagramNodes_iff.mpr ⟨inside,rfl⟩
      exact (advance_notes closed truthful member).1.truthful
    · rw [Walker.serve, advance_outside inside]
      exact truthful
  | timeline line => exact (walkTimeline_inside closed truthful line).notes.truthful
  | diagram group => exact (drawDiagram_inside closed walker group).notes.truthful
  | emissions group => exact (drawDiagram_inside closed walker group).notes.truthful

/-- Whatever is asked of a walker, the calls that it has noted are real. -/
theorem after_truthful (requests : List Request) : (after model requests).Truthful model :=
  List.foldlRecOn (motive := Truthful model) requests _ (empty_truthful model)
    fun _ truthful request _ => truthful.serve closed request

end Walker

end DocGraph
