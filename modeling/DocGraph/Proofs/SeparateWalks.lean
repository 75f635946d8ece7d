import DocGraph.Proofs.NotedCalls
import Mathlib.Data.List.Induction

/-! Walks in one diagram and calls noted in another. No node is in two diagrams. -/
namespace DocGraph

namespace Walker

open Model

/-- Two walkers have noted the same about the nodes of a group. -/
def Agree (model : Model) (group : GroupId) (walker other : Walker) : Prop :=
  ∀ id ∈ model.diagramNodes group, walker.caller? id = other.caller? id

/-- Two walks show the same, and have noted the same about the nodes of a group. -/
structure Alike (model : Model) (group : GroupId) (walked other : Walked WalkStep) : Prop where
  steps : walked.steps = other.steps
  notices : walked.notices = other.notices
  agree : Agree model group walked.walker other.walker

variable {model : Model} {group : GroupId} {walker other : Walker} {id : NodeId}

theorem Agree.refl (walker : Walker) : Agree model group walker walker := fun _ _ => rfl

theorem Agree.trans {third : Walker} (before : Agree model group walker other)
    (after : Agree model group other third) : Agree model group walker third :=
  fun id member => (before id member).trans (after id member)

theorem Agree.record (agree : Agree model group walker other) (receiver sender : NodeId) :
    Agree model group (walker.record receiver sender) (other.record receiver sender) := by
  intro id member
  rw [caller?_record, caller?_record, agree id member]

variable (closed : model.Closed)

include closed

theorem advance_agree (agree : Agree model group walker other) (member : id ∈ model.diagramNodes group) :
    (advance model walker id).2 = (advance model other id).2 ∧
      Agree model group (advance model walker id).1 (advance model other id).1 := by
  rw [advance_eq_take, advance_eq_take]
  cases moves : turn model id with
  | call receiver => exact ⟨rfl,agree.record receiver id⟩
  | onward => exact ⟨rfl,agree⟩
  | back called otherwise =>
    have here := called_mem closed member moves
    simp only [Turn.take, agree called here, true_and]
    exact agree

theorem follow_agree (stop : Option NodeId) (budget : Nat) (truthful : walker.Truthful model)
    (agree : Agree model group walker other) (member : id ∈ model.diagramNodes group) :
    let trail := follow model stop budget walker id
    let trail' := follow model stop budget other id
    trail.nodes = trail'.nodes ∧ trail.stopped = trail'.stopped ∧
      Agree model group trail.walker trail'.walker := by
  induction budget generalizing walker other id with
  | zero =>
    obtain ⟨same,noted⟩ := advance_agree closed agree member
    rw [follow, follow]
    simp only [same]
    split
    · exact ⟨rfl,rfl,noted⟩
    · exact ⟨rfl,rfl,noted⟩
  | succ budget ih =>
    obtain ⟨same,noted⟩ := advance_agree closed agree member
    obtain ⟨notes,reached⟩ := advance_notes closed truthful member
    rw [same] at reached
    rw [follow, follow]
    simp only [same]
    split
    · exact ⟨rfl,rfl,noted⟩
    · cases after : (advance model other id).2 with
      | none => exact ⟨rfl,rfl,noted⟩
      | some active =>
        obtain ⟨nodes,stopped,later⟩ := ih notes.truthful noted (reached active after)
        exact ⟨congrArg (id :: ·) nodes,stopped,later⟩

theorem walkFrom_agree (budget fuel : Nat) (truthful : walker.Truthful model) {line : TimelineId}
    (agree : Agree model (model.timeline line).group walker other) {rest : List NodeId}
    (on : rest <:+ model.nodesOf line) :
    Alike model (model.timeline line).group
      (walkFrom model (model.timeline line) budget fuel walker rest.head?)
      (walkFrom model (model.timeline line) budget fuel other rest.head?) := by
  induction fuel generalizing walker other rest with
  | zero => cases rest <;> exact ⟨rfl,rfl,agree⟩
  | succ fuel ih =>
    cases rest with
    | nil => exact ⟨rfl,rfl,agree⟩
    | cons cursor rest =>
      obtain ⟨skipped,tail,divided,scan⟩ := search_lands closed on
      rw [List.head?_cons] at scan ⊢
      cases tail with
      | nil =>
        rw [walkFrom_idle scan, walkFrom_idle scan]
        exact ih truthful agree List.nil_suffix
      | cons active after =>
        rw [divided] at on
        have place := (List.suffix_append skipped (active :: after)).trans on
        have drawn := closed.mem_diagramNodes_of_nodesOf (place.subset List.mem_cons_self)
        obtain ⟨nodes,stopped,noted⟩ := follow_agree closed after.head? budget truthful agree drawn
        obtain ⟨notes,_⟩ := follow_notes closed after.head? budget truthful drawn
        have later := ih notes.truthful noted ((List.suffix_cons active after).trans place)
        rw [walkFrom_inner scan, walkFrom_inner scan]
        refine ⟨?_,?_,later.agree⟩
        · exact congrArg₂ (fun nodes later => List.map (step model) nodes ++ later) nodes later.steps
        · refine congrArg₂ (· ++ ·) ?_ later.notices
          rw [Trail.notices, Trail.notices, List.tail_cons, nodes, stopped]

theorem walkTimeline_agree (truthful : walker.Truthful model) (line : TimelineId)
    (agree : Agree model (model.timeline line).group walker other) :
    Alike model (model.timeline line).group (walkTimeline model walker line)
      (walkTimeline model other line) := by
  simp only [walkTimeline, walkLine, ← head?_nodesOf]
  exact walkFrom_agree closed _ _ truthful agree List.suffix_rfl

theorem Notes.agree {elsewhere : GroupId} (notes : Notes model elsewhere walker other)
    (apart : elsewhere ≠ group) : Agree model group other walker := by
  intro id member
  refine notes.others id fun member' => apart ?_
  exact (closed.mem_diagramNodes_iff.mp member').2.symm.trans (closed.mem_diagramNodes_iff.mp member).2

omit closed

/-- The request is not about a group, its timelines or their nodes, as far as it may note calls. -/
def Request.Apart (model : Model) (group : GroupId) : Request → Prop
  | .search _ | .caller _ | .reset => True
  | .advance id => id ∉ model.diagramNodes group
  | .timeline line => line ∉ model.diagram group
  | .diagram other | .emissions other => other ≠ group

instance (model : Model) (group : GroupId) : DecidablePred (Request.Apart model group)
  | .search _ | .caller _ | .reset => inferInstanceAs (Decidable True)
  | .advance id => inferInstanceAs (Decidable (id ∉ model.diagramNodes group))
  | .timeline line => inferInstanceAs (Decidable (line ∉ model.diagram group))
  | .diagram other | .emissions other => inferInstanceAs (Decidable (other ≠ group))

/-- Before such a request a walker forgets everything. -/
def Request.forgets : Request → Bool
  | .reset | .diagram _ | .emissions _ => true
  | .search _ | .caller _ | .advance _ | .timeline _ => false

/-- The requests of which a walker may still know something: those since it was new, or since the last one
before which it forgot everything, and this one. -/
def recent (requests : List Request) : List Request :=
  requests.foldl (fun known request => if request.forgets then [request] else known ++ [request]) []

theorem recent_concat (requests : List Request) (request : Request) :
    recent (requests ++ [request]) =
      if request.forgets then [request] else recent requests ++ [request] := by
  simp [recent]

theorem walkTimeline_outside {line : TimelineId} (outside : ¬model.HasTimeline line) (walker : Walker) :
    walkTimeline model walker line = ⟨walker,[],[]⟩ := by
  have missing : model.timeline line = default := getD_outside (Nat.le_of_not_lt outside)
  rw [walkTimeline, missing]
  rfl

include closed

theorem serve_agree (truthful : walker.Truthful model) {request : Request}
    (apart : request.Apart model group) :
    Agree model group (walker.serve model request) (if request.forgets then {} else walker) := by
  cases request with
  | search | caller | reset => exact .refl _
  | advance id =>
    by_cases inside : model.HasNode id
    · have member := closed.mem_diagramNodes_iff.mpr ⟨inside,rfl⟩
      refine (advance_notes closed truthful member).1.agree closed fun same => apart ?_
      rwa [← same]
    · rw [serve, advance_outside inside]
      exact .refl walker
  | timeline line =>
    by_cases inside : model.HasTimeline line
    · refine (walkTimeline_inside closed truthful line).notes.agree closed fun same => apart ?_
      exact closed.mem_diagram_iff.mpr ⟨inside,same⟩
    · rw [serve, walkTimeline_outside inside]
      exact .refl walker
  | diagram | emissions => exact (drawDiagram_inside closed walker _).notes.agree closed apart

theorem after_agree (requests : List Request)
    (apart : ∀ request ∈ recent requests, request.Apart model group) :
    Agree model group (after model requests) {} := by
  induction requests using List.reverseRecOn with
  | nil => exact .refl _
  | append_singleton requests request ih =>
    rw [recent_concat] at apart
    rw [after_concat]
    have truthful := after_truthful closed requests
    cases forgets : request.forgets with
    | true =>
      rw [forgets, if_pos rfl] at apart
      have served := serve_agree closed truthful (apart request List.mem_cons_self)
      rwa [forgets, if_pos rfl] at served
    | false =>
      rw [forgets, if_neg Bool.false_ne_true] at apart
      have served := serve_agree closed truthful (apart request (by simp))
      rw [forgets, if_neg Bool.false_ne_true] at served
      exact served.trans (ih fun earlier member => apart earlier (List.mem_append_left _ member))

end Walker

/-- Walks are separate. What has been asked of a walker makes no difference to the walk of a diagram, which
starts without noted calls, and none to the walk of a timeline if the requests since the walker last forgot
everything were about other groups. -/
theorem load_walks_separate {source : Source} {file : String} {loaded : Loaded}
    (found : (load source file).result = .ok loaded) (requests : List Walker.Request) :
    let model := loaded.model
    let walker := Walker.after model requests
    (∀ group, walker.drawDiagram model group = Walker.drawDiagram model {} group ∧
      walker.drawEmissions model group = Walker.drawEmissions model {} group) ∧
    ∀ group, ∀ line ∈ model.diagram group,
      (∀ request ∈ Walker.recent requests, request.Apart model group) →
      (Walker.walkTimeline model walker line).steps = (Walker.walkTimeline model {} line).steps ∧
        (Walker.walkTimeline model walker line).notices = (Walker.walkTimeline model {} line).notices := by
  intro model walker
  have closed : model.Closed := load_closed found
  refine ⟨fun group => ⟨rfl,rfl⟩,fun group line member apart => ?_⟩
  obtain ⟨_,own⟩ := closed.mem_diagram_iff.mp member
  have agree := Walker.after_agree closed requests apart
  rw [← own] at agree
  have alike := Walker.walkTimeline_agree closed (Walker.after_truthful closed requests) line agree
  exact ⟨alike.steps,alike.notices⟩

/-- Two groups with the same drawing. -/
def neighbours : List Record :=
  let drawn (group : UInt8) : List Record :=
    let line (letter : UInt8) : Record := .timeline ⟨⟨[group],false⟩,⟨[letter],false⟩⟩
    .sequenceStart ⟨[group],false⟩ ::
      line 65 :: Stroke.records ⟨1,.messageSend,some (2,66)⟩ ++
      line 66 :: Stroke.records ⟨2,.responds,none⟩ ++ [.sequenceEnd]
  drawn 103 ++ drawn 104

/-- A walker that has noted a call in one of the groups walks along the other like a new one. -/
theorem neighbours_separate :
    ∃ bytes loaded, Writer.file {} neighbours = .ok bytes ∧
      (load ⟨bytes,[]⟩ "model").result = .ok loaded ∧
      let model := loaded.model
      let walker := Walker.after model [.timeline ⟨0⟩,.reset,.timeline ⟨2⟩,.advance ⟨2⟩]
      walker.caller? ⟨3⟩ = some ⟨2⟩ ∧
        (Walker.walkTimeline model walker ⟨0⟩).steps = (Walker.walkTimeline model {} ⟨0⟩).steps := by
  obtain ⟨bytes,written⟩ : ∃ bytes, Writer.file {} neighbours = .ok bytes := ⟨_,rfl⟩
  have checked : (graphOf neighbours).any fun model =>
      let requests : List Walker.Request := [.timeline ⟨0⟩,.reset,.timeline ⟨2⟩,.advance ⟨2⟩]
      (Walker.after model requests).caller? ⟨3⟩ = some ⟨2⟩ ∧ ⟨0⟩ ∈ model.diagram ⟨1⟩ ∧
        ∀ request ∈ Walker.recent requests, request.Apart model ⟨1⟩ := by decide +kernel
  obtain ⟨loaded,found,holds⟩ := load_graphOf written checked "model"
  obtain ⟨noted,drawn,apart⟩ := of_decide_eq_true holds
  obtain ⟨_,separate⟩ := load_walks_separate found [.timeline ⟨0⟩,.reset,.timeline ⟨2⟩,.advance ⟨2⟩]
  exact ⟨bytes,loaded,written,found,noted,(separate ⟨1⟩ ⟨0⟩ drawn apart).1⟩

end DocGraph
