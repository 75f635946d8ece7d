import DocGraph.Proofs.FileLoading
import DocGraph.Walk

/-! Following calls without a budget: `iterate` takes as many steps as it is told, whatever they lead to. The
outer walk keeps its bound here. -/
namespace DocGraph

namespace Walker

/-- Some steps of a walk: the nodes that were active, and what is active after them. -/
structure Run where
  walker : Walker
  nodes : List NodeId
  active : Option NodeId

/-- The next steps of a walk, or fewer when nothing follows. -/
def iterate (model : Model) : Nat → Walker → Option NodeId → Run
  | 0, walker, active => ⟨walker,[],active⟩
  | _ + 1, walker, none => ⟨walker,[],none⟩
  | count + 1, walker, some id =>
    let (walker,after) := advance model walker id
    let later := iterate model count walker after
    { later with nodes := id :: later.nodes }

/-- The walk first comes to its stop, or to nothing, after this many steps. -/
structure EndsAfter (model : Model) (stop : Option NodeId) (count : Nat) (walker : Walker)
    (node : NodeId) : Prop where
  taken : 0 < count
  ended : (iterate model count walker (some node)).active = stop ∨
    (iterate model count walker (some node)).active = none
  going : ∀ earlier, 0 < earlier → earlier < count →
    (iterate model earlier walker (some node)).active ≠ stop ∧
      (iterate model earlier walker (some node)).active ≠ none

instance (model : Model) (stop : Option NodeId) (count : Nat) (walker : Walker) (node : NodeId) :
    Decidable (EndsAfter model stop count walker node) :=
  decidable_of_iff (0 < count ∧ ((iterate model count walker (some node)).active = stop ∨
      (iterate model count walker (some node)).active = none) ∧
      ∀ earlier < count, 0 < earlier → (iterate model earlier walker (some node)).active ≠ stop ∧
        (iterate model earlier walker (some node)).active ≠ none)
    ⟨fun ⟨taken,ended,going⟩ => ⟨taken,ended,fun earlier some_ before => going earlier before some_⟩,
      fun ⟨taken,ended,going⟩ => ⟨taken,ended,fun earlier before some_ => going earlier some_ before⟩⟩

variable {model : Model} {walker : Walker}

theorem iterate_none (count : Nat) : iterate model count walker none = ⟨walker,[],none⟩ := by
  cases count <;> rfl

theorem iterate_step {next : Walker} {node : NodeId} {after : Option NodeId}
    (advanced : advance model walker node = (next,after)) (count : Nat) :
    iterate model (count + 1) walker (some node) =
      { iterate model count next after with
        nodes := node :: (iterate model count next after).nodes } := by
  rw [iterate]
  simp only [advanced]

theorem iterate_append (first second : Nat) (active : Option NodeId) :
    iterate model (first + second) walker active =
      let before := iterate model first walker active
      let after := iterate model second before.walker before.active
      { after with nodes := before.nodes ++ after.nodes } := by
  induction first generalizing walker active with
  | zero => rw [Nat.zero_add]; rfl
  | succ first ih =>
    cases active with
    | none => simp only [iterate_none, List.nil_append]
    | some id =>
      rw [Nat.succ_add]
      simp only [iterate, ih, List.cons_append]

variable {stop : Option NodeId} {count : Nat} {node : NodeId}

theorem EndsAfter.first (ends : EndsAfter model stop 1 walker node) :
    (advance model walker node).2 = stop ∨ (advance model walker node).2 = none := ends.ended

theorem EndsAfter.later (ends : EndsAfter model stop (count + 2) walker node) :
    ∃ next active, advance model walker node = (next,some active) ∧ some active ≠ stop ∧
      EndsAfter model stop (count + 1) next active := by
  obtain ⟨away,present⟩ := ends.going 1 Nat.one_pos (by omega)
  cases advanced : advance model walker node with
  | mk next after =>
    have steps (more : Nat) : (iterate model (more + 1) walker (some node)).active =
        (iterate model more next after).active := by
      simp only [iterate, advanced]
    rw [steps] at away present
    cases after with
    | none => exact absurd (congrArg Run.active (iterate_none 0)) present
    | some active =>
      refine ⟨next,active,rfl,away,Nat.succ_pos count,?_,?_⟩
      · rw [← steps]
        exact ends.ended
      · intro earlier positive before
        rw [← steps]
        exact ends.going (earlier + 1) (Nat.succ_pos _) (by omega)

theorem EndsAfter.length (ends : EndsAfter model stop count walker node) :
    (iterate model count walker (some node)).nodes.length = count := by
  induction count generalizing walker node with
  | zero => exact absurd ends.taken (Nat.lt_irrefl 0)
  | succ count ih =>
    cases count with
    | zero => rfl
    | succ count =>
      obtain ⟨next,active,advanced,_,rest⟩ := ends.later
      rw [iterate_step advanced, List.length_cons, ih rest]

variable {next : Walker} {after : Option NodeId} {active : NodeId}

theorem follow_stop (advanced : advance model walker node = (next,stop)) (budget : Nat) :
    follow model stop budget walker node = ⟨next,[node],false⟩ := by
  rw [follow]
  simp only [advanced, if_true]

theorem follow_cut (advanced : advance model walker node = (next,after)) (away : after ≠ stop) :
    follow model stop 0 walker node = ⟨next,[node],true⟩ := by
  rw [follow]
  simp only [advanced, if_neg away]

theorem follow_end (advanced : advance model walker node = (next,none)) (away : none ≠ stop)
    (budget : Nat) : follow model stop (budget + 1) walker node = ⟨next,[node],false⟩ := by
  rw [follow]
  simp only [advanced, if_neg away]

theorem follow_on (advanced : advance model walker node = (next,some active))
    (away : some active ≠ stop) (budget : Nat) :
    follow model stop (budget + 1) walker node =
      { follow model stop budget next active with
        nodes := node :: (follow model stop budget next active).nodes } := by
  rw [follow]
  simp only [advanced, if_neg away]

/-- Following a call takes the steps of the walk without a budget, as far as the budget allows. -/
theorem follow_ends (ends : EndsAfter model stop count walker node) (budget : Nat) :
    let trail := follow model stop budget walker node
    let whole := iterate model count walker (some node)
    trail.nodes = whole.nodes.take (budget + 1) ∧
      (count ≤ budget + 1 → trail.walker = whole.walker) ∧
      (trail.stopped = true ↔ budget + 1 < count ∨ budget + 1 = count ∧ whole.active ≠ stop) := by
  induction count generalizing budget walker node with
  | zero => exact absurd ends.taken (Nat.lt_irrefl 0)
  | succ count ih =>
    cases count with
    | zero =>
      have first := ends.first
      cases advanced : advance model walker node with
      | mk next after =>
        rw [advanced] at first
        by_cases away : after = stop
        · subst away
          simp [follow_stop advanced,iterate,advanced]
        · obtain rfl : after = none := first.resolve_left away
          -- Without a budget left, a walk counts as cut off even when nothing follows its node.
          cases budget with
          | zero => simp [follow_cut advanced away,iterate,advanced,away]
          | succ budget => simp [follow_end advanced away,iterate,advanced]
    | succ count =>
      obtain ⟨next,active,advanced,away,rest⟩ := ends.later
      cases budget with
      | zero => simp [follow_cut advanced away,iterate,advanced]
      | succ budget =>
        obtain ⟨nodes,same,stopped⟩ := ih rest budget
        rw [follow_on advanced away, iterate_step advanced (count + 1)]
        refine ⟨?_,?_,?_⟩
        · rw [List.take_succ_cons, nodes]
        · intro enough
          exact same (by omega)
        · have shift : budget + 1 + 1 = count + 2 ↔ budget + 1 = count + 1 := by omega
          rw [stopped, shift, ← Nat.succ_lt_succ_iff]

/-- A walk whose steps are known, up to its stop: it stops where its stop is first active. -/
theorem follow_nodes {tail : List NodeId} (budget : Nat)
    (steps : (iterate model (tail.length + 1) walker (some node)).nodes = node :: tail)
    (ended : (iterate model (tail.length + 1) walker (some node)).active = stop) :
    let trail := follow model stop budget walker node
    trail.nodes = (node :: tail.takeWhile (some · ≠ stop)).take (budget + 1) ∧
      (tail.length ≤ budget → trail.stopped = false) := by
  induction tail generalizing budget walker node with
  | nil =>
    have advanced : advance model walker node = ((advance model walker node).1,stop) :=
      Prod.ext rfl ended
    rw [follow_stop advanced]
    exact ⟨by simp,fun _ => rfl⟩
  | cons active rest ih =>
    cases advanced : advance model walker node with
    | mk next after =>
      simp only [List.length_cons, iterate, advanced, List.cons.injEq, true_and] at steps ended
      have here : after = some active := by
        cases after with
        | none => simp [iterate_none] at steps
        | some id =>
          simp only [iterate, List.cons.injEq] at steps
          rw [steps.1]
      subst here
      by_cases away : some active = stop
      · subst away
        rw [follow_stop advanced]
        simp
      · cases budget with
        | zero =>
          rw [follow_cut advanced away]
          simp
        | succ budget =>
          obtain ⟨nodes,stopped⟩ := ih budget steps ended
          rw [follow_on advanced away]
          refine ⟨?_,?_⟩
          · simp only [nodes]
            rw [List.takeWhile_cons_of_pos (by simpa using away)]
            rfl
          · intro enough
            exact stopped (by rw [List.length_cons] at enough; omega)

/-- Where an inner walk starts: what has been noted, the active node, and where the scan goes on. -/
structure Start where
  walker : Walker
  node : NodeId
  next : Option NodeId

def startsFrom (model : Model) (budget : Nat) : Nat → Walker → Option NodeId → List Start
  | _, _, none => []
  | 0, _, some _ => []
  | fuel + 1, walker, some cursor =>
    let scan := search model (some cursor)
    match scan.active with
    | none => startsFrom model budget fuel walker scan.next
    | some active =>
      let trail := follow model scan.next budget walker active
      ⟨walker,active,scan.next⟩ :: startsFrom model budget fuel trail.walker scan.next

/-- The inner walks that the walk of a timeline starts. -/
def starts (model : Model) (walker : Walker) (timeline : TimelineId) : List Start :=
  let line := model.timeline timeline
  startsFrom model (budget model line.group) line.nodes.size walker line.nodes[0]?

def trail (model : Model) (timeline : TimelineId) (start : Start) : Trail :=
  follow model start.next (budget model (model.timeline timeline).group) start.walker start.node

theorem walkFrom_steps (line : Timeline) (budget fuel : Nat) (cursor : Option NodeId) :
    (walkFrom model line budget fuel walker cursor).steps =
      (startsFrom model budget fuel walker cursor).flatMap fun start =>
        (follow model start.next budget start.walker start.node).nodes.map (step model) := by
  induction fuel generalizing walker cursor with
  | zero => cases cursor <;> rfl
  | succ fuel ih =>
    cases cursor with
    | none => rfl
    | some cursor =>
      simp only [walkFrom, startsFrom]
      cases (search model (some cursor)).active with
      | none => exact ih _
      | some active => rw [List.flatMap_cons, ← ih]

theorem walkTimeline_steps (walker : Walker) (timeline : TimelineId) :
    (walkTimeline model walker timeline).steps =
      (starts model walker timeline).flatMap fun start =>
        (trail model timeline start).nodes.map (step model) := walkFrom_steps ..

/-- An inner walk that would end without a budget takes all of its steps if there are no more than two over
the number of nodes, and as many as that otherwise. -/
theorem trail_ends {timeline : TimelineId} {start : Start}
    (ends : EndsAfter model start.next count start.walker start.node) :
    let limit := (model.diagramNodes (model.timeline timeline).group).length + 2
    let whole := iterate model count start.walker (some start.node)
    let trail := trail model timeline start
    trail.nodes = whole.nodes.take limit ∧
      (trail.nodes = whole.nodes ↔ count ≤ limit) ∧
      (count ≤ limit → trail.walker = whole.walker) ∧
      (trail.stopped = true ↔ limit < count ∨ limit = count ∧ whole.active ≠ start.next) := by
  obtain ⟨nodes,same,stopped⟩ :=
    follow_ends ends (budget model (model.timeline timeline).group)
  refine ⟨nodes,?_,same,stopped⟩
  have all := ends.length
  constructor
  · intro whole
    have cut := congrArg List.length nodes
    rw [← trail, whole, List.length_take, all] at cut
    exact cut ▸ Nat.min_le_left _ _
  · intro enough
    exact nodes.trans (List.take_of_length_le (by rw [all]; exact enough))

end Walker

/-- A node of a drawing: its number, and the number and the timeline of the node it sends to. -/
structure Stroke where
  id : UInt8
  flags : Flags
  sends : Option (UInt8 × UInt8) := none

def Stroke.records (stroke : Stroke) : List Record :=
  let sent := stroke.sends.map fun (receiver,line) =>
    Record.sentMessage ⟨stroke.id,receiver,⟨[line],false⟩,⟨[109],false⟩⟩
  .nodeStart stroke.id.toUInt16 stroke.flags.bits :: sent.toList ++ [.nodeEnd]

/-- A sequence section with a timeline for every letter. -/
def drawing (lines : List (UInt8 × List Stroke)) : List Record :=
  let timelines := lines.flatMap fun (letter,strokes) =>
    .timeline ⟨⟨[103],false⟩,⟨[letter],false⟩⟩ :: strokes.flatMap Stroke.records
  .sequenceStart ⟨[103],false⟩ :: timelines ++ [.sequenceEnd]

end DocGraph
