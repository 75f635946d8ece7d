import DocGraph.Proofs.ClosedDiagrams
import Mathlib.Data.List.Perm.Subperm
import Mathlib.Data.List.Sort

/-! Scans along a timeline, and the walk of it, as relations that carry no fuel. -/
namespace DocGraph

namespace Model

/-- The node sends a message, and has not been accounted for. -/
def Due (model : Model) (id : NodeId) : Prop :=
  (model.node id).flags.contains .responds = false ∧ (model.node id).sent.isSome = true

instance (model : Model) : DecidablePred model.Due := fun _ => inferInstanceAs (Decidable (_ ∧ _))

/-- The node is strictly between the start and the end of a function that has been accounted for. -/
def Covered (model : Model) (line : TimelineId) (id : NodeId) : Prop :=
  ∃ start ∈ model.nodesOf line, ∃ stop ∈ model.nodesOf line,
    (model.node start).flags.contains .responds = true ∧
      (model.node start).flags.contains .function = true ∧
      (model.node start).functionEnd = some stop ∧ [start,id,stop].Sublist (model.nodesOf line)

instance (model : Model) (line : TimelineId) : DecidablePred (model.Covered line) := fun id =>
  inferInstanceAs (Decidable (∃ start ∈ model.nodesOf line, ∃ stop ∈ model.nodesOf line,
    (model.node start).flags.contains .responds = true ∧
      (model.node start).flags.contains .function = true ∧
      (model.node start).functionEnd = some stop ∧ [start,id,stop].Sublist (model.nodesOf line)))

variable {model : Model} {line : TimelineId} {id : NodeId}

theorem head?_nodesOf (model : Model) (line : TimelineId) :
    (model.nodesOf line).head? = (model.timeline line).nodes[0]? := by
  rw [nodesOf, List.head?_eq_getElem?, Array.getElem?_toList]

theorem Lined.sublist (lined : model.Lined) {nodes : List NodeId}
    (up : nodes.Pairwise fun earlier later => earlier.index < later.index)
    (members : ∀ id ∈ nodes, id ∈ model.nodesOf line) : nodes.Sublist (model.nodesOf line) := by
  have distinct : nodes.Nodup :=
    up.imp fun {_ _} less same => absurd (congrArg NodeId.index same) (Nat.ne_of_lt less)
  exact List.sublist_of_subperm_of_pairwise (distinct.subperm members) up (lined.sorted line)

theorem Lined.covered_iff (lined : model.Lined) :
    model.Covered line id ↔ id ∈ model.nodesOf line ∧ ∃ start ∈ model.nodesOf line,
      ∃ stop ∈ model.nodesOf line, (model.node start).flags.contains .responds = true ∧
        (model.node start).flags.contains .function = true ∧
        (model.node start).functionEnd = some stop ∧ start.index < id.index ∧ id.index < stop.index := by
  constructor
  · rintro ⟨start,begins,stop,ends,responds,function,tied,order⟩
    have up := (lined.sorted line).sublist order
    simp only [List.pairwise_cons, List.mem_cons, List.not_mem_nil, or_false, forall_eq_or_imp,
      forall_eq] at up
    exact ⟨order.subset (by simp),start,begins,stop,ends,responds,function,tied,up.1.1,up.2.1⟩
  · rintro ⟨here,start,begins,stop,ends,responds,function,tied,above,below⟩
    refine ⟨start,begins,stop,ends,responds,function,tied,lined.sublist ?_ ?_⟩
    · simp only [List.pairwise_cons, List.mem_cons, List.not_mem_nil, or_false, forall_eq_or_imp,
        forall_eq]
      exact ⟨⟨above,by omega⟩,below,nofun,.nil⟩
    · simp only [List.mem_cons, List.not_mem_nil, or_false, forall_eq_or_imp, forall_eq]
      exact ⟨begins,here,ends⟩

theorem Lined.next_suffix (lined : model.Lined) {after : List NodeId}
    (on : id :: after <:+ model.nodesOf line) : (model.node id).next = after.head? := by
  obtain ⟨before,split⟩ := on
  exact lined.next_eq split.symm

theorem Lined.length_le (lined : model.Lined) (line : TimelineId) :
    (model.nodesOf line).length ≤ model.nodes.size := by
  have indices : ((model.nodesOf line).map NodeId.index).Nodup := by
    refine List.Nodup.map_on ?_ (lined.nodup line)
    exact fun _ _ _ _ => NodeId.index_injective
  have within : (model.nodesOf line).map NodeId.index ⊆ List.range model.nodes.size := by
    intro index member
    obtain ⟨id,inside,rfl⟩ := List.mem_map.mp member
    exact List.mem_range.mpr (lined.within line id inside)
  simpa using (indices.subperm within).length_le

end Model

namespace Walker

open Model

/-- Where a scan goes, without a bound: the nodes that it goes past, and what it finds. -/
inductive Scans (model : Model) : Option NodeId → List NodeId → Scan → Prop
  | ended : Scans model none [] ⟨none,none⟩
  | found {id : NodeId} (due : model.Due id) : Scans model (some id) [] ⟨(model.node id).next,some id⟩
  | past {id : NodeId} {passed : List NodeId} {scan : Scan} (settled : ¬model.Due id)
      (later : Scans model (skip (model.node id)) passed scan) : Scans model (some id) (id :: passed) scan

variable {model : Model} {line : TimelineId} {id : NodeId}

theorem searchWithin_due (due : model.Due id) (fuel : Nat) :
    searchWithin model (fuel + 1) (some id) = ⟨(model.node id).next,some id⟩ := by
  rw [searchWithin]
  simp [due.1,due.2]

theorem searchWithin_past (settled : ¬model.Due id) (fuel : Nat) :
    searchWithin model (fuel + 1) (some id) = searchWithin model fuel (skip (model.node id)) := by
  rw [searchWithin, if_neg]
  simpa [Due] using settled

variable (closed : model.Closed)

include closed

theorem skip_lands {after : List NodeId} (on : id :: after <:+ model.nodesOf line) :
    ∃ omitted tail, after = omitted ++ tail ∧ skip (model.node id) = tail.head? ∧
      (∀ other ∈ omitted, model.Covered line other) ∧ tail <:+ model.nodesOf line := by
  have next := closed.lined.next_suffix on
  have here := on.subset List.mem_cons_self
  have behind := (List.suffix_cons id after).trans on
  unfold skip
  split
  · rename_i settled
    rw [Bool.and_eq_true] at settled
    cases tied : (model.node id).functionEnd with
    | none => exact ⟨[],after,rfl,next,List.forall_mem_nil _,behind⟩
    | some stop =>
      obtain ⟨before,split⟩ := on
      obtain ⟨ends,later,_⟩ := closed.flat tied here
      obtain ⟨omitted,tail,rest⟩ := List.append_of_mem (closed.lined.mem_after split.symm ends later)
      have further : stop :: tail <:+ model.nodesOf line :=
        (rest ▸ List.suffix_append omitted (stop :: tail)).trans behind
      refine ⟨omitted,stop :: tail,rest,rfl,fun other member => closed.lined.covered_iff.mpr ?_,further⟩
      have back : model.nodesOf line = (before ++ id :: omitted) ++ stop :: tail := by simp [← split,rest]
      have inside : other ∈ after := by rw [rest]; exact List.mem_append_left _ member
      have above := (closed.lined.around split.symm).2 other inside
      have below := (closed.lined.around back).1 other (by simp [member])
      exact ⟨behind.subset inside,id,here,stop,ends,settled.1,settled.2,tied,above,below⟩
  · exact ⟨[],after,rfl,next,List.forall_mem_nil _,behind⟩

theorem skip_flat {after : NodeId} (member : id ∈ model.nodesOf line)
    (next : skip (model.node id) = some after) :
    id.index < after.index ∧ ∀ other ∈ model.nodesOf line, id.index < other.index →
      other.index < after.index → (model.node other).flags.contains .function = false := by
  have onward (next : (model.node id).next = some after) :
      id.index < after.index ∧ ∀ other ∈ model.nodesOf line, id.index < other.index →
        other.index < after.index → (model.node other).flags.contains .function = false := by
    obtain ⟨before,rest,split⟩ := List.append_of_mem member
    rw [closed.lined.next_eq split] at next
    obtain ⟨later,rfl⟩ := List.head?_eq_some_iff.mp next
    have back : model.nodesOf line = (before ++ [id]) ++ after :: later := by simp [split]
    refine ⟨(closed.lined.around split).2 after List.mem_cons_self,fun other inside above below => ?_⟩
    rcases List.mem_cons.mp (closed.lined.mem_after split inside above) with rfl | there
    · omega
    · have := (closed.lined.around back).2 other there
      omega
  unfold skip at next
  split at next
  · rcases Option.or_eq_some_iff.mp next with tied | ⟨_,next⟩
    · exact (closed.flat tied member).2
    · exact onward next
  · exact onward next

theorem skip_uncovered {after : NodeId} (member : id ∈ model.nodesOf line)
    (uncovered : ¬model.Covered line id) (next : skip (model.node id) = some after) :
    ¬model.Covered line after := by
  intro covered
  obtain ⟨_,start,begins,stop,ends,responds,function,tied,above,below⟩ :=
    closed.lined.covered_iff.mp covered
  obtain ⟨forward,flat⟩ := skip_flat closed member next
  -- The function that covers the later node starts before the earlier one, at it, or behind it.
  rcases Nat.lt_trichotomy start.index id.index with early | same | late
  · refine uncovered (closed.lined.covered_iff.mpr ⟨member,start,begins,stop,ends,responds,function,tied,?_⟩)
    omega
  · obtain rfl := NodeId.index_injective same
    rw [skip, responds, function, tied] at next
    cases next
    omega
  · rw [flat start begins late above] at function
    cases function

/-- The bound on a scan is never reached: a scan of a timeline ends by itself. -/
theorem scans_searchWithin (fuel : Nat) {rest : List NodeId} (on : rest <:+ model.nodesOf line)
    (enough : rest.length ≤ fuel) :
    ∃ passed, Scans model rest.head? passed (searchWithin model fuel rest.head?) := by
  induction fuel generalizing rest with
  | zero =>
    obtain rfl := List.eq_nil_of_length_eq_zero (Nat.le_zero.mp enough)
    exact ⟨[],.ended⟩
  | succ fuel ih =>
    cases rest with
    | nil => exact ⟨[],.ended⟩
    | cons id after =>
      rw [List.head?_cons]
      by_cases due : model.Due id
      · rw [searchWithin_due due]
        exact ⟨[],.found due⟩
      · obtain ⟨omitted,tail,rfl,lands,_,further⟩ := skip_lands closed on
        rw [List.length_cons, List.length_append] at enough
        obtain ⟨passed,later⟩ := ih further (by omega)
        rw [searchWithin_past due, lands]
        exact ⟨id :: passed,.past due (by rwa [lands])⟩

theorem scans_search {rest : List NodeId} (on : rest <:+ model.nodesOf line) :
    ∃ passed, Scans model rest.head? passed (search model rest.head?) :=
  scans_searchWithin closed model.nodes.size on
    (Nat.le_trans on.length_le (closed.lined.length_le line))

/-- A scan finds a node that is due further along the timeline, with the place behind it, or nothing.
The nodes before that are not due, or are covered. -/
theorem Scans.lands {cursor : Option NodeId} {passed : List NodeId} {scan : Scan}
    (scans : Scans model cursor passed scan) {rest : List NodeId} (on : rest <:+ model.nodesOf line)
    (here : cursor = rest.head?) :
    ∃ skipped tail, rest = skipped ++ tail ∧ passed.Sublist skipped ∧
      scan = ⟨tail.tail.head?,tail.head?⟩ ∧ (∀ id ∈ tail.head?, model.Due id) ∧
      (∀ id ∈ skipped, model.Due id → model.Covered line id) ∧
      ((∀ id ∈ cursor, ¬model.Covered line id) → ∀ id ∈ tail.head?, ¬model.Covered line id) := by
  induction scans generalizing rest with
  | ended =>
    obtain rfl := List.head?_eq_none_iff.mp here.symm
    exact ⟨[],[],rfl,.refl _,rfl,nofun,nofun,fun _ => nofun⟩
  | @found id due =>
    obtain ⟨after,rfl⟩ := List.head?_eq_some_iff.mp here.symm
    refine ⟨[],id :: after,rfl,.refl _,?_,?_,nofun,?_⟩
    · rw [closed.lined.next_suffix on]
      rfl
    · rintro _ ⟨⟩
      exact due
    · exact fun uncovered => uncovered
  | @past id passed scan settled _ ih =>
    obtain ⟨after,rfl⟩ := List.head?_eq_some_iff.mp here.symm
    have member := on.subset List.mem_cons_self
    obtain ⟨omitted,tail,rfl,lands,covered,further⟩ := skip_lands closed on
    obtain ⟨skipped,tail,rfl,went,found,due,left,open_⟩ := ih further lands
    refine ⟨id :: omitted ++ skipped,tail,by simp,?_,found,due,?_,?_⟩
    · exact (went.trans (List.sublist_append_right omitted skipped)).cons_cons id
    · intro other inside waits
      rcases List.mem_cons.mp inside with rfl | inside
      · exact absurd waits settled
      · rcases List.mem_append.mp inside with inside | inside
        · exact covered other inside
        · exact left other inside waits
    · intro uncovered
      exact open_ fun next goes => skip_uncovered closed member (uncovered id rfl) goes

theorem Scans.ends {cursor next : Option NodeId} {passed : List NodeId}
    (scans : Scans model cursor passed ⟨next,none⟩) {rest : List NodeId}
    (on : rest <:+ model.nodesOf line) (here : cursor = rest.head?) :
    next = none ∧ ∀ id ∈ rest, model.Due id → model.Covered line id := by
  obtain ⟨skipped,tail,rfl,_,scan,_,left,_⟩ := scans.lands closed on here
  cases tail with
  | nil =>
    cases scan
    exact ⟨rfl,by simpa using left⟩
  | cons active after => cases scan

theorem Scans.finds {cursor next : Option NodeId} {passed : List NodeId} {active : NodeId}
    (scans : Scans model cursor passed ⟨next,some active⟩) {rest : List NodeId}
    (on : rest <:+ model.nodesOf line) (here : cursor = rest.head?) :
    ∃ skipped after, rest = skipped ++ active :: after ∧ next = after.head? ∧ model.Due active ∧
      (∀ id ∈ skipped, model.Due id → model.Covered line id) ∧
      ((∀ id ∈ cursor, ¬model.Covered line id) → ¬model.Covered line active) ∧
      active :: after <:+ model.nodesOf line := by
  obtain ⟨skipped,tail,rfl,_,scan,due,left,open_⟩ := scans.lands closed on here
  cases tail with
  | nil => cases scan
  | cons active after =>
    cases scan
    have place := (List.suffix_append skipped (active :: after)).trans on
    exact ⟨skipped,after,rfl,rfl,due active rfl,left,fun free => open_ free active rfl,place⟩

theorem search_lands {rest : List NodeId} (on : rest <:+ model.nodesOf line) :
    ∃ skipped tail, rest = skipped ++ tail ∧
      search model rest.head? = ⟨tail.tail.head?,tail.head?⟩ := by
  obtain ⟨_,scans⟩ := scans_search closed on
  obtain ⟨skipped,tail,divided,_,scan,_⟩ := scans.lands closed on rfl
  exact ⟨skipped,tail,divided,scan⟩

omit closed

/-- What an inner walk leaves that was cut off. -/
def Trail.notices (line : Timeline) (trail : Trail) : List Notice :=
  if trail.stopped then [.walkStopped line.name.text trail.nodes.length] else []

/-- An inner walk and what comes after it. -/
def Trail.joined (model : Model) (line : Timeline) (trail : Trail) (later : Walked WalkStep) :
    Walked WalkStep where
  walker := later.walker
  steps := trail.nodes.map (step model) ++ later.steps
  notices := trail.notices line ++ later.notices

theorem walkFrom_idle {line : Timeline} {budget fuel : Nat} {walker : Walker} {cursor : NodeId}
    {next : Option NodeId} (scan : search model (some cursor) = ⟨next,none⟩) :
    walkFrom model line budget (fuel + 1) walker (some cursor) =
      walkFrom model line budget fuel walker next := by
  rw [walkFrom]
  simp only [scan]

theorem walkFrom_inner {line : Timeline} {budget fuel : Nat} {walker : Walker} {cursor active : NodeId}
    {next : Option NodeId} (scan : search model (some cursor) = ⟨next,some active⟩) :
    walkFrom model line budget (fuel + 1) walker (some cursor) =
      let trail := follow model next budget walker active
      trail.joined model line (walkFrom model line budget fuel trail.walker next) := by
  rw [walkFrom]
  simp only [scan]
  rfl

/-- The walk of a timeline, without a bound on its scans: the places that it scans on from, the inner walks
that it starts, and what it comes to. -/
inductive Tour (model : Model) (line : Timeline) (budget : Nat) :
    Walker → Option NodeId → List NodeId → List Start → Walked WalkStep → Prop
  | ended {walker : Walker} : Tour model line budget walker none [] [] ⟨walker,[],[]⟩
  | idle {walker : Walker} {cursor : NodeId} {next : Option NodeId} {passed cursors : List NodeId}
      {starts : List Start} {walked : Walked WalkStep}
      (scanned : Scans model (some cursor) passed ⟨next,none⟩)
      (later : Tour model line budget walker next cursors starts walked) :
      Tour model line budget walker (some cursor) (cursor :: cursors) starts walked
  | inner {walker : Walker} {cursor active : NodeId} {next : Option NodeId}
      {passed cursors : List NodeId} {starts : List Start} {walked : Walked WalkStep}
      (scanned : Scans model (some cursor) passed ⟨next,some active⟩)
      (later : Tour model line budget (follow model next budget walker active).walker next cursors starts
        walked) :
      Tour model line budget walker (some cursor) (cursor :: cursors) (⟨walker,active,next⟩ :: starts)
        ((follow model next budget walker active).joined model line walked)

theorem Tour.length_starts {line : Timeline} {budget : Nat} {walker : Walker} {cursor : Option NodeId}
    {cursors : List NodeId} {starts : List Start} {walked : Walked WalkStep}
    (tour : Tour model line budget walker cursor cursors starts walked) :
    starts.length ≤ cursors.length := by
  induction tour with
  | ended => exact Nat.le_refl 0
  | idle _ _ ih => exact Nat.le_succ_of_le ih
  | inner _ _ ih => exact Nat.succ_le_succ ih

include closed

/-- Each scan starts behind the node that the one before it found, so that no more than the nodes of the
timeline are needed. -/
theorem tour_walkFrom (budget fuel : Nat) (walker : Walker) {rest : List NodeId}
    (on : rest <:+ model.nodesOf line) (enough : rest.length ≤ fuel) :
    ∃ cursors, Tour model (model.timeline line) budget walker rest.head? cursors
        (startsFrom model budget fuel walker rest.head?)
        (walkFrom model (model.timeline line) budget fuel walker rest.head?) ∧
      cursors.Sublist rest := by
  induction fuel generalizing walker rest with
  | zero =>
    obtain rfl := List.eq_nil_of_length_eq_zero (Nat.le_zero.mp enough)
    exact ⟨[],.ended,.refl _⟩
  | succ fuel ih =>
    cases rest with
    | nil => exact ⟨[],.ended,.refl _⟩
    | cons cursor rest =>
      obtain ⟨passed,scanned⟩ := scans_search closed on
      obtain ⟨skipped,tail,divided,_,scan,_⟩ := scanned.lands closed on rfl
      rw [scan] at scanned
      rw [List.head?_cons] at scan scanned ⊢
      simp only [startsFrom, scan]
      cases tail with
      | nil =>
        obtain ⟨cursors,later,none_⟩ := ih walker List.nil_suffix (Nat.zero_le fuel)
        obtain rfl := List.sublist_nil.mp none_
        rw [walkFrom_idle scan]
        exact ⟨[cursor],.idle scanned later,List.singleton_sublist.mpr List.mem_cons_self⟩
      | cons active after =>
        have behind : after <:+ rest := by
          cases skipped with
          | nil =>
            cases divided
            exact List.suffix_rfl
          | cons _ skipped =>
            cases divided
            exact ⟨skipped ++ [active],by simp⟩
        have further := (behind.trans (List.suffix_cons cursor rest)).trans on
        obtain ⟨cursors,later,up⟩ := ih (follow model after.head? budget walker active).walker further
          (Nat.le_trans behind.length_le (Nat.le_of_succ_le_succ enough))
        rw [walkFrom_inner scan]
        exact ⟨cursor :: cursors,.inner scanned later,(up.trans behind.sublist).cons_cons cursor⟩

/-- The walk of a timeline ends by itself. -/
theorem tour_walkTimeline (walker : Walker) (line : TimelineId) :
    ∃ cursors, Tour model (model.timeline line) (budget model (model.timeline line).group) walker
        (model.nodesOf line).head? cursors (starts model walker line) (walkTimeline model walker line) ∧
      cursors.Sublist (model.nodesOf line) := by
  have first := head?_nodesOf model line
  obtain ⟨cursors,tour,up⟩ := tour_walkFrom closed (budget model (model.timeline line).group)
    (model.timeline line).nodes.size walker (List.suffix_refl (model.nodesOf line)) (Nat.le_refl _)
  rw [first] at tour
  exact ⟨cursors,first ▸ tour,up⟩

end Walker

end DocGraph
