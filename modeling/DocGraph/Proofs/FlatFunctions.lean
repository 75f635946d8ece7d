import DocGraph.Proofs.ClosedDiagrams
import DocGraph.Proofs.PairedFunctions
import Mathlib.Data.Set.Card

/-! Linked functions in terms of the flags along a timeline. Functions do not nest: a start that meets another
start has no end. -/
namespace DocGraph

namespace Model

def Begins (model : Model) (id : NodeId) : Prop := (model.node id).flags.contains .function = true

/-- A node that could both start and end a function starts one. -/
def Ends (model : Model) (id : NodeId) : Prop :=
  (model.node id).flags.contains .functionEnd = true ∧ (model.node id).flags.contains .function = false

/-- A node that neither starts nor ends a function. -/
def Passes (model : Model) (id : NodeId) : Prop :=
  (model.node id).flags.contains .function = false ∧ (model.node id).flags.contains .functionEnd = false

instance (model : Model) (id : NodeId) : Decidable (model.Ends id) := inferInstanceAs (Decidable (_ ∧ _))

/-- A function stands in a list of nodes, from its start to its end. -/
def HasFunction (model : Model) (nodes : List NodeId) (first last : NodeId) : Prop :=
  ∃ before between after, nodes = before ++ first :: between ++ last :: after ∧
    model.Begins first ∧ model.Ends last ∧ ∀ id ∈ between, model.Passes id

/-- A function of some diagram goes from its start to its end. -/
def Spans (model : Model) (first last : NodeId) : Prop :=
  ∃ group, ∃ line ∈ model.diagram group, model.HasFunction (model.nodesOf line) first last

end Model

namespace Pairing

open Model

variable {model : Model} {opened : Option NodeId} {nodes : List NodeId}

theorem begins_of_mem {first last : NodeId}
    (member : (first,last) ∈ (ofNodes model opened nodes).pairs) :
    opened = some first ∨ model.Begins first := by
  induction nodes generalizing opened with
  | nil => cases member
  | cons node rest ih =>
    have absent : ¬((none : Option NodeId) = some first) := nofun
    rcases pairs_cons member with ⟨starts,later⟩ | ⟨_,⟨_,⟨here,_⟩ | later⟩ | ⟨_,later⟩⟩
    · rcases ih later with here | later
      · exact .inr (Option.some.inj here ▸ starts)
      · exact .inr later
    · exact .inl here
    · exact .inr ((ih later).resolve_left absent)
    · exact ih later

theorem ofNodes_begins {node : NodeId} (begins : model.Begins node) (rest : List NodeId) :
    ofNodes model opened (node :: rest) = ofNodes model (some node) rest := by
  rw [Begins] at begins
  rw [ofNodes, if_pos begins]

theorem ofNodes_ends {node start : NodeId} (ends : model.Ends node) (rest : List NodeId) :
    (ofNodes model (some start) (node :: rest)).pairs =
      (start,node) :: (ofNodes model none rest).pairs := by
  rw [ofNodes, if_neg (by simp [ends.2]), if_pos ends.1]

theorem ofNodes_passes {between : List NodeId} (passes : ∀ id ∈ between, model.Passes id)
    (rest : List NodeId) : ofNodes model opened (between ++ rest) = ofNodes model opened rest := by
  induction between with
  | nil => rfl
  | cons id between ih =>
    obtain ⟨plain,plain'⟩ := passes id List.mem_cons_self
    rw [List.cons_append, ofNodes, if_neg (by simp [plain]), if_neg (by simp [plain'])]
    exact ih fun other member => passes other (List.mem_cons_of_mem _ member)

theorem mem_pairs_append {rest : List NodeId} {pair : NodeId × NodeId}
    (paired : ∀ opened, pair ∈ (ofNodes model opened rest).pairs) (before : List NodeId) :
    pair ∈ (ofNodes model opened (before ++ rest)).pairs := by
  induction before generalizing opened with
  | nil => exact paired opened
  | cons node before ih =>
    rw [List.cons_append, ofNodes]
    split
    · exact ih
    · split
      · cases opened with
        | none => exact ih
        | some start => exact List.mem_cons_of_mem _ ih
      · exact ih

/-- The pairs of a timeline are its functions. -/
theorem mem_pairs_iff {first last : NodeId} :
    (first,last) ∈ (ofNodes model none nodes).pairs ↔ model.HasFunction nodes first last := by
  constructor
  · intro member
    obtain ⟨before,between,after,place,plain,passes⟩ := encloses_of_mem member
    have begins := (begins_of_mem member).resolve_left nofun
    have ends : model.Ends last := ⟨(mem_pairs member).2.2,plain⟩
    rcases place with ⟨absent,_⟩ | split
    · cases absent
    · exact ⟨before,between,after,split,begins,ends,passes⟩
  · rintro ⟨before,between,after,rfl,begins,ends,passes⟩
    rw [List.append_assoc]
    refine mem_pairs_append (fun opened => ?_) before
    rw [List.cons_append, ofNodes_begins begins, ofNodes_passes passes, ofNodes_ends ends]
    exact List.mem_cons_self

theorem nodup_pairs (once : nodes.Nodup) : (ofNodes model none nodes).pairs.Nodup := by
  have closed : ∀ start, (none : Option NodeId) = some start → start ∉ nodes := by
    rintro _ ⟨⟩
  exact (pairs_apart once closed).imp fun {_ _} apart same => apart.1 (congrArg Prod.fst same)

/-- Every end of a list is the end of a pair or is left, and is counted once. -/
theorem ends_perm (model : Model) (opened : Option NodeId) (nodes : List NodeId) :
    ((ofNodes model opened nodes).pairs.map Prod.snd ++ (ofNodes model opened nodes).unmatched).Perm
      (nodes.filter (model.Ends ·)) := by
  induction nodes generalizing opened with
  | nil => exact .refl _
  | cons node rest ih =>
    rw [ofNodes]
    split
    · rename_i starts
      rw [List.filter_cons_of_neg (by simp [Ends,starts])]
      exact ih _
    · rename_i plain
      split
      · rename_i ends
        rw [List.filter_cons_of_pos (by simp [Ends,plain,ends])]
        cases opened with
        | none => exact List.perm_middle.trans ((ih none).cons node)
        | some start => exact (ih none).cons node
      · rename_i plain'
        rw [List.filter_cons_of_neg (by simp [Ends,plain'])]
        exact ih _

theorem mem_unmatched_iff (once : nodes.Nodup) {id : NodeId} :
    id ∈ (ofNodes model none nodes).unmatched ↔
      id ∈ nodes ∧ model.Ends id ∧ ∀ first, ¬model.HasFunction nodes first id := by
  have perm := ends_perm model none nodes
  have apart := (List.nodup_append.mp (perm.nodup_iff.mpr (once.filter _))).2.2
  have listed : (id ∈ (ofNodes model none nodes).pairs.map Prod.snd ∨
      id ∈ (ofNodes model none nodes).unmatched) ↔ id ∈ nodes ∧ model.Ends id := by
    rw [← List.mem_append, perm.mem_iff, List.mem_filter, decide_eq_true_iff]
  have paired : id ∈ (ofNodes model none nodes).pairs.map Prod.snd ↔
      ∃ first, model.HasFunction nodes first id := by
    simp only [List.mem_map, Prod.exists, exists_eq_right, mem_pairs_iff]
  rw [← and_assoc, ← listed, ← not_exists, ← paired]
  constructor
  · exact fun left => ⟨.inr left,fun pair => apart id pair id left rfl⟩
  · rintro ⟨pair | left,alone⟩
    · exact absurd pair alone
    · exact left

theorem nodup_unmatched (once : nodes.Nodup) : (ofNodes model none nodes).unmatched.Nodup :=
  (List.nodup_append.mp ((ends_perm model none nodes).nodup_iff.mpr (once.filter _))).2.1

end Pairing

namespace Model

variable {model before after : Model}

theorem HasFunction.members {nodes : List NodeId} {first last : NodeId}
    (function : model.HasFunction nodes first last) : first ∈ nodes ∧ last ∈ nodes := by
  obtain ⟨before,between,after,rfl,_⟩ := function
  exact ⟨by simp,by simp⟩

theorem HasFunction.begins {nodes : List NodeId} {first last : NodeId}
    (function : model.HasFunction nodes first last) : model.Begins first := by
  obtain ⟨_,_,_,_,begins,_⟩ := function
  exact begins

theorem mem_lines_iff {line : TimelineId} : line ∈ model.lines ↔ ∃ group, line ∈ model.diagram group := by
  constructor
  · intro member
    obtain ⟨group,_,drawn⟩ := List.mem_flatMap.mp member
    exact ⟨group,drawn⟩
  · rintro ⟨group,drawn⟩
    exact List.mem_flatMap.mpr ⟨group,mem_groupIds_iff.mpr (known_of_diagram drawn),drawn⟩

theorem mem_drawnNodes_iff {id : NodeId} :
    id ∈ model.drawnNodes ↔ ∃ line ∈ model.lines, id ∈ model.nodesOf line := by
  have split : model.drawnNodes = model.lines.flatMap model.nodesOf := List.flatMap_assoc.symm
  rw [split, List.mem_flatMap]

theorem spans_iff {first last : NodeId} :
    model.Spans first last ↔ ∃ line ∈ model.lines, (first,last) ∈ (model.pairing line).pairs := by
  simp only [Spans, mem_lines_iff, pairing, Pairing.mem_pairs_iff]
  constructor
  · rintro ⟨group,line,drawn,function⟩
    exact ⟨line,⟨group,drawn⟩,function⟩
  · rintro ⟨line,⟨group,drawn⟩,function⟩
    exact ⟨group,line,drawn,function⟩

theorem WellFormed.mem_lines (wellFormed : model.WellFormed) {line : TimelineId} {id : NodeId}
    (member : id ∈ model.nodesOf line) : line ∈ model.lines :=
  wellFormed.diagrams.once.mem_iff.mpr (mem_timelineIds_iff.mpr (known_of_nodesOf member))

theorem WellFormed.joined_iff (wellFormed : model.WellFormed) {first last : NodeId} :
    model.Joined first last ↔ model.Spans first last := by
  rw [spans_iff]
  constructor
  · rintro ⟨line,member⟩
    exact ⟨line,wellFormed.mem_lines (Joined.members member).1,member⟩
  · rintro ⟨line,_,member⟩
    exact ⟨line,member⟩

theorem WellFormed.nodup_gathered (wellFormed : model.WellFormed) {items : TimelineId → List ι}
    (once : ∀ line, (items line).Nodup) (place : ι → NodeId)
    (inside : ∀ line, ∀ item ∈ items line, place item ∈ model.nodesOf line) :
    (model.lines.flatMap items).Nodup := by
  have apart : model.lines.Nodup := wellFormed.diagrams.once.nodup_iff.mpr model.nodup_timelineIds
  refine List.nodup_flatMap.mpr ⟨fun line _ => once line,apart.imp ?_⟩
  intro line other away item member member'
  have here := wellFormed.lines.own line _ (inside line item member)
  have there := wellFormed.lines.own other _ (inside other item member')
  exact away (here.symm.trans there)

theorem WellFormed.mem_unmatched_iff (wellFormed : model.WellFormed) (lined : model.Lined) {id : NodeId} :
    id ∈ model.lines.flatMap (fun line => (model.pairing line).unmatched) ↔
      id ∈ model.drawnNodes ∧ model.Ends id ∧
        ∀ other, ¬model.Spans other id ∧ ¬model.Spans id other := by
  simp only [List.mem_flatMap, pairing, Pairing.mem_unmatched_iff (lined.nodup _), mem_drawnNodes_iff]
  constructor
  · rintro ⟨line,drawn,member,ends,alone⟩
    refine ⟨⟨line,drawn,member⟩,ends,fun other => ⟨?_,?_⟩⟩
    · rintro ⟨group,line',_,function⟩
      have here := wellFormed.lines.own line id member
      have there := wellFormed.lines.own line' id function.members.2
      obtain rfl : line = line' := here.symm.trans there
      exact alone other function
    · rintro ⟨group,line',_,function⟩
      exact absurd function.begins (by simp [Begins,ends.2])
  · rintro ⟨⟨line,drawn,member⟩,ends,alone⟩
    refine ⟨line,drawn,member,ends,fun first function => (alone first).1 ?_⟩
    exact spans_iff.mpr ⟨line,drawn,Pairing.mem_pairs_iff.mpr function⟩

theorem Settled.spans (settled : Settled before after)
    (diagram : ∀ group, after.diagram group = before.diagram group) {first last : NodeId} :
    after.Spans first last ↔ before.Spans first last := by
  simp only [Spans, HasFunction, Begins, Ends, Passes, settled.flags, settled.nodesOf, diagram]

end Model

theorem encard_of_nodup [DecidableEq α] {P : α → Prop} {items : List α} (once : items.Nodup)
    (listed : ∀ item, item ∈ items ↔ P item) : {item | P item}.encard = items.length := by
  have same : {item | P item} = (items.toFinset : Set α) := by
    ext item
    simp [listed]
  rw [same, Set.encard_coe_eq_coe_finsetCard, List.toFinset_card_of_nodup once]

/-- Functions are paired flatly and mutually. A node leads to the end of its function, and the end back to
it, exactly when the function spans the nodes from the one to the other along a timeline of a diagram, and the
report counts these functions, and the ends that are in none of them. -/
theorem Builder.Reachable.link_functions {builder : Builder} (reachable : builder.Reachable)
    (limits : Limits) :
    let model := builder.model
    let linked := model.link limits
    (∀ first last, (linked.model.node first).functionEnd = some last ↔ linked.model.Spans first last) ∧
    (∀ first last, (linked.model.node last).functionStart = some first ↔
      linked.model.Spans first last) ∧
    (∀ first last, linked.model.Spans first last ↔ model.Spans first last) ∧
    {pair : NodeId × NodeId | model.Spans pair.1 pair.2}.encard = linked.report.functionPairs ∧
    {id | id ∈ model.drawnNodes ∧ model.Ends id ∧
      ∀ other, ¬model.Spans other id ∧ ¬model.Spans id other}.encard =
        linked.report.unpairedFunctionEnds := by
  intro model linked
  have wellFormed : model.WellFormed := reachable.wellFormed
  have lined : model.Lined := reachable.drawn.lined
  have wired : linked.model.Wired := reachable.drawn.link_wired limits
  have paired : Paired model model.lines linked := lined.link_paired limits
  have spans (first last : NodeId) : linked.model.Spans first last ↔ model.Spans first last :=
    paired.settled.spans paired.diagram_eq
  have ends (first last : NodeId) : (linked.model.node first).functionEnd = some last ↔
      linked.model.Spans first last := by
    rw [spans]
    constructor
    · intro tied
      exact wellFormed.joined_iff.mp ((Model.Joined.settled paired.settled).mp (wired.joined _ _ tied))
    · intro function
      obtain ⟨line,drawn,member⟩ := Model.spans_iff.mp function
      exact paired.joined line drawn (first,last) member
  refine ⟨ends,fun first last => ?_,spans,?_,?_⟩
  · rw [← wired.inverse]
    exact ends first last
  · rw [paired.pairs]
    refine encard_of_nodup (wellFormed.nodup_gathered (fun line => ?_) Prod.fst fun line pair member => ?_)
      fun pair => ?_
    · exact Pairing.nodup_pairs (lined.nodup line)
    · exact (Model.Joined.members member).1
    · rw [List.mem_flatMap]
      exact Model.spans_iff.symm
  · rw [paired.unmatched]
    refine encard_of_nodup (wellFormed.nodup_gathered (fun line => ?_) id fun line id member => ?_)
      fun id => wellFormed.mem_unmatched_iff lined
    · exact Pairing.nodup_unmatched (lined.nodup line)
    · exact ((Pairing.mem_unmatched_iff (lined.nodup line)).mp member).1

/-- A timeline with a start that another one overtakes, a start that is marked as an end too, one end too
many and a start that is left open, and a timeline that begins with an end. -/
def overlaps : List Record :=
  let name (letter : UInt8) : Name := ⟨[letter],false⟩
  let line (letter : UInt8) (nodes : List (UInt16 × UInt32)) : List Record :=
    .timeline ⟨name 103,name letter⟩ ::
      nodes.flatMap fun (id, flags) => [.nodeStart id flags, .nodeEnd]
  .sequenceStart (name 103) ::
    line 65 [(1, 0x100), (2, 0x180), (3, 0x800), (4, 0x80), (5, 0x80), (6, 0x100)] ++
    line 66 [(7, 0x80), (8, 0x100), (9, 0x80)] ++ [.sequenceEnd]

/-- The second start has the first end, past a node without a mark, and the first start has none. Of four
ends two are in no function: one of them has its start taken by the end before it, and the other comes
first on its timeline. -/
theorem overlaps_flat :
    ∃ builder, Builder.applyAll {} overlaps = some builder ∧
      let model := builder.model
      let linked := model.link builder.limits
      model.Spans ⟨1⟩ ⟨3⟩ ∧ (∀ last, ¬model.Spans ⟨0⟩ last) ∧
      (linked.model.node ⟨3⟩).functionStart = some ⟨1⟩ ∧
      {pair : NodeId × NodeId | model.Spans pair.1 pair.2}.encard = 2 ∧
      {id | id ∈ model.drawnNodes ∧ model.Ends id ∧
        ∀ other, ¬model.Spans other id ∧ ¬model.Spans id other}.encard = 2 := by
  have checked : (Builder.applyAll {} overlaps).any fun builder =>
      let linked := builder.model.link builder.limits
      (linked.model.node ⟨1⟩).functionEnd = some ⟨3⟩ ∧ (linked.model.node ⟨0⟩).functionEnd = none ∧
        linked.report.functionPairs = 2 ∧ linked.report.unpairedFunctionEnds = 2 := by
    decide +kernel
  obtain ⟨builder,accepted,holds⟩ := (Option.any_eq_true _ _).mp checked
  obtain ⟨tied,free,two,two'⟩ := of_decide_eq_true holds
  have reachable := Builder.applyAll_reachable .initial accepted
  obtain ⟨ends,starts,spans,pairs,unmatched⟩ := reachable.link_functions builder.limits
  have function := (ends ⟨1⟩ ⟨3⟩).mp tied
  refine ⟨builder,accepted,(spans _ _).mp function,fun last other => ?_,(starts _ _).mpr function,?_,?_⟩
  · have tied' := (ends ⟨0⟩ last).mpr ((spans _ _).mpr other)
    rw [free] at tied'
    cases tied'
  · rw [pairs, two]
    rfl
  · rw [unmatched, two']
    rfl

end DocGraph
