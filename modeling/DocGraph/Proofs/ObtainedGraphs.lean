import DocGraph.Proofs.CheckedLinking
import DocGraph.Proofs.CheckedWalks
import DocGraph.Proofs.LinkedMessages

/-! Graphs that are built from blocks, linked and loaded, in any combination. There are others, put together
through single changes, and no statement here is about those. -/
namespace DocGraph

/-- Graphs that are built from blocks, accepted or not, that are linked, and that are loaded. -/
inductive Obtained : Model → Prop
  | built (blocks : List (Nat × Bytes)) : Obtained (Builder.afterBlocks blocks).model
  | linked {model : Model} (obtained : Obtained model) (limits : Limits) :
      Obtained (model.link limits).model
  | loaded {source : Source} {file : String} {loaded : Loaded}
      (found : (load source file).result = .ok loaded) : Obtained loaded.model

/-- What is done with a graph does the same with all positions checked, so that none is out of range. -/
structure Model.InRange (model : Model) : Prop where
  diagramNodes : ∀ group, model.HasGroup group →
    model.diagramNodes? group = some (model.diagramNodes group)
  link : ∀ limits, model.link? limits = some (model.link limits)
  search : ∀ cursor, (∀ id ∈ cursor, model.HasNode id) →
    Walker.search? model cursor = some (Walker.search model cursor)
  advance : ∀ walker, Walker.Used model walker → ∀ id, model.HasNode id →
    walker.advance? model id = some (walker.advance model id)
  walkTimeline : ∀ walker, Walker.Used model walker → ∀ line, model.HasTimeline line →
    walker.walkTimeline? model line = some (walker.walkTimeline model line)
  walkDiagram : ∀ group, model.HasGroup group →
    Walker.walkDiagram? model group = some (Walker.walkDiagram model group)
  emissions : ∀ group, model.HasGroup group →
    Walker.emissions? model group = some (Walker.emissions model group)

theorem Model.Known.inRange {model : Model} (known : model.Known) : model.InRange where
  diagramNodes _ inside := known.diagramNodes?_eq inside
  link limits := (known.link?_eq limits).1
  search _ inside := (Walker.search?_eq known inside).1
  advance _ used _ inside := (Walker.advance?_eq known (used.known known) inside).1
  walkTimeline _ used _ inside := (Walker.walkTimeline?_eq known (used.known known) inside).1
  walkDiagram _ inside := (Walker.walkDiagram?_eq known inside).1
  emissions _ inside := Walker.emissions?_eq known inside

theorem Obtained.wellFormed {model : Model} (obtained : Obtained model) : model.WellFormed := by
  induction obtained with
  | built blocks => exact (Builder.afterBlocks_reachable blocks).wellFormed
  | linked _ limits wellFormed => exact wellFormed.link limits
  | loaded found =>
    obtain ⟨builder,reachable,same,_⟩ := load_reachable found
    rw [same]
    exact (reachable.wellFormed.link builder.limits).nameDocument

/-- Every graph is well formed, from the first record on. The machines, the diagrams and the timelines
share out the states, the timelines and the nodes, what refers to an item refers to one that is there,
and so nothing that linking or walking reads is missing. -/
theorem obtained_in_order {model : Model} (obtained : Obtained model) :
    model.WellFormed ∧ model.drawnNodes.Perm model.nodeIds ∧ model.InRange := by
  have wellFormed : model.WellFormed := obtained.wellFormed
  exact ⟨wellFormed,wellFormed.drawnNodes_perm,wellFormed.toKnown.inRange⟩

/-- The diagrams of a file with five nodes list five, and the two letters that arrive are drawn with all
positions checked. -/
theorem letters_in_order :
    ∃ bytes loaded, Writer.file {} letters = .ok bytes ∧
      (load ⟨bytes,[]⟩ "model").result = .ok loaded ∧
      loaded.model.drawnNodes.Perm [⟨0⟩,⟨1⟩,⟨2⟩,⟨3⟩,⟨4⟩] ∧
      (Walker.emissions? loaded.model ⟨1⟩).map (fun walked => walked.steps.map (·.message)) =
        some [⟨1⟩,⟨3⟩] := by
  obtain ⟨bytes,written⟩ : ∃ bytes, Writer.file {} letters = .ok bytes := ⟨_,rfl⟩
  have checked : (graphOf letters).any fun model =>
      model.nodeIds = [⟨0⟩,⟨1⟩,⟨2⟩,⟨3⟩,⟨4⟩] ∧ model.HasGroup ⟨1⟩ ∧
        (Walker.emissions model ⟨1⟩).steps.map (·.message) = [⟨1⟩,⟨3⟩] := by decide +kernel
  obtain ⟨loaded,found,holds⟩ := load_graphOf written checked "model"
  obtain ⟨ids,inside,drawn⟩ := of_decide_eq_true holds
  obtain ⟨_,listed,inRange⟩ := obtained_in_order (.loaded found)
  rw [ids] at listed
  refine ⟨bytes,loaded,written,found,listed,?_⟩
  rw [inRange.emissions ⟨1⟩ inside, Option.map_some, drawn]

end DocGraph
