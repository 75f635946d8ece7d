import DocGraph.Load

/-! What each group of a model holds, in numbers. -/
namespace DocGraph.CommandLine

structure GroupSummary where
  name : String
  states : Nat
  timelines : Nat
  nodes : Nat
  messages : Nat
  functions : Nat
  types : Nat
  constants : Nat
  applications : Nat
  samples : Nat
  deriving DecidableEq, Repr

def GroupSummary.ofGroup (model : Model) (id : GroupId) : GroupSummary :=
  let group := model.group id
  let api := group.api.getD {}
  let nodes := model.diagramNodes id
  { name := group.name.text
    states := (group.states.getD #[]).size
    timelines := (group.timelines.getD #[]).size
    nodes := nodes.length
    messages := nodes.countP fun node => (model.node node).sent.isSome
    functions := api.functions.size
    types := api.types.size
    constants := api.constants.size
    applications := group.applications.size
    samples := group.samples.size }

def summaries (model : Model) : List GroupSummary := model.groupIds.map (GroupSummary.ofGroup model)

end DocGraph.CommandLine
