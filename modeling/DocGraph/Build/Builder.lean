import DocGraph.Build.Section
import DocGraph.Notice
import DocGraph.Record.Decode

/-! Building the graph from records. A record is applied to the section that is open: it opens or
closes a section, adds an item, or extends the item added last. A record that has no place there is
rejected; the reason depends on the section and the open items only. -/
namespace DocGraph

inductive Rejection
  /-- The section has no such records. -/
  | unexpected
  /-- The record belongs inside a parent that is not open. -/
  | misplaced (record parent : String)
  deriving DecidableEq, Repr

structure Builder where
  model : Model := {}
  current : Section := .outside
  limits : Limits := {}
  /-- Records applied so far, rejected ones included and end marks of blocks left out. -/
  records : Nat := 0
  deriving DecidableEq, Repr

namespace Builder

def mode (builder : Builder) : Mode := builder.current.mode

/-- The builder after a record, and why the record is rejected if it is. -/
abbrev Applied := Builder × Option Rejection

def accept (builder : Builder) : Applied := (builder, none)

def reject (builder : Builder) (reason : Rejection) : Applied := (builder, some reason)

/-- Rejects a record whose parent is not open. -/
def misplaced (builder : Builder) (record : Tag) (parent : String) : Applied :=
  builder.reject (.misplaced record.label parent)

def close (builder : Builder) : Applied := accept { builder with current := .outside }

/-- The position of the document's application of a name, which is added when it is missing. -/
def findOrAddApplication (model : Model) (name : Name) : Model × Nat :=
  let applications := (model.group Model.root).applications
  match applications.findIdx? (·.name.sameText name) with
  | some position => (model, position)
  | none =>
    (model.modifyGroup Model.root fun group =>
      { group with applications := group.applications.push { name } }, applications.size)

def applyOutside (builder : Builder) : Record → Applied
  | .stateMachineStart name =>
    let (model, _) := builder.model.findOrAddGroup name
    accept { builder with model, current := .stateMachine .idle }
  | .sequenceStart name =>
    let (model, _) := builder.model.findOrAddGroup name
    accept { builder with model, current := .sequence .idle }
  | .apiStart name =>
    let (model, group) := builder.model.findOrAddGroup name
    accept { builder with model, current := .api group {} }
  | .applicationStart name =>
    let (model, position) := findOrAddApplication builder.model name
    accept { builder with model, current := .application position none }
  | .sample sample =>
    accept { builder with
      model := builder.model.modifyGroup Model.root fun group =>
        { group with samples := group.samples.push ⟨sample.title, sample.body⟩ } }
  | _ => builder.reject .unexpected

def changeTransition (builder : Builder) (record : Tag) (change : Transition → Transition) : Applied :=
  match builder.current with
  | .stateMachine (.transition state position) =>
    accept { builder with
      model := builder.model.modifyState state fun state =>
        { state with transitions := state.transitions.modify position change } }
  | _ => builder.misplaced record "transition"

/-- The group of a trigger is added even when no transition is open. -/
def applyTrigger (builder : Builder) (record : Tag) (subject : Qualified)
    (change : Trigger → Transition → Transition) : Applied :=
  let (model, group) := builder.model.findOrAddGroup subject.group
  { builder with model }.changeTransition record (change ⟨group, subject.name⟩)

def applyStateMachine (builder : Builder) (cursor : StateCursor) : Record → Applied
  | .state id subject =>
    let (model, group) := builder.model.findOrAddGroup subject.group
    let (model, state) := model.addState group subject.name id
    let limits := { builder.limits with state := max builder.limits.state id }
    accept { builder with model, limits, current := .stateMachine (.state state) }
  | .transition target =>
    match cursor.state? with
    | none => builder.misplaced .transition "state"
    | some state =>
      let position := (builder.model.state state).transitions.size
      accept { builder with
        model := builder.model.addTransition state target
        current := .stateMachine (.transition state position) }
  | .trigger subject =>
    builder.applyTrigger .trigger subject fun trigger transition =>
      { transition with trigger := some trigger }
  | .triggers subject =>
    builder.applyTrigger .triggers subject fun trigger transition =>
      { transition with triggers := transition.triggers.push trigger }
  | .condition text =>
    builder.changeTransition .condition ({ · with condition := some text })
  | .itemEnd => accept { builder with current := .stateMachine .idle }
  | .stateMachineEnd => builder.close
  | _ => builder.reject .unexpected

def applySequence (builder : Builder) (cursor : SequenceCursor) : Record → Applied
  | .timeline subject =>
    let (model, group) := builder.model.findOrAddGroup subject.group
    let (model, timeline) := model.addTimeline group subject.name
    accept { builder with model, current := .sequence (.timeline timeline) }
  | .nodeStart id flags =>
    match cursor.timeline? with
    | none => builder.misplaced .nodeStart "timeline"
    | some timeline =>
      let (model, node) := builder.model.addNode timeline id ⟨flags⟩
      let limits := { builder.limits with node := max builder.limits.node id }
      accept { builder with model, limits, current := .sequence (.node timeline node) }
  | .sentMessage sending =>
    match cursor with
    | .node _ node =>
      let (model, _) := builder.model.addMessage node sending.sender sending.receiver
        sending.timeline sending.message
      accept { builder with model }
    | _ => builder.misplaced .sentMessage "node"
  | .condition text =>
    match cursor with
    | .node _ node =>
      accept { builder with
        model := builder.model.modifyNode node ({ · with condition := some text }) }
    | _ => builder.misplaced .condition "node"
  | .nodeEnd => accept { builder with current := .sequence cursor.endNode }
  | .sequenceEnd => builder.close
  | _ => builder.reject .unexpected

/-- Changes the programming interface of a group, which is created when there is none. -/
def changeApi (model : Model) (group : GroupId) (change : Api → Api) : Model :=
  model.modifyGroup group fun group => { group with api := some (change (group.api.getD {})) }

def changeFunction (builder : Builder) (group : GroupId) (cursor : ApiCursor) (record : Tag)
    (change : Api.Function → Api.Function) : Applied :=
  match cursor.function with
  | none => builder.misplaced record "function"
  | some position =>
    accept { builder with model := changeApi builder.model group (·.changeFunction position change) }

def applyApi (builder : Builder) (group : GroupId) (cursor : ApiCursor) (record : Record) : Applied :=
  let api := (builder.model.group group).api.getD {}
  let change (change : Api → Api) (cursor : ApiCursor) : Applied :=
    accept { builder with model := changeApi builder.model group change, current := .api group cursor }
  match record with
  | .apiFunction function =>
    change (·.addFunction function.kind function.name)
      { cursor with function := some api.functions.size }
  | .apiAction text =>
    builder.changeFunction group cursor .apiAction ({ · with action := some text })
  | .apiDescription text =>
    builder.changeFunction group cursor .apiDescription ({ · with description := some text })
  | .apiParameter parameter =>
    builder.changeFunction group cursor .apiParameter
      (·.addParameter ⟨parameter.kind, parameter.name, parameter.brief⟩)
  | .apiReturns result =>
    builder.changeFunction group cursor .apiReturns (·.addReturn ⟨result.title, result.body⟩)
  | .apiFunctionEnd => accept { builder with current := .api group { cursor with function := none } }
  | .apiTypeStart type =>
    change (·.addType type.title type.body) { cursor with type := some api.types.size }
  | .apiTypeField field =>
    match cursor.type with
    | none => builder.misplaced .apiTypeField "type"
    | some position =>
      change (·.changeType position (·.addField ⟨field.kind, field.name, field.brief⟩)) cursor
  | .apiTypeEnd => accept { builder with current := .api group { cursor with type := none } }
  | .apiConstantsStart heading =>
    change (·.addConstants heading.title heading.body)
      { cursor with constants := some api.constants.size }
  | .apiConstant constant =>
    match cursor.constants with
    | none => builder.misplaced .apiConstant "constants group"
    | some position =>
      change (·.changeConstants position
        (·.addConstant ⟨constant.kind, constant.name, constant.value, constant.brief⟩)) cursor
  | .apiConstantsEnd => accept { builder with current := .api group { cursor with constants := none } }
  | .itemEnd => builder.accept
  | .apiEnd => builder.close
  | _ => builder.reject .unexpected

def changeApplication (model : Model) (position : Nat) (change : Application → Application) : Model :=
  model.modifyGroup Model.root fun group =>
    { group with applications := group.applications.modify position change }

def application? (model : Model) (position : Nat) : Option Application :=
  (model.group Model.root).applications[position]?

def applyApplication (builder : Builder) (position : Nat) (opened : Option Nat) (record : Record) :
    Applied :=
  let change (change : Application → Application) : Builder :=
    { builder with model := changeApplication builder.model position change }
  match record with
  | .applicationSection content =>
    let opened := (application? builder.model position).map fun application =>
      (application.setSection content.title content.body).2
    let changed := change fun application => (application.setSection content.title content.body).1
    accept { changed with current := .application position opened }
  | .applicationSubSection content =>
    match opened with
    | none => builder.misplaced .applicationSubSection "section"
    | some parent =>
      accept (change (·.changeSection parent (·.setSubSection content.title content.body)))
  | .applicationOption option =>
    accept (change (·.addOption option.flags option.name option.value option.description))
  | .applicationCommand command =>
    accept (change (·.addCommand ⟨command.kind, command.name, command.brief⟩))
  | .applicationSynopsis synopsis =>
    accept (change (·.addSynopsis synopsis.name synopsis.indexes))
  | .applicationEnd => builder.close
  | _ => builder.reject .unexpected

/-- Applies one record. The end mark of a block is padding. -/
def apply (builder : Builder) (record : Record) : Applied :=
  if record = .blockEnd then builder.accept
  else
    let counted := { builder with records := builder.records + 1 }
    match builder.current with
    | .outside => counted.applyOutside record
    | .stateMachine cursor => counted.applyStateMachine cursor record
    | .sequence cursor => counted.applySequence cursor record
    | .api group cursor => counted.applyApi group cursor record
    | .application position opened => counted.applyApplication position opened record

/-- What is to be said about a record that is about to be applied: the positions of a synopsis that
name no option. -/
def notices (builder : Builder) (record : Record) : List Notice :=
  match builder.current, record with
  | .application position _, .applicationSynopsis synopsis =>
    match application? builder.model position with
    | none => []
    | some application =>
      (application.partitionIndexes synopsis.indexes).2.map
        (.unknownOption application.name.text synopsis.name.text ·)
  | _, _ => []

/-- Ends the building; a section that is still open is worth a notice. -/
def finish (builder : Builder) : List Notice :=
  match builder.current with
  | .outside => []
  | open_ => [.openSection open_.mode]

end Builder

end DocGraph
