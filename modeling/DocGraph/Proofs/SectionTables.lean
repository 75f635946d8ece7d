import DocGraph.Proofs.KnownItems
import DocGraph.Proofs.OpenItems

/-! Interfaces and applications under the records of their sections. An invariant of a table has to be shown
for its edits only. -/
namespace DocGraph

/-- An item of an interface is added or extended. -/
inductive Api.Edit (api : Api) : Api → Prop
  | function (returnType name : Name) : Edit api (api.addFunction returnType name)
  | action (position : Nat) (text : Name) :
      Edit api (api.changeFunction position ({ · with action := some text }))
  | description (position : Nat) (text : Name) :
      Edit api (api.changeFunction position ({ · with description := some text }))
  | parameter (position : Nat) (parameter : Parameter) :
      Edit api (api.changeFunction position (·.addParameter parameter))
  | result (position : Nat) (result : Return) :
      Edit api (api.changeFunction position (·.addReturn result))
  | type (name description : Name) : Edit api (api.addType name description)
  | field (position : Nat) (field : Field) : Edit api (api.changeType position (·.addField field))
  | constants (name description : Name) : Edit api (api.addConstants name description)
  | constant (position : Nat) (constant : Constant) :
      Edit api (api.changeConstants position (·.addConstant constant))

/-- What becomes of the interface of a group; it is created when there is none. -/
def Api.Edited (before after : Option Api) : Prop :=
  after = before ∨ ∃ api, after = some api ∧ Edit (before.getD {}) api

/-- An application after a record of its section. -/
def Application.after (application : Application) (opened : Option Nat) : Record → Application
  | .applicationSection content => (application.setSection content.title content.body).1
  | .applicationSubSection content =>
    match opened with
    | none => application
    | some parent => application.changeSection parent (·.setSubSection content.title content.body)
  | .applicationOption option =>
    application.addOption option.flags option.name option.value option.description
  | .applicationCommand command =>
    application.addCommand ⟨command.kind, command.name, command.brief⟩
  | .applicationSynopsis synopsis => application.addSynopsis synopsis.name synopsis.indexes
  | _ => application

/-- The applications of the document after a record that comes while a section is open. -/
def Section.applications (current : Section) (record : Record) (applications : Array Application) :
    Array Application :=
  match current, record with
  | outside, .applicationStart name =>
    match applications.findIdx? (·.name.sameText name) with
    | some _ => applications
    | none => applications.push { name }
  | application position opened, _ => applications.modify position (·.after opened record)
  | _, _ => applications

/-- Every group has the tables it had. -/
structure Model.SameTables (before after : Model) : Prop where
  api : ∀ group, (after.group group).api = (before.group group).api
  applications : ∀ group, (after.group group).applications = (before.group group).applications

namespace Model

variable {before after : Model}

theorem SameTables.of_groups (groups : after.groups = before.groups) : SameTables before after := by
  refine ⟨fun group => ?_,fun group => ?_⟩
  · simp only [Model.group, groups]
  · simp only [Model.group, groups]

theorem SameTables.refl (model : Model) : SameTables model model := .of_groups rfl

theorem SameTables.trans {first second third : Model} (earlier : SameTables first second)
    (later : SameTables second third) : SameTables first third :=
  ⟨fun group => (later.api group).trans (earlier.api group),
    fun group => (later.applications group).trans (earlier.applications group)⟩

theorem sameTables_modifyGroup (model : Model) (id : GroupId) {change : Group → Group}
    (api : ∀ group, (change group).api = group.api)
    (applications : ∀ group, (change group).applications = group.applications) :
    SameTables model (model.modifyGroup id change) :=
  ⟨field_modifyGroup Group.api api model id,field_modifyGroup Group.applications applications model id⟩

theorem sameTables_findOrAddGroup (model : Model) (name : Name) :
    SameTables model (model.findOrAddGroup name).1 :=
  ⟨field_findOrAddGroup Group.api (fun _ => rfl) model name,
    field_findOrAddGroup Group.applications (fun _ => rfl) model name⟩

theorem sameTables_addState (model : Model) (group : GroupId) (name : Name) (id : UInt16) :
    SameTables model (model.addState group name id).1 := by
  let added : Model := { model with states := model.states.push { name, group, id } }
  have pushed : SameTables model added := .of_groups rfl
  exact pushed.trans (added.sameTables_modifyGroup group (fun _ => rfl) fun _ => rfl)

theorem sameTables_addTimeline (model : Model) (group : GroupId) (name : Name) :
    SameTables model (model.addTimeline group name).1 := by
  let added : Model := { model with timelines := model.timelines.push { name, group } }
  have pushed : SameTables model added := .of_groups rfl
  exact pushed.trans (added.sameTables_modifyGroup group (fun _ => rfl) fun _ => rfl)

theorem sameTables_addMessage (model : Model) (sender : NodeId) (senderId receiverId : UInt8)
    (target name : Name) :
    SameTables model (model.addMessage sender senderId receiverId target name).1 := by
  let message : Message :=
    { name, sender, senderId, sendingTimeline := (model.node sender).timeline,
      targetTimelineName := target, receiver := .unresolved receiverId.toUInt16 }
  let added : Model := { model with messages := model.messages.push message }
  let noted := added.modifyNode sender ({ · with sent := some ⟨model.messages.size⟩ })
  have sent : SameTables model noted := .of_groups rfl
  exact sent.trans (noted.sameTables_modifyGroup _ (fun _ => rfl) fun _ => rfl)

end Model

namespace Builder

variable {builder : Builder}

theorem sameTables_changeTransition (builder : Builder) (record : Tag)
    (change : Transition → Transition) :
    builder.model.SameTables (builder.changeTransition record change).1.model := by
  unfold changeTransition
  split
  · exact .of_groups rfl
  · exact .refl _

theorem sameTables_applyTrigger (builder : Builder) (record : Tag) (subject : Qualified)
    (change : Trigger → Transition → Transition) :
    builder.model.SameTables (builder.applyTrigger record subject change).1.model := by
  let found := builder.model.findOrAddGroup subject.group
  have added : builder.model.SameTables found.1 :=
    builder.model.sameTables_findOrAddGroup subject.group
  exact added.trans (sameTables_changeTransition { builder with model := found.1 } record _)

theorem sameTables_stateMachine (builder : Builder) (cursor : StateCursor) (record : Record) :
    builder.model.SameTables (builder.applyStateMachine cursor record).1.model := by
  cases record with
  | state id subject =>
    exact (builder.model.sameTables_findOrAddGroup subject.group).trans
      (Model.sameTables_addState _ _ subject.name id)
  | transition target =>
    cases cursor with
    | idle => exact .refl _
    | state | transition => exact .of_groups rfl
  | trigger subject =>
    exact sameTables_applyTrigger builder .trigger subject
      fun trigger transition => { transition with trigger := some trigger }
  | triggers subject =>
    exact sameTables_applyTrigger builder .triggers subject
      fun trigger transition => { transition with triggers := transition.triggers.push trigger }
  | condition text =>
    exact sameTables_changeTransition builder .condition ({ · with condition := some text })
  | _ => exact .refl _

theorem sameTables_sequence (builder : Builder) (cursor : SequenceCursor) (record : Record) :
    builder.model.SameTables (builder.applySequence cursor record).1.model := by
  cases record with
  | timeline subject =>
    exact (builder.model.sameTables_findOrAddGroup subject.group).trans
      (Model.sameTables_addTimeline _ _ subject.name)
  | nodeStart id flags =>
    cases cursor with
    | idle => exact .refl _
    | timeline line | node line =>
      exact .of_groups (addNode_sizes builder.model line id ⟨flags⟩).1
  | sentMessage sending =>
    cases cursor with
    | idle | timeline => exact .refl _
    | node _ sender => exact Model.sameTables_addMessage builder.model sender ..
  | condition text => cases cursor <;> exact .of_groups rfl
  | _ => exact .refl _

theorem edited_changeApi (model : Model) (group other : GroupId) {change : Api → Api}
    (edit : ∀ api, Api.Edit api (change api)) :
    Api.Edited (model.group other).api ((changeApi model group change).group other).api := by
  rw [changeApi, Model.group_modifyGroup]
  split
  · exact .inr ⟨_,rfl,edit _⟩
  · exact .inl rfl

theorem applications_changeApi (model : Model) (group other : GroupId) (change : Api → Api) :
    ((changeApi model group change).group other).applications = (model.group other).applications := by
  refine Model.field_modifyGroup Group.applications ?_ model group other
  exact fun _ => rfl

theorem edited_api (builder : Builder) (group : GroupId) (cursor : ApiCursor) (record : Record)
    (other : GroupId) : Api.Edited (builder.model.group other).api
      ((builder.applyApi group cursor record).1.model.group other).api := by
  obtain ⟨function,type,constants⟩ := cursor
  cases record with
  | apiFunction item => exact edited_changeApi builder.model group other fun _ => .function ..
  | apiAction text =>
    cases function with
    | none => exact .inl rfl
    | some position => exact edited_changeApi builder.model group other fun _ => .action position text
  | apiDescription text =>
    cases function with
    | none => exact .inl rfl
    | some position =>
      exact edited_changeApi builder.model group other fun _ => .description position text
  | apiParameter item =>
    cases function with
    | none => exact .inl rfl
    | some position => exact edited_changeApi builder.model group other fun _ => .parameter position _
  | apiReturns item =>
    cases function with
    | none => exact .inl rfl
    | some position => exact edited_changeApi builder.model group other fun _ => .result position _
  | apiTypeStart item => exact edited_changeApi builder.model group other fun _ => .type ..
  | apiTypeField item =>
    cases type with
    | none => exact .inl rfl
    | some position => exact edited_changeApi builder.model group other fun _ => .field position _
  | apiConstantsStart item => exact edited_changeApi builder.model group other fun _ => .constants ..
  | apiConstant item =>
    cases constants with
    | none => exact .inl rfl
    | some position => exact edited_changeApi builder.model group other fun _ => .constant position _
  | _ => exact .inl rfl

theorem applications_api (builder : Builder) (group : GroupId) (cursor : ApiCursor) (record : Record)
    (other : GroupId) : ((builder.applyApi group cursor record).1.model.group other).applications =
      (builder.model.group other).applications := by
  obtain ⟨function,type,constants⟩ := cursor
  cases record with
  | apiFunction | apiTypeStart | apiConstantsStart =>
    exact applications_changeApi builder.model group other _
  | apiTypeField =>
    cases type with
    | none => rfl
    | some position => exact applications_changeApi builder.model group other _
  | apiConstant =>
    cases constants with
    | none => rfl
    | some position => exact applications_changeApi builder.model group other _
  | apiAction | apiDescription | apiParameter | apiReturns =>
    cases function with
    | none => rfl
    | some position => exact applications_changeApi builder.model group other _
  | _ => rfl

theorem modify_same (items : Array α) (index : Nat) {change : α → α}
    (same : ∀ item, change item = item) : items.modify index change = items := by
  refine Array.ext_getElem? fun i => ?_
  rw [Array.getElem?_modify, funext same]
  split
  · exact Option.map_id'
  · rfl

theorem api_changeApplication (model : Model) (position : Nat) (change : Application → Application)
    (group : GroupId) :
    ((changeApplication model position change).group group).api = (model.group group).api := by
  refine Model.field_modifyGroup Group.api ?_ model Model.root group
  exact fun _ => rfl

theorem applications_changeApplication {model : Model} (document : 0 < model.groups.size)
    (position : Nat) (change : Application → Application) :
    ((changeApplication model position change).group Model.root).applications =
      (model.group Model.root).applications.modify position change := by
  rw [changeApplication, Model.group_modifyGroup, if_pos ⟨rfl,document⟩]

theorem api_findOrAddApplication (model : Model) (name : Name) (group : GroupId) :
    ((findOrAddApplication model name).1.group group).api = (model.group group).api := by
  simp only [findOrAddApplication]
  split
  · rfl
  · refine Model.field_modifyGroup Group.api ?_ model Model.root group
    exact fun _ => rfl

theorem applications_findOrAddApplication {model : Model} (document : 0 < model.groups.size)
    (name : Name) :
    ((findOrAddApplication model name).1.group Model.root).applications =
      Section.outside.applications (.applicationStart name) (model.group Model.root).applications := by
  simp only [findOrAddApplication, Section.applications]
  cases (model.group Model.root).applications.findIdx? (·.name.sameText name) with
  | some position => rfl
  | none =>
    dsimp only
    rw [Model.group_modifyGroup, if_pos ⟨rfl,document⟩]

theorem api_application (builder : Builder) (position : Nat) (opened : Option Nat) (record : Record)
    (group : GroupId) : ((builder.applyApplication position opened record).1.model.group group).api =
      (builder.model.group group).api := by
  cases record with
  | applicationSection | applicationOption | applicationCommand | applicationSynopsis =>
    exact api_changeApplication builder.model position _ group
  | applicationSubSection =>
    cases opened with
    | none => rfl
    | some parent => exact api_changeApplication builder.model position _ group
  | _ => rfl

theorem applications_application (sound : builder.Sound) (position : Nat) (opened : Option Nat)
    (record : Record) :
    ((builder.applyApplication position opened record).1.model.group Model.root).applications =
      (builder.model.group Model.root).applications.modify position (·.after opened record) := by
  have changed := applications_changeApplication sound.document position (·.after opened record)
  have stays (same : ∀ application : Application, application.after opened record = application) :
      (builder.model.group Model.root).applications =
        (builder.model.group Model.root).applications.modify position (·.after opened record) :=
    (modify_same _ position same).symm
  cases record with
  | applicationSection | applicationOption | applicationCommand | applicationSynopsis => exact changed
  | applicationSubSection =>
    cases opened with
    | none => exact stays fun _ => rfl
    | some parent => exact changed
  | _ => exact stays fun _ => rfl

theorem edited_outside (builder : Builder) (record : Record) (group : GroupId) :
    Api.Edited (builder.model.group group).api
      ((builder.applyOutside record).1.model.group group).api := by
  refine .inl ?_
  cases record with
  | stateMachineStart name | sequenceStart name | apiStart name =>
    exact (builder.model.sameTables_findOrAddGroup name).api group
  | applicationStart name => exact api_findOrAddApplication builder.model name group
  | sample =>
    refine Model.field_modifyGroup Group.api ?_ builder.model Model.root group
    exact fun _ => rfl
  | _ => rfl

theorem applications_outside (sound : builder.Sound) (record : Record) :
    ((builder.applyOutside record).1.model.group Model.root).applications =
      Section.outside.applications record (builder.model.group Model.root).applications := by
  cases record with
  | stateMachineStart name | sequenceStart name | apiStart name =>
    exact (builder.model.sameTables_findOrAddGroup name).applications Model.root
  | applicationStart name => exact applications_findOrAddApplication sound.document name
  | sample =>
    refine Model.field_modifyGroup Group.applications ?_ builder.model Model.root Model.root
    exact fun _ => rfl
  | _ => rfl

theorem apply_edited (builder : Builder) (record : Record) (group : GroupId) :
    Api.Edited (builder.model.group group).api
      ((builder.apply record).1.model.group group).api := by
  unfold apply
  split
  · exact .inl rfl
  · obtain ⟨model,current,limits,records⟩ := builder
    let counted : Builder := ⟨model,current,limits,records + 1⟩
    cases current with
    | outside => exact edited_outside counted record group
    | stateMachine cursor => exact .inl ((sameTables_stateMachine counted cursor record).api group)
    | sequence cursor => exact .inl ((sameTables_sequence counted cursor record).api group)
    | api opened cursor => exact edited_api counted opened cursor record group
    | application position opened =>
      exact .inl (api_application counted position opened record group)

/-- What a record does to the applications of the document. -/
theorem apply_applications (sound : builder.Sound) (record : Record) :
    ((builder.apply record).1.model.group Model.root).applications =
      builder.current.applications record (builder.model.group Model.root).applications := by
  obtain ⟨model,current,limits,records⟩ := builder
  let counted : Builder := ⟨model,current,limits,records + 1⟩
  have sound' : counted.Sound := ⟨sound.document,sound.within⟩
  unfold apply
  split
  · rename_i padding
    subst padding
    cases current with
    | application => exact (modify_same _ _ fun _ => rfl).symm
    | _ => rfl
  · cases current with
    | outside => exact applications_outside sound' record
    | stateMachine cursor =>
      exact (sameTables_stateMachine counted cursor record).applications Model.root
    | sequence cursor => exact (sameTables_sequence counted cursor record).applications Model.root
    | api group cursor => exact applications_api counted group cursor record Model.root
    | application position opened => exact applications_application sound' position opened record

end Builder

/-- Applications belong to the document. -/
def Model.OneCatalogue (model : Model) : Prop :=
  ∀ group, group ≠ Model.root → (model.group group).applications = #[]

namespace Model

variable {before after : Model}

theorem OneCatalogue.of_same (one : before.OneCatalogue)
    (same : ∀ group, (after.group group).applications = (before.group group).applications) :
    after.OneCatalogue :=
  fun group apart => (same group).trans (one group apart)

theorem OneCatalogue.modifyRoot (one : before.OneCatalogue) (change : Group → Group) :
    (before.modifyGroup root change).OneCatalogue := by
  intro group apart
  rw [group_modifyGroup, if_neg fun both => apart both.1]
  exact one group apart

theorem Change.oneCatalogue (one : before.OneCatalogue) (change : before.Change after) :
    after.OneCatalogue := by
  cases change with
  | group name => exact one.of_same (before.sameTables_findOrAddGroup name).applications
  | state group name id => exact one.of_same (before.sameTables_addState group name id).applications
  | timeline group name => exact one.of_same (before.sameTables_addTimeline group name).applications
  | node line id flags =>
    have groups := (Builder.addNode_sizes before line id flags).1
    exact one.of_same (SameTables.of_groups groups).applications
  | message sender sending =>
    exact one.of_same (before.sameTables_addMessage sender ..).applications
  | application name =>
    simp only [Builder.findOrAddApplication]
    split
    · exact one
    · exact one.modifyRoot _
  | applicationContent | sample => exact one.modifyRoot _
  | api group change =>
    exact one.of_same fun other => Builder.applications_changeApi before group other change
  | transition | trigger | triggers | guard | condition => exact one.of_same fun _ => rfl

end Model

theorem Builder.Reachable.oneCatalogue {builder : Builder} (reachable : builder.Reachable) :
    builder.model.OneCatalogue := by
  refine reachable.model_holds ?_ fun _ _ => Model.Change.oneCatalogue
  intro group apart
  have outside : (1 : Nat) ≤ group.index := by
    refine Nat.pos_of_ne_zero fun first => apart ?_
    obtain ⟨index⟩ := group
    exact congrArg GroupId.mk first
  rw [Model.group, Model.getD_outside outside]
  rfl

theorem all_modify {items : Array α} {P : α → Prop} (all : ∀ item ∈ items, P item) (index : Nat)
    {change : α → α} (keeps : ∀ item, P item → P (change item)) :
    ∀ item ∈ items.modify index change, P item :=
  fun item member => (Model.mem_modify all keeps item member).elim (all item) id

theorem all_push {items : Array α} {P : α → Prop} (all : ∀ item ∈ items, P item) {added : α}
    (holds : P added) : ∀ item ∈ items.push added, P item :=
  fun item member => (Model.mem_push holds item member).elim (all item) id

theorem Section.all_applications {P : Application → Prop} (current : Section)
    (named : ∀ name, P { name })
    (keeps : ∀ application opened record, P application → P (application.after opened record))
    (record : Record) {applications : Array Application} (all : ∀ item ∈ applications, P item) :
    ∀ item ∈ current.applications record applications, P item := by
  cases current with
  | outside =>
    cases record with
    | applicationStart name =>
      simp only [Section.applications]
      split
      · exact all
      · exact all_push all (named name)
    | _ => exact all
  | application position opened =>
    exact all_modify all position fun item => keeps item opened record
  | _ => exact all

namespace Builder.Reachable

variable {builder : Builder}

/-- What an empty interface has and every edit keeps, every interface has. -/
theorem api_holds {P : Api → Prop} (reachable : builder.Reachable) (empty : P {})
    (keeps : ∀ before after, P before → Api.Edit before after → P after) (group : GroupId) :
    ∀ api ∈ (builder.model.group group).api, P api := by
  induction reachable with
  | initial =>
    intro api found
    have none_ : (Model.group {} group).api = none := by
      obtain ⟨_ | index⟩ := group <;> rfl
    rw [none_] at found
    cases found
  | @apply before record _ holds =>
    intro api found
    rcases before.apply_edited record group with same | ⟨edited,there,edit⟩
    · exact holds api (same ▸ found)
    · rw [there] at found
      cases found
      refine keeps _ _ ?_ edit
      cases here : (before.model.group group).api with
      | none => exact empty
      | some old => exact holds old here

/-- What a new application has and every record keeps, every application has. -/
theorem application_holds {P : Application → Prop} (reachable : builder.Reachable)
    (named : ∀ name, P { name })
    (keeps : ∀ application opened record, P application → P (application.after opened record))
    (group : GroupId) : ∀ application ∈ (builder.model.group group).applications, P application := by
  by_cases document : group = Model.root
  · subst document
    induction reachable with
    | initial => exact nofun
    | @apply before record reachable holds =>
      rw [apply_applications reachable.sound]
      exact before.current.all_applications named keeps record holds
  · rw [reachable.oneCatalogue group document]
    exact nofun

end Builder.Reachable

end DocGraph
