import DocGraph.Proofs.StateMachines

/-! Positions that an open section keeps while the graph goes on growing. -/
namespace DocGraph

/-- The open items of an interface are there. -/
structure ApiCursor.Within (api : Api) (cursor : ApiCursor) : Prop where
  function : ∀ position ∈ cursor.function, position < api.functions.size
  type : ∀ position ∈ cursor.type, position < api.types.size
  constants : ∀ position ∈ cursor.constants, position < api.constants.size

/-- The items that an open section names by position are there. -/
def Section.Placed (model : Model) : Section → Prop
  | stateMachine (.transition state position) => position < (model.state state).transitions.size
  | api group cursor => cursor.Within ((model.group group).api.getD {})
  | application position opened => ∀ parent ∈ opened, ∃ application,
      Builder.application? model position = some application ∧ parent < application.sections.size
  | outside | stateMachine .idle | stateMachine (.state _) | sequence _ => True

namespace ApiCursor

variable {api after : Api} {cursor : ApiCursor}

theorem Within.grow (within : cursor.Within api) (functions : api.functions.size ≤ after.functions.size)
    (types : api.types.size ≤ after.types.size) (constants : api.constants.size ≤ after.constants.size) :
    cursor.Within after := by
  refine ⟨fun position open_ => ?_,fun position open_ => ?_,fun position open_ => ?_⟩
  · exact Nat.lt_of_lt_of_le (within.function position open_) functions
  · exact Nat.lt_of_lt_of_le (within.type position open_) types
  · exact Nat.lt_of_lt_of_le (within.constants position open_) constants

theorem Within.changeFunction (within : cursor.Within api) (position : Nat)
    (change : Api.Function → Api.Function) : cursor.Within (api.changeFunction position change) :=
  within.grow (Nat.le_of_eq Array.size_modify.symm) (Nat.le_refl _) (Nat.le_refl _)

theorem Within.changeType (within : cursor.Within api) (position : Nat)
    (change : Api.DataType → Api.DataType) : cursor.Within (api.changeType position change) :=
  within.grow (Nat.le_refl _) (Nat.le_of_eq Array.size_modify.symm) (Nat.le_refl _)

theorem Within.changeConstants (within : cursor.Within api) (position : Nat)
    (change : Api.Constants → Api.Constants) : cursor.Within (api.changeConstants position change) :=
  within.grow (Nat.le_refl _) (Nat.le_refl _) (Nat.le_of_eq Array.size_modify.symm)

theorem Within.addFunction (within : cursor.Within api) (returnType name : Name) :
    { cursor with function := some api.functions.size }.Within (api.addFunction returnType name) := by
  refine ⟨fun position open_ => ?_,within.type,within.constants⟩
  cases open_
  simp [Api.addFunction]

theorem Within.addType (within : cursor.Within api) (name description : Name) :
    { cursor with type := some api.types.size }.Within (api.addType name description) := by
  refine ⟨within.function,fun position open_ => ?_,within.constants⟩
  cases open_
  simp [Api.addType]

theorem Within.addConstants (within : cursor.Within api) (name description : Name) :
    { cursor with constants := some api.constants.size }.Within (api.addConstants name description) := by
  refine ⟨within.function,within.type,fun position open_ => ?_⟩
  cases open_
  simp [Api.addConstants]

end ApiCursor

theorem Application.setSection_lt (application : Application) (name data : Name) :
    (application.setSection name data).2 < (application.setSection name data).1.sections.size := by
  unfold setSection
  split
  · rename_i index found
    simpa using (Array.findIdx?_eq_some_iff_getElem.mp found).choose
  · simp

namespace Builder

/-- The items of the open section are there. -/
def Placed (builder : Builder) : Prop := builder.current.Placed builder.model

variable {builder : Builder}

/-- A record that leaves the open section and the items of the graph alone. -/
theorem placed_stay (placed : builder.Placed) {current : Section} (inside : builder.current = current) :
    current.Placed builder.model := inside ▸ placed

theorem placed_changeTransition (placed : builder.Placed) (record : Tag)
    (change : Transition → Transition) : (builder.changeTransition record change).1.Placed := by
  unfold changeTransition
  split
  · rename_i state position inside
    have there := placed_stay placed inside
    change builder.current.Placed _
    rw [inside]
    simp only [Section.Placed, accept, Model.state_modifyState]
    split
    · exact Nat.lt_of_lt_of_eq there Array.size_modify.symm
    · exact there
  · exact placed

theorem placed_of_group (placed : builder.Placed) {cursor : StateCursor}
    (inside : builder.current = .stateMachine cursor) (name : Name) :
    Placed { builder with model := (builder.model.findOrAddGroup name).1 } := by
  have there := placed_stay placed inside
  have states := (builder.model.findOrAddGroup_keeps name).2.1
  change builder.current.Placed _
  rw [inside]
  cases cursor with
  | idle | state => trivial
  | transition => simpa only [Section.Placed, Model.state, states] using there

theorem placed_addTransition {id : StateId} (known : id.index < builder.model.states.size)
    (target : UInt16) :
    (Section.stateMachine (.transition id (builder.model.state id).transitions.size)).Placed
      (builder.model.addTransition id target) := by
  simp only [Section.Placed, Model.addTransition, Model.state_modifyState, known, and_self, if_true]
  simp

theorem placed_stateMachine (sound : builder.Sound) (placed : builder.Placed) {cursor : StateCursor}
    (inside : builder.current = .stateMachine cursor) (record : Record) :
    (builder.applyStateMachine cursor record).1.Placed := by
  cases record with
  | state | itemEnd | stateMachineEnd => trivial
  | transition target =>
    have within := sound.within
    rw [inside] at within
    cases cursor with
    | idle => exact placed
    | state id | transition id => exact placed_addTransition within target
  | trigger subject | triggers subject =>
    exact placed_changeTransition (placed_of_group placed inside subject.group) _ _
  | condition text => exact placed_changeTransition placed _ _
  | _ => exact placed

theorem api_changeApi (model : Model) {group : GroupId} (known : group.index < model.groups.size)
    (change : Api → Api) :
    ((changeApi model group change).group group).api.getD {} =
      change ((model.group group).api.getD {}) := by
  rw [changeApi, Model.group_modifyGroup, if_pos ⟨rfl,known⟩]
  rfl

theorem placed_api (sound : builder.Sound) (placed : builder.Placed) {group : GroupId}
    {cursor : ApiCursor} (inside : builder.current = .api group cursor) (record : Record) :
    (builder.applyApi group cursor record).1.Placed := by
  have known : group.index < builder.model.groups.size := by
    have within := sound.within
    rwa [inside] at within
  have there : cursor.Within ((builder.model.group group).api.getD {}) := placed_stay placed inside
  have changed {next : ApiCursor} (change : Api → Api)
      (within : next.Within (change ((builder.model.group group).api.getD {}))) :
      (Section.api group next).Placed (changeApi builder.model group change) := by
    rw [Section.Placed, api_changeApi builder.model known]
    exact within
  have open_ (record : Tag) (change : Api.Function → Api.Function) :
      (builder.changeFunction group cursor record change).1.Placed := by
    unfold changeFunction
    split
    · exact placed
    · change builder.current.Placed _
      rw [inside]
      exact changed _ (there.changeFunction _ change)
  cases record with
  | apiFunction => exact changed _ (there.addFunction _ _)
  | apiAction | apiDescription | apiParameter | apiReturns => exact open_ _ _
  | apiFunctionEnd => exact ⟨nofun,there.type,there.constants⟩
  | apiTypeStart => exact changed _ (there.addType _ _)
  | apiTypeField =>
    obtain ⟨function,type,constants⟩ := cursor
    cases type with
    | none => exact placed
    | some position => exact changed _ (there.changeType position _)
  | apiTypeEnd => exact ⟨there.function,nofun,there.constants⟩
  | apiConstantsStart => exact changed _ (there.addConstants _ _)
  | apiConstant =>
    obtain ⟨function,type,constants⟩ := cursor
    cases constants with
    | none => exact placed
    | some position => exact changed _ (there.changeConstants position _)
  | apiConstantsEnd => exact ⟨there.function,there.type,nofun⟩
  | apiEnd => trivial
  | _ => exact placed

theorem application_changeApplication {model : Model} {position : Nat} {application : Application}
    (document : 0 < model.groups.size) (found : application? model position = some application)
    (change : Application → Application) :
    application? (changeApplication model position change) position = some (change application) := by
  simp only [application?, changeApplication, Model.group_modifyGroup, Model.root, document, and_self,
    if_true] at found ⊢
  rw [Array.getElem?_modify, found]
  simp

theorem placed_application (sound : builder.Sound) (placed : builder.Placed) {position : Nat}
    {opened : Option Nat} (inside : builder.current = .application position opened) (record : Record) :
    (builder.applyApplication position opened record).1.Placed := by
  obtain ⟨application,found⟩ : ∃ application, application? builder.model position = some application := by
    have within := sound.within
    rw [inside] at within
    exact Option.isSome_iff_exists.mp within
  have there : ∀ parent ∈ opened, parent < application.sections.size := by
    intro parent open_
    obtain ⟨same,found',inside⟩ := placed_stay placed inside parent open_
    cases found.symm.trans found'
    exact inside
  have changed (next : Option Nat) (change : Application → Application)
      (within : ∀ parent ∈ next, parent < (change application).sections.size) :
      (Section.application position next).Placed (changeApplication builder.model position change) :=
    fun parent open_ =>
      ⟨_,application_changeApplication sound.document found change,within parent open_⟩
  have kept (change : Application → Application)
      (sections : (change application).sections.size = application.sections.size) :
      builder.current.Placed (changeApplication builder.model position change) := by
    rw [inside]
    exact changed opened change fun parent open_ => sections ▸ there parent open_
  cases record with
  | applicationSection content =>
    refine changed _ _ fun parent open_ => ?_
    rw [found] at open_
    cases open_
    exact application.setSection_lt _ _
  | applicationSubSection content =>
    cases opened with
    | none => exact placed
    | some parent => exact kept _ Array.size_modify
  | applicationOption | applicationCommand | applicationSynopsis => exact kept _ rfl
  | applicationEnd => trivial
  | _ => exact placed

theorem apply_placed (sound : builder.Sound) (placed : builder.Placed) (record : Record) :
    (builder.apply record).1.Placed := by
  unfold apply
  split
  · exact placed
  · obtain ⟨model,current,limits,records⟩ := builder
    have counted : Sound ⟨model,current,limits,records + 1⟩ := ⟨sound.document,sound.within⟩
    cases current with
    | outside =>
      cases record with
      | apiStart => exact ⟨nofun,nofun,nofun⟩
      | applicationStart => exact nofun
      | _ => trivial
    | stateMachine cursor => exact placed_stateMachine counted placed rfl record
    | sequence cursor => cases cursor <;> cases record <;> trivial
    | api group cursor => exact placed_api counted placed rfl record
    | application position opened => exact placed_application counted placed rfl record

/-- The items of the open section are always there. -/
theorem Reachable.placed (reachable : builder.Reachable) : builder.Placed := by
  induction reachable with
  | initial => trivial
  | apply record reachable placed => exact apply_placed reachable.sound placed record

end Builder

end DocGraph
