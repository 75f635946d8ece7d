import DocGraph.Proofs.Catalogues
import DocGraph.Proofs.IndependentSections
import DocGraph.Proofs.LastingItems

/-! Applications over a whole run of records. A record is noted with the names of what is open when it comes,
so that an application that is closed and opened again is told together. -/
namespace DocGraph

namespace Builder

/-- The records of a block that are applied, up to the first that is rejected; that one is applied too. -/
def taken (builder : Builder) (block : Bytes) : List Record :=
  match found : Record.decode block with
  | .error _ => []
  | .ok (record, rest) =>
    have := Record.length_decode_lt found
    match builder.apply record with
    | (_, some _) => [record]
    | (after, none) => record :: after.taken rest
termination_by block.length

/-- The records of numbered blocks that are applied. -/
def given (builder : Builder) : List (Nat × Bytes) → List Record
  | [] => []
  | (_, block) :: rest =>
    let records := builder.taken block
    records ++ (builder.afterRecords records).given rest

theorem addRecords_taken (builder : Builder) (notices : List Notice) (block : Bytes) :
    (builder.addRecords notices block).builder = builder.afterRecords (builder.taken block) := by
  fun_induction taken builder block generalizing notices with
  | case1 builder block cause found =>
    rw [addRecords]
    split
    · rfl
    · split
      · rfl
      · rename_i same
        rw [found] at same
        cases same
  | case2 builder block record rest found _ after reason applied =>
    rw [addRecords_decoded found, applied]
    simp only [afterRecords, List.foldl_cons, List.foldl_nil, applied]
  | case3 builder block record rest found _ after applied ih =>
    rw [addRecords_decoded found, applied]
    simp only [afterRecords, List.foldl_cons, applied]
    exact ih _

/-- Records that are written one behind another, and accepted, are the ones that are applied. -/
theorem taken_accepted {builder after : Builder} {records : List Record}
    (writable : ∀ record ∈ records, record.Writable)
    (accepted : builder.applyAll (records.map Record.plain) = some after) :
    builder.taken (records.flatMap Record.bytes) = records.map Record.plain := by
  induction records generalizing builder with
  | nil =>
    rw [List.flatMap_nil, taken]
    split
    · rfl
    · rename_i found
      cases found
  | cons record rest ih =>
    have here := writable record List.mem_cons_self
    obtain ⟨taken_,later⟩ := applyAll_cons_iff.mp accepted
    have decoded := Record.decode_encode here.encoded here.open_ (rest.flatMap Record.bytes)
    rw [List.flatMap_cons, taken]
    split
    · rename_i found
      rw [decoded] at found
      cases found
    · rename_i found
      rw [decoded] at found
      cases found
      split
      · rename_i applied
        rw [applied] at taken_
        cases taken_
      · rename_i applied
        rw [applied] at later
        rw [ih (fun record later => writable record (List.mem_cons_of_mem _ later)) later]
        rfl

theorem addBlock_taken (builder : Builder) (number : Nat) (block : Bytes) :
    (builder.addBlock number block).builder = builder.afterRecords (builder.taken block) := by
  rw [← addRecords_taken builder [] block]
  unfold addBlock
  dsimp only
  split
  · rfl
  · rfl

theorem afterRecords_append (builder : Builder) (earlier later : List Record) :
    builder.afterRecords (earlier ++ later) = (builder.afterRecords earlier).afterRecords later :=
  List.foldl_append ..

theorem afterBlocks_given (blocks : List (Nat × Bytes)) :
    afterBlocks blocks = afterRecords {} (given {} blocks) := by
  have run (builder : Builder) :
      blocks.foldl (fun builder block => (builder.addBlock block.1 block.2).builder) builder =
        builder.afterRecords (builder.given blocks) := by
    induction blocks generalizing builder with
    | nil => rfl
    | cons block rest ih =>
      rw [List.foldl_cons, addBlock_taken, ih, given, afterRecords_append]
  exact run {}

end Builder

/-- What is open when a record comes. -/
inductive Context
  | outside
  /-- A section of another kind. -/
  | elsewhere (kind : Mode)
  /-- The application of a name, and a section of it. -/
  | application (name : Bytes) (opened : Option Bytes)
  deriving DecidableEq, Repr

abbrev Note := Context × Record

namespace Context

def after : Context → Record → Context
  | outside, .applicationStart name => application name.bytes none
  | outside, .stateMachineStart _ => elsewhere .stateMachine
  | outside, .sequenceStart _ => elsewhere .sequence
  | outside, .apiStart _ => elsewhere .api
  | outside, _ => outside
  | elsewhere kind, record => if record.tag.closes = some kind then outside else elsewhere kind
  | application name _, .applicationSection content => application name (some content.title.bytes)
  | application _ _, .applicationEnd => outside
  | application name opened, _ => application name opened

def notes : Context → List Record → List Note
  | _, [] => []
  | context, record :: rest => (context, record) :: (context.after record).notes rest

end Context

namespace Note

/-- The name of the application that the record starts or opens again. -/
def starts? : Note → Option Bytes
  | (.outside, .applicationStart name) => some name.bytes
  | _ => none

/-- The record as an entry of the application of a name. -/
def entryOf? (name : Bytes) : Note → Option Entry
  | (.application other opened, record) => if other = name then some (opened, record) else none
  | _ => none

def started (notes : List Note) : List Bytes := notes.filterMap starts?

def entries (notes : List Note) (name : Bytes) : List Entry := notes.filterMap (entryOf? name)

theorem started_concat (notes : List Note) (note : Note) :
    started (notes ++ [note]) = started notes ++ (starts? note).toList := by
  rw [started, List.filterMap_append]
  cases found : starts? note <;> simp [found,started]

theorem entries_concat (notes : List Note) (note : Note) (name : Bytes) :
    entries (notes ++ [note]) name = entries notes name ++ (entryOf? name note).toList := by
  rw [entries, List.filterMap_append]
  cases found : entryOf? name note <;> simp [found,entries]

end Note

def Model.applications (model : Model) : Array Application := (model.group root).applications

/-- What is open in a builder, when the document has these applications. -/
def Context.Tells (current : Section) (applications : Array Application) : Context → Prop
  | outside => current = .outside
  | elsewhere kind => current.mode = kind ∧ kind ≠ .topLevel ∧ kind ≠ .application
  | application name opened => ∃ position place application,
      current = .application position place ∧ applications[position]? = some application ∧
      application.name.bytes = name ∧ application.opens place = opened.map some

namespace Application

theorem name_after (application : Application) (opened : Option Nat) (record : Record) :
    (application.after opened record).name = application.name := by
  cases record with
  | applicationSection content =>
    change (application.setSection content.title content.body).1.name = application.name
    unfold setSection
    split
    · rfl
    · rfl
  | applicationSubSection => cases opened <;> rfl
  | _ => rfl

theorem opens_setSection (application : Application) (name data : Name) :
    (application.setSection name data).1.opens (some (application.setSection name data).2) =
      some (some name.bytes) := by
  unfold setSection
  split
  · rename_i index found
    obtain ⟨content,there,same⟩ := named_of_findIdx? Section.name found
    simp [opens,Array.getElem?_modify,there,same]
  · simp [opens]

/-- Only records of sections change where sections stand. -/
theorem opens_after (application : Application) (opened place : Option Nat) {record : Record}
    (other : record.section? = none) :
    (application.after opened record).opens place = application.opens place := by
  cases record with
  | applicationSection => cases other
  | applicationSubSection given =>
    cases opened with
    | none => rfl
    | some parent =>
      have same : (application.sections.modify parent (·.setSubSection given.title given.body)).map
          (·.name.bytes) = application.sections.map (·.name.bytes) := by
        refine map_modify_of_same (fun content => ?_) application.sections parent
        exact congrArg (·.1.bytes) (content.row_setSubSection given.title given.body)
      refine congrArg place.map (funext fun index => ?_)
      have there := congrArg (·[index]?) same
      simp only [Array.getElem?_map] at there
      exact there
  | _ => rfl

end Application

namespace Builder

variable {builder : Builder}

theorem findOrAddApplication_at {model : Model} (document : 0 < model.groups.size) (name : Name) :
    ∃ application, (findOrAddApplication model name).1.applications[(findOrAddApplication model
      name).2]? = some application ∧ application.name.bytes = name.bytes := by
  rw [Model.applications, applications_findOrAddApplication document]
  simp only [findOrAddApplication, Section.applications]
  cases found : (model.group Model.root).applications.findIdx? (·.name.sameText name) with
  | some position =>
    exact named_of_findIdx? Application.name found
  | none => exact ⟨_,Array.getElem?_push_size,rfl⟩

theorem tells_outside (sound : builder.Sound) (outside : builder.current = .outside) (record : Record) :
    (Context.outside.after record).Tells (builder.apply record).1.current
      (builder.apply record).1.model.applications := by
  obtain ⟨model,current,limits,records⟩ := builder
  cases outside
  cases record with
  | applicationStart name =>
    obtain ⟨application,found,named⟩ := findOrAddApplication_at sound.document name
    exact ⟨_,none,application,rfl,found,named,rfl⟩
  | stateMachineStart | sequenceStart | apiStart => exact ⟨rfl,nofun,nofun⟩
  | _ => rfl

theorem tells_elsewhere (sound : builder.Sound) {kind : Mode} (inside : builder.mode = kind)
    (within : kind ≠ .topLevel) (other : kind ≠ .application) (record : Record) :
    ((Context.elsewhere kind).after record).Tells (builder.apply record).1.current
      (builder.apply record).1.model.applications := by
  have stage : builder.current.stage.mode = kind := (Section.mode_stage _).trans inside
  have mode := mode_apply sound record
  simp only [Context.after]
  split
  · rename_i closes
    rw [Stage.step_closes (closes.trans (congrArg some stage.symm))] at mode
    exact outside_of_mode mode
  · rename_i open_
    subst stage
    exact ⟨mode.trans (Stage.step_inside within open_),within,other⟩

theorem tells_application (sound : builder.Sound) {position : Nat} {place : Option Nat}
    (inside : builder.current = .application position place) {application : Application}
    (there : builder.model.applications[position]? = some application) {opened : Option Bytes}
    (opens : application.opens place = opened.map some) (record : Record) :
    ((Context.application application.name.bytes opened).after record).Tells
      (builder.apply record).1.current (builder.apply record).1.model.applications := by
  have applications := apply_applications sound record
  rw [inside] at applications
  have changed : (builder.apply record).1.model.applications[position]? =
      some (application.after place record) := by
    rw [Model.applications, applications]
    exact (Array.getElem?_modify ..).trans (by rw [if_pos rfl]; exact congrArg _ there)
  have named := congrArg Name.bytes (application.name_after place record)
  have stays (current : (builder.apply record).1.current = .application position place)
      (other : record.section? = none) : (Context.application application.name.bytes opened).Tells
        (builder.apply record).1.current (builder.apply record).1.model.applications :=
    ⟨position,place,_,current,changed,named,(application.opens_after place place other).trans opens⟩
  obtain ⟨model,current,limits,records⟩ := builder
  cases inside
  cases record with
  | applicationSection content =>
    refine ⟨position,some (application.setSection content.title content.body).2,_,?_,changed,named,?_⟩
    · change Section.application position ((application? model position).map fun application =>
        (application.setSection content.title content.body).2) = _
      rw [application?, ← Model.applications, there]
      rfl
    · exact application.opens_setSection content.title content.body
  | applicationEnd => rfl
  | applicationSubSection => cases place <;> exact stays rfl rfl
  | _ => exact stays rfl rfl

theorem tells_apply (sound : builder.Sound) {context : Context}
    (tells : context.Tells builder.current builder.model.applications) (record : Record) :
    (context.after record).Tells (builder.apply record).1.current
      (builder.apply record).1.model.applications := by
  cases context with
  | outside => exact tells_outside sound tells record
  | elsewhere kind => exact tells_elsewhere sound tells.1 tells.2.1 tells.2.2 record
  | application name opened =>
    obtain ⟨position,place,application,inside,there,rfl,opens⟩ := tells
    exact tells_application sound inside there opens record

/-- The document has the applications that notes tell of. -/
structure Told (builder : Builder) (context : Context) (notes : List Note) : Prop where
  tells : context.Tells builder.current builder.model.applications
  names : builder.model.applications.toList.map (·.name.bytes) = (Note.started notes).eraseDups
  filed : ∀ application ∈ builder.model.applications,
    application.Filed (Note.entries notes application.name.bytes)
  unknown : ∀ name, name ∉ Note.started notes → Note.entries notes name = []

variable {context : Context} {notes : List Note}

theorem initial_told : Told {} .outside [] :=
  ⟨rfl,rfl,nofun,fun _ _ => rfl⟩

theorem Told.mem_started_iff (told : builder.Told context notes) {name : Bytes} :
    name ∈ Note.started notes ↔ ∃ application ∈ builder.model.applications,
      application.name.bytes = name := by
  rw [← List.mem_eraseDups, ← told.names, List.mem_map]
  simp only [Array.mem_toList_iff]

theorem Told.skip (told : builder.Told context notes) {after : Builder} {record : Record}
    {context' : Context} (tells : context'.Tells after.current after.model.applications)
    (same : after.model.applications = builder.model.applications)
    (starts : Note.starts? (context,record) = none)
    (entry : ∀ name, Note.entryOf? name (context,record) = none) :
    after.Told context' (notes ++ [(context,record)]) := by
  have started : Note.started (notes ++ [(context,record)]) = Note.started notes := by
    rw [Note.started_concat, starts, Option.toList_none, List.append_nil]
  have entries (name : Bytes) :
      Note.entries (notes ++ [(context,record)]) name = Note.entries notes name := by
    rw [Note.entries_concat, entry, Option.toList_none, List.append_nil]
  refine ⟨tells,?_,?_,?_⟩
  · rw [started, same]
    exact told.names
  · simp only [entries, same]
    exact told.filed
  · simp only [entries, started]
    exact told.unknown

theorem Told.start (told : builder.Told .outside notes) (name : Name) {after : Builder}
    {context' : Context} (tells : context'.Tells after.current after.model.applications)
    (changed : after.model.applications =
      Section.outside.applications (.applicationStart name) builder.model.applications) :
    after.Told context' (notes ++ [(.outside,.applicationStart name)]) := by
  have started : Note.started (notes ++ [(.outside,.applicationStart name)]) =
      Note.started notes ++ [name.bytes] := Note.started_concat ..
  have entries (other : Bytes) : Note.entries (notes ++ [(.outside,.applicationStart name)]) other =
      Note.entries notes other := by
    rw [Note.entries_concat]
    exact List.append_nil _
  have unknown (other : Bytes) (missing : other ∉ Note.started notes ++ [name.bytes]) :
      Note.entries notes other = [] :=
    told.unknown other fun member => missing (List.mem_append_left _ member)
  simp only [Section.applications] at changed
  cases found : builder.model.applications.findIdx? (·.name.sameText name) with
  | some position =>
    obtain ⟨application,there,same⟩ := named_of_findIdx? Application.name found
    have known : name.bytes ∈ Note.started notes :=
      told.mem_started_iff.mpr ⟨application,Array.mem_of_getElem? there,same⟩
    simp only [found] at changed
    refine ⟨tells,?_,?_,?_⟩
    · rw [started, eraseDups_concat, if_pos known, changed]
      exact told.names
    · simp only [entries, changed]
      exact told.filed
    · simp only [entries, started]
      exact unknown
  | none =>
    have fresh : name.bytes ∉ Note.started notes := by
      intro member
      obtain ⟨application,there,same⟩ := told.mem_started_iff.mp member
      exact apart_of_findIdx? Application.name found application there same
    simp only [found] at changed
    refine ⟨tells,?_,?_,?_⟩
    · rw [started, eraseDups_concat, if_neg fresh, changed, Array.toList_push, List.map_append,
        told.names]
      rfl
    · simp only [entries, changed]
      refine all_push told.filed ?_
      rw [told.unknown name.bytes fresh]
      exact Application.filed_new name
    · simp only [entries, started]
      exact unknown

theorem Told.unique (told : builder.Told context notes) {i j : Nat} {application other : Application}
    (here : builder.model.applications[i]? = some application)
    (there : builder.model.applications[j]? = some other)
    (same : application.name.bytes = other.name.bytes) : i = j := by
  have once : (builder.model.applications.toList.map (·.name.bytes)).Nodup := by
    rw [told.names]
    exact nodup_eraseDups _
  exact place_unique _ once here there same

theorem Told.extend {position : Nat} {place : Option Nat} {application : Application}
    {opened : Option Bytes}
    (told : builder.Told (.application application.name.bytes opened) notes)
    (there : builder.model.applications[position]? = some application)
    (opens : application.opens place = opened.map some) (record : Record) {after : Builder}
    {context' : Context} (tells : context'.Tells after.current after.model.applications)
    (changed : after.model.applications =
      builder.model.applications.modify position (·.after place record)) :
    after.Told context' (notes ++ [(.application application.name.bytes opened,record)]) := by
  have started : Note.started (notes ++ [(.application application.name.bytes opened,record)]) =
      Note.started notes := by
    rw [Note.started_concat]
    exact List.append_nil _
  have own : Note.entries (notes ++ [(.application application.name.bytes opened,record)])
      application.name.bytes = Note.entries notes application.name.bytes ++ [(opened,record)] := by
    rw [Note.entries_concat, Note.entryOf?, if_pos rfl, Option.toList_some]
  have others {name : Bytes} (apart : application.name.bytes ≠ name) :
      Note.entries (notes ++ [(.application application.name.bytes opened,record)]) name =
        Note.entries notes name := by
    rw [Note.entries_concat, Note.entryOf?, if_neg apart, Option.toList_none, List.append_nil]
  have member := Array.mem_of_getElem? there
  refine ⟨tells,?_,?_,?_⟩
  · have names : (builder.model.applications.modify position (·.after place record)).toList.map
        (·.name.bytes) = builder.model.applications.toList.map (·.name.bytes) :=
      toList_map_modify (fun other : Application =>
        congrArg Name.bytes (other.name_after place record)) _ position
    rw [started, changed, names]
    exact told.names
  · intro other inside
    obtain ⟨index,at_⟩ := Array.mem_iff_getElem?.mp inside
    rw [changed, Array.getElem?_modify] at at_
    by_cases here : position = index
    · subst here
      rw [if_pos rfl, there] at at_
      cases at_
      rw [Application.name_after, own]
      exact (told.filed application member).after opens record
    · rw [if_neg here] at at_
      have apart : application.name.bytes ≠ other.name.bytes := fun same =>
        here (told.unique there at_ same)
      rw [others apart]
      exact told.filed other (Array.mem_of_getElem? at_)
  · intro name missing
    rw [started] at missing
    rw [others fun same => missing (told.mem_started_iff.mpr ⟨application,member,same⟩)]
    exact told.unknown name missing

/-- Sections of other kinds leave the applications alone. -/
theorem applications_elsewhere (sound : builder.Sound) (within : builder.mode ≠ .topLevel)
    (other : builder.mode ≠ .application) (record : Record) :
    (builder.apply record).1.model.applications = builder.model.applications := by
  refine (apply_applications sound record).trans ?_
  unfold mode at within other
  cases current : builder.current with
  | outside =>
    rw [current] at within
    exact absurd rfl within
  | application =>
    rw [current] at other
    exact absurd rfl other
  | _ => rfl

theorem Told.apply (sound : builder.Sound) (told : builder.Told context notes) (record : Record) :
    (builder.apply record).1.Told (context.after record) (notes ++ [(context,record)]) := by
  have tells := tells_apply sound told.tells record
  have applications := apply_applications sound record
  cases context with
  | outside =>
    rw [show builder.current = .outside from told.tells] at applications
    cases record with
    | applicationStart name => exact told.start name tells applications
    | _ => exact told.skip tells applications rfl fun _ => rfl
  | elsewhere kind =>
    obtain ⟨rfl,within,other⟩ := told.tells
    exact told.skip tells (applications_elsewhere sound within other record) rfl fun _ => rfl
  | application name opened =>
    obtain ⟨position,place,application,inside,there,rfl,opens⟩ := told.tells
    rw [inside] at applications
    exact told.extend there opens record tells applications

theorem Told.afterRecords (reachable : builder.Reachable) (told : builder.Told context notes)
    (records : List Record) :
    ∃ context', (builder.afterRecords records).Told context' (notes ++ context.notes records) := by
  induction records generalizing builder context notes with
  | nil => exact ⟨context,by simpa [Context.notes, Builder.afterRecords] using told⟩
  | cons record rest ih =>
    obtain ⟨context',later⟩ := ih (.apply record reachable) (told.apply reachable.sound record)
    rw [List.append_assoc] at later
    exact ⟨context',later⟩

/-- The document has one application for each name that was started, in the order in which they first
were, and each holds what its records say, given in one place or in several. Names of applications, of the
sections of one and of the sub-sections of a section are different, and the ids of options are their
positions. -/
theorem afterBlocks_applications (blocks : List (Nat × Bytes)) :
    let records := given {} blocks
    let notes := Context.outside.notes records
    let applications := (afterBlocks blocks).model.applications
    afterBlocks blocks = afterRecords {} records ∧
    applications.toList.map (·.name.bytes) = (Note.started notes).eraseDups ∧
    (applications.toList.map (·.name.bytes)).Nodup ∧
    ∀ application ∈ applications, application.Filed (Note.entries notes application.name.bytes) ∧
      (application.sections.toList.map (·.name.bytes)).Nodup ∧
      (∀ content ∈ application.sections, (content.subSections.toList.map (·.name.bytes)).Nodup) ∧
      ∀ position (option : Application.OptionEntry),
        application.options[position]? = some option → option.id = position := by
  intro records notes applications
  have same : afterBlocks blocks = afterRecords {} records := afterBlocks_given blocks
  obtain ⟨context,told⟩ := initial_told.afterRecords .initial records
  rw [List.nil_append, ← same] at told
  refine ⟨same,told.names,?_,fun application member => ?_⟩
  · rw [told.names]
    exact nodup_eraseDups _
  · have filed := told.filed application member
    refine ⟨filed,?_,fun content inside => ?_,fun position option found => ?_⟩
    · simpa [Function.comp_def, Application.Section.row] using filed.sections.nodup
    · simpa [Function.comp_def, Application.SubSection.row] using (filed.subSections content inside).nodup
    · rw [← Array.getElem?_toList, filed.options, List.getElem?_mapIdx] at found
      obtain ⟨declared,_,rfl⟩ := Option.map_eq_some_iff.mp found
      rfl

end Builder

/-- An application is closed and opened again, another comes in between, and a section is given twice. -/
def reopened : List Record :=
  let name (letter : UInt8) : Name := ⟨[letter],false⟩
  let option (letter : UInt8) : Record := .applicationOption ⟨0,name letter,name 118,name 100⟩
  [.applicationStart (name 116), .applicationSection ⟨name 97,name 49⟩,
    .applicationSubSection ⟨name 120,name 50⟩, option 111, .applicationSynopsis ⟨name 115,[0,1]⟩,
    .applicationEnd, .applicationStart (name 117), .applicationEnd, .applicationStart (name 116),
    .applicationSection ⟨name 98,name 51⟩, .applicationSection ⟨name 97,name 52⟩,
    .applicationSubSection ⟨name 121,name 53⟩, option 112, .applicationSynopsis ⟨name 115,[1,7,0]⟩]

/-- The application has both sections, the first with its later data and with the sub-sections of both
places, and the second synopsis names both options. -/
theorem reopened_applications :
    let applications := (Builder.afterBlocks [(0,reopened.flatMap Record.bytes)]).model.applications
    applications.toList.map (·.name.bytes) = [[116],[117]] ∧
    ∀ application ∈ applications, application.name.bytes = [116] →
      application.sections.toList.map (·.name.bytes) = [[97],[98]] ∧
      (∀ content ∈ application.sections, content.name.bytes = [97] → content.data.bytes = [52] ∧
        content.subSections.toList.map (·.name.bytes) = [[120],[121]]) ∧
      application.synopses[1]?.map (·.options) = some #[1,0] := by
  have writable : ∀ record ∈ reopened, record.Writable := by
    have checked : ∀ record ∈ reopened, record ≠ .blockEnd ∧ record.encode = .ok record.bytes := by
      decide +kernel
    exact fun record member => ⟨(checked record member).1,(checked record member).2⟩
  have accepted : (Builder.applyAll {} (reopened.map Record.plain)).isSome := by decide +kernel
  have given : Builder.given {} [(0,reopened.flatMap Record.bytes)] = reopened := by
    obtain ⟨_,applied⟩ := Option.isSome_iff_exists.mp accepted
    have plain : reopened.map Record.plain = reopened := by decide +kernel
    rw [Builder.given, Builder.given, List.append_nil, Builder.taken_accepted writable applied, plain]
  obtain ⟨_,names,_,filed⟩ :=
    Builder.afterBlocks_applications [(0,reopened.flatMap Record.bytes)]
  rw [given] at names filed
  refine ⟨names.trans (by decide +kernel),fun application member named => ?_⟩
  obtain ⟨held,_⟩ := filed application member
  rw [named] at held
  let entries := Note.entries (Context.outside.notes reopened) [116]
  refine ⟨?_,fun content inside named => ⟨?_,?_⟩,?_⟩
  · have keys := held.sections.keys
    rw [List.map_map] at keys
    exact keys.trans (by decide +kernel)
  · have body := (held.sections.said content.row
      (List.mem_map_of_mem (Array.mem_toList_iff.mpr inside))).body
    have last : (Titled.under (Entry.sections entries) [97]).getLast?.map (·.body) =
        some ⟨[52],false⟩ := by decide +kernel
    rw [show content.row.1.bytes = [97] from named, last] at body
    exact congrArg Name.bytes (Option.some.inj body).symm
  · have keys := (held.subSections content inside).keys
    rw [List.map_map, named] at keys
    exact keys.trans (by decide +kernel)
  · have split : entries = entries.take 9 ++
        (some [97],.applicationSynopsis ⟨⟨[115],false⟩,[1,7,0]⟩) :: [] := by decide +kernel
    have earlier : (Entry.synopses (entries.take 9)).length = 1 ∧
        (Entry.options (entries.take 9)).length = 2 := by decide +kernel
    have there := held.synopses _ _ _ _ split
    rw [earlier.1, earlier.2] at there
    exact congrArg (Option.map (·.options)) there

end DocGraph
