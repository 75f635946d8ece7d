import DocGraph.Proofs.LinkedMessages
import DocGraph.Proofs.PairedFunctions
import DocGraph.Proofs.SectionTables

/-! Stored widths against the entries of their columns. A message counts for the group of its timeline, which
need not be the group of the section that it is sent in. -/
namespace DocGraph

namespace Name

/-- The length of the longest of some names. -/
def longest (names : List Name) : Nat := (names.map length).max?.getD 0

theorem longest_concat (names : List Name) (name : Name) :
    longest (names ++ [name]) = max (longest names) name.length := by
  have folded (lengths : List Nat) : lengths.max?.getD 0 = lengths.foldl max 0 := by
    rw [List.foldl_max, Nat.zero_max]
  simp only [longest, folded, List.map_append, List.map_cons, List.map_nil, List.foldl_append,
    List.foldl_cons, List.foldl_nil]

/-- A width that covers a column goes on covering it when it is raised to the entry that is added. -/
theorem longest_push {items : Array α} (entry : α → Name) {least width : Nat}
    (fits : width = max least (longest (items.toList.map entry))) (added : α) :
    max width (entry added).length = max least (longest ((items.push added).toList.map entry)) := by
  rw [Array.toList_push, List.map_append, List.map_singleton, longest_concat, fits, Nat.max_assoc]

end Name

structure Api.Function.Fitted (function : Function) : Prop where
  parameterTypes : function.parameterTypeWidth =
    max minColumnWidth (Name.longest (function.parameters.toList.map (·.kind)))
  parameterNames : function.parameterNameWidth =
    max minColumnWidth (Name.longest (function.parameters.toList.map (·.name)))
  returnValues : function.returnValueWidth = Name.longest (function.returns.toList.map (·.value))

structure Api.DataType.Fitted (type : DataType) : Prop where
  types : type.typeWidth = max minColumnWidth (Name.longest (type.fields.toList.map (·.kind)))
  names : type.nameWidth = max minColumnWidth (Name.longest (type.fields.toList.map (·.name)))

structure Api.Constants.Fitted (heading : Constants) : Prop where
  names : heading.nameWidth = Name.longest (heading.constants.toList.map (·.name))
  values : heading.valueWidth = Name.longest (heading.constants.toList.map (·.value))

structure Api.Fitted (api : Api) : Prop where
  functions : ∀ function ∈ api.functions, function.Fitted
  types : ∀ type ∈ api.types, type.Fitted
  constants : ∀ heading ∈ api.constants, heading.Fitted

structure Application.Fitted (application : Application) : Prop where
  options : application.optionWidth =
    max minColumnWidth (Name.longest (application.options.toList.map (·.name)))
  commands : application.commandWidth =
    max minColumnWidth (Name.longest (application.commands.toList.map (·.name)))

/-- The names of the messages that are sent from the timelines of a group. -/
def Model.namesSent (model : Model) (group : GroupId) : List Name :=
  (model.messageIds.filter fun id =>
    (model.timeline (model.message id).sendingTimeline).group = group).map (model.message · |>.name)

structure Model.Fitted (model : Model) : Prop where
  apis : ∀ group, ∀ api ∈ (model.group group).api, api.Fitted
  applications : ∀ group, ∀ application ∈ (model.group group).applications, application.Fitted
  messages : ∀ group, (model.group group).messageWidth = Name.longest (model.namesSent group)

namespace Api

theorem Function.Fitted.addParameter {function : Function} (fitted : function.Fitted)
    (parameter : Parameter) : (function.addParameter parameter).Fitted where
  parameterTypes := Name.longest_push Parameter.kind fitted.parameterTypes parameter
  parameterNames := Name.longest_push Parameter.name fitted.parameterNames parameter
  returnValues := fitted.returnValues

theorem Function.Fitted.addReturn {function : Function} (fitted : function.Fitted) (result : Return) :
    (function.addReturn result).Fitted where
  parameterTypes := fitted.parameterTypes
  parameterNames := fitted.parameterNames
  returnValues := by
    have bound := fitted.returnValues.trans (Nat.zero_max _).symm
    exact (Name.longest_push Return.value bound result).trans (Nat.zero_max _)

theorem DataType.Fitted.addField {type : DataType} (fitted : type.Fitted) (field : Field) :
    (type.addField field).Fitted where
  types := Name.longest_push Field.kind fitted.types field
  names := Name.longest_push Field.name fitted.names field

theorem Constants.Fitted.addConstant {heading : Constants} (fitted : heading.Fitted)
    (constant : Constant) : (heading.addConstant constant).Fitted where
  names := by
    have bound := fitted.names.trans (Nat.zero_max _).symm
    exact (Name.longest_push Constant.name bound constant).trans (Nat.zero_max _)
  values := by
    have bound := fitted.values.trans (Nat.zero_max _).symm
    exact (Name.longest_push Constant.value bound constant).trans (Nat.zero_max _)

variable {api after : Api}

theorem Fitted.addFunction (fitted : api.Fitted) (returnType name : Name) :
    (api.addFunction returnType name).Fitted where
  functions := all_push fitted.functions ⟨rfl,rfl,rfl⟩
  types := fitted.types
  constants := fitted.constants

theorem Fitted.addType (fitted : api.Fitted) (name description : Name) :
    (api.addType name description).Fitted where
  functions := fitted.functions
  types := all_push fitted.types ⟨rfl,rfl⟩
  constants := fitted.constants

theorem Fitted.addConstants (fitted : api.Fitted) (name description : Name) :
    (api.addConstants name description).Fitted where
  functions := fitted.functions
  types := fitted.types
  constants := all_push fitted.constants ⟨rfl,rfl⟩

theorem Fitted.changeFunction (fitted : api.Fitted) (position : Nat) {change : Function → Function}
    (keeps : ∀ function, function.Fitted → (change function).Fitted) :
    (api.changeFunction position change).Fitted where
  functions := all_modify fitted.functions position keeps
  types := fitted.types
  constants := fitted.constants

theorem Fitted.changeType (fitted : api.Fitted) (position : Nat) {change : DataType → DataType}
    (keeps : ∀ type, type.Fitted → (change type).Fitted) :
    (api.changeType position change).Fitted where
  functions := fitted.functions
  types := all_modify fitted.types position keeps
  constants := fitted.constants

theorem Fitted.changeConstants (fitted : api.Fitted) (position : Nat)
    {change : Constants → Constants} (keeps : ∀ heading, heading.Fitted → (change heading).Fitted) :
    (api.changeConstants position change).Fitted where
  functions := fitted.functions
  types := fitted.types
  constants := all_modify fitted.constants position keeps

theorem Fitted.edit (fitted : api.Fitted) (edit : api.Edit after) : after.Fitted := by
  cases edit with
  | function returnType name => exact fitted.addFunction returnType name
  | action position | description position =>
    exact fitted.changeFunction position fun _ fitted => ⟨fitted.1,fitted.2,fitted.3⟩
  | parameter position parameter =>
    exact fitted.changeFunction position fun _ fitted => fitted.addParameter parameter
  | result position result =>
    exact fitted.changeFunction position fun _ fitted => fitted.addReturn result
  | type name description => exact fitted.addType name description
  | field position field => exact fitted.changeType position fun _ fitted => fitted.addField field
  | constants name description => exact fitted.addConstants name description
  | constant position constant =>
    exact fitted.changeConstants position fun _ fitted => fitted.addConstant constant

end Api

theorem Application.setSection_fitted {application : Application} (fitted : application.Fitted)
    (name data : Name) : (application.setSection name data).1.Fitted := by
  unfold setSection
  split
  · exact ⟨fitted.options,fitted.commands⟩
  · exact ⟨fitted.options,fitted.commands⟩

theorem Application.Fitted.after {application : Application} (fitted : application.Fitted)
    (opened : Option Nat) (record : Record) : (application.after opened record).Fitted := by
  cases record with
  | applicationSection content => exact setSection_fitted fitted content.title content.body
  | applicationSubSection content =>
    cases opened with
    | none => exact fitted
    | some parent => exact ⟨fitted.options,fitted.commands⟩
  | applicationOption option =>
    let added : OptionEntry :=
      ⟨application.options.size,option.flags,option.name,option.value,option.description⟩
    exact ⟨Name.longest_push OptionEntry.name fitted.options added,fitted.commands⟩
  | applicationCommand command =>
    let added : Command := ⟨command.kind,command.name,command.brief⟩
    exact ⟨fitted.options,Name.longest_push Command.name fitted.commands added⟩
  | applicationSynopsis => exact ⟨fitted.options,fitted.commands⟩
  | _ => exact fitted

namespace Model

variable {before after model : Model}

/-- What two graphs have to agree on, message by message, to send the same names. -/
structure SameSent (before after : Model) (id : MessageId) : Prop where
  name : (after.message id).name = (before.message id).name
  group : (after.timeline (after.message id).sendingTimeline).group =
    (before.timeline (before.message id).sendingTimeline).group

theorem map_filter_sent (ids : List MessageId) (same : ∀ id ∈ ids, SameSent before after id)
    (group : GroupId) :
    ((ids.filter fun id => (after.timeline (after.message id).sendingTimeline).group = group).map
        (after.message · |>.name)) =
      (ids.filter fun id => (before.timeline (before.message id).sendingTimeline).group = group).map
        (before.message · |>.name) := by
  have kept : (ids.filter fun id =>
        (after.timeline (after.message id).sendingTimeline).group = group) =
      ids.filter fun id => (before.timeline (before.message id).sendingTimeline).group = group :=
    List.filter_congr fun id member => by rw [(same id member).group]
  rw [kept]
  exact List.map_congr_left fun id member => (same id (List.mem_of_mem_filter member)).name

theorem namesSent_of_same (size : after.messages.size = before.messages.size)
    (same : ∀ id, before.HasMessage id → SameSent before after id) (group : GroupId) :
    after.namesSent group = before.namesSent group := by
  have ids : after.messageIds = before.messageIds := by simp only [messageIds, size]
  rw [namesSent, ids]
  exact map_filter_sent _ (fun id member => same id (mem_messageIds_iff.mp member)) group

/-- The width of every group is that of the messages sent from its timelines. -/
def MessagesFit (model : Model) : Prop :=
  ∀ group, (model.group group).messageWidth = Name.longest (model.namesSent group)

theorem MessagesFit.of_same (fit : before.MessagesFit)
    (width : ∀ group, (after.group group).messageWidth = (before.group group).messageWidth)
    (messages : after.messages = before.messages)
    (home : ∀ line, before.HasTimeline line → (after.timeline line).group = (before.timeline line).group)
    (known : before.Known) : after.MessagesFit := by
  intro group
  have same (id : MessageId) (there : before.HasMessage id) : SameSent before after id := by
    have message : after.message id = before.message id := by simp only [Model.message, messages]
    refine ⟨by rw [message],?_⟩
    rw [message]
    exact home _ (known.message there).sendingTimeline
  rw [width, fit, namesSent_of_same (congrArg Array.size messages) same]

theorem MessagesFit.modifyGroup (fit : model.MessagesFit) (known : model.Known) (id : GroupId)
    {change : Group → Group} (keeps : ∀ group, (change group).messageWidth = group.messageWidth) :
    (model.modifyGroup id change).MessagesFit :=
  fit.of_same (field_modifyGroup Group.messageWidth keeps model id) rfl (fun _ _ => rfl) known

theorem messages_addNode (model : Model) (line : TimelineId) (id : UInt16) (flags : Flags) :
    (model.addNode line id flags).1.messages = model.messages := by
  simp only [addNode]
  split
  · rfl
  · rfl

theorem namesSent_addMessage (model : Model) (sender : NodeId) (senderId receiverId : UInt8)
    (target name : Name) (group : GroupId) :
    (model.addMessage sender senderId receiverId target name).1.namesSent group =
      model.namesSent group ++
        if (model.timeline (model.node sender).timeline).group = group then [name] else [] := by
  let after := (model.addMessage sender senderId receiverId target name).1
  have ids : after.messageIds = model.messageIds ++ [⟨model.messages.size⟩] := by
    have size : after.messages.size = model.messages.size + 1 := Array.size_push ..
    rw [messageIds, size, List.range_succ, List.map_append]
    rfl
  have message (id : MessageId) := message_addMessage model sender senderId receiverId target name id
  have old (id : MessageId) (member : id ∈ model.messageIds) : SameSent model after id := by
    have known := mem_messageIds_iff.mp member
    have same : after.message id = model.message id := (message id).trans (if_neg (Nat.ne_of_lt known))
    exact ⟨by rw [same],by rw [same]; rfl⟩
  have added := (message ⟨model.messages.size⟩).trans (if_pos rfl)
  change after.namesSent group = _
  rw [namesSent, ids, List.filter_append, List.map_append, map_filter_sent _ old]
  refine congrArg _ ?_
  have home : after.timeline (after.message ⟨model.messages.size⟩).sendingTimeline =
      model.timeline (model.node sender).timeline := by
    rw [added]
    rfl
  rw [List.filter_singleton, home]
  by_cases here : (model.timeline (model.node sender).timeline).group = group
  · rw [if_pos here, decide_eq_true here, cond_true, List.map_singleton, added]
  · rw [if_neg here, decide_eq_false here, cond_false, List.map_nil]

theorem MessagesFit.addMessage (fit : model.MessagesFit) (known : model.Known) {sender : NodeId}
    (senderId receiverId : UInt8) (target name : Name) (inside : model.HasNode sender) :
    (model.addMessage sender senderId receiverId target name).1.MessagesFit := by
  intro group
  have there := (known.timeline (known.node inside).timeline).group
  have raised := group_modifyGroup model (model.timeline (model.node sender).timeline).group group
    fun group => { group with messageWidth := max group.messageWidth name.length }
  have width : ((model.addMessage sender senderId receiverId target name).1.group group).messageWidth =
      if group = (model.timeline (model.node sender).timeline).group then
        max (model.group group).messageWidth name.length
      else (model.group group).messageWidth := by
    refine (congrArg Group.messageWidth raised).trans ?_
    simp only [there, and_true]
    split
    · rfl
    · rfl
  rw [namesSent_addMessage, width]
  split
  · rename_i here
    rw [if_pos here.symm, Name.longest_concat, fit]
  · rename_i elsewhere
    rw [if_neg fun here => elsewhere here.symm, List.append_nil, fit]

theorem Change.messagesFit (known : before.Known) (fit : before.MessagesFit)
    (change : before.Change after) : after.MessagesFit := by
  have fits := fit.modifyGroup known
  cases change with
  | group name =>
    obtain ⟨_,_,timelines,_,messages⟩ := before.findOrAddGroup_keeps name
    have width := field_findOrAddGroup Group.messageWidth (fun _ => rfl) before name
    refine fit.of_same width messages (fun line _ => ?_) known
    simp only [Model.timeline, timelines]
  | timeline group name =>
    refine fit.of_same ?_ rfl (fun line there => ?_) known
    · refine field_modifyGroup Group.messageWidth ?_ { before with timelines := _ } group
      exact fun _ => rfl
    · rw [timeline_addTimeline, if_neg (Nat.ne_of_lt there)]
  | node line id flags =>
    have groups := (Builder.addNode_sizes before line id flags).1
    refine fit.of_same (fun group => ?_) (before.messages_addNode line id flags)
      (fun other _ => before.group_addNode line id flags other) known
    simp only [Model.group, groups]
  | message sender sending inside => exact fit.addMessage known _ _ _ _ inside
  | application name =>
    simp only [Builder.findOrAddApplication]
    split
    · exact fit
    · exact fits _ fun _ => rfl
  | state group | applicationContent | api group | sample => exact fits _ fun _ => rfl
  | transition | trigger | triggers | guard | condition => exact fit

end Model

theorem Builder.Reachable.messagesFit {builder : Builder} (reachable : builder.Reachable) :
    builder.model.MessagesFit := by
  have all : builder.model.Known ∧ builder.model.MessagesFit := by
    refine reachable.model_holds (P := fun model => model.Known ∧ model.MessagesFit)
      ⟨Model.empty_known,?_⟩ ?_
    · rintro ⟨_ | index⟩ <;> rfl
    · rintro before after ⟨known,fit⟩ change
      exact ⟨change.known known,change.messagesFit known fit⟩
  exact all.2

theorem Builder.Reachable.fitted {builder : Builder} (reachable : builder.Reachable) :
    builder.model.Fitted where
  apis := reachable.api_holds (P := Api.Fitted) ⟨nofun,nofun,nofun⟩ fun _ _ => Api.Fitted.edit
  applications := reachable.application_holds (P := Application.Fitted) (fun _ => ⟨rfl,rfl⟩)
    fun _ opened record fitted => fitted.after opened record
  messages := reachable.messagesFit

namespace Model

variable {before after model : Model}

theorem Fitted.of_same (fitted : before.Fitted) (tables : SameTables before after)
    (width : ∀ group, (after.group group).messageWidth = (before.group group).messageWidth)
    (sent : ∀ group, after.namesSent group = before.namesSent group) : after.Fitted where
  apis group api found := fitted.apis group api (tables.api group ▸ found)
  applications group application member :=
    fitted.applications group application (tables.applications group ▸ member)
  messages group := by rw [width, sent, fitted.messages]

theorem Fitted.nameDocument (fitted : model.Fitted) : (Loaded.nameDocument model).1.Fitted := by
  unfold Loaded.nameDocument
  split
  · split
    · exact fitted
    · refine fitted.of_same (model.sameTables_modifyGroup root ?_ ?_)
        (field_modifyGroup Group.messageWidth ?_ model root) fun _ => rfl
      all_goals exact fun _ => rfl
  · exact fitted

end Model

/-- Linking touches no table, and a message that is delivered stays where it was sent. -/
theorem Builder.Reachable.link_fitted {builder : Builder} (reachable : builder.Reachable)
    (limits : Limits) : (builder.model.link limits).model.Fitted := by
  have groups := (reachable.drawn.lined.link_paired limits).groups
  have delivered := reachable.built.link_delivered limits
  have same (id : MessageId) : Model.SameSent builder.model (builder.model.link limits).model id := by
    have timeline (line : TimelineId) :
        (builder.model.link limits).model.timeline line = builder.model.timeline line := by
      simp only [Model.timeline, delivered.framed.timelines]
    have message : ((builder.model.link limits).model.message id).name =
          (builder.model.message id).name ∧
        ((builder.model.link limits).model.message id).sendingTimeline =
          (builder.model.message id).sendingTimeline := by
      rw [delivered.message]
      unfold Model.delivered
      split
      · split
        · exact ⟨rfl,rfl⟩
        · exact ⟨rfl,rfl⟩
      · exact ⟨rfl,rfl⟩
    exact ⟨message.1,by rw [timeline, message.2]⟩
  refine reachable.fitted.of_same (.of_groups groups) (fun group => ?_) fun group => ?_
  · simp only [Model.group, groups]
  · exact Model.namesSent_of_same delivered.size (fun id _ => same id) group

/-- Every stored width is exact, whatever blocks have come, and in every graph that is loaded. -/
theorem widths_fitted :
    (∀ blocks, (Builder.afterBlocks blocks).model.Fitted) ∧
    ∀ source file loaded, (load source file).result = .ok loaded → loaded.model.Fitted := by
  refine ⟨fun blocks => (Builder.afterBlocks_reachable blocks).fitted,?_⟩
  intro source file loaded found
  obtain ⟨builder,reachable,named,_⟩ := load_reachable found
  rw [named]
  exact (reachable.link_fitted builder.limits).nameDocument

/-- A function with two parameters, a type and a heading of constants, an application, and in the section of
one group a timeline of another group, from which a message is sent. -/
def tabled : List Record :=
  let name (bytes : Bytes) : Name := ⟨bytes,false⟩
  [.apiStart (name [97]), .apiFunction ⟨name [118],name [102],name []⟩,
    .apiParameter ⟨name [112,113,114,115,116,117],name [120],name []⟩,
    .apiParameter ⟨name [105],name [121,122],name []⟩, .apiReturns ⟨name [48],name []⟩, .apiFunctionEnd,
    .apiTypeStart ⟨name [83],name []⟩, .apiTypeField ⟨name [105,110,116],name [119,105,100,116,104],name []⟩,
    .apiTypeField ⟨name [99,111,108,111,117,114],name [105,110,107],name []⟩, .apiTypeEnd,
    .apiConstantsStart ⟨name [76],name []⟩,
    .apiConstant ⟨name [105],name [77,65,88],name [54,53,53,51,53],name []⟩, .apiConstantsEnd, .apiEnd,
    .applicationStart (name [116]), .applicationOption ⟨0,name [45,45,104,101,108,112],name [],name []⟩,
    .applicationCommand ⟨name [98,117,105,108,100],name [],name []⟩, .applicationEnd,
    .sequenceStart (name [97]), .timeline ⟨name [98],name [65]⟩, .nodeStart 1 0,
    .sentMessage ⟨1,2,name [66],name [109,101,115,115]⟩, .sequenceEnd]

/-- A long type makes its column wide, short names leave theirs at the least width, and the message counts
for the group of its timeline. -/
theorem tabled_fitted :
    ∃ bytes loaded, Writer.file {} tabled = .ok bytes ∧
      (load ⟨bytes,[]⟩ "model").result = .ok loaded ∧
      (∃ api ∈ (loaded.model.group ⟨1⟩).api,
        (∃ function ∈ api.functions, function.parameterTypeWidth = 6 ∧ function.parameterNameWidth = 4 ∧
          function.returnValueWidth = 1) ∧
        (∃ type ∈ api.types, type.fields.size = 2 ∧ type.typeWidth = 6 ∧ type.nameWidth = 5) ∧
        ∃ heading ∈ api.constants, heading.constants.size = 1 ∧ heading.nameWidth = 3 ∧
          heading.valueWidth = 5) ∧
      (∃ application ∈ (loaded.model.group Model.root).applications,
        application.optionWidth = 6 ∧ application.commands.size = 1 ∧ application.commandWidth = 5) ∧
      (loaded.model.group ⟨1⟩).messageWidth = 0 ∧ (loaded.model.group ⟨2⟩).messageWidth = 4 := by
  obtain ⟨bytes,written⟩ : ∃ bytes, Writer.file {} tabled = .ok bytes := ⟨_,rfl⟩
  have checked : (graphOf tabled).any fun model =>
      ((model.group ⟨1⟩).api.any fun api =>
        (api.functions.any fun function =>
          Name.longest (function.parameters.toList.map (·.kind)) = 6 ∧
          Name.longest (function.parameters.toList.map (·.name)) = 2 ∧
          Name.longest (function.returns.toList.map (·.value)) = 1) ∧
        (api.types.any fun type => type.fields.size = 2 ∧
          Name.longest (type.fields.toList.map (·.kind)) = 6 ∧
          Name.longest (type.fields.toList.map (·.name)) = 5) ∧
        api.constants.any fun heading => heading.constants.size = 1 ∧
          Name.longest (heading.constants.toList.map (·.name)) = 3 ∧
          Name.longest (heading.constants.toList.map (·.value)) = 5) ∧
      ((model.group Model.root).applications.any fun application =>
        Name.longest (application.options.toList.map (·.name)) = 6 ∧ application.commands.size = 1 ∧
          Name.longest (application.commands.toList.map (·.name)) = 5) ∧
      Name.longest (model.namesSent ⟨1⟩) = 0 ∧ Name.longest (model.namesSent ⟨2⟩) = 4 := by
    decide +kernel
  obtain ⟨loaded,found,holds⟩ := load_graphOf written checked "model"
  obtain ⟨interface,programs,silent,sent⟩ := of_decide_eq_true holds
  have fitted := widths_fitted.2 ⟨bytes,[]⟩ "model" loaded found
  refine ⟨bytes,loaded,written,found,?_,?_,?_,?_⟩
  · obtain ⟨api,there,holds⟩ := (Option.any_eq_true _ _).mp interface
    obtain ⟨functions,types,constants⟩ := of_decide_eq_true holds
    have tables := fitted.apis _ api there
    refine ⟨api,there,?_,?_,?_⟩
    · obtain ⟨function,member,lengths⟩ := Array.any_eq_true'.mp functions
      obtain ⟨kinds,names,values⟩ := of_decide_eq_true lengths
      have widths := tables.functions function member
      refine ⟨function,member,?_,?_,?_⟩
      · rw [widths.parameterTypes, kinds]
        rfl
      · rw [widths.parameterNames, names]
        rfl
      · rw [widths.returnValues, values]
    · obtain ⟨type,member,lengths⟩ := Array.any_eq_true'.mp types
      obtain ⟨count,kinds,names⟩ := of_decide_eq_true lengths
      have widths := tables.types type member
      refine ⟨type,member,count,?_,?_⟩
      · rw [widths.types, kinds]
        rfl
      · rw [widths.names, names]
        rfl
    · obtain ⟨heading,member,lengths⟩ := Array.any_eq_true'.mp constants
      obtain ⟨count,names,values⟩ := of_decide_eq_true lengths
      have widths := tables.constants heading member
      exact ⟨heading,member,count,widths.names.trans names,widths.values.trans values⟩
  · obtain ⟨application,member,lengths⟩ := Array.any_eq_true'.mp programs
    obtain ⟨options,count,commands⟩ := of_decide_eq_true lengths
    have widths := fitted.applications _ application member
    refine ⟨application,member,?_,count,?_⟩
    · rw [widths.options, options]
      rfl
    · rw [widths.commands, commands]
      rfl
  · rw [fitted.messages, silent]
  · rw [fitted.messages, sent]

end DocGraph
