import DocGraph.Name
import DocGraph.Record.Tag

/-! The records of a model file. Records with one layout share a shape; a record is a tag with the
fields of its shape. Only texts whose layout has a mark for fixed text keep that mark in a file. -/
namespace DocGraph

/-- A name and the group it belongs to. -/
structure Qualified where
  group : Name
  name : Name
  deriving DecidableEq, Repr

/-- A short title over a longer body; the body keeps its mark. -/
structure Titled where
  title : Name
  body : Name
  deriving DecidableEq, Repr

/-- Something with a kind, a name and a brief description; the description keeps its mark. -/
structure Declaration where
  kind : Name
  name : Name
  brief : Name
  deriving DecidableEq, Repr

structure ConstantDeclaration where
  kind : Name
  name : Name
  value : Name
  brief : Name
  deriving DecidableEq, Repr

/-- A command line option of an application; all of its texts keep their marks. -/
structure OptionDeclaration where
  flags : UInt16
  name : Name
  value : Name
  description : Name
  deriving DecidableEq, Repr

/-- A form in which an application is called, with the positions of the options it takes. -/
structure SynopsisDeclaration where
  name : Name
  indexes : Bytes
  deriving DecidableEq, Repr

/-- A message from one node to another, by the node numbers of the file. -/
structure Sending where
  sender : UInt8
  receiver : UInt8
  timeline : Name
  message : Name
  deriving DecidableEq, Repr

inductive Record
  | trigger (subject : Qualified)
  | triggers (subject : Qualified)
  | condition (text : Name)
  | itemEnd
  | blockEnd
  | stateMachineStart (group : Name)
  | state (id : UInt16) (subject : Qualified)
  | transition (target : UInt16)
  | stateMachineEnd
  | sequenceStart (group : Name)
  | timeline (subject : Qualified)
  | nodeStart (id : UInt16) (flags : UInt32)
  | sentMessage (sending : Sending)
  | nodeEnd
  | sequenceEnd
  | apiStart (group : Name)
  | apiFunction (function : Declaration)
  | apiAction (text : Name)
  | apiDescription (text : Name)
  | apiParameter (parameter : Declaration)
  | apiReturns (result : Titled)
  | apiFunctionEnd
  | apiTypeStart (type : Titled)
  | apiTypeField (field : Declaration)
  | apiTypeEnd
  | apiConstantsStart (constants : Titled)
  | apiConstant (constant : ConstantDeclaration)
  | apiConstantsEnd
  | apiEnd
  | sample (sample : Titled)
  | applicationStart (application : Name)
  | applicationSection (content : Titled)
  | applicationSubSection (content : Titled)
  | applicationOption (option : OptionDeclaration)
  | applicationCommand (command : Declaration)
  | applicationSynopsis (synopsis : SynopsisDeclaration)
  | applicationEnd
  deriving DecidableEq, Repr

def Record.tag : Record → Tag
  | trigger _ => .trigger
  | triggers _ => .triggers
  | condition _ => .condition
  | itemEnd => .itemEnd
  | blockEnd => .blockEnd
  | stateMachineStart _ => .stateMachineStart
  | state _ _ => .state
  | transition _ => .transition
  | stateMachineEnd => .stateMachineEnd
  | sequenceStart _ => .sequenceStart
  | timeline _ => .timeline
  | nodeStart _ _ => .nodeStart
  | sentMessage _ => .sentMessage
  | nodeEnd => .nodeEnd
  | sequenceEnd => .sequenceEnd
  | apiStart _ => .apiStart
  | apiFunction _ => .apiFunction
  | apiAction _ => .apiAction
  | apiDescription _ => .apiDescription
  | apiParameter _ => .apiParameter
  | apiReturns _ => .apiReturns
  | apiFunctionEnd => .apiFunctionEnd
  | apiTypeStart _ => .apiTypeStart
  | apiTypeField _ => .apiTypeField
  | apiTypeEnd => .apiTypeEnd
  | apiConstantsStart _ => .apiConstantsStart
  | apiConstant _ => .apiConstant
  | apiConstantsEnd => .apiConstantsEnd
  | apiEnd => .apiEnd
  | sample _ => .sample
  | applicationStart _ => .applicationStart
  | applicationSection _ => .applicationSection
  | applicationSubSection _ => .applicationSubSection
  | applicationOption _ => .applicationOption
  | applicationCommand _ => .applicationCommand
  | applicationSynopsis _ => .applicationSynopsis
  | applicationEnd => .applicationEnd

end DocGraph
