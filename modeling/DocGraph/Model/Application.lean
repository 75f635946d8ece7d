import DocGraph.Model.Api

/-! Applications: their options, commands, sections and synopses. Sections are keyed by name, and
options by their position. -/
namespace DocGraph

structure Application.OptionEntry where
  id : Nat
  flags : UInt16
  name : Name
  value : Name
  description : Name
  deriving DecidableEq, Repr

structure Application.Command where
  name : Name
  parameters : Name
  description : Name
  deriving DecidableEq, Repr

structure Application.SubSection where
  name : Name
  data : Name
  deriving DecidableEq, Repr

structure Application.Section where
  name : Name
  data : Name
  subSections : Array Application.SubSection := #[]
  deriving DecidableEq, Repr

structure Application.Synopsis where
  name : Name
  /-- Positions in the list of options. -/
  options : Array Nat
  deriving DecidableEq, Repr

structure Application where
  name : Name
  options : Array Application.OptionEntry := #[]
  commands : Array Application.Command := #[]
  sections : Array Application.Section := #[]
  synopses : Array Application.Synopsis := #[]
  optionWidth : Nat := minColumnWidth
  commandWidth : Nat := minColumnWidth
  deriving DecidableEq, Repr

namespace Application

/-- Replaces the data of the sub-section with this name, or adds one. -/
def Section.setSubSection (content : Section) (name data : Name) : Section :=
  match content.subSections.findIdx? (·.name.sameText name) with
  | some index =>
    { content with subSections := content.subSections.modify index ({ · with data }) }
  | none => { content with subSections := content.subSections.push { name, data } }

def addOption (application : Application) (flags : UInt16) (name value description : Name) :
    Application :=
  { application with
    options := application.options.push
      { id := application.options.size, flags, name, value, description }
    optionWidth := max application.optionWidth name.length }

def addCommand (application : Application) (command : Command) : Application :=
  { application with
    commands := application.commands.push command
    commandWidth := max application.commandWidth command.name.length }

/-- Replaces the data of the section with this name, or adds one, and gives its position. -/
def setSection (application : Application) (name data : Name) : Application × Nat :=
  match application.sections.findIdx? (·.name.sameText name) with
  | some index =>
    ({ application with sections := application.sections.modify index ({ · with data }) }, index)
  | none =>
    ({ application with sections := application.sections.push { name, data } },
      application.sections.size)

def changeSection (application : Application) (position : Nat) (change : Section → Section) :
    Application :=
  { application with sections := application.sections.modify position change }

/-- The positions that name an option, and those that name none. -/
def partitionIndexes (application : Application) (indexes : Bytes) : List Nat × List Nat :=
  (indexes.map UInt8.toNat).partition (· < application.options.size)

def addSynopsis (application : Application) (name : Name) (indexes : Bytes) : Application :=
  let options := (application.partitionIndexes indexes).1.toArray
  { application with synopses := application.synopses.push { name, options } }

end Application

end DocGraph
