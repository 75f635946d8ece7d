import DocGraph.Name

/-! The programming interface of a group: functions, types and constants. Each table keeps the
widths of its columns up to date as items are added. -/
namespace DocGraph

/-- The least width of a column. -/
def minColumnWidth : Nat := 4

structure Api.Parameter where
  kind : Name
  name : Name
  brief : Name
  deriving DecidableEq, Repr

structure Api.Return where
  value : Name
  brief : Name
  deriving DecidableEq, Repr

structure Api.Function where
  name : Name
  returnType : Name
  action : Option Name := none
  description : Option Name := none
  parameters : Array Api.Parameter := #[]
  returns : Array Api.Return := #[]
  parameterTypeWidth : Nat := minColumnWidth
  parameterNameWidth : Nat := minColumnWidth
  returnValueWidth : Nat := 0
  deriving DecidableEq, Repr

namespace Api.Function

def addParameter (function : Function) (parameter : Parameter) : Function :=
  { function with
    parameters := function.parameters.push parameter
    parameterTypeWidth := max function.parameterTypeWidth parameter.kind.length
    parameterNameWidth := max function.parameterNameWidth parameter.name.length }

def addReturn (function : Function) (result : Return) : Function :=
  { function with
    returns := function.returns.push result
    returnValueWidth := max function.returnValueWidth result.value.length }

end Api.Function

structure Api.Field where
  kind : Name
  name : Name
  brief : Name
  deriving DecidableEq, Repr

structure Api.DataType where
  name : Name
  description : Name
  fields : Array Api.Field := #[]
  typeWidth : Nat := minColumnWidth
  nameWidth : Nat := minColumnWidth
  deriving DecidableEq, Repr

def Api.DataType.addField (type : Api.DataType) (field : Api.Field) : Api.DataType :=
  { type with
    fields := type.fields.push field
    typeWidth := max type.typeWidth field.kind.length
    nameWidth := max type.nameWidth field.name.length }

structure Api.Constant where
  kind : Name
  name : Name
  value : Name
  brief : Name
  deriving DecidableEq, Repr

/-- Constants under a common heading. -/
structure Api.Constants where
  name : Name
  description : Name
  constants : Array Api.Constant := #[]
  nameWidth : Nat := 0
  valueWidth : Nat := 0
  deriving DecidableEq, Repr

def Api.Constants.addConstant (heading : Api.Constants) (constant : Api.Constant) : Api.Constants :=
  { heading with
    constants := heading.constants.push constant
    nameWidth := max heading.nameWidth constant.name.length
    valueWidth := max heading.valueWidth constant.value.length }

structure Api where
  functions : Array Api.Function := #[]
  types : Array Api.DataType := #[]
  constants : Array Api.Constants := #[]
  deriving DecidableEq, Repr, Inhabited

namespace Api

def addFunction (api : Api) (returnType name : Name) : Api :=
  { api with functions := api.functions.push { name, returnType } }

def addType (api : Api) (name description : Name) : Api :=
  { api with types := api.types.push { name, description } }

def addConstants (api : Api) (name description : Name) : Api :=
  { api with constants := api.constants.push { name, description } }

def changeFunction (api : Api) (position : Nat) (change : Function → Function) : Api :=
  { api with functions := api.functions.modify position change }

def changeType (api : Api) (position : Nat) (change : DataType → DataType) : Api :=
  { api with types := api.types.modify position change }

def changeConstants (api : Api) (position : Nat) (change : Constants → Constants) : Api :=
  { api with constants := api.constants.modify position change }

end Api

end DocGraph
