/-! The tag byte that starts every record, and the label it has in messages. -/
namespace DocGraph

inductive Tag
  | trigger | triggers | condition | itemEnd | blockEnd
  | stateMachineStart | state | transition | stateMachineEnd
  | sequenceStart | timeline | nodeStart | sentMessage | nodeEnd | sequenceEnd
  | apiStart | apiFunction | apiAction | apiDescription | apiParameter | apiReturns | apiFunctionEnd
  | apiTypeStart | apiTypeField | apiTypeEnd | apiConstantsStart | apiConstant | apiConstantsEnd
  | apiEnd | sample
  | applicationStart | applicationSection | applicationSubSection | applicationOption
  | applicationCommand | applicationSynopsis | applicationEnd
  deriving DecidableEq, Repr, Inhabited

namespace Tag

def byte : Tag → UInt8
  | trigger => 0
  | triggers => 1
  | condition => 2
  | itemEnd => 5
  | blockEnd => 6
  | stateMachineStart => 8
  | state => 9
  | transition => 10
  | stateMachineEnd => 11
  | sequenceStart => 12
  | timeline => 13
  | nodeStart => 17
  | sentMessage => 18
  | nodeEnd => 19
  | sequenceEnd => 20
  | apiStart => 21
  | apiFunction => 22
  | apiAction => 23
  | apiDescription => 24
  | apiParameter => 25
  | apiReturns => 26
  | apiFunctionEnd => 27
  | apiTypeStart => 28
  | apiTypeField => 29
  | apiTypeEnd => 30
  | apiConstantsStart => 31
  | apiConstant => 32
  | apiConstantsEnd => 34
  | apiEnd => 35
  | sample => 36
  | applicationStart => 37
  | applicationSection => 38
  | applicationSubSection => 39
  | applicationOption => 40
  | applicationCommand => 41
  | applicationSynopsis => 42
  | applicationEnd => 43

def label : Tag → String
  | trigger => "TRIGGER"
  | triggers => "TRIGGERS"
  | condition => "CONDITION"
  | itemEnd => "END"
  | blockEnd => "BLOCK_END"
  | stateMachineStart => "STATE_MACHINE_START"
  | state => "STATE"
  | transition => "TRANSITION"
  | stateMachineEnd => "STATE_MACHINE_END"
  | sequenceStart => "SEQUENCE_START"
  | timeline => "TIMELINE"
  | nodeStart => "NODE_START"
  | sentMessage => "SENT_MESSAGE"
  | nodeEnd => "NODE_END"
  | sequenceEnd => "SEQUENCE_END"
  | apiStart => "API_START"
  | apiFunction => "API_FUNCTION"
  | apiAction => "API_ACTION"
  | apiDescription => "API_DESCRIPTION"
  | apiParameter => "API_PARAMETER"
  | apiReturns => "API_RETURNS"
  | apiFunctionEnd => "API_FUNCTION_END"
  | apiTypeStart => "API_TYPE_START"
  | apiTypeField => "API_TYPE_FIELD"
  | apiTypeEnd => "API_TYPE_END"
  | apiConstantsStart => "API_CONSTANTS_START"
  | apiConstant => "API_CONSTANT"
  | apiConstantsEnd => "API_CONSTANTS_END"
  | apiEnd => "API_END"
  | sample => "SAMPLE"
  | applicationStart => "APPLICATION_START"
  | applicationSection => "APPLICATION_SECTION"
  | applicationSubSection => "APPLICATION_SUB_SECTION"
  | applicationOption => "APPLICATION_OPTION"
  | applicationCommand => "APPLICATION_COMMAND"
  | applicationSynopsis => "APPLICATION_SYNOPSIS"
  | applicationEnd => "APPLICATION_END"

def all : List Tag := [
  trigger, triggers, condition, itemEnd, blockEnd,
  stateMachineStart, state, transition, stateMachineEnd,
  sequenceStart, timeline, nodeStart, sentMessage, nodeEnd, sequenceEnd,
  apiStart, apiFunction, apiAction, apiDescription, apiParameter, apiReturns, apiFunctionEnd,
  apiTypeStart, apiTypeField, apiTypeEnd, apiConstantsStart, apiConstant, apiConstantsEnd,
  apiEnd, sample,
  applicationStart, applicationSection, applicationSubSection, applicationOption,
  applicationCommand, applicationSynopsis, applicationEnd]

theorem mem_all (tag : Tag) : tag ∈ all := by cases tag <;> decide

def ofByte? (byte : UInt8) : Option Tag := all.find? (·.byte == byte)

def ofLabel? (label : String) : Option Tag := all.find? (·.label == label)

@[simp] theorem ofByte?_byte (tag : Tag) : ofByte? tag.byte = some tag := by cases tag <;> decide

theorem byte_of_ofByte? {byte : UInt8} {tag : Tag} (found : ofByte? byte = some tag) :
    tag.byte = byte := by
  simpa using List.find?_some found

end Tag

end DocGraph
