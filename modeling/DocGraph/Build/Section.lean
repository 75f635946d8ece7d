import DocGraph.Fault
import DocGraph.Model.Basic

/-! The section of a model file that is open, with the items inside it that later records extend. -/
namespace DocGraph

inductive StateCursor
  | idle
  | state (id : StateId)
  /-- A transition of a state, by position. -/
  | transition (state : StateId) (position : Nat)
  deriving DecidableEq, Repr

inductive SequenceCursor
  | idle
  | timeline (id : TimelineId)
  | node (timeline : TimelineId) (id : NodeId)
  deriving DecidableEq, Repr

/-- The open function, type and heading of constants of an api section, by position. -/
structure ApiCursor where
  function : Option Nat := none
  type : Option Nat := none
  constants : Option Nat := none
  deriving DecidableEq, Repr

inductive Section
  | outside
  | stateMachine (cursor : StateCursor)
  | sequence (cursor : SequenceCursor)
  | api (group : GroupId) (cursor : ApiCursor)
  /-- An application of the document, by position, and its open section. -/
  | application (position : Nat) (opened : Option Nat)
  deriving DecidableEq, Repr

def Section.mode : Section → Mode
  | outside => .topLevel
  | stateMachine _ => .stateMachine
  | sequence _ => .sequence
  | api _ _ => .api
  | application _ _ => .application

def StateCursor.state? : StateCursor → Option StateId
  | idle => none
  | state id | transition id _ => some id

def SequenceCursor.timeline? : SequenceCursor → Option TimelineId
  | idle => none
  | timeline id | node id _ => some id

/-- The timeline stays open when a node ends. -/
def SequenceCursor.endNode : SequenceCursor → SequenceCursor
  | node id _ => timeline id
  | cursor => cursor

end DocGraph
