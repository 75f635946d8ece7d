import DocGraph.Fault

/-! Things worth telling the user that do not stop the work, and the log entries that go with a
refused block. -/
namespace DocGraph

inductive Severity
  | warning
  | error
  deriving DecidableEq, Repr

inductive Notice
  /-- The file's major version is above the supported one. -/
  | newerVersion (file : String) (version supported : Nat)
  | openSection (mode : Mode)
  | unknownOption (application synopsis : String) (index : Nat)
  | unmatchedFunctionEnd (timeline : String) (node : Nat)
  | walkStopped (timeline : String) (steps : Nat)
  | defaultGroupTaken
  | unknownMacro (name : String)
  | undecodableRecord (fault : Fault)
  | rejectedRecord (mode : Mode) (record : Tag) (place : Place) (dump : String)
  deriving DecidableEq, Repr

namespace Notice

def severity : Notice → Severity
  | undecodableRecord _ | rejectedRecord _ _ _ _ => .error
  | _ => .warning

def message : Notice → String
  | newerVersion _ _ _ => "model file was built with a later major version"
  | openSection _ => "model file ended inside an open section"
  | unknownOption _ _ _ => "synopsis refers to an unknown option"
  | unmatchedFunctionEnd _ _ => "function end without a matching function start"
  | walkStopped _ _ => "walk did not return to its timeline, stopping"
  | defaultGroupTaken =>
    "the model already has a `default` group, leaving the document root unnamed"
  | unknownMacro _ => "unknown macro"
  | undecodableRecord _ => "failed to decode record"
  | rejectedRecord _ _ _ _ => "record rejected"

end Notice

end DocGraph
