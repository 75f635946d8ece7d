import DocGraph.Record.Encode

/-! What can go wrong, as causes. Each has a message, a code, and for some advice on what to do. -/
namespace DocGraph

/-- The kinds of section in a model file. -/
inductive Mode
  /-- Between sections. -/
  | topLevel
  | stateMachine
  | sequence
  | api
  | application
  deriving DecidableEq, Repr

def Mode.label : Mode → String
  | topLevel => "top level"
  | stateMachine => "state machine"
  | sequence => "sequence diagram"
  | api => "api"
  | application => "application"

/-- Where a record starts: the number of its block and its offset in the block. -/
structure Place where
  block : Nat
  offset : Nat
  deriving DecidableEq, Repr

def Place.text (place : Place) : String := s!"at offset {place.offset} of block {place.block}"

inductive Fault
  /-- The operating system or the source of bytes refused. -/
  | io (reason : String)
  | badSignature (file : String)
  | shortRead (file : String) (expected got : Nat)
  | unknownRecord (tag : UInt8) (place : Place) (dump : String)
  | malformedRecord (tag : UInt8) (place : Place) (dump : String)
  | unexpectedRecord (mode : Mode) (tag : UInt8) (place : Place) (dump : String)
  /-- A record that belongs inside another one that is not open. -/
  | missingContext (record parent : String) (place : Place)
  | recordTooLarge (size limit : Nat)
  | fieldTooLong (overlong : Overlong)
  | configParse (reason : String)
  | modelNotConfigured
  | groupNotFound (name : String)
  deriving DecidableEq, Repr

namespace Fault

def message : Fault → String
  | io reason => reason
  | badSignature file => s!"`{file}` is not a linked model file (bad signature)"
  | shortRead file expected got => s!"short read in `{file}`: expected {expected} bytes, got {got}"
  | unknownRecord tag place dump => s!"unknown record tag `{tag}` {place.text}\n{dump}"
  | malformedRecord tag place dump =>
    s!"record `{tag}` {place.text} runs past the end of the block\n{dump}"
  | unexpectedRecord mode tag place dump =>
    s!"unexpected record `{tag}` while loading {mode.label} {place.text}\n{dump}"
  | missingContext record parent place =>
    s!"`{record}` record {place.text} must appear inside a {parent}"
  | recordTooLarge size limit => s!"record of {size} bytes does not fit in a {limit} byte block"
  | fieldTooLong overlong =>
    s!"`{overlong.field}` is {overlong.length} bytes long but the record format allows at most "
      ++ toString overlong.limit
  | configParse reason => s!"failed to parse config file: {reason}"
  | modelNotConfigured => "no model file was given"
  | groupNotFound name => s!"no group named `{name}` in the model"

def code : Fault → String
  | io _ => "docgen::io_error"
  | badSignature _ => "docgen::bad_signature"
  | shortRead _ _ _ => "docgen::short_read"
  | unknownRecord _ _ _ => "docgen::unknown_record"
  | malformedRecord _ _ _ => "docgen::malformed_record"
  | unexpectedRecord _ _ _ _ => "docgen::unexpected_record"
  | missingContext _ _ _ => "docgen::missing_context"
  | recordTooLarge _ _ => "docgen::record_too_large"
  | fieldTooLong _ => "docgen::field_too_long"
  | configParse _ => "docgen::config_parse"
  | modelNotConfigured => "docgen::model_not_configured"
  | groupNotFound _ => "docgen::group_not_found"

def help? : Fault → Option String
  | badSignature _ => some "pass the output of the document linker, not a compiled source file"
  | shortRead _ _ _ => some "the model file is truncated; re-run the linker to regenerate it"
  | unexpectedRecord _ _ _ _ =>
    some "the model file was produced by an incompatible linker or is corrupt"
  | configParse _ =>
    some "check that docgen.toml is valid TOML with `model`, `output` and/or [macros]"
  | modelNotConfigured => some "pass `--model <file>` or set `model` in docgen.toml"
  | groupNotFound _ => some "run `docgen groups` to list the groups in the model"
  | _ => none

end Fault

end DocGraph
