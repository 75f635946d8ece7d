import DocGraph.Build.Builder

/-! Applying the records of a block, one after another, up to the first that cannot be read or is
rejected. What came before that record stays applied. -/
namespace DocGraph

/-- Why the records of a block were not all applied, with the bytes from the faulty record on. -/
inductive Stop
  | undecodable (cause : Undecodable) (bytes : Bytes)
  | rejected (reason : Rejection) (record : Record) (bytes : Bytes)
  deriving DecidableEq, Repr

namespace Stop

def bytes : Stop → Bytes
  | undecodable _ bytes | rejected _ _ bytes => bytes

/-- The fault, in a section of the given mode. -/
def fault (stop : Stop) (mode : Mode) (place : Place) : Fault :=
  match stop with
  | undecodable cause bytes => cause.fault place bytes
  | rejected .unexpected record bytes =>
    .unexpectedRecord mode record.tag.byte place (HexDump.render bytes)
  | rejected (.misplaced record parent) _ _ => .missingContext record parent place

def notice (stop : Stop) (mode : Mode) (place : Place) : Notice :=
  match stop with
  | undecodable _ _ => .undecodableRecord (stop.fault mode place)
  | rejected _ record bytes => .rejectedRecord mode record.tag place (HexDump.render bytes)

end Stop

structure Progress where
  builder : Builder
  notices : List Notice
  stop : Option Stop

structure BlockResult where
  builder : Builder
  notices : List Notice
  fault : Option Fault

namespace Builder

def addRecords (builder : Builder) (notices : List Notice) (bytes : Bytes) : Progress :=
  if bytes.isEmpty then { builder, notices, stop := none }
  else
    match found : Record.decode bytes with
    | .error cause => { builder, notices, stop := some (.undecodable cause bytes) }
    | .ok (record, rest) =>
      have := Record.length_decode_lt found
      let notices := notices ++ builder.notices record
      match builder.apply record with
      | (builder, some reason) =>
        { builder, notices, stop := some (.rejected reason record bytes) }
      | (builder, none) => builder.addRecords notices rest
termination_by bytes.length

def addBlock (builder : Builder) (number : Nat) (block : Bytes) : BlockResult :=
  let progress := builder.addRecords [] block
  match progress.stop with
  | none => { builder := progress.builder, notices := progress.notices, fault := none }
  | some stop =>
    let place : Place := ⟨number, block.length - stop.bytes.length⟩
    let mode := progress.builder.mode
    { builder := progress.builder
      notices := progress.notices ++ [stop.notice mode place]
      fault := some (stop.fault mode place) }

end Builder

end DocGraph
