import DocGraph.File.Reader

/-! Writing a model file. Records are packed into blocks; a record that does not fit into the rest
of a block starts the next one, and the rest is filled with end marks. The header says how many
records there are, so it is written last. -/
namespace DocGraph

structure Writer where
  header : Header := {}
  /-- The blocks that are full or closed. -/
  closed : Array Bytes := #[]
  /-- The block that is being filled. -/
  block : Array UInt8 := #[]
  records : UInt32 := 0

namespace Writer

def blockCount (writer : Writer) : Nat := writer.closed.size

/-- Closes the current block unless it is empty. -/
def closeBlock (writer : Writer) : Writer :=
  if writer.block.isEmpty then writer
  else
    let padding := List.replicate (blockSize - writer.block.size) Tag.blockEnd.byte
    { writer with closed := writer.closed.push (writer.block.toList ++ padding), block := #[] }

/-- Adds an encoded record that fits into a block. -/
def append (writer : Writer) (encoded : Bytes) : Writer :=
  let writer :=
    if writer.block.size + encoded.length > blockSize then writer.closeBlock else writer
  { writer with block := writer.block ++ encoded, records := writer.records + 1 }

/-- Adds a record. The end mark of a block closes the current one and is not counted. -/
def write (writer : Writer) (record : Record) : Except Fault Writer :=
  if record.tag = .blockEnd then .ok writer.closeBlock
  else
    match record.encode with
    | .error overlong => .error (.fieldTooLong overlong)
    | .ok encoded =>
      if encoded.length > blockSize then .error (.recordTooLarge encoded.length blockSize)
      else .ok (writer.append encoded)

def writeAll (writer : Writer) (records : List Record) : Except Fault Writer :=
  records.foldlM write writer

def finish (writer : Writer) : Writer :=
  let writer := writer.closeBlock
  { writer with header := { writer.header with recordCount := writer.records } }

def toBytes (writer : Writer) : Bytes :=
  writer.header.toBytes ++ writer.closed.toList.flatten

end Writer

def Writer.file (header : Header) (records : List Record) : Except Fault Bytes := do
  let writer ← Writer.writeAll { header } records
  return writer.finish.toBytes

end DocGraph
