import DocGraph.File.Header
import DocGraph.File.Source
import DocGraph.Notice

/-! Reading a model file: its header, then whole blocks until a clean end. -/
namespace DocGraph

/-- The size of every block of a model file. -/
def blockSize : Nat := 16384

structure Reader where
  source : Source
  file : String
  header : Header
  blocksRead : Nat := 0
  deriving DecidableEq, Repr

namespace Reader

def start (source : Source) (file : String) : Except Fault Reader :=
  match source.fill Header.size with
  | (.error reason, _) => .error (.io reason)
  | (.ok bytes, source) => do
    let header ← Header.parse file bytes
    return { source, file, header }

def notices (reader : Reader) : List Notice :=
  if reader.header.isNewer then
    [.newerVersion reader.file reader.header.versionMajor.toNat Header.supportedMajor.toNat]
  else []

/-- The next block, or none at the end of the file; part of a block is a fault. -/
def nextBlock (reader : Reader) : Except Fault (Option Bytes) × Reader :=
  match reader.source.fill blockSize with
  | (.error reason, source) => (.error (.io reason), { reader with source })
  | (.ok block, source) =>
    if block.length = 0 then (.ok none, { reader with source })
    else if block.length < blockSize then
      (.error (.shortRead reader.file blockSize block.length), { reader with source })
    else (.ok (some block), { reader with source, blocksRead := reader.blocksRead + 1 })

theorem nextBlock_bytes {reader after : Reader} {block : Bytes}
    (found : reader.nextBlock = (.ok (some block), after)) :
    block ++ after.source.bytes = reader.source.bytes ∧ blockSize ≤ block.length := by
  unfold nextBlock at found
  split at found
  · cases found
  · rename_i filled
    split at found
    · cases found
    · split at found
      · cases found
      · cases found
        exact ⟨Source.fillFrom_append filled, by omega⟩

theorem length_nextBlock_lt {reader after : Reader} {block : Bytes}
    (found : reader.nextBlock = (.ok (some block), after)) :
    after.source.bytes.length < reader.source.bytes.length := by
  obtain ⟨split, width⟩ := nextBlock_bytes found
  have : blockSize = 16384 := rfl
  rw [← split, List.length_append]
  omega

end Reader

end DocGraph
