import DocGraph.Build.Block
import DocGraph.File.Reader
import DocGraph.Linking

/-! Loading a model file: its blocks are read and built in order up to the first fault, the graph is
linked, and the document is named. -/
namespace DocGraph

structure Loaded where
  source : String
  header : Header
  model : Model
  report : LinkReport
  /-- Records of the file, end marks of blocks left out. -/
  records : Nat
  blocks : Nat
  deriving DecidableEq, Repr

/-- The result of an operation, and what is to be said about it either way. -/
structure Noted (α : Type) where
  result : Except Fault α
  notices : List Notice

namespace Loaded

structure Built where
  builder : Builder
  blocks : Nat

def build (reader : Reader) (builder : Builder) (number : Nat) (notices : List Notice) :
    Noted Built :=
  match found : reader.nextBlock with
  | (.error fault, _) => ⟨.error fault, notices⟩
  | (.ok none, _) => ⟨.ok ⟨builder, number⟩, notices⟩
  | (.ok (some block), after) =>
    have := Reader.length_nextBlock_lt found
    let result := builder.addBlock number block
    match result.fault with
    | some fault => ⟨.error fault, notices ++ result.notices⟩
    | none => build after result.builder (number + 1) (notices ++ result.notices)
termination_by reader.source.bytes.length

/-- Names the document unless it has a name or its name is taken. -/
def nameDocument (model : Model) : Model × List Notice :=
  if (model.group Model.root).name.isEmpty then
    match model.findGroup? Model.defaultName with
    | some _ => (model, [.defaultGroupTaken])
    | none => (model.renameGroup Model.root ⟨Model.defaultName, false⟩, [])
  else (model, [])

end Loaded

/-- Loads a model file; `file` names it in faults. -/
def load (source : Source) (file : String) : Noted Loaded :=
  match Reader.start source file with
  | .error fault => ⟨.error fault, []⟩
  | .ok reader =>
    let built := Loaded.build reader {} 0 reader.notices
    match built.result with
    | .error fault => ⟨.error fault, built.notices⟩
    | .ok ⟨builder, blocks⟩ =>
      let linked := builder.model.link builder.limits
      let (model, naming) := Loaded.nameDocument linked.model
      { result := .ok
          { source := file, header := reader.header, model, report := linked.report
            records := builder.records, blocks }
        notices := built.notices ++ builder.finish ++ linked.notices ++ naming }

end DocGraph
