import DocGraph.Toml.Statement

/-! Documents put together from their statements. An assignment belongs to the table of the header
before it. -/
namespace DocGraph.Toml

/-- A document that is being put together, and the path of the open table. -/
structure Document where
  entries : Entries := []
  current : List String := []

namespace Document

def add? (document : Document) : Statement → Option Document
  | .table path => do
    return ⟨← document.entries.openTable path, path.parents ++ [path.last]⟩
  | .element path => do
    return ⟨← document.entries.openElement path, path.parents ++ [path.last]⟩
  | .assign path value => do
    let assigned ← Entries.within false (Entries.assign path value) document.current .header
      document.entries
    return { document with entries := assigned }

def parse? (text : String) : Option Entries := do
  let statements ← Statement.ofText? text
  let document ← statements.foldlM add? {}
  return document.entries

end Document

end DocGraph.Toml
