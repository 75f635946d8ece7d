import DocGraph.Files.Access
import DocGraph.Macros
import DocGraph.Text.Utf8
import DocGraph.Toml.Document

/-! The configuration of a project: where the model is, where output goes, and the text macros. -/
namespace DocGraph

structure Config where
  model : Option String := none
  output : String := "output"
  /-- Names and texts, in the order of the names. -/
  macros : List (String × String) := []
  deriving DecidableEq, Repr

namespace Config

/-- Where a configuration may be, the best place first. -/
def candidates : List String := ["docgen.toml", ".docgen.toml", ".config/docgen.toml"]

def text? : Toml.Item → Option String
  | .text value => some value
  | _ => none

/-- Every macro has to be a text. -/
def macros? : Toml.Item → Option (List (String × String))
  | .table _ entries => do
    let macros ← entries.mapM fun (name, item) => (text? item).map (name, ·)
    return macros.mergeSort fun left right => left.1 ≤ right.1
  | _ => none

/-- Reads the keys that are known; other keys may hold anything. -/
def ofEntries? (entries : Toml.Entries) : Option Config := do
  let read {α : Type} (key : String) (absent : α) (convert : Toml.Item → Option α) : Option α :=
    match entries.find? key with
    | none => some absent
    | some item => convert item
  return {
    model := ← read "model" none fun item => (text? item).map some
    output := ← read "output" "output" text?
    macros := ← read "macros" [] macros? }

def ofBytes (bytes : Bytes) : Except Fault Config :=
  match Utf8.decode? bytes with
  | none => .error (.io "stream did not contain valid UTF-8")
  | some text =>
    match (Toml.Document.parse? text).bind ofEntries? with
    | none => .error (.configParse "not a configuration in TOML")
    | some config => .ok config

/-- The first candidate under a directory that is a file. -/
def locate [Monad m] (files : FileAccess m) (root : String) : m (Option String) :=
  (candidates.map (Path.join root)).findM? files.isFile

def load [Monad m] (files : FileAccess m) (root : String) : ExceptT Fault m (Option Config) := do
  match ← (locate files root : m (Option String)) with
  | none => return none
  | some path =>
    match ← (files.read path : m (Except String Bytes)) with
    | .error reason => throw (.io reason)
    | .ok bytes => return some (← MonadExcept.ofExcept (ofBytes bytes))

def modelPath (config : Config) (root : String) : Option String := config.model.map (Path.join root)

def macroTable (config : Config) : Macros := Macros.ofList config.macros

end Config

end DocGraph
