import DocGraph.CommandLine.Arguments
import DocGraph.CommandLine.Report
import DocGraph.Config

/-! Running a command. Files are reached through a `FileAccess` only, so that a command can be run
on files in memory as well. -/
namespace DocGraph.CommandLine

structure Environment where
  /-- The current directory. -/
  directory : String
  /-- Whether the environment asks for text without colours. -/
  noColor : Bool
  deriving DecidableEq, Repr

/-- What a run prints, and how it ends. -/
structure Outcome where
  exit : Nat
  output : String := ""
  /-- Lines for the user that are no output. -/
  remarks : List String := []
  fault : Option Fault := none
  deriving DecidableEq, Repr

structure Printed where
  output : String
  notices : List Notice
  remarks : List String := []

/-- A command's result with the notices given so far. -/
abbrev Work (m : Type → Type) := ExceptT (Fault × List Notice) m

variable {m : Type → Type} [Monad m]

def root (environment : Environment) (arguments : Arguments) : String :=
  arguments.path.getD environment.directory

def config (files : FileAccess m) (root : String) : Work m Config := do
  match ← (Config.load files root).run with
  | .ok config => return config.getD {}
  | .error fault => throw (fault, [])

/-- The model that is named, or the one of the configuration. -/
def modelPath (files : FileAccess m) (root : String) (model : Option String) : Work m String := do
  match model with
  | some path => return path
  | none =>
    match (← config files root).modelPath root with
    | some path => return path
    | none => throw (.modelNotConfigured, [])

def openModel (files : FileAccess m) (root : String) (model : Option String) :
    Work m (Loaded × List Notice) := do
  let path ← modelPath files root model
  match ← (files.read path : m (Except String Bytes)) with
  | .error reason => throw (.io reason, [])
  | .ok bytes =>
    let noted := load { bytes } path
    match noted.result with
    | .error fault => throw (fault, noted.notices)
    | .ok loaded => return (loaded, noted.notices)

def perform (files : FileAccess m) (root : String) (paint : Paint) : Command → Work m Printed
  | .info model format => do
    let (loaded, notices) ← openModel files root model
    match format with
    | .text => return ⟨infoText paint loaded, notices, []⟩
    | .json => return ⟨lines [(infoJson loaded).pretty 0], notices, []⟩
  | .groups model => do
    let (loaded, notices) ← openModel files root model
    return ⟨lines (loaded.model.groups.toList.map (·.name.text)), notices, []⟩
  | .walk group model format => do
    let (loaded, notices) ← openModel files root model
    match loaded.model.findGroup? (Bytes.ofText group) with
    | none => throw (.groupNotFound group, notices)
    | some (id, _) =>
      let walked := Walker.emissions loaded.model id
      let notices := notices ++ walked.notices
      match format with
      | .json =>
        let json := Json.array (walked.steps.map (emissionJson loaded.model))
        return ⟨lines [json.pretty 0], notices, []⟩
      | .text =>
        let remarks :=
          if walked.steps.isEmpty then
            [paint.yellow s!"no messages reach a receiver in `{group}`"]
          else []
        return ⟨lines (walked.steps.map (·.line loaded.model)), notices, remarks⟩
  | .expand text => do
    let expansion := (← config files root).macroTable.expand text
    return ⟨lines [expansion.text], expansion.unknown.map .unknownMacro, []⟩

/-- Runs the program with the words of its command line. -/
def run (files : FileAccess m) (environment : Environment) (words : List String) : m Outcome := do
  match Arguments.read words with
  | .error .version => return { exit := 0, output := Refusal.version.message ++ "\n" }
  | .error refusal => return { exit := 2, remarks := ["error: " ++ refusal.message] }
  | .ok arguments =>
    match arguments.command with
    | none =>
      return { exit := 1
               remarks := ["No subcommand specified. Run `docgen --help` for usage."] }
    | some command =>
      let paint : Paint := ⟨!arguments.noColor && !environment.noColor⟩
      match ← (perform files (root environment arguments) paint command).run with
      | .ok printed =>
        return { exit := 0, output := printed.output
                 remarks := printed.notices.map Notice.message ++ printed.remarks }
      | .error (fault, notices) =>
        let help := fault.help?.toList.map ("help: " ++ ·)
        return { exit := 2, fault := some fault
                 remarks := notices.map Notice.message ++ [fault.code, fault.message] ++ help }

end DocGraph.CommandLine
