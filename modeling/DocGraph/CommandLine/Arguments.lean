/-! The words of a command line. Settings that the whole program knows may stand before or after the
command; other settings and the operands belong to the command. A setting is given once at most on
either side of the command, and the later side wins. -/
namespace DocGraph.CommandLine

inductive Format
  | text
  | json
  deriving DecidableEq, Repr

inductive Command
  | info (model : Option String) (format : Format)
  | groups (model : Option String)
  | walk (group : String) (model : Option String) (format : Format)
  | expand (text : String)
  deriving DecidableEq, Repr

structure Arguments where
  command : Option Command
  /-- The root directory of the project. -/
  path : Option String
  verbose : Bool
  noColor : Bool
  deriving DecidableEq, Repr

/-- Why there are no arguments to run with. -/
inductive Refusal
  | unknownArgument (word : String)
  | missingValue (setting : String)
  | unwantedValue (setting : String)
  | invalidValue (setting value : String)
  | givenTwice (setting : String)
  | missingOperand (command : String)
  /-- The version was asked for. -/
  | version
  deriving DecidableEq, Repr

def Refusal.message : Refusal → String
  | unknownArgument word => s!"unexpected argument `{word}`"
  | missingValue setting => s!"a value is required for `--{setting}`"
  | unwantedValue setting => s!"`--{setting}` takes no value"
  | invalidValue setting value => s!"invalid value `{value}` for `--{setting}`"
  | givenTwice setting => s!"`--{setting}` cannot be used multiple times"
  | missingOperand command => s!"an operand of `{command}` is missing"
  | version => "docgen_cli 0.3.0"

inductive Setting
  | path
  | verbose
  | noColor
  | version
  | model
  | format
  deriving DecidableEq, Repr

namespace Setting

def long : Setting → String
  | path => "path"
  | verbose => "verbose"
  | noColor => "no-color"
  | version => "version"
  | model => "model"
  | format => "format"

def short? : Setting → Option Char
  | path => some 'p'
  | verbose => some 'v'
  | version => some 'V'
  | model => some 'm'
  | noColor | format => none

def takesValue : Setting → Bool
  | path | model | format => true
  | verbose | noColor | version => false

def accepts (setting : Setting) (value : String) : Bool :=
  match setting with
  | path | model => value != ""
  | format => value == "text" || value == "json"
  | _ => true

def shared : List Setting := [path, verbose, noColor]

end Setting

/-- What may be given on one side of the command. -/
structure Level where
  settings : List Setting
  /-- The number of operands. -/
  operands : Nat
  /-- The commands that may follow. -/
  commands : List String
  deriving DecidableEq, Repr

namespace Level

def program : Level :=
  { settings := .version :: Setting.shared, operands := 0
    commands := ["info", "groups", "walk", "expand"] }

def ofCommand (name : String) : Level :=
  match name with
  | "info" => { settings := .model :: .format :: Setting.shared, operands := 0, commands := [] }
  | "groups" => { settings := .model :: Setting.shared, operands := 0, commands := [] }
  | "walk" => { settings := .model :: .format :: Setting.shared, operands := 1, commands := [] }
  | _ => { settings := Setting.shared, operands := 1, commands := [] }

end Level

structure Given where
  settings : List (Setting × String) := []
  operands : List String := []
  deriving DecidableEq, Repr

namespace Given

def value? (given : Given) (setting : Setting) : Option String := given.settings.lookup setting

def set (given : Given) (setting : Setting) (value : String) : Except Refusal Given :=
  if setting = .version then .error .version
  else if (given.value? setting).isSome then .error (.givenTwice setting.long)
  else if !setting.accepts value then .error (.invalidValue setting.long value)
  else .ok { given with settings := (setting, value) :: given.settings }

def addOperand (given : Given) (level : Level) (word : String) : Except Refusal Given :=
  if given.operands.length < level.operands then
    .ok { given with operands := given.operands ++ [word] }
  else .error (.unknownArgument word)

/-- A setting by its long name; one that still needs its value is given back. -/
def addLong (given : Given) (level : Level) (word : String) (name : List Char)
    (value : Option (List Char)) : Except Refusal (Given × Option Setting) :=
  match level.settings.find? (·.long.toList == name), value with
  | none, _ => .error (.unknownArgument word)
  | some setting, none =>
    if setting.takesValue then .ok (given, some setting)
    else (given.set setting "").map (·, none)
  | some setting, some value =>
    if setting.takesValue then (given.set setting (String.ofList value)).map (·, none)
    else .error (.unwantedValue setting.long)

/-- Settings by their letters; what follows a letter that takes a value is the value. -/
def addShort (given : Given) (level : Level) (word : String) :
    List Char → Except Refusal (Given × Option Setting)
  | [] => .ok (given, none)
  | letter :: rest =>
    match level.settings.find? (·.short? == some letter) with
    | none => .error (.unknownArgument word)
    | some setting =>
      if setting.takesValue then
        match rest with
        | [] => .ok (given, some setting)
        | '=' :: value | value => (given.set setting (String.ofList value)).map (·, none)
      else match given.set setting "" with
        | .error refusal => .error refusal
        | .ok given => given.addShort level word rest

end Given

/-- The command that ends a side, and the words after it. -/
abbrev Remainder := Option (String × List String)

/-- Reads the words of one side. A setting that waits for its value takes the next word, unless it
starts with a hyphen; after two hyphens there are only operands. -/
def readWords (level : Level) (waiting : Option Setting) (onlyOperands : Bool) (given : Given) :
    List String → Except Refusal (Given × Remainder)
  | [] =>
    match waiting with
    | some setting => .error (.missingValue setting.long)
    | none => .ok (given, none)
  | word :: rest =>
    if onlyOperands then do
      let given ← given.addOperand level word
      readWords level none true given rest
    else
      match word.toList, waiting with
      | '-' :: _ :: _, some setting => .error (.missingValue setting.long)
      | ['-', '-'], none => readWords level none true given rest
      | '-' :: '-' :: long, none => do
        let value := (long.dropWhile (· != '=')).tail?
        let (given, waiting) ← given.addLong level word (long.takeWhile (· != '=')) value
        readWords level waiting false given rest
      | '-' :: letter :: letters, none => do
        let (given, waiting) ← given.addShort level word (letter :: letters)
        readWords level waiting false given rest
      | _, some setting => do
        let given ← given.set setting word
        readWords level none false given rest
      | _, none =>
        if level.commands.contains word then .ok (given, some (word, rest))
        else do
          let given ← given.addOperand level word
          readWords level none false given rest

def Command.ofGiven (name : String) (given : Given) : Except Refusal Command :=
  let model := given.value? .model
  let format := if given.value? .format = some "json" then Format.json else .text
  match name, given.operands with
  | "info", _ => .ok (.info model format)
  | "groups", _ => .ok (.groups model)
  | "walk", group :: _ => .ok (.walk group model format)
  | "expand", text :: _ => .ok (.expand text)
  | name, _ => .error (.missingOperand name)

namespace Arguments

def read (words : List String) : Except Refusal Arguments := do
  let (outer, remainder) ← readWords .program none false {} words
  match remainder with
  | none => return ofSides none outer {}
  | some (name, rest) =>
    let (inner, _) ← readWords (.ofCommand name) none false {} rest
    return ofSides (some (← Command.ofGiven name inner)) outer inner
where
  ofSides (command : Option Command) (outer inner : Given) : Arguments :=
    let value? (setting : Setting) := (inner.value? setting).or (outer.value? setting)
    { command, path := value? .path, verbose := (value? .verbose).isSome
      noColor := (value? .noColor).isSome }

end Arguments

end DocGraph.CommandLine
