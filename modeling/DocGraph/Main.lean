import DocGraph.CommandLine.Run

/-! The program: `CommandLine.run` on the files of the system. -/
namespace DocGraph.CommandLine

/-- A directory cannot be read, so what can be read is a file. -/
def systemFiles : FileAccess IO where
  isFile path := do
    try
      discard (IO.FS.readBinFile path)
      return true
    catch _ => return false
  read path := do
    try
      return .ok (← IO.FS.readBinFile path).data.toList
    catch refused => return .error (toString refused)

def systemEnvironment : IO Environment := do
  let directory ← IO.currentDir
  return { directory := directory.toString, noColor := (← IO.getEnv "NO_COLOR").isSome }

end DocGraph.CommandLine

open DocGraph.CommandLine in
def main (words : List String) : IO UInt32 := do
  let outcome ← run systemFiles (← systemEnvironment) words
  for remark in outcome.remarks do
    IO.eprintln remark
  IO.print outcome.output
  return UInt32.ofNat outcome.exit
