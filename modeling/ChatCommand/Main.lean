import ChatCommand.Program

/-! # Command line

Reads the configuration and answers the lines of standard input until it ends.
-/

open ChatCommand Program

def readFile? (path : Text) : IO (Option Text) := do
  try
    return some (← IO.FS.readFile (String.ofList path)).toList
  catch _ => return none

def readSource (path : Text) : IO Config.Source := do
  return match ← readFile? path with
    | some t => .ofText t
    | none => .absent

partial def answerLines (console : Console) (input output : IO.FS.Stream) : IO Unit := do
  let line ← input.getLine
  if line.isEmpty then return
  if let some reply := respond console line.toList then
    output.putStrLn (String.ofList reply)
    output.flush
  answerLines console input output

def writeSample (path : Text) : IO Unit := do
  IO.eprintln s!"cannot load config. creating a default at '{String.ofList samplePath}'"
  IO.eprintln s!"copy it to '{String.ofList path}' and edit it then rerun"
  try
    IO.FS.writeFile (String.ofList samplePath) (String.ofList Config.sample)
  catch error =>
    IO.eprintln s!"cannot write '{String.ofList samplePath}': {error}"

def main : IO UInt32 := do
  let files ← environmentFiles.filterMapM readFile?
  let setting ← IO.getEnv (String.ofList configVariable)
  match configPath (setting.map String.toList) files with
  | .error fault =>
    IO.eprintln (String.ofList fault.message)
    return (StartError.environment fault).exitCode.toUInt32
  | .ok path =>
    match start path (← readSource path) with
    | .ok console =>
      answerLines console (← IO.getStdin) (← IO.getStdout)
      return 0
    | .error e =>
      if e.offersSample then writeSample path
      return e.exitCode.toUInt32
