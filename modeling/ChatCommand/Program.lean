import ChatCommand.Config.Source
import ChatCommand.Console
import ChatCommand.Environment

/-! # The console program

The program finds its configuration, offers a sample if it cannot be loaded, and otherwise prints a
reply for every line that has one.
-/

namespace ChatCommand.Program

def configVariable : Text := "SHAKEN_CONFIG".toList

def defaultPath : Text := "shaken.toml".toList

def samplePath : Text := "shaken.toml.example".toList

/-- The files that may set the variable, in the order in which they are read. -/
def environmentFiles : List Text := [".env".toList, ".env.dev".toList]

/-- Where the configuration is, given the variable and the texts of the environment files. -/
def configPath (setting : Option Text) (files : List Text) : Except Environment.Fault Text :=
  return (← Environment.resolve configVariable setting files).getD defaultPath

inductive StartError where
  | environment (fault : Environment.Fault)
  | load (error : Config.LoadError)
  | console (error : ConsoleError)
  deriving DecidableEq, Repr

/-- Whether the sample is written: only if no configuration could be loaded. -/
def StartError.offersSample : StartError → Bool
  | load _ => true
  | _ => false

def StartError.exitCode : StartError → Nat
  | environment _ => 101
  | _ => 1

def start (path : Text) (source : Config.Source) : Except StartError Console := do
  let config ← (Config.load path source).mapError .load
  (Console.ofConfig config).mapError .console

/-- What is printed for a line. Errors print nothing. -/
def respond (console : Console) (line : Text) : Option Text :=
  match console.handle line with
  | .ok reply => reply
  | .error _ => none

structure Outcome where
  exitCode : Nat
  output : Text
  sample : Option Text
  deriving DecidableEq, Repr

/-- A run with the given setting of the variable, texts of the environment files, configuration at
every path, and input. -/
def run (setting : Option Text) (files : List Text) (source : Text → Config.Source)
    (input : Text) : Outcome :=
  let console := do
    let path ← (configPath setting files).mapError StartError.environment
    start path (source path)
  match console with
  | .ok console =>
    ⟨0, ((Text.splitOn '\n' input).filterMap (respond console)).flatMap (· ++ ['\n']), none⟩
  | .error e => ⟨e.exitCode, [], if e.offersSample then some Config.sample else none⟩

end ChatCommand.Program
