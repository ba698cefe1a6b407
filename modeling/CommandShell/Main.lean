import CommandShell.Config.Load
import CommandShell.Console

/-!
# The command line program

Carries a session on over the standard streams until it ends or the input does.
-/

open CommandShell

/-- Read a file of the host as text. -/
def readHostFile (path : String) : IO (Except ReadFailure String) := do
  try
    let content ← IO.FS.readBinFile path
    match String.fromUTF8? content with
    | some text => return .ok text
    | none => return .error .notText
  catch failure =>
    match failure with
    | .noFileOrDirectory .. => return .error .missing
    | _ => return .error (.unreadable (toString failure))

/-- The configuration that the arguments and the environment point to. -/
def hostConfig (arguments : List String) : IO (Except Failure Config) := do
  match Config.path? arguments (← IO.getEnv Config.pathVariable) with
  | none => return .ok {}
  | some path => return Config.ofReading path (← readHostFile path)

/-- Read bytes up to the end of a line or of the input. -/
partial def readLine (input : IO.FS.Stream) (line : Array UInt8) : IO (Array UInt8) := do
  match (← input.read 1).toList with
  | [] => return line
  | byte :: _ =>
      if byte = 10 then return line.push byte
      else readLine input (line.push byte)

/-- Carry a session on over the standard streams. -/
partial def interact (console : Console) (input output : IO.FS.Stream) : IO Unit := do
  if console.session.exited then return
  output.putStr console.prompt
  output.flush
  match Console.inputLines (← readLine input #[]).toList with
  | [] => output.putStr "\n"
  | none :: _ => throw (IO.userError ReadFailure.notText.message)
  | some line :: _ =>
      let (answer, next) := console.enter line
      output.putStr answer
      interact next input output

def complain (message : String) : IO UInt32 := do
  (← IO.getStderr).putStrLn ("Error: " ++ message)
  return 1

def main (arguments : List String) : IO UInt32 := do
  match ← hostConfig arguments with
  | .error failure => complain failure.message
  | .ok config =>
      match Console.start config with
      | .failed failure => complain failure.message
      | .panicked message => complain message
      | .done (greeting, console) =>
          let output ← IO.getStdout
          output.putStr greeting
          try
            interact console (← IO.getStdin) output
            output.flush
            return 0
          catch failure => complain (toString failure)
