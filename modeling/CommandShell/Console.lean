import CommandShell.Demo
import CommandShell.Session

/-!
# Sessions on a console

A console carries a session on over a stream of input lines and a stream of
printed text.  The terminal itself shows what its user types, so of a submitted
line only the response is printed, and not the echo in front of it.
`Console.run` is the whole exchange for an input that is known beforehand.
-/

namespace CommandShell

/-- A session, and how much of its output has been printed. -/
structure Console where
  session : Session
  reader : Reader

/-- Everything that is printed, and whether the exchange came to a regular end. -/
structure Transcript where
  printed : List String
  completed : Bool
  deriving DecidableEq, Repr

namespace Console

/-- What follows the first line of a text. -/
def afterEcho (text : String) : String :=
  String.ofList (text.toList.dropWhile (· ≠ '\n')).tail

/-- The control sequence that empties the screen of a terminal. -/
def clearScreen : String := "\x1b[2J\x1b[H"

/-- What is printed in response to a submitted line. -/
def response (news : News) : String :=
  if news.cleared then clearScreen ++ news.text else afterEcho news.text

/-- Print what is new on the output of the session. -/
def catchUp (console : Console) : News × Console :=
  let (news, reader) := console.reader.poll console.session.output
  (news, { console with reader })

/-- Begin a session: create the demonstration files if the configuration asks
for them, run the startup lines, and print what they have written. -/
def start (config : Config) : Outcome (String × Console) :=
  match Session.new config with
  | .error failure => .failed failure
  | .ok session =>
      let (outcome, seeded) :=
        if config.seedDemoFiles then session.invoke Demo.seed else (.done (), session)
      match outcome with
      | .failed failure => .failed failure
      | .panicked message => .panicked message
      | .done () =>
          let (_, started) := seeded.runStartup
          let (news, console) := catchUp { session := started, reader := .atEnd seeded.output }
          .done (news.text, console)

/-- The text in front of the place where the user types. -/
def prompt (console : Console) : String :=
  console.session.editor.text

/-- Submit a line, and print the response. -/
def enter (console : Console) (line : String) : String × Console :=
  let (_, session) := console.session.enter line
  let (news, console) := catchUp { console with session }
  (response news, console)

/-- Carry the session on over input lines until it ends or the input does.  A
line that is no text breaks the exchange off. -/
def interact (console : Console) : List (Option String) → Transcript
  | [] =>
      if console.session.exited then { printed := [], completed := true }
      else { printed := [console.prompt, "\n"], completed := true }
  | line :: rest =>
      if console.session.exited then { printed := [], completed := true }
      else
        match line with
        | none => { printed := [console.prompt], completed := false }
        | some text =>
            let (answer, next) := console.enter text
            let transcript := next.interact rest
            { transcript with printed := console.prompt :: answer :: transcript.printed }

/-- The text of an ended input line. -/
def endedLine (bytes : List UInt8) : Option String :=
  let content := if bytes.getLast? = some 13 then bytes.dropLast else bytes
  String.fromUTF8? ⟨content.toArray⟩

/-- The lines of an input, or nothing in the place of a line that is no text.
What follows the last line end is a line unless it is empty. -/
def inputLines (input : List UInt8) : List (Option String) :=
  let pieces := input.splitOn 10
  let unended := pieces.getLast?.toList.filter (· ≠ [])
  pieces.dropLast.map endedLine ++
    unended.map fun bytes => String.fromUTF8? ⟨bytes.toArray⟩

/-- The whole exchange for a given input. -/
def run (config : Except Failure Config) (input : List UInt8) : Transcript :=
  match config with
  | .error _ => { printed := [], completed := false }
  | .ok config =>
      match start config with
      | .failed _ | .panicked _ => { printed := [], completed := false }
      | .done (greeting, console) =>
          let transcript := console.interact (inputLines input)
          { transcript with printed := greeting :: transcript.printed }

end Console

end CommandShell
