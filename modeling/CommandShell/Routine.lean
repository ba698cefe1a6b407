import CommandShell.Call

/-!
# Routines

A routine is what a command does: a finite tree of calls in which every reply
selects how to go on, until the routine is done, fails or panics.  Routines are
sequenced by `Routine.bind`, so commands are written as `do` blocks.
-/

namespace CommandShell

/-- How a routine ends. -/
inductive Outcome (α : Type) where
  | done (value : α)
  | failed (failure : Failure)
  | panicked (message : String)
  deriving DecidableEq, Repr

/-- A finite tree of calls that yields a value of type `α`. -/
inductive Routine (α : Type) where
  | done (value : α)
  | fail (failure : Failure)
  | panic (message : String)
  | call (request : Call) (next : request.Reply → Routine α)

namespace Routine

variable {α β : Type}

/-- Go on with `next` where a routine is done. -/
def bind : Routine α → (α → Routine β) → Routine β
  | done value, next => next value
  | fail failure, _ => fail failure
  | panic message, _ => panic message
  | call request resume, next => call request fun reply => (resume reply).bind next

instance : Monad Routine where
  pure := done
  bind := bind

/-- Make one call and yield the reply. -/
def ask (request : Call) : Routine request.Reply :=
  call request done

/-- Fail with the failure that was replied. -/
def ofExcept : Except Failure α → Routine α
  | .ok value => done value
  | .error failure => fail failure

/-- Yield a failure instead of failing. -/
def attempt : Routine α → Routine (Except Failure α)
  | done value => done (.ok value)
  | fail failure => done (.error failure)
  | panic message => panic message
  | call request next => call request fun reply => (next reply).attempt

def openFile (path : String) (create : Bool) : Routine Handle := do
  ofExcept (← ask (.openFile path create))

def read (handle : Handle) : Routine String := do
  ofExcept (← ask (.read handle))

def write (handle : Handle) (text : String) : Routine Unit := do
  ofExcept (← ask (.write handle text))

def truncate (handle : Handle) : Routine Unit := do
  ofExcept (← ask (.truncate handle))

def close (handle : Handle) : Routine Unit :=
  ask (.close handle)

def list (path : String) : Routine (List Entry) := do
  ofExcept (← ask (.list path))

def makeDirectory (path : String) : Routine Unit := do
  ofExcept (← ask (.makeDirectory path))

/-- The path that `path` means in the current directory. -/
def resolve (path : String) : Routine String := do
  return Path.resolve (← ask .current) path

/-- The node that `path` means in the current directory. -/
def find? (path : String) : Routine (Option NodeId) := do
  return (← ask .tree).find? (← ask .current) path

/-- The kind of the node that `path` means in the current directory. -/
def kind? (path : String) : Routine (Option NodeKind) := do
  let id ← find? path
  return id.bind (← ask .tree).kind?

/-- Whether `path` means a directory in the current directory. -/
def isDirectory (path : String) : Routine Bool := do
  return (← ask .tree).isDirectory (← ask .current) path

/-- What is known about the command with a name. -/
def command? (name : String) : Routine (Option CommandInfo) := do
  return (← ask .commands).find? fun info => info.name = name

end Routine

end CommandShell
