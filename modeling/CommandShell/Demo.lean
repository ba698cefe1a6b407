import CommandShell.Routine

/-!
# Demonstration files

A small tree of directories and files for trying the commands out.
-/

namespace CommandShell

namespace Demo

/-- The directories of the demonstration, each behind its parent. -/
def directories : List String :=
  ["/home", "/home/friends"]

/-- The files of the demonstration with their contents. -/
def files : List (String × String) :=
  [("/home/about", "this is about me"),
    ("/home/friends/Rachael", "this is about Rachael")]

/-- Create a directory unless it is there already. -/
def ensureDirectory (path : String) : Routine Unit := do
  if ← Routine.isDirectory path then return
  else Routine.makeDirectory path

/-- Give a file a content, in the stead of the one that it may have. -/
def writeFile (path content : String) : Routine Unit := do
  let handle ← Routine.openFile path true
  Routine.truncate handle
  Routine.write handle content
  Routine.close handle

/-- Create the demonstration files. -/
def seed : Routine Unit := do
  directories.forM ensureDirectory
  files.forM fun (path, content) => writeFile path content

end Demo

end CommandShell
