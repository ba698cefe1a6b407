/-!
# Host folders

A folder of plain files on the host, and what reading one of its files by a path
comes to.  Of the directories around the folder nothing is known but that they
are directories.
-/

namespace CommandShell

/-- Why a file of the host cannot be read as text. -/
inductive ReadFailure where
  | missing
  | notADirectory
  | isADirectory
  | nameTooLong
  | zeroByte
  | notText
  /-- The host gives a reason of its own. -/
  | unreadable (reason : String)
  deriving DecidableEq, Repr

/-- The wording of the host. -/
def ReadFailure.message : ReadFailure → String
  | missing => "No such file or directory (os error 2)"
  | notADirectory => "Not a directory (os error 20)"
  | isADirectory => "Is a directory (os error 21)"
  | nameTooLong => "File name too long (os error 36)"
  | zeroByte => "file name contained an unexpected NUL byte"
  | notText => "stream did not contain valid UTF-8"
  | unreadable reason => reason

/-- A folder of plain files, with their contents in bytes. -/
structure Folder where
  files : List (String × List UInt8)
  deriving DecidableEq, Repr

namespace Folder

/-- Where a walk along a path has come to. -/
inductive Place where
  | inside
  | outside
  | file (content : List UInt8)
  deriving DecidableEq, Repr

/-- The bytes that a name and a whole path may have at most. -/
def nameLimit : Nat := 255

def pathLimit : Nat := 4095

/-- Follow one name of a path. -/
def follow (folder : Folder) (place : Place) (name : String) : Except ReadFailure Place :=
  match place with
  | .file _ => .error .notADirectory
  | directory =>
      if name = "" ∨ name = "." then .ok directory
      else if name = ".." then .ok .outside
      else if nameLimit < name.utf8ByteSize then .error .nameTooLong
      else
        match directory, folder.files.find? fun file => file.1 = name with
        | .inside, some file => .ok (.file file.2)
        | _, _ => .error .missing

/-- The content of the file at a path that is relative to the folder or
absolute. -/
def read (folder : Folder) (path : String) : Except ReadFailure (List UInt8) := do
  let names := (path.toList.splitOn '/').map String.ofList
  let start := if path.toList.head? = some '/' then Place.outside else .inside
  if path.toList.contains '\x00' then throw .zeroByte
  if path = "" then throw .missing
  if pathLimit < path.utf8ByteSize then throw .nameTooLong
  match ← names.foldlM folder.follow start with
  | .file content => return content
  | _ => throw .isADirectory

/-- The content of a file as text. -/
def readText (folder : Folder) (path : String) : Except ReadFailure String := do
  match String.fromUTF8? ⟨(← folder.read path).toArray⟩ with
  | some text => return text
  | none => throw .notText

end Folder

end CommandShell
