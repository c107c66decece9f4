import Rollout.Text.Pieces

/-!
# Files of a directory

A path leads from a directory, part by part, to a file of it, to a directory or to nothing.
Only the working directory is known here: it holds files and no other directories, and outside
of it no names are known.
-/

namespace Rollout.Command

inductive FileFault
  | missing
  | denied
  | notDirectory
  | isDirectory
  | nameTooLong
  | notText
  | other (reason : String)
  deriving DecidableEq, Repr

def FileFault.message : FileFault → String
  | .missing => "No such file or directory (os error 2)"
  | .denied => "Permission denied (os error 13)"
  | .notDirectory => "Not a directory (os error 20)"
  | .isDirectory => "Is a directory (os error 21)"
  | .nameTooLong => "File name too long (os error 36)"
  | .notText => "stream did not contain valid UTF-8"
  | .other reason => reason

/-- The files of a working directory. -/
structure Directory where
  files : List (String × ByteArray) := []

namespace Directory

/-- Where a part of a path leads. -/
inductive Spot
  | within
  | outside
  | file (contents : ByteArray)

def nameLimit : Nat := 255

def pathLimit : Nat := 4095

/-- Follows one part of a path. Nothing is behind a file, not even itself. -/
def follow (d : Directory) (spot : Spot) (part : String) : Except FileFault Spot :=
  match spot with
  | .file _ => .error .notDirectory
  | .within | .outside =>
    if part = "" ∨ part = "." then .ok spot
    else if part = ".." then .ok .outside
    else if nameLimit < part.utf8ByteSize then .error .nameTooLong
    else
      match spot, d.files.find? fun entry => entry.1 == part with
      | .within, some entry => .ok (.file entry.2)
      | _, _ => .error .missing

def read (d : Directory) (path : String) : Except FileFault ByteArray :=
  if pathLimit < path.utf8ByteSize then .error .nameTooLong
  else if path = "" then .error .missing
  else do
    let start := if path.startsWith "/" then Spot.outside else .within
    match ← (Text.split '/' path).foldlM d.follow start with
    | .file contents => .ok contents
    | _ => .error .isDirectory

end Directory

end Rollout.Command
