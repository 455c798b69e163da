import OperatorScript.Text.Blank
import OperatorScript.Text.Dict

/-!
A directory of text files, read by path.

Files are named by their paths from the directory; a path is followed name by name through the
directories that the names of files imply. Outside the directory there are other directories, but no
file that is known.
-/

set_option autoImplicit false
set_option relaxedAutoImplicit false

namespace OperatorScript

inductive ReadError where
  | notFound
  | notADirectory
  | isADirectory
  | nameTooLong
  /-- The path holds the character with code point zero, which no path can. -/
  | nulInPath
deriving DecidableEq

def ReadError.message : ReadError → String
  | .notFound => "No such file or directory (os error 2)"
  | .notADirectory => "Not a directory (os error 20)"
  | .isADirectory => "Is a directory (os error 21)"
  | .nameTooLong => "File name too long (os error 36)"
  | .nulInPath => "file name contained an unexpected NUL byte"

abbrev FileReader := String → Except ReadError String

/-- A directory: the texts of files by their paths. -/
abbrev Files := Dict String

namespace Files

/-- The names in a path; a name is empty where two slashes meet and at a slash at the end. -/
def names (path : String) : List String :=
  (Text.stretches (· == '/') path.toList).map String.ofList

def pathOf (names : List String) : String := Text.join "/" names

def isDirectory (fs : Files) (names : List String) : Bool :=
  names.isEmpty || fs.any fun e => (pathOf names ++ "/").toList.isPrefixOf e.1.toList

def maxNameLength : Nat := 255

def maxPathLength : Nat := 4095

def followOutside : List String → ReadError
  | [] => .isADirectory
  | name :: rest =>
    if name = "" ∨ name = "." ∨ name = ".." then followOutside rest
    else if maxNameLength < name.utf8ByteSize then .nameTooLong
    else .notFound

def follow (fs : Files) : List String → List String → Except ReadError String
  | _, [] => .error .isADirectory
  | here, name :: rest =>
    if name = "" ∨ name = "." then follow fs here rest
    else if name = ".." then
      if here.isEmpty then .error (followOutside rest) else follow fs here.dropLast rest
    else if maxNameLength < name.utf8ByteSize then .error .nameTooLong
    else
      let there := here ++ [name]
      match fs.get? (pathOf there) with
      | some text => if rest.isEmpty then .ok text else .error .notADirectory
      | none => if fs.isDirectory there then follow fs there rest else .error .notFound

def read (fs : Files) : FileReader := fun path =>
  if path.toList.contains '\x00' then .error .nulInPath
  else if maxPathLength < path.utf8ByteSize then .error .nameTooLong
  else
    match path.toList with
    | [] => .error .notFound
    | '/' :: _ => .error (followOutside (names path))
    | _ => fs.follow [] (names path)

end Files

end OperatorScript
