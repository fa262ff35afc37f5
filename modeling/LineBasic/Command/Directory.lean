import LineBasic.Command.Failure

/-! # Directories: what a path leads to from the directory the command runs in

A path is followed name by name. The directory holds files and empty directories; the directories
around it are known to exist, but nothing else in them is.
-/
namespace LineBasic
set_option autoImplicit false

inductive FileEntry where
  | bytes (content : List UInt8)
  | directory
  deriving DecidableEq, Repr

abbrev Directory := List (String × FileEntry)

inductive PathError where
  | noSuchFile
  | notDirectory
  | nameTooLong
  | isDirectory
  deriving DecidableEq, Repr

namespace PathError

def code : PathError → SystemCode
  | .noSuchFile => Failure.noSuchFile
  | .notDirectory => .text "ENOTDIR"
  | .nameTooLong => .text "ENAMETOOLONG"
  | .isDirectory => .text "EISDIR"

/-- A directory can be opened, but not read; all else fails when the path is opened. -/
def message (path : String) : PathError → String
  | .noSuchFile => "ENOENT: no such file or directory, open '" ++ path ++ "'"
  | .notDirectory => "ENOTDIR: not a directory, open '" ++ path ++ "'"
  | .nameTooLong => "ENAMETOOLONG: name too long, open '" ++ path ++ "'"
  | .isDirectory => "EISDIR: illegal operation on a directory, read"

def failure (path : String) (error : PathError) : Failure := .error (error.message path) (some error.code)

end PathError

inductive Place where
  | home
  | inside
  | outside
  | file (content : List UInt8)
  deriving DecidableEq, Repr

/-- The root of all directories is its own parent. -/
def Place.parent : Place → Place
  | .home | .outside => .outside
  | .inside => .home
  | .file content => .file content

namespace Directory

def maxNameSize : Nat := 255

def pathLimit : Nat := 4096

def enter (directory : Directory) (name : String) : Except PathError Place :=
  match directory.lookup name with
  | some (.bytes content) => .ok (.file content)
  | some .directory => .ok .inside
  | none => .error .noSuchFile

/-- One more name of a path, which is empty where two slashes meet and at the end after a slash. -/
def step (directory : Directory) (place : Place) (name : String) : Except PathError Place :=
  match place with
  | .file _ => .error .notDirectory
  | _ =>
    if name = "" ∨ name = "." then .ok place
    else if name = ".." then .ok place.parent
    else if maxNameSize < name.utf8ByteSize then .error .nameTooLong
    else if place = .home then directory.enter name
    else .error .noSuchFile

def follow (directory : Directory) (path : String) : Except PathError Place :=
  if path.isEmpty then .error .noSuchFile
  else if pathLimit ≤ path.utf8ByteSize then .error .nameTooLong
  else (path.splitOn "/").foldlM directory.step (if path.startsWith "/" then .outside else .home)

def read (directory : Directory) (path : String) : Except Failure (List UInt8) :=
  match directory.follow path with
  | .ok (.file content) => .ok content
  | .ok _ => .error (PathError.isDirectory.failure path)
  | .error error => .error (error.failure path)

end Directory

end LineBasic
