import Chip8Vm.Text.Quoted

/-!
# Folders

The files that a program can be read from: a folder of files and further folders, seen from
inside. A path is walked name by name, and each further name needs a folder to stand in, so
what follows a file is refused before it is looked at. Nothing is known outside the folder.
-/

namespace Chip8Vm

/-- What the bytes of a file are given as. -/
abbrev Bytes := List UInt8

/-- Why a path leads to no file. -/
inductive PathProblem
  | notFound
  | notFolder
  | isFolder
  | nameTooLong
deriving DecidableEq, Repr

/-- The customary number of a problem. -/
def PathProblem.number : PathProblem → Nat
  | .notFound => 2
  | .notFolder => 20
  | .isFolder => 21
  | .nameTooLong => 36

def PathProblem.text : PathProblem → String
  | .notFound => "No such file or directory"
  | .notFolder => "Not a directory"
  | .isFolder => "Is a directory"
  | .nameTooLong => "File name too long"

/-- Why reading a file failed. -/
inductive ReadError
  | refused (problem : PathProblem) (path : String)
  /-- The text is no path at all, since it holds the character zero. -/
  | notPath
deriving DecidableEq, Repr

def ReadError.message : ReadError → String
  | .refused problem path =>
    "[Errno " ++ Numeral.decimal problem.number ++ "] " ++ problem.text ++ ": " ++ Text.quote path
  | .notPath => "embedded null byte"

inductive Entry
  | file (content : Bytes)
  | folder
deriving DecidableEq

/-- What a folder holds, by path: names with a slash between them. -/
abbrev Folder := List (String × Entry)

namespace Folder

/-- Where a walk has got to. -/
inductive Place
  /-- A folder, by the names that lead to it; none lead to the folder the walk starts in. -/
  | within (names : List String)
  /-- A folder of which nothing is known. -/
  | outside
  | file (content : Bytes)
deriving DecidableEq

/-- Most bytes of one name. -/
def nameLimit : Nat := 255

/-- Bytes that a whole path has to stay below. -/
def pathLimit : Nat := 4096

/-- The place of an entry, given the names that lead to it. -/
def find (f : Folder) (names : List String) : Except PathProblem Place :=
  match f.lookup ("/".intercalate names) with
  | some (.file content) => .ok (.file content)
  | some .folder => .ok (.within names)
  | none => .error .notFound

/-- Goes from a place to what it calls `name`. -/
def enter (f : Folder) (place : Place) (name : String) : Except PathProblem Place :=
  match place with
  | .file _ => .error .notFolder
  | .outside =>
    if name = "" ∨ name = "." ∨ name = ".." then .ok .outside
    else if nameLimit < name.utf8ByteSize then .error .nameTooLong
    else .error .notFound
  | .within names =>
    if name = "" ∨ name = "." then .ok (.within names)
    else if name = ".." then .ok (if names = [] then .outside else .within names.dropLast)
    else if nameLimit < name.utf8ByteSize then .error .nameTooLong
    else f.find (names ++ [name])

/-- Walks along a path, which starts outside if it begins with a slash. -/
def walk (f : Folder) (path : String) : Except PathProblem Place :=
  if path = "" then .error .notFound
  else if pathLimit ≤ path.utf8ByteSize then .error .nameTooLong
  else (path.splitOn "/").foldlM f.enter (if path.startsWith "/" then .outside else .within [])

/-- The content of the file that a path leads to. -/
def read (f : Folder) (path : String) : Except ReadError Bytes :=
  if path.toList.contains (Char.ofNat 0) then .error .notPath
  else
    match f.walk path with
    | .ok (.file content) => .ok content
    | .ok _ => .error (.refused .isFolder path)
    | .error problem => .error (.refused problem path)

end Folder

end Chip8Vm
