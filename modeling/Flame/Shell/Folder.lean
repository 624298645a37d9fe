import Flame.Text.Lines

/-!
Paths, and a folder of files that paths lead to.
-/

namespace Flame

/-- Why a file cannot be read as text. -/
inductive ReadFailure
  | missing
  | isDirectory
  | notDirectory
  | notText
  /-- A reason that the system gives in its own words. -/
  | other (reason : String)
  deriving DecidableEq

def ReadFailure.message : ReadFailure → String
  | missing => "No such file or directory (os error 2)"
  | isDirectory => "Is a directory (os error 21)"
  | notDirectory => "Not a directory (os error 20)"
  | notText => "stream did not contain valid UTF-8"
  | other reason => reason

namespace Path

/-- The parts of a path between its slashes. -/
def parts : List Char → List (List Char)
  | [] => [[]]
  | c :: cs =>
    if c = '/' then [] :: parts cs
    else match parts cs with
      | [] => [[c]]
      | p :: ps => (c :: p) :: ps

/-- Whether a part leads nowhere else: it is empty, or a single dot. -/
def isIdle (part : List Char) : Bool := part == [] || part == ['.']

/-- Whether a part leads to the folder above. -/
def isUp (part : List Char) : Bool := part == ['.', '.']

/-- The last part of a path that leads somewhere, unless it leads up. -/
def fileName? (path : List Char) : Option (List Char) :=
  match ((parts path).filter (!isIdle ·)).getLast? with
  | some part => if isUp part then none else some part
  | none => none

/-- What follows the last dot of the file name. A dot at its start does not count. -/
def extension? (path : List Char) : Option (List Char) :=
  match fileName? path with
  | none => none
  | some name =>
    match name.reverse.dropWhile (· ≠ '.') with
    | '.' :: _ :: _ => some (name.reverse.takeWhile (· ≠ '.')).reverse
    | _ => none

end Path

/-- Files by their paths from the folder, as parts. -/
structure Folder where
  files : List (List (List Char) × List UInt8)

namespace Folder

/-- The folder with the given files. -/
def ofFiles (files : List (String × List UInt8)) : Folder :=
  ⟨files.map fun (path, bytes) =>
    ((Path.parts path.toList).filter (!Path.isIdle ·), bytes)⟩

/-- The content of the file at a place. -/
def file? (folder : Folder) (place : List (List Char)) : Option (List UInt8) :=
  (folder.files.find? (·.1 == place)).map (·.2)

/-- Whether a place is a folder: it leads to some file. -/
def isFolder (folder : Folder) (place : List (List Char)) : Bool :=
  folder.files.any fun (path, _) => place.isPrefixOf path && place.length < path.length

/-- Follows the parts of a path from a place that is a folder: one inside, or `none` for one
outside. Of what is outside nothing is known but that it is a folder. -/
def follow (folder : Folder) : Option (List (List Char)) → List (List Char) →
    Except ReadFailure (List UInt8)
  | _, [] => .error .isDirectory
  | none, part :: rest =>
    if Path.isIdle part || Path.isUp part then folder.follow none rest else .error .missing
  | some place, part :: rest =>
    if Path.isIdle part then folder.follow (some place) rest
    else if Path.isUp part then
      folder.follow (if place.isEmpty then none else some place.dropLast) rest
    else
      let next := place ++ [part]
      match folder.file? next with
      | some bytes => if rest.isEmpty then .ok bytes else .error .notDirectory
      | none => if folder.isFolder next then folder.follow (some next) rest else .error .missing

/-- The bytes of the file that a path leads to. A path that starts with a slash leads outside. -/
def bytesAt (folder : Folder) (path : String) : Except ReadFailure (List UInt8) :=
  match path.toList with
  | [] => .error .missing
  | '/' :: cs => folder.follow none (Path.parts cs)
  | cs => folder.follow (some []) (Path.parts cs)

/-- The text of the file that a path leads to. -/
def read (folder : Folder) (path : String) : Except ReadFailure String := do
  let bytes ← folder.bytesAt path
  match Text.decode? bytes with
  | some text => .ok text
  | none => .error .notText

end Folder

end Flame
