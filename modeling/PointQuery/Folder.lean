import PointQuery.Text.Basic
import PointQuery.TextFile
/-!
# Folders

The folder that a program is run in, as far as its files are known. Files are found by following a
path from part to part. Each part but the last has to lead to a folder; a single point stays where
it is and two points lead back.
-/

namespace PointQuery

/-- Files by their paths from the folder. -/
structure Folder where
  files : List (String × TextFile) := []

namespace Folder

/-- A place in a folder: the names that lead to it, innermost first. -/
abbrev Place := List String

/-- The parts of a path between slashes. -/
def pathParts (path : String) : List String := (Text.parts '/' path.toList).map String.ofList

/-- Whether a part of a path stays where it is: a single point, or nothing between two slashes. -/
def isIdle (part : String) : Bool := part = "" || part = "."

/-- The place of a file that is listed under a path. -/
def placeOf (path : String) : Place := ((pathParts path).filter fun p => !isIdle p).reverse

/-- The file that is listed at a place. -/
def listed (f : Folder) (place : Place) : TextFile :=
  match f.files.find? fun e => placeOf e.1 == place with
  | some (_, file) => file
  | none => .missing

/-- Whether a place is a folder: this one itself, one that is listed, or one that a file lies in. -/
def isFolder (f : Folder) (place : Place) : Bool :=
  place.isEmpty || f.files.any fun (path, file) =>
    match file with
    | .missing => false
    | .directory => place.isSuffixOf (placeOf path)
    | .content _ => place.isSuffixOf (placeOf path) && place != placeOf path

/-- Follows the parts of a path from a place. What lies outside the folder is not known. -/
def follow (f : Folder) : Place → List String → Option Place
  | place, [] => some place
  | place, part :: parts =>
    if !f.isFolder place then none
    else if isIdle part then f.follow place parts
    else if part = ".." then
      match place with
      | [] => none
      | _ :: outer => f.follow outer parts
    else f.follow (part :: place) parts

/-- What is at a path. Nothing is at the empty path, and nothing is known of places given from the
root of all folders. -/
def find (f : Folder) (path : String) : TextFile :=
  if path = "" ∨ path.toList.head? = some '/' then .missing
  else
    match f.follow [] (pathParts path) with
    | some place => if f.isFolder place then .directory else f.listed place
    | none => .missing

end Folder

end PointQuery
