import PointQuery.Json.Token
/-!
# Text files

What may be found at a path, reading it as a text, and loading a JSON description from it.
-/

namespace PointQuery

/-- What is at a path. -/
inductive TextFile where
  | missing
  | directory
  | content (bytes : ByteArray)

/-- Why there is no text at a path. -/
inductive FileFault where
  | notFound
  | isDirectory
  | notUtf8
deriving DecidableEq

/-- Why a description could not be loaded. -/
inductive LoadError where
  | file (fault : FileFault)
  | json (failure : Json.Failure)
deriving DecidableEq

namespace TextFile

/-- The text of a file, which has to be valid UTF-8. -/
def read : TextFile → Except FileFault String
  | missing => .error .notFound
  | directory => .error .isDirectory
  | content bytes =>
    match String.fromUTF8? bytes with
    | some text => .ok text
    | none => .error .notUtf8

/-- Loads a description: the text is read first, then what it describes. -/
def load {α : Type} (describe : String → Except Json.Failure α) (file : TextFile) :
    Except LoadError α :=
  match file.read with
  | .error fault => .error (.file fault)
  | .ok text => (describe text).mapError .json

end TextFile

end PointQuery
