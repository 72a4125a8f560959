import GbaArm.Cli.Path
import GbaArm.Fault

/-! A small tree of files with a working directory. -/
namespace GbaArm.Cli

inductive Entry
  | file (bytes : ByteArray)
  | directory

/-- Each entry stands under the names that lead to it from the root. The root itself is always there. -/
structure Volume where
  entries : List (List String × Entry)
  workingDirectory : List String

namespace Volume

def longestName : Nat := 255

def longestPath : Nat := 4095

def find? (v : Volume) : List String → Option Entry
  | [] => some .directory
  | place => List.lookup place v.entries

def put (v : Volume) (place : List String) (entry : Entry) : Volume :=
  { v with entries := (place, entry) :: v.entries }

/-- Adds the directories of `names` below `place` that are missing. -/
def addDirectories (v : Volume) (place : List String) : List String → Volume
  | [] => v
  | name :: names =>
    let place := place ++ [name]
    addDirectories (if (v.find? place).isSome then v else v.put place .directory) place names

/-- Adds a file and the directories that lead to it. -/
def addFile (v : Volume) (place : List String) (bytes : ByteArray) : Volume :=
  (v.addDirectories [] place.dropLast).put place (.file bytes)

/-- Follows names from a place. All but the last must lead to directories. -/
def follow (v : Volume) (place : List String) : List String → Except FileError (List String)
  | [] => .ok place
  | name :: names =>
    match v.find? place with
    | none => .error .notFound
    | some (.file _) => .error .notADirectory
    | some .directory =>
      if name == "" || name == "." then v.follow place names
      else if name == ".." then v.follow place.dropLast names
      else if longestName < name.utf8ByteSize then .error .nameTooLong
      else v.follow (place ++ [name]) names

/-- Where a path starts: at the root or in the working directory. -/
def startOf (v : Volume) (path : String) : List String :=
  if path.toList.head? == some '/' then [] else v.workingDirectory

/-- The place that a path names. -/
def placeOf (v : Volume) (path : String) : Except FileError (List String) :=
  if path.isEmpty then .error .notFound
  else if path.toList.contains '\x00' then .error .badName
  else if longestPath < path.utf8ByteSize then .error .nameTooLong
  else v.follow (v.startOf path) (Path.pieces path.toList)

def entryAt (v : Volume) (path : String) : Except FileError Entry := do
  let place ← v.placeOf path
  match v.find? place with
  | some entry => return entry
  | none => throw .notFound

def read (v : Volume) (path : String) : Except FileError ByteArray := do
  match ← v.entryAt path with
  | .file bytes => return bytes
  | .directory => throw .isADirectory

/-- Makes the directories of `names` below `place`. -/
def makeBelow (v : Volume) (place : List String) : List String → Except FileError Volume
  | [] => .ok v
  | name :: names =>
    let place := place ++ [name]
    match v.find? place with
    | none => (v.put place .directory).makeBelow place names
    | some .directory => v.makeBelow place names
    | some (.file _) => .error (if names.isEmpty then .alreadyThere else .notADirectory)

/-- Makes a directory and those above it. -/
def makeDirectories (v : Volume) (path : String) : Except FileError Volume :=
  v.makeBelow (v.startOf path) ((Path.pieces path.toList).filter (· != ""))

/-- Writes a file anew. -/
def write (v : Volume) (path : String) (bytes : ByteArray) : Except FileError Volume := do
  let place ← v.placeOf path
  match v.find? place with
  | some .directory => throw .isADirectory
  | _ => return v.put place (.file bytes)

end Volume

end GbaArm.Cli
