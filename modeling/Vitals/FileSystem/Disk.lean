/-
A file system of directories and of files that hold bytes, below a root that is
itself a directory. A path leads through directories only, no path is a file and
a directory at once, and a file answers with a text only if its bytes are one.
-/
import Std.Data.ExtTreeMap
import Vitals.FileSystem

namespace Vitals

open Std (ExtTreeMap)

/-- What a disk has at a path. -/
inductive Disk.Node where
  /-- A file and its bytes. -/
  | file (bytes : ByteArray)
  /-- A directory. -/
  | directory
deriving Inhabited

/-- Files and directories by the names that lead to them from the root. -/
structure Disk where
  /-- What there is at each sequence of names. -/
  nodes : ExtTreeMap Path.Key Disk.Node

namespace Disk

/-- A disk with nothing on it but its root. -/
def empty : Disk := ⟨(∅ : ExtTreeMap Path.Key Node).insert [] .directory⟩

instance : Inhabited Disk := ⟨empty⟩

-- ============================================================== ways

/-- The place that a component leads to: a dot stays, two dots go up, a name goes
down. Nothing leads above the root. -/
def step? (place : Path.Key) (component : String) : Option Path.Key :=
  if component = Path.here then some place
  else if component = Path.above then if place = [] then none else some place.dropLast
  else if component = Path.root then none
  else some (place ++ [component])

/-- The places that are passed on the way along components, and the one at its
end. -/
def way? : (place : Path.Key) → Path.Key → Option (List Path.Key × Path.Key)
  | place, [] => some ([], place)
  | place, component :: rest => do
      let next ← step? place component
      let (passed, last) ← way? next rest
      return (place :: passed, last)

-- ============================================================= edits

/-- Whether there is a file at a place. -/
def isFile (d : Disk) (place : Path.Key) : Bool :=
  match d.nodes[place]? with
  | some (.file _) => true
  | _ => false

/-- Whether there is a directory at a place. -/
def isDirectory (d : Disk) (place : Path.Key) : Bool :=
  match d.nodes[place]? with
  | some .directory => true
  | _ => false

/-- The disk with directories at all of the given places that are free. -/
def withDirectories (d : Disk) (places : List Path.Key) : Disk :=
  ⟨places.foldl (fun nodes place => nodes.insertIfNew place .directory) d.nodes⟩

/-- The disk with a file, and with directories on the way to it. Nothing changes
if a file stands in the way, and no file is written where a directory is or
where the path asks for one. -/
def write (d : Disk) (p : Path) (bytes : ByteArray) : Disk :=
  match way? [] p.key with
  | none => d
  | some (passed, place) =>
      if passed.any d.isFile then d
      else
        let d := d.withDirectories passed
        if p.namesDirectory || d.isDirectory place then d
        else ⟨d.nodes.insert place (.file bytes)⟩

/-- The disk with a directory, and with those on the way to it. Nothing changes
if a file stands in the way. -/
def makeDirectory (d : Disk) (p : Path) : Disk :=
  match way? [] p.key with
  | none => d
  | some (passed, place) =>
      if (passed ++ [place]).any d.isFile then d else d.withDirectories (passed ++ [place])

/-- The disk without a place and all that lies below it. -/
def without (d : Disk) (place : Path.Key) : Disk :=
  ⟨d.nodes.filter fun key _ => !place.isPrefixOf key⟩

/-- The disk without a path and all that lies below it, if the way there leads
through directories. A path that ends in dots is emptied and stays, and a file
is not removed as a directory. -/
def remove (d : Disk) (p : Path) : Disk :=
  match way? [] p.key with
  | none => d
  | some (passed, place) =>
      if !passed.all d.isDirectory then d
      else if p.endsInDots then
        if d.isDirectory place then (d.without place).withDirectories [place] else d
      else if p.namesDirectory && d.isFile place then d
      else d.without place

/-- A change of the disk, at a path that starts from its root. -/
inductive Edit where
  /-- Writes a file and makes the directories above it. -/
  | write (path : Path) (bytes : ByteArray)
  /-- Makes a directory and those above it. -/
  | makeDirectory (path : Path)
  /-- Removes a file, or a directory and all that lies below it. -/
  | remove (path : Path)

/-- The disk after a change. -/
def apply (d : Disk) : Edit → Disk
  | .write path bytes => d.write path bytes
  | .makeDirectory path => d.makeDirectory path
  | .remove path => d.remove path

-- =========================================================== answers

/-- The places on the way to a place, the root first and the place itself left
out. -/
def above (place : Path.Key) : List Path.Key :=
  (List.range place.length).map place.take

/-- What there is at a path, or why it cannot be reached. -/
def find (d : Disk) (names : Path.Key) : Except ReadFailure Node :=
  if (above names).any d.isFile then .error .notDirectory
  else match d.nodes[names]? with
    | some node => .ok node
    | none => .error .noEntry

/-- The text of a file. -/
def read (d : Disk) (names : Path.Key) : Except ReadFailure String :=
  match d.find names with
  | .ok (.file bytes) =>
      match String.fromUTF8? bytes with
      | some content => .ok content
      | none => .error .notText
  | .ok .directory => .error .isDirectory
  | .error e => .error e

/-- Whether there is a file or a directory. -/
def contains (d : Disk) (names : Path.Key) : Bool :=
  match d.find names with
  | .ok _ => true
  | .error _ => false

/-- The names directly in a directory. -/
def list (d : Disk) (names : Path.Key) : Except ReadFailure (List String) :=
  match d.find names with
  | .ok .directory =>
      .ok ((d.nodes.filter fun key _ => key ≠ [] && key.dropLast == names).keys.filterMap
        (·.getLast?))
  | .ok (.file _) => .error .notDirectory
  | .error e => .error e

/-- The names that lead from a root to a path below it. -/
def namesBelow? (root p : Path) : Option Path.Key :=
  if root.key.isPrefixOf p.key then some (p.key.drop root.key.length) else none

/-- The disk as the readers see it when its root stands at the given path. -/
def fileSystem (d : Disk) (root : Path) : FileSystem where
  read p := match namesBelow? root p with
    | some names => d.read names
    | none => .error .noEntry
  contains p := match namesBelow? root p with
    | some names => d.contains names
    | none => false
  list p := match namesBelow? root p with
    | some names => (d.list names).map fun found => found.map fun name => p.join ⟨name⟩
    | none => .error .noEntry

end Disk

end Vitals
