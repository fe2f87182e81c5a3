/-
A file system in memory. Files and directories are kept apart, each by the
components of its path; adding one makes the directories above it, and removing
a path removes all that lies below it. A path that is added again under another
spelling keeps its first one.
-/
import Std.Data.ExtTreeMap
import Vitals.FileSystem

namespace Vitals

open Std (ExtTreeMap)

/-- Files and directories in memory. -/
structure Tree where
  /-- The spelling and the text of each file. -/
  files : ExtTreeMap Path.Key (Path × String)
  /-- The spelling of each directory. -/
  directories : ExtTreeMap Path.Key Path

namespace Tree

/-- The tree without files and directories. -/
def empty : Tree := ⟨∅, ∅⟩

instance : Inhabited Tree := ⟨empty⟩

-- ============================================================= edits

/-- The directories with one more, unless it is there. -/
def withDirectory (directories : ExtTreeMap Path.Key Path) (p : Path) :
    ExtTreeMap Path.Key Path :=
  directories.insertIfNew p.key p

/-- The tree with the directories above a path. -/
def addParents (t : Tree) (p : Path) : Tree :=
  { t with directories :=
      (p.ancestors.filter (·.text ≠ "")).foldl withDirectory t.directories }

/-- The tree with a file, which replaces the text of one that is there. -/
def addFile (t : Tree) (p : Path) (content : String) : Tree :=
  let t := t.addParents p
  let spelling := match t.files[p.key]? with
    | some (first, _) => first
    | none => p
  { t with files := t.files.insert p.key (spelling, content) }

/-- The tree with a directory. -/
def addDirectory (t : Tree) (p : Path) : Tree :=
  let t := t.addParents p
  { t with directories := withDirectory t.directories p }

/-- The tree with the directory of a process and its files. A scheduling line or
a command line that is empty is left out, as when the process is ending. -/
def addProcess (t : Tree) (pid : Int32) (status stat cmdline : String) : Tree :=
  let base : Path := ⟨"/proc/" ++ Proc.pidText pid⟩
  let t := (t.addDirectory base).addFile (base.join ⟨"status"⟩) status
  let t := if stat = "" then t else t.addFile (base.join ⟨"stat"⟩) stat
  if cmdline = "" then t else t.addFile (base.join ⟨"cmdline"⟩) cmdline

/-- The tree without a path and all that lies below it. -/
def remove (t : Tree) (p : Path) : Tree :=
  { files := t.files.filter fun key _ => !p.key.isPrefixOf key
    directories := t.directories.filter fun key _ => !p.key.isPrefixOf key }

/-- A change of the tree. -/
inductive Edit where
  /-- Adds a file or replaces its text. -/
  | addFile (path : Path) (content : String)
  /-- Adds a directory. -/
  | addDirectory (path : Path)
  /-- Adds the directory and the files of a process. -/
  | addProcess (pid : Int32) (status stat cmdline : String)
  /-- Removes a path and all that lies below it. -/
  | remove (path : Path)

/-- The tree after a change. -/
def apply (t : Tree) : Edit → Tree
  | .addFile path content => t.addFile path content
  | .addDirectory path => t.addDirectory path
  | .addProcess pid status stat cmdline => t.addProcess pid status stat cmdline
  | .remove path => t.remove path

-- =========================================================== answers

/-- The text of a file. -/
def read (t : Tree) (p : Path) : Except ReadFailure String :=
  match t.files[p.key]? with
  | some (_, content) => .ok content
  | none => .error (.fileNotFound p)

/-- Whether a path is a file or a directory. -/
def contains (t : Tree) (p : Path) : Bool :=
  t.files.contains p.key || t.directories.contains p.key

/-- Whether a path lies directly in a directory. -/
def isChild (directory child : Path) : Bool :=
  match child.parent? with
  | some above => above.key == directory.key
  | none => false

/-- The paths directly in a directory. A path that is both a file and a
directory is listed once, as the file is spelled. -/
def children (t : Tree) (p : Path) : List Path :=
  let files := (t.files.filter fun _ (path, _) => isChild p path).map fun _ (path, _) => path
  let directories := t.directories.filter fun _ path => isChild p path
  (directories.foldl (fun paths key path => paths.insertIfNew key path) files).values

/-- The paths directly in a directory, if there is such a directory. -/
def list (t : Tree) (p : Path) : Except ReadFailure (List Path) :=
  if t.directories.contains p.key then .ok (t.children p)
  else .error (.directoryNotFound p)

/-- The tree as the readers see it. -/
def fileSystem (t : Tree) : FileSystem := ⟨t.read, t.contains, t.list⟩

end Tree

end Vitals
