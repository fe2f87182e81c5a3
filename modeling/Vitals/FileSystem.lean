/-
The file system as the readers of the process table see it: it answers what a
file holds, whether a path exists, and what lies directly in a directory. It is
a value, so that a sweep over it is a function and two sweeps can be compared.
-/
import Vitals.Proc.Error

namespace Vitals

/-- What the readers ask of a file system. -/
structure FileSystem where
  /-- The text of a file. -/
  read : Path → Except ReadFailure String
  /-- Whether there is a file or a directory. -/
  contains : Path → Bool
  /-- The paths directly below a directory, in no particular order. -/
  list : Path → Except ReadFailure (List Path)

end Vitals
