/-
What can go wrong in reading the process table, by cause. A text that cannot be
understood is a `ParseError`, a file that cannot be had is a `ReadFailure`, and
a reading that fails as a whole is a `CollectError`. Each has its wording in one
function.
-/
import Vitals.Path
import Vitals.Text.Numeral
import Vitals.Text.Quoted

namespace Vitals

open Text

-- =================================================== malformed texts

/-- The two counters of scheduled time. -/
inductive Proc.TimeField where
  | utime
  | stime
deriving DecidableEq, Repr

/-- The name of a counter of scheduled time. -/
def Proc.TimeField.name : Proc.TimeField → String
  | utime => "utime"
  | stime => "stime"

/-- Why a text was not understood. -/
inductive ParseError where
  /-- An uptime without a word. -/
  | emptyUptime
  /-- An uptime whose first word is no number. -/
  | invalidUptime (word : String)
  /-- An amount without its unit. -/
  | missingUnit (value : String)
  /-- An amount whose number is none, or too large. -/
  | invalidAmount (value : String)
  /-- A field whose value is not of its kind. -/
  | invalidField (key value : String)
  /-- A processor row that is too short. -/
  | missingColumns (count : Nat) (line : String)
  /-- A processor row with a column that is no count of ticks. -/
  | invalidJiffies (column line : String)
  /-- A scheduling line in which no command name ends. -/
  | missingCommand
  /-- A scheduling line that ends before a counter. -/
  | missingTime (field : Proc.TimeField)
  /-- A scheduling line with a counter that is none. -/
  | invalidTime (field : Proc.TimeField)
  /-- A failure in the files of one process. -/
  | inProcess (pid : Int32) (cause : ParseError)
  /-- A process that could not be read, though it is not gone, with the wording of the
  cause. -/
  | unreadProcess (pid : Int32) (cause : String)
deriving DecidableEq, Repr

/-- The decimal text of a process number. -/
def Proc.pidText (pid : Int32) : String := .ofList (signedDecimal pid.toInt)

namespace ParseError

/-- The wording of a failure, without the words that announce one. -/
def detail : ParseError → String
  | emptyUptime => "empty uptime"
  | invalidUptime word => "invalid uptime '" ++ word ++ "'"
  | missingUnit value => "expected '<n> kB', got '" ++ value ++ "'"
  | invalidAmount value => "invalid kB value '" ++ value ++ "'"
  | invalidField key value => "invalid " ++ key ++ " '" ++ value ++ "'"
  | missingColumns count line =>
      "unexpected columns: expected 8+, got " ++ .ofList (decimal count)
        ++ " in '" ++ line ++ "'"
  | invalidJiffies column line => "invalid jiffies '" ++ column ++ "' in '" ++ line ++ "'"
  | missingCommand => "missing ')' in stat"
  | missingTime field => "missing field " ++ field.name
  | invalidTime field => "invalid " ++ field.name
  | inProcess pid cause => "pid " ++ Proc.pidText pid ++ ": " ++ cause.detail
  | unreadProcess pid cause => "pid " ++ Proc.pidText pid ++ ": " ++ cause

/-- The wording of a failure. -/
def message (e : ParseError) : String := "parse error: " ++ e.detail

end ParseError

-- ================================================== unreadable files

/-- Why a file or a directory could not be read. -/
inductive ReadFailure where
  /-- A tree in memory has no such file. -/
  | fileNotFound (path : Path)
  /-- A tree in memory has no such directory. -/
  | directoryNotFound (path : Path)
  /-- A disk has nothing there. -/
  | noEntry
  /-- A disk has a directory where a file was asked for. -/
  | isDirectory
  /-- A disk has a file where a directory was asked for. -/
  | notDirectory
  /-- A file does not hold text. -/
  | notText
deriving DecidableEq, Repr

/-- The wording of a failed reading. -/
def ReadFailure.message : ReadFailure → String
  | fileNotFound path => "file not found: " ++ quoted path.text
  | directoryNotFound path => "directory not found: " ++ quoted path.text
  | noEntry => "No such file or directory (os error 2)"
  | isDirectory => "Is a directory (os error 21)"
  | notDirectory => "Not a directory (os error 20)"
  | notText => "stream did not contain valid UTF-8"

-- =================================================== failed readings

/-- Why a reading failed as a whole. -/
inductive CollectError where
  /-- The process ended before it was read. -/
  | processGone (pid : Int32)
  /-- A file or directory could not be read. -/
  | unreadable (path : Path) (cause : ReadFailure)
  /-- A file could not be understood. -/
  | malformed (cause : ParseError)
deriving DecidableEq, Repr

/-- The wording of a failed reading. -/
def CollectError.message : CollectError → String
  | processGone pid => "process " ++ Proc.pidText pid ++ " disappeared"
  | unreadable path cause => "failed to read " ++ path.text ++ ": " ++ cause.message
  | malformed cause => cause.message

/-- A value read from a file, with the failures of the fields that were left at
their defaults. -/
structure Reading (α : Type) where
  /-- What was read. -/
  value : α
  /-- The fields that could not be, in the order of their reading. -/
  issues : List ParseError
deriving DecidableEq, Repr

end Vitals
