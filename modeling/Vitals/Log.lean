/-
Log records: a level, a message, and named fields as texts.
-/
import Vitals.Sweep.Report

namespace Vitals

open Text

/-- How much a record matters. -/
inductive Log.Level where
  | debug
  | info
  | warn
  | error
deriving DecidableEq, Repr

/-- The name of a level. -/
def Log.Level.name : Log.Level → String
  | debug => "DEBUG"
  | info => "INFO"
  | warn => "WARN"
  | error => "ERROR"

/-- A record of the log. -/
structure Log.Record where
  /-- Its level. -/
  level : Log.Level
  /-- What happened. -/
  message : String
  /-- The particulars, by name. -/
  fields : List (String × String) := []
deriving DecidableEq, Repr

/-- The decimal text of a count. -/
def Log.count (n : Nat) : String := .ofList (decimal n)

/-- The message for a phase that failed. -/
def Sweep.Phase.failureMessage : Sweep.Phase → String
  | uptime => "uptime phase failed"
  | cpu => "cpu phase failed"
  | memory => "meminfo phase failed"
  | processes => "process phase failed"

/-- The record of what happens in a sweep. -/
def Sweep.Event.record : Sweep.Event → Log.Record
  | phaseFailed phase cause => ⟨.warn, phase.failureMessage, [("error", cause.message)]⟩
  | malformedRow cause => ⟨.warn, "skipping malformed cpu row", [("error", cause.message)]⟩
  | malformedMemory cause => ⟨.warn, "malformed meminfo field", [("error", cause.message)]⟩
  | malformedProcess cause => ⟨.warn, "malformed process field", [("error", cause.message)]⟩
  | complete cpus processes warnings =>
      ⟨.debug, "sweep complete",
        [("cpus", Log.count cpus), ("processes", Log.count processes),
          ("warnings", Log.count warnings)]⟩

end Vitals
