/-
A bound on how long a peer may keep a connection waiting. Writing, flushing and
closing that cannot go on at once start a stall; when one of them still cannot
go on once the stall has lasted for the time allowed, it fails, and the next
stall has the whole time again. Anything that goes on ends the stall. Reading
has no part in this.
-/
import Vitals.Duration

namespace Vitals

-- ============================================================ streams

/-- The kinds of failures of a stream. -/
inductive Stream.ErrorKind where
  | brokenPipe
  | connectionReset
  | timedOut
  | other
deriving DecidableEq, Repr

/-- The name of a kind of failure. -/
def Stream.ErrorKind.name : Stream.ErrorKind → String
  | brokenPipe => "BrokenPipe"
  | connectionReset => "ConnectionReset"
  | timedOut => "TimedOut"
  | other => "Other"

/-- A failure of a stream. -/
structure Stream.Failure where
  /-- Its kind. -/
  kind : Stream.ErrorKind
  /-- Its wording. -/
  message : String
deriving DecidableEq, Repr

/-- What a stream answers when it is asked to go on. -/
inductive Stream.Poll (α : Type) where
  /-- It cannot go on yet. -/
  | pending
  /-- It went on. -/
  | ready (value : α)
  /-- It failed. -/
  | failed (failure : Stream.Failure)
deriving DecidableEq, Repr

-- =========================================================== deadline

/-- A bound on stalls, and the stall that is under way. Times are nanoseconds of
one clock. -/
structure WriteDeadline where
  /-- How long a stall may last. -/
  timeout : Duration
  /-- When the stall under way has lasted too long. -/
  due : Option Nat := none
deriving DecidableEq, Repr

namespace WriteDeadline

variable {α : Type}

/-- The failure of a stall that lasted too long. -/
def stalled (w : WriteDeadline) : Stream.Failure :=
  ⟨.timedOut, "peer stopped reading for " ++ w.timeout.text⟩

/-- What writing, flushing or closing answers at a time, given what the stream
itself answers. -/
def write (w : WriteDeadline) (now : Nat) (inner : Stream.Poll α) :
    Stream.Poll α × WriteDeadline :=
  match inner with
  | .pending =>
      let due := w.due.getD (now + w.timeout.nanoseconds)
      if due ≤ now then (.failed w.stalled, { w with due := none })
      else (.pending, { w with due := some due })
  | answer => (answer, { w with due := none })

/-- What reading answers, given what the stream itself answers. -/
def read (w : WriteDeadline) (inner : Stream.Poll α) : Stream.Poll α × WriteDeadline :=
  (inner, w)

end WriteDeadline

end Vitals
