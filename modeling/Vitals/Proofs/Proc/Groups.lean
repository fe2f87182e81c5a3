/-
What is read of one process, source by source.

A process has four sources that can be wrong: two numbers and an amount in its status, and
its scheduling line. Each says nothing, or something, or what it says is no value of its
kind (`Finding`), and each settles a group of the sample that no other source has a part
in. A group is set as a whole or left at its defaults as a whole, so there is no reading in
which half of one is set: of the scheduling line both counters are had or neither, and the
share that follows from them is had with them.

What is wrong with a process is then what is wrong with each source, one issue at most, in
the order in which they are read. The name and the command have no part in it, for any
text will do for them.
-/
import Vitals.Proofs.Proc.Schedule
import Vitals.Proofs.Sweep.Account

namespace Vitals.Proc

open Binary Text

-- ============================================================ findings

/-- What a source says: nothing, a value, or something that is none. -/
inductive Finding (α : Type) where
  | absent
  | wellFormed (value : α)
  | malformed (cause : ParseError)

namespace Finding

variable {α β : Type}

/-- A group as its source settles it: set from a value, and left at its defaults without
one. -/
def settle (defaults : β) (set : α → β) : Finding α → β
  | absent => defaults
  | wellFormed value => set value
  | malformed _ => defaults

/-- What is wrong with a source. -/
def issues : Finding α → List ParseError
  | absent => []
  | wellFormed _ => []
  | malformed cause => [cause]

/-- A field, as it was read. -/
def ofField : Except ParseError (Option α) → Finding α
  | .ok none => absent
  | .ok (some value) => wellFormed value
  | .error cause => malformed cause

/-- A field is settled by its finding. -/
theorem valueOr_eq (default : α) (field : Except ParseError (Option α)) :
    valueOr default field = (ofField field).settle default id := by
  rcases field with cause | value | value <;> rfl

end Finding

-- ============================================================= sources

/-- The number that the last line of a file with a key gives. -/
def numberIn (key content : String) : Finding Int32 :=
  match lastField key content with
  | none => .absent
  | some value =>
      match signed32? value.toList with
      | some n => .wellFormed n
      | none => .malformed (.invalidField key value)

/-- The amount that the last line of a file with a key gives. -/
def amountIn (key content : String) : Finding UInt64 :=
  match lastField key content with
  | none => .absent
  | some value =>
      match kilobytes value with
      | .ok kb => .wellFormed kb
      | .error cause => .malformed cause

/-- The counters that a scheduling line gives, if it can be read. -/
def timesIn (stat : Except ReadFailure String) : Finding ScheduledTimes :=
  match stat with
  | .error _ => .absent
  | .ok content =>
      match scheduledTimes content with
      | .ok times => .wellFormed times
      | .error cause => .malformed cause

/-- A number field is found as the last telling line gives it. -/
theorem ofField_read (key content : String) :
    Finding.ofField ((Fields.parse content).read signed32? key) = numberIn key content := by
  rw [Fields.read, getElem?_parse, numberIn]
  cases lastField key content with
  | none => rfl
  | some value =>
      dsimp only
      cases signed32? value.toList <;> rfl

/-- An amount field is found as the last telling line gives it. -/
theorem ofField_amount (key content : String) :
    Finding.ofField ((Fields.parse content).amount key) = amountIn key content := by
  rw [Fields.amount, getElem?_parse, amountIn]
  cases lastField key content with
  | none => rfl
  | some value =>
      dsimp only
      cases kilobytes value <;> rfl

/-- The account tells the issue of a number that the finding has. -/
theorem numberIssue_eq (key content : String) :
    Sweep.numberIssue key content = (numberIn key content).issues := by
  unfold Sweep.numberIssue numberIn
  cases lastField key content with
  | none => rfl
  | some value =>
      dsimp only
      cases signed32? value.toList <;> rfl

/-- The account tells the issue of an amount that the finding has. -/
theorem amountIssue_eq (key content : String) :
    Sweep.amountIssue key content = (amountIn key content).issues := by
  unfold Sweep.amountIssue amountIn
  cases lastField key content with
  | none => rfl
  | some value =>
      dsimp only
      cases kilobytes value <;> rfl

-- ============================================================== groups

/-- What a sample has of the memory: its amount and its share. -/
def memoryGroup (u : ProcessUsage) : UInt64 × Binary single := (u.memUsageKb, u.memUsagePercent)

/-- What a sample has of the scheduling line: the counters and the share. -/
def scheduleGroup (u : ProcessUsage) : UInt64 × UInt64 × Binary single :=
  (u.utime, u.stime, u.cpuUsagePercent)

variable (config : Config) (directory : Int32) (totalKb : UInt64)

/-- The group of an amount. -/
def memoryOf (kb : UInt64) : UInt64 × Binary single := (kb, Rate.processMemoryPercent kb totalKb)

/-- The group of a scheduling line. -/
def scheduleOf (times : ScheduledTimes) : UInt64 × UInt64 × Binary single :=
  (times.utime, times.stime,
    Rate.processCpuPercent times.utime times.stime config.ticks config.interval)

/-- The command that a command line gives, if it can be read. -/
def commandIn (cmdline : Except ReadFailure String) : String :=
  match cmdline with
  | .ok content => commandName content
  | .error _ => ""

/-- Each group of a reading is settled by a source of its own, and what is wrong with the
sources is told in their order. -/
structure Settled (status : String) (stat cmdline : Except ReadFailure String)
    (reading : Reading ProcessUsage) : Prop where
  pid : reading.value.pid = (numberIn "Pid" status).settle directory id
  ppid : reading.value.ppid = (numberIn "PPid" status).settle 0 id
  memory : memoryGroup reading.value
    = (amountIn "VmSize" status).settle (memoryGroup default) (memoryOf totalKb)
  schedule : scheduleGroup reading.value
    = (timesIn stat).settle (scheduleGroup default) (scheduleOf config)
  name : reading.value.name = (lastField "Name" status).getD ""
  command : reading.value.command = commandIn cmdline
  issues : reading.issues
    = (numberIn "Pid" status).issues ++ (numberIn "PPid" status).issues
      ++ (amountIn "VmSize" status).issues ++ (timesIn stat).issues

-- ============================================================= reading

variable {config directory totalKb}

/-- The status settles what it is the source of, and leaves the rest at its defaults. -/
theorem settled_readStatus (status : String) :
    Settled config directory totalKb status (.error .noEntry) (.error .noEntry)
      (readStatus directory totalKb status) := by
  have hissues : (readStatus directory totalKb status).issues
      = (numberIn "Pid" status).issues ++ (numberIn "PPid" status).issues
        ++ (amountIn "VmSize" status).issues := by
    rw [Sweep.issues_readStatus, numberIssue_eq, numberIssue_eq, amountIssue_eq]
  -- each group is settled by its own finding, whatever the others are
  have hvalue : (readStatus directory totalKb status).value
      = let memory := (amountIn "VmSize" status).settle (memoryGroup default) (memoryOf totalKb)
        { (default : ProcessUsage) with
          pid := (numberIn "Pid" status).settle directory id
          ppid := (numberIn "PPid" status).settle 0 id
          name := (lastField "Name" status).getD ""
          memUsageKb := memory.1
          memUsagePercent := memory.2 } := by
    rw [← ofField_read, ← ofField_read, ← ofField_amount, ← Finding.valueOr_eq,
      ← Finding.valueOr_eq, ← getElem?_parse, readStatus]
    rcases (Fields.parse status).amount "VmSize" with cause | kb | kb <;> rfl
  exact {
    pid := congrArg (·.pid) hvalue
    ppid := congrArg (·.ppid) hvalue
    memory := congrArg memoryGroup hvalue
    schedule := (congrArg scheduleGroup hvalue).trans rfl
    name := congrArg (·.name) hvalue
    command := congrArg (·.command) hvalue
    issues := by rw [hissues, timesIn, Finding.issues, List.append_nil] }

/-- The scheduling line settles its group as a whole, and touches no other. -/
theorem Settled.withSchedule {status : String} {e : ReadFailure}
    {cmdline : Except ReadFailure String} {reading : Reading ProcessUsage}
    (h : Settled config directory totalKb status (.error e) cmdline reading)
    (stat : Except ReadFailure String) :
    Settled config directory totalKb status stat cmdline
      (Proc.withSchedule config stat reading) := by
  have hissues := h.issues
  rw [timesIn, Finding.issues, List.append_nil] at hissues
  cases stat with
  | error e' => exact { h with }
  | ok content =>
      rw [Proc.withSchedule]
      cases htimes : scheduledTimes content with
      | error cause =>
          have hfinding : timesIn (.ok content) = .malformed cause := by rw [timesIn, htimes]
          refine { h with schedule := ?_, issues := ?_ }
          · rw [hfinding]
            exact h.schedule
          · rw [hfinding, ← hissues]
            rfl
      | ok times =>
          have hfinding : timesIn (.ok content) = .wellFormed times := by rw [timesIn, htimes]
          refine { h with schedule := ?_, issues := ?_ }
          · rw [hfinding]
            rfl
          · rw [hfinding, ← hissues]
            exact (List.append_nil _).symm

/-- So does the command line. -/
theorem Settled.withCommand {status : String} {e : ReadFailure}
    {stat : Except ReadFailure String} {reading : Reading ProcessUsage}
    (h : Settled config directory totalKb status stat (.error e) reading)
    (cmdline : Except ReadFailure String) :
    Settled config directory totalKb status stat cmdline (Proc.withCommand cmdline reading) := by
  cases cmdline with
  | error e' => exact { h with }
  | ok content => exact { h with command := rfl }

/-- A process with a readable status is put together from its three files. -/
theorem collect_of_status {fs : FileSystem} {status : String}
    (h : fs.read ((directoryOf config directory).join ⟨"status"⟩) = .ok status) :
    collect fs config directory totalKb
      = .ok (withCommand (fs.read ((directoryOf config directory).join ⟨"cmdline"⟩))
          (withSchedule config (fs.read ((directoryOf config directory).join ⟨"stat"⟩))
            (readStatus directory totalKb status))) := by
  unfold collect
  dsimp only
  rw [h]

/-- A scheduling line that lacks one of the counters sets neither. -/
theorem settle_timesIn_of_error {content : String} {rest : List Char}
    (hrest : afterLast ')' (trim content.toList) = some rest)
    (hcounter : (∃ cause, timeAt (words rest) 11 .utime = .error cause)
      ∨ ∃ cause, timeAt (words rest) 12 .stime = .error cause) :
    (timesIn (.ok content)).settle (scheduleGroup default) (scheduleOf config)
      = scheduleGroup default := by
  obtain ⟨cause, hcause⟩ := (scheduledTimes_eq_error_iff hrest).mpr hcounter
  rw [timesIn, hcause]
  rfl

/-- What is read of one process.

It is gone precisely if its status cannot be read, and fails in no other way. Otherwise
each of its groups is settled by its own source: the number, that of the parent, the
memory with its share, and the counters with their share. A source that is well formed
sets the whole of its group, one that says nothing leaves all of it at its defaults, and
one that is malformed leaves it so as well and is one issue, in the order of the sources.
A scheduling line in which one of the counters is missing or no numeral sets nothing, be
the other one as it may. -/
theorem groups_are_settled_apart (fs : FileSystem) (config : Config) (directory : Int32)
    (totalKb : UInt64) :
    (∀ cause, collect fs config directory totalKb = .error cause ↔
      cause = .processGone directory
        ∧ ∃ e, fs.read ((directoryOf config directory).join ⟨"status"⟩) = .error e)
    ∧ ∀ status, fs.read ((directoryOf config directory).join ⟨"status"⟩) = .ok status →
        ∃ reading, collect fs config directory totalKb = .ok reading
          ∧ Settled config directory totalKb status
              (fs.read ((directoryOf config directory).join ⟨"stat"⟩))
              (fs.read ((directoryOf config directory).join ⟨"cmdline"⟩)) reading
          ∧ ∀ stat rest, fs.read ((directoryOf config directory).join ⟨"stat"⟩) = .ok stat →
              afterLast ')' (trim stat.toList) = some rest →
              ((∃ cause, timeAt (words rest) 11 .utime = .error cause)
                ∨ ∃ cause, timeAt (words rest) 12 .stime = .error cause) →
              scheduleGroup reading.value = scheduleGroup default := by
  refine ⟨fun cause => ?_, fun status hstatus => ?_⟩
  · cases hstatus : fs.read ((directoryOf config directory).join ⟨"status"⟩) with
    | error e =>
        rw [Sweep.collect_of_unreadable hstatus]
        constructor
        · rintro ⟨⟩
          exact ⟨rfl, e, rfl⟩
        · rintro ⟨rfl, -⟩
          rfl
    | ok status =>
        rw [collect_of_status hstatus]
        exact iff_of_false nofun (by rintro ⟨-, _, ⟨⟩⟩)
  · have hsettled := ((@settled_readStatus config directory totalKb status).withSchedule
      (fs.read ((directoryOf config directory).join ⟨"stat"⟩))).withCommand
      (fs.read ((directoryOf config directory).join ⟨"cmdline"⟩))
    refine ⟨_, collect_of_status hstatus, hsettled, fun stat rest hstat hrest hcounter => ?_⟩
    rw [hsettled.schedule, hstat, settle_timesIn_of_error hrest hcounter]

end Vitals.Proc
