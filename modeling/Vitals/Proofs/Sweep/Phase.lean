/-
What each phase of a sweep does, said once. A phase either publishes its category
or leaves the store alone, and which of the two it does is settled by the source
of the phase and by nothing in the store: `run_phase_of_unobtainable` and
`run_phase_of_obtainable` are what later files use of a phase, and the four
equations for the single phases are what these two rest on.

A source is what has to be had before there is anything to publish. For the
uptime it is the number that the file starts with, since the category has no
field that could stand at a default; for the processor rows and the memory it is
the file and not what it says, and for the processes it is the listing of the
table and nothing below it.
-/
import Vitals.Proofs.Store.Contents
import Vitals.Sweep

namespace Vitals

open Std (ExtTreeMap)

-- ======================================================== categories

/-- What a category holds, whichever category it is. -/
inductive Content where
  /-- The uptime. -/
  | uptime (uptime : Uptime)
  /-- The processor rows, by name. -/
  | cpus (rows : ExtTreeMap String Cpu Cpu.order)
  /-- The memory. -/
  | memory (memory : Memory)
  /-- The processes, by number. -/
  | processes (processes : ExtTreeMap Int32 ProcessUsage)

/-- What a store holds in the category that a phase publishes. -/
def Store.content (s : Store) : Sweep.Phase → Content
  | .uptime => .uptime s.uptime
  | .cpu => .cpus s.cpus
  | .memory => .memory s.memory
  | .processes => .processes s.processes

/-- The phase that publishes a category. -/
def Content.phase : Content → Sweep.Phase
  | uptime _ => .uptime
  | cpus _ => .cpu
  | memory _ => .memory
  | processes _ => .processes

namespace Store

/-- The store with another content of one category. -/
def put (s : Store) : Content → Store
  | .uptime uptime => { s with uptime }
  | .cpus cpus => { s with cpus }
  | .memory memory => { s with memory }
  | .processes processes => { s with processes }

/-- A category has what was put into it, and the others have what they had. -/
theorem content_put (s : Store) (c : Content) : (s.put c).content c.phase = c := by
  cases c <;> rfl

theorem content_put_of_ne (s : Store) {c : Content} {q : Sweep.Phase} (h : q ≠ c.phase) :
    (s.put c).content q = s.content q := by
  cases c <;> cases q <;> first | rfl | exact absurd rfl h

end Store

namespace Sweep

open Binary Proc Text

-- ==================================================== processor rows

/-- The rows that are well formed, in their order. -/
def wellFormed (rows : List (Except ParseError CpuTimes)) : List CpuTimes :=
  rows.filterMap Except.toOption

/-- The last well-formed row of a name. -/
def lastRow (id : String) (rows : List (Except ParseError CpuTimes)) : Option CpuTimes :=
  (wellFormed rows).findRev? (·.id = id)

/-- The last row of a name carries that name. -/
theorem id_of_lastRow {id : String} {rows : List (Except ParseError CpuTimes)}
    {times : CpuTimes} (h : lastRow id rows = some times) : times.id = id := by
  rw [lastRow, List.findRev?_eq_find?_reverse] at h
  simpa using List.find?_some h

theorem isSome_lastRow {id : String} {rows : List (Except ParseError CpuTimes)} :
    (lastRow id rows).isSome = true ↔ ∃ times ∈ wellFormed rows, times.id = id := by
  rw [lastRow, List.findRev?_eq_find?_reverse, List.find?_isSome]
  simp

/-- The samples of the well-formed rows, each taken against what `before` has for
its name. -/
def samplesAgainst (before : String → Option Cpu) (rows : List (Except ParseError CpuTimes)) :
    List Cpu :=
  (wellFormed rows).map fun times => sampleOf (before times.id) times

/-- Sampling takes every row against the store as it is, and changes nothing in
it: no row is taken against another one of the same file. -/
theorem run_sampleRows (rows : List (Except ParseError CpuTimes)) (s : Store) :
    (sampleRows rows).run s = (samplesAgainst s.cpu? rows, s) := by
  induction rows with
  | nil => rfl
  | cons row rows ih =>
      cases row with
      | error e => exact ih
      | ok times =>
          show (sampleRows rows >>= fun samples =>
            pure (sampleOf (s.cpu? times.id) times :: samples)).run s = _
          rw [Script.run_bind, ih]
          rfl

/-- The stored sample of a name is that of its last well-formed row. -/
theorem findRev?_samplesAgainst (before : String → Option Cpu)
    (rows : List (Except ParseError CpuTimes)) (id : String) :
    (samplesAgainst before rows).findRev? (·.id = id)
      = (lastRow id rows).map (sampleOf (before id)) := by
  rw [lastRow, samplesAgainst, List.findRev?_eq_find?_reverse,
    List.findRev?_eq_find?_reverse, ← List.map_reverse, List.find?_map]
  show Option.map _ ((wellFormed rows).reverse.find? (·.id = id)) = _
  refine Option.map_congr fun times hlast => ?_
  rw [id_of_lastRow (by rw [lastRow, List.findRev?_eq_find?_reverse, hlast])]

-- =========================================================== sources

section

variable (fs : FileSystem) (config : Config)

/-- Whether the source of a phase cannot be had: the number at the head of the
uptime file, the file of the processor rows, that of the memory, or the listing
of the process table. -/
def unobtainable : Phase → Bool
  | .uptime =>
      match fs.read (config.root.join ⟨"uptime"⟩) with
      | .error _ => true
      | .ok content =>
          match words content.toList with
          | [] => true
          | token :: _ => (ofLiteral? double token).isNone
  | .cpu => !(fs.read (config.root.join ⟨"stat"⟩)).isOk
  | .memory => !(fs.read (config.root.join ⟨"meminfo"⟩)).isOk
  | .processes => !(fs.list config.root).isOk

/-- What a phase puts in place of its category, if its source can be had: from
the rows of a store for the processor rows, and from a total for the processes. -/
def replacement (s : Store) (totalKb : UInt64) : Phase → Option Content
  | .uptime => (readUptime fs config.root).toOption.map .uptime
  | .cpu =>
      (readCpuRows fs config.root).toOption.map fun rows =>
        .cpus (Store.indexCpus (samplesAgainst s.cpu? rows))
  | .memory => (Proc.readMemory fs config.root).toOption.map fun reading => .memory reading.value
  | .processes =>
      (collectAll fs config totalKb).toOption.map fun reading =>
        .processes (Store.indexProcesses reading.value)

private theorem exists_eq_ok {ε α : Type} {x : Except ε α} (h : x.isOk = true) :
    ∃ a, x = .ok a := by
  cases x with
  | error e => cases h
  | ok a => exact ⟨a, rfl⟩

private theorem exists_eq_error {ε α : Type} {x : Except ε α} (h : x.isOk = false) :
    ∃ e, x = .error e := by
  cases x with
  | error e => exact ⟨e, rfl⟩
  | ok a => cases h

/-- The uptime is read precisely when its number can be had. -/
theorem isOk_readUptime :
    (readUptime fs config.root).isOk = !unobtainable fs config .uptime := by
  unfold readUptime readFile unobtainable
  cases fs.read (config.root.join ⟨"uptime"⟩) with
  | error e => rfl
  | ok content =>
      show (((uptimeSeconds content).mapError CollectError.malformed).bind
        fun seconds => .ok (Uptime.ofTotalSeconds seconds)).isOk = _
      rw [uptimeSeconds]
      dsimp only
      cases words content.toList with
      | nil => rfl
      | cons token rest =>
          dsimp only
          cases ofLiteral? double token <;> rfl

/-- The processor rows are read precisely when their file is, and so is the memory. -/
theorem isOk_readCpuRows :
    (readCpuRows fs config.root).isOk = !unobtainable fs config .cpu := by
  unfold readCpuRows readFile unobtainable
  cases fs.read (config.root.join ⟨"stat"⟩) <;> rfl

theorem isOk_readMemory :
    (Proc.readMemory fs config.root).isOk = !unobtainable fs config .memory := by
  unfold Proc.readMemory readFile unobtainable
  cases fs.read (config.root.join ⟨"meminfo"⟩) <;> rfl

/-- The processes are read precisely when the table can be listed, whatever the
total that their shares are taken of. -/
theorem isOk_collectAll (totalKb : UInt64) :
    (collectAll fs config totalKb).isOk = !unobtainable fs config .processes := by
  unfold collectAll discover unobtainable
  cases fs.list config.root <;> rfl

variable {fs config}

/-- With its number at hand, the uptime is read. -/
theorem exists_readUptime (h : unobtainable fs config .uptime = false) :
    ∃ uptime, readUptime fs config.root = .ok uptime :=
  exists_eq_ok ((isOk_readUptime fs config).trans (congrArg not h))

/-- With their file at hand the processor rows are read, whatever it says, and so is
the memory. -/
theorem exists_readCpuRows (h : unobtainable fs config .cpu = false) :
    ∃ rows, readCpuRows fs config.root = .ok rows :=
  exists_eq_ok ((isOk_readCpuRows fs config).trans (congrArg not h))

theorem exists_readMemory (h : unobtainable fs config .memory = false) :
    ∃ reading, Proc.readMemory fs config.root = .ok reading :=
  exists_eq_ok ((isOk_readMemory fs config).trans (congrArg not h))

/-- With the listing of the table at hand, the processes are read, whatever
their files say. -/
theorem exists_collectAll (h : unobtainable fs config .processes = false)
    (totalKb : UInt64) : ∃ reading, collectAll fs config totalKb = .ok reading :=
  exists_eq_ok ((isOk_collectAll fs config totalKb).trans (congrArg not h))

-- ============================================================ phases

/-- A phase without its source tells of that and leaves the store alone. -/
theorem run_phase_of_unobtainable {p : Phase} (h : unobtainable fs config p = true)
    (s : Store) : ∃ cause, (phase fs config p).run s = (.failure p cause, s) := by
  cases p with
  | uptime =>
      obtain ⟨cause, hread⟩ := exists_eq_error
        ((isOk_readUptime fs config).trans (congrArg not h))
      refine ⟨cause, ?_⟩
      rw [phase, uptimePhase, hread]
      rfl
  | cpu =>
      obtain ⟨cause, hread⟩ := exists_eq_error
        ((isOk_readCpuRows fs config).trans (congrArg not h))
      refine ⟨cause, ?_⟩
      rw [phase, cpuPhase, hread]
      rfl
  | memory =>
      obtain ⟨cause, hread⟩ := exists_eq_error
        ((isOk_readMemory fs config).trans (congrArg not h))
      refine ⟨cause, ?_⟩
      rw [phase, memoryPhase, hread]
      rfl
  | processes =>
      obtain ⟨cause, hread⟩ := exists_eq_error
        ((isOk_collectAll fs config s.memory.totalKb).trans (congrArg not h))
      refine ⟨cause, ?_⟩
      rw [phase, processPhase, Script.run, hread]
      rfl

/-- The phase of the uptime publishes what it read. -/
theorem run_uptimePhase {uptime : Uptime} (h : readUptime fs config.root = .ok uptime)
    (s : Store) : (phase fs config .uptime).run s = ({}, s.setUptime uptime) := by
  rw [phase, uptimePhase, h]
  rfl

/-- The phase of the processor rows publishes the samples of the well-formed
rows, taken against the store as the phase found it. -/
theorem run_cpuPhase {rows : List (Except ParseError CpuTimes)}
    (h : readCpuRows fs config.root = .ok rows) (s : Store) :
    (phase fs config .cpu).run s
      = ({ report := {
             cpus := (wellFormed rows).length
             rowsSkipped := (rowIssues rows).length
             warnings := (rowIssues rows).length }
           events := (rowIssues rows).map .malformedRow },
         s.replaceCpus (samplesAgainst s.cpu? rows)) := by
  rw [phase, cpuPhase, h]
  show (sampleRows rows >>= fun samples => _).run s = _
  rw [Script.run_bind, run_sampleRows]
  simp [Script.run, samplesAgainst]

/-- The phase of the memory publishes what it read. -/
theorem run_memoryPhase {reading : Reading Memory}
    (h : Proc.readMemory fs config.root = .ok reading) (s : Store) :
    (phase fs config .memory).run s
      = ({ report := { warnings := reading.issues.length }
           events := reading.issues.map .malformedMemory },
         s.setMemory reading.value) := by
  rw [phase, memoryPhase, h]
  rfl

/-- The phase of the processes publishes what it read, with shares of the total
that the store holds by then. -/
theorem run_processPhase {s : Store} {reading : Reading (List ProcessUsage)}
    (h : collectAll fs config s.memory.totalKb = .ok reading) :
    (phase fs config .processes).run s
      = ({ report := {
             processes := reading.value.length
             warnings := reading.issues.length }
           events := reading.issues.map .malformedProcess },
         s.replaceProcesses reading.value) := by
  rw [phase, processPhase, Script.run, h]
  rfl

/-- A phase with its source reports no failure, and puts a replacement in place of
its category. -/
theorem run_phase_of_obtainable {p : Phase} (h : unobtainable fs config p = false)
    (s : Store) :
    ∃ outcome content, (phase fs config p).run s = (outcome, s.put content)
      ∧ outcome.report.failed = []
      ∧ content.phase = p
      ∧ replacement fs config s s.memory.totalKb p = some content := by
  cases p with
  | uptime =>
      obtain ⟨uptime, hread⟩ := exists_readUptime h
      refine ⟨_, .uptime uptime, run_uptimePhase hread s, rfl, rfl, ?_⟩
      rw [replacement, hread]
      rfl
  | cpu =>
      obtain ⟨rows, hread⟩ := exists_readCpuRows h
      refine ⟨_, .cpus _, run_cpuPhase hread s, rfl, rfl, ?_⟩
      rw [replacement, hread]
      rfl
  | memory =>
      obtain ⟨reading, hread⟩ := exists_readMemory h
      refine ⟨_, .memory reading.value, run_memoryPhase hread s, rfl, rfl, ?_⟩
      rw [replacement, hread]
      rfl
  | processes =>
      obtain ⟨reading, hread⟩ := exists_collectAll h s.memory.totalKb
      refine ⟨_, .processes _, run_processPhase hread, rfl, rfl, ?_⟩
      rw [replacement, hread]
      rfl

-- =================================================== what they leave

/-- The store that a phase leaves. -/
def left (fs : FileSystem) (config : Config) (p : Phase) (s : Store) : Store :=
  ((phase fs config p).run s).2

/-- A phase without its source leaves the store as it was. -/
theorem left_of_unobtainable {p : Phase} (h : unobtainable fs config p = true) (s : Store) :
    left fs config p s = s := by
  obtain ⟨cause, hrun⟩ := run_phase_of_unobtainable h s
  rw [left, hrun]

/-- The categories of the other phases stay as they were. -/
theorem content_left_of_ne {p q : Phase} (h : q ≠ p) (s : Store) :
    (left fs config p s).content q = s.content q := by
  cases hp : unobtainable fs config p with
  | true => rw [left_of_unobtainable hp]
  | false =>
      obtain ⟨outcome, content, hrun, -, rfl, -⟩ := run_phase_of_obtainable hp s
      rw [left, hrun]
      exact s.content_put_of_ne h

-- ============================================================= sweep

/-- Phases one after the other leave what each leaves of the one before. -/
theorem run_phases_snd (ps : List Phase) (s : Store) :
    ((phases fs config ps).run s).2 = ps.foldl (fun s p => left fs config p s) s := by
  induction ps generalizing s with
  | nil => rfl
  | cons p ps ih =>
      rw [phases, Script.run_bind, Script.run_bind, List.foldl_cons, ← ih]
      rfl

/-- A phase reports itself as failed precisely when its source cannot be had. -/
theorem failed_phase (p : Phase) (s : Store) :
    ((phase fs config p).run s).1.report.failed
      = if unobtainable fs config p then [p] else [] := by
  cases hp : unobtainable fs config p with
  | true =>
      obtain ⟨cause, hrun⟩ := run_phase_of_unobtainable hp s
      rw [hrun]
      rfl
  | false =>
      obtain ⟨outcome, content, hrun, hfailed, -⟩ := run_phase_of_obtainable hp s
      rw [hrun, hfailed]
      rfl

/-- Phases one after the other report those whose source cannot be had, in their
order. -/
theorem failed_phases (ps : List Phase) (s : Store) :
    ((phases fs config ps).run s).1.report.failed = ps.filter (unobtainable fs config) := by
  induction ps generalizing s with
  | nil => rfl
  | cons p ps ih =>
      rw [phases, Script.run_bind, Script.run_bind, List.filter_cons]
      show ((phase fs config p).run s).1.report.failed
        ++ ((phases fs config ps).run ((phase fs config p).run s).2).1.report.failed = _
      rw [failed_phase, ih]
      cases unobtainable fs config p <;> rfl

/-- A sweep reports the phases whose source cannot be had, in their order. -/
theorem failed_sweep (s : Store) :
    (sweep fs config s).1.report.failed = Phase.all.filter (unobtainable fs config) := by
  rw [sweep, script, Script.run_bind]
  exact failed_phases Phase.all s

/-- A phase is among those that failed precisely when its source cannot be had. -/
theorem mem_failed_sweep {p : Phase} {s : Store} :
    p ∈ (sweep fs config s).1.report.failed ↔ unobtainable fs config p = true := by
  rw [failed_sweep, List.mem_filter]
  cases p <;> simp [Phase.all]

/-- A phase that has not failed had its source. -/
theorem obtainable_of_notMem_failed {p : Phase} {s : Store}
    (h : p ∉ (sweep fs config s).1.report.failed) : unobtainable fs config p = false := by
  simpa using mt mem_failed_sweep.mpr h

/-- A sweep leaves what its four phases leave, each of the one before. -/
theorem sweep_snd (s : Store) :
    (sweep fs config s).2
      = left fs config .processes (left fs config .memory (left fs config .cpu
          (left fs config .uptime s))) := by
  rw [sweep, script, Script.run_bind]
  exact run_phases_snd Phase.all s

end

end Sweep

end Vitals
