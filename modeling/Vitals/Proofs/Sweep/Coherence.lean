/-
The fields of a sample that follow from its others do so in every store of every
life.

# Why it holds

Each of the fields is set beside those it follows from, and a phase replaces a
category whole, so it is enough to look at what the phases publish
(`coherent_content`). Two things need a second look. A field that is malformed is
left at its default, and then what follows from it is left at its default too, so
the relation holds in one of two ways. And the share that a process has of the
memory is taken of a total in another category, which can be replaced while the
share stands. It is a share of the total in the store once the sweep that took it
is over (`memoryShare_sweep`), whether or not that sweep could read the memory.
-/
import Vitals.Proofs.Proc.Rows
import Vitals.Proofs.Proc.Table
import Vitals.Proofs.Snapshot.Breakdown
import Vitals.Proofs.Sweep.Baseline
import Vitals.Proofs.Sweep.Reachable
import Vitals.Proofs.Text.Numeral

namespace Vitals

open Binary Proc Text

-- ========================================================== coherence

/-- An uptime that is broken down as its seconds say. -/
structure Uptime.Coherent (u : Uptime) : Prop where
  derived : u = .ofTotalSeconds u.totalSeconds
  minutes_lt : u.minutes.toNat < 60
  seconds_lt : u.seconds.toNat < 60

/-- A memory with the used share of its total. -/
def Memory.Coherent (m : Memory) : Prop :=
  m.usagePercent = Rate.memoryUsagePercent m.totalKb m.freeKb

/-- A processor row with a name of its kind, with idle ticks among all its ticks,
and with the share of its ticks since some sample before. -/
structure Cpu.Coherent (row : Cpu) : Prop where
  opening : ['c', 'p', 'u'] <+: row.id.toList
  not_isBlank : ∀ c ∈ row.id.toList, isBlank c = false
  idle_le : row.idleJiffies ≤ row.totalJiffies
  share : ∃ before,
    row.usagePercent = Rate.cpuUsagePercent before row.idleJiffies row.totalJiffies

namespace ProcessUsage

/-- A process with the share of its ticks, or without ticks. -/
def ScheduleShare (config : Config) (process : ProcessUsage) : Prop :=
  process.cpuUsagePercent
      = Rate.processCpuPercent process.utime process.stime config.ticks config.interval
    ∨ process.utime = 0 ∧ process.stime = 0 ∧ process.cpuUsagePercent = zero single false

/-- A process with the share of its memory in a total, or without memory. -/
def MemoryShare (totalKb : UInt64) (process : ProcessUsage) : Prop :=
  process.memUsagePercent = Rate.processMemoryPercent process.memUsageKb totalKb
    ∨ process.memUsageKb = 0 ∧ process.memUsagePercent = zero single false

/-- A process with a command of one word, with the share of its ticks, and with
the share of its memory in some total. -/
structure Coherent (config : Config) (process : ProcessUsage) : Prop where
  command : ∀ c ∈ process.command.toList, isBlank c = false ∧ c ≠ '\x00'
  scheduleShare : process.ScheduleShare config
  memoryShare : ∃ totalKb, process.MemoryShare totalKb

end ProcessUsage

/-- A content with coherent samples, each under its own key. -/
def Content.Coherent (config : Config) : Content → Prop
  | uptime u => u.Coherent
  | cpus rows => ∀ id (row : Cpu), rows[id]? = some row → row.id = id ∧ row.Coherent
  | memory m => m.Coherent
  | processes table =>
      ∀ pid (process : ProcessUsage), table[pid]? = some process →
        process.pid = pid ∧ process.Coherent config

/-- A store with coherent samples, each under its own key. -/
structure Store.Coherent (config : Config) (s : Store) : Prop where
  uptime : s.uptime.Coherent
  cpus : ∀ id row, s.cpu? id = some row → row.id = id ∧ row.Coherent
  memory : s.memory.Coherent
  processes : ∀ pid process, s.process? pid = some process →
    process.pid = pid ∧ process.Coherent config

/-- A store is coherent when each of its categories is. -/
theorem Store.coherent_of_content {config : Config} {s : Store}
    (h : ∀ p, (s.content p).Coherent config) : s.Coherent config where
  uptime := h .uptime
  cpus := h .cpu
  memory := h .memory
  processes := h .processes

-- ============================================================ uptime

/-- An uptime made of its seconds is coherent with them. -/
theorem Uptime.coherent_ofTotalSeconds (t : Binary double) : (ofTotalSeconds t).Coherent where
  derived := rfl
  minutes_lt := (counts_ofTotalSeconds t).minutes_lt
  seconds_lt := (counts_ofTotalSeconds t).seconds_lt

namespace Proc

variable {fs : FileSystem} {config : Config}

private theorem eq_ok_of_mapError_eq_ok {ε ε' α : Type} {x : Except ε α} {f : ε → ε'} {a : α}
    (h : x.mapError f = .ok a) : x = .ok a := by
  cases x with
  | error e => cases h
  | ok b =>
      cases h
      rfl

/-- An uptime that was read is made of the seconds its file tells. -/
theorem readUptime_eq_ok {root : Path} {u : Uptime} (h : readUptime fs root = .ok u) :
    ∃ content t, fs.read (root.join ⟨"uptime"⟩) = .ok content ∧ uptimeSeconds content = .ok t
      ∧ u = .ofTotalSeconds t := by
  obtain ⟨content, hfile, h⟩ := exists_of_bind_eq_ok h
  obtain ⟨t, hseconds, h⟩ := exists_of_bind_eq_ok h
  cases h
  exact ⟨content, t, eq_ok_of_mapError_eq_ok hfile, eq_ok_of_mapError_eq_ok hseconds, rfl⟩

/-- Processor rows that were read are those of their file. -/
theorem readCpuRows_eq_ok {root : Path} {rows : List (Except ParseError CpuTimes)}
    (h : readCpuRows fs root = .ok rows) :
    ∃ content, fs.read (root.join ⟨"stat"⟩) = .ok content ∧ rows = cpuRows content := by
  obtain ⟨content, hfile, h⟩ := exists_of_bind_eq_ok h
  cases h
  exact ⟨content, eq_ok_of_mapError_eq_ok hfile, rfl⟩

/-- A memory that was read is made of the fields of its file. -/
theorem readMemory_eq_ok {root : Path} {reading : Reading Memory}
    (h : Proc.readMemory fs root = .ok reading) :
    ∃ content, fs.read (root.join ⟨"meminfo"⟩) = .ok content
      ∧ reading = memoryOfFields (.parse content) := by
  obtain ⟨content, hfile, h⟩ := exists_of_bind_eq_ok h
  cases h
  exact ⟨content, eq_ok_of_mapError_eq_ok hfile, rfl⟩

-- ========================================================= processes

/-- A status leaves the schedule group untouched. -/
theorem scheduleShare_readStatus (pid : Int32) (totalKb : UInt64) (status : String) :
    (readStatus pid totalKb status).value.ScheduleShare config := by
  right
  unfold readStatus
  dsimp only
  split <;> exact ⟨rfl, rfl, rfl⟩

/-- A status sets the memory share by the total it is given. -/
theorem memoryShare_readStatus (pid : Int32) (totalKb : UInt64) (status : String) :
    (readStatus pid totalKb status).value.MemoryShare totalKb := by
  unfold readStatus
  dsimp only
  split
  · exact .inl rfl
  · exact .inr ⟨rfl, rfl⟩

/-- The ticks and their share are set together. -/
theorem scheduleShare_withSchedule {reading : Reading ProcessUsage}
    (h : reading.value.ScheduleShare config) (stat : Except ReadFailure String) :
    (withSchedule config stat reading).value.ScheduleShare config := by
  unfold withSchedule
  split
  · exact h
  · split
    · exact .inl rfl
    · exact h

/-- The schedule group leaves the memory share. -/
theorem memoryShare_withSchedule {totalKb : UInt64} {reading : Reading ProcessUsage}
    (h : reading.value.MemoryShare totalKb) (stat : Except ReadFailure String) :
    (withSchedule config stat reading).value.MemoryShare totalKb := by
  unfold withSchedule
  split
  · exact h
  · split <;> exact h

theorem command_readStatus (pid : Int32) (totalKb : UInt64) (status : String) :
    (readStatus pid totalKb status).value.command = "" := by
  unfold readStatus
  dsimp only
  split <;> rfl

theorem command_withSchedule (stat : Except ReadFailure String) (reading : Reading ProcessUsage) :
    (withSchedule config stat reading).value.command = reading.value.command := by
  unfold withSchedule
  split
  · rfl
  · split <;> rfl

/-- A process that is read is coherent, with shares of the total it is read for. -/
theorem coherent_of_collect {pid : Int32} {totalKb : UInt64} {reading : Reading ProcessUsage}
    (h : collect fs config pid totalKb = .ok reading) :
    reading.value.Coherent config ∧ reading.value.MemoryShare totalKb := by
  unfold collect at h
  dsimp only at h
  split at h
  · cases h
  · next status hstatus =>
      cases h
      generalize fs.read ((directoryOf config pid).join ⟨"stat"⟩) = stat
      have hschedule := scheduleShare_withSchedule
        (@scheduleShare_readStatus config pid totalKb status) stat
      have hmemory := @memoryShare_withSchedule config _ _
        (memoryShare_readStatus pid totalKb status) stat
      unfold withCommand
      split
      · -- without a command line the command is still that of the status, which has none
        refine ⟨⟨fun c hc => ?_, hschedule, _, hmemory⟩, hmemory⟩
        rw [command_withSchedule, command_readStatus] at hc
        cases hc
      · exact ⟨⟨fun c hc => not_isBlank_of_mem_commandName hc, hschedule, _, hmemory⟩, hmemory⟩

end Proc

namespace Sweep

variable {fs : FileSystem} {config : Config}

-- ========================================================= contents

/-- A well-formed row at the head of a file makes a coherent sample. -/
theorem coherent_sampleOf {content : String} {times : CpuTimes}
    (h : times ∈ wellFormed (cpuRows content)) (before : Option Cpu) :
    (sampleOf before times).Coherent := by
  obtain ⟨row, hrow, htimes⟩ := List.mem_filterMap.mp h
  obtain ⟨line, hline, rfl⟩ := exists_line_of_mem_cpuRows hrow
  have hok : cpuRow (.ofList line) = .ok times := by
    cases hread : cpuRow (.ofList line) with
    | error e =>
        rw [hread] at htimes
        cases htimes
    | ok times' =>
        rw [hread] at htimes
        cases htimes
        rfl
  exact {
    opening := prefix_id hline hok
    not_isBlank := fun c hc => not_isBlank_of_mem_id hok hc
    idle_le := idle_le_total hok
    share := ⟨before, rfl⟩ }

/-- The last row of an id is one of the well-formed rows. -/
theorem mem_of_lastRow {id : String} {rows : List (Except ParseError CpuTimes)}
    {times : CpuTimes} (h : lastRow id rows = some times) : times ∈ wellFormed rows := by
  rw [lastRow, List.findRev?_eq_find?_reverse] at h
  exact List.mem_reverse.mp (List.mem_of_find?_eq_some h)

/-- A stored process is one that was collected. -/
theorem coherent_of_findRev?_collectEach {totalKb : UInt64} {pids : List Int32} {pid : Int32}
    {process : ProcessUsage}
    (h : ((collectEach fs config totalKb pids).map (·.2.value)).findRev? (·.pid = pid)
      = some process) :
    process.pid = pid ∧ process.Coherent config ∧ process.MemoryShare totalKb := by
  rw [List.findRev?_eq_find?_reverse] at h
  have hpid : process.pid = pid := by simpa using List.find?_some h
  have hmem := List.mem_reverse.mp (List.mem_of_find?_eq_some h)
  obtain ⟨⟨directory, reading⟩, hread, rfl⟩ := List.mem_map.mp hmem
  obtain ⟨-, hcollect⟩ := (mem_collectEach fs config).mp hread
  exact ⟨hpid, coherent_of_collect hcollect⟩

/-- Indexed samples of rows are coherent, whatever stood before. -/
theorem coherent_indexCpus (before : String → Option Cpu) (content : String) :
    (Content.cpus (Store.indexCpus (samplesAgainst before (cpuRows content)))).Coherent
      config := by
  intro id row hrow
  rw [Store.indexCpus, getElem?_ofList_map, findRev?_samplesAgainst,
    Option.map_eq_some_iff] at hrow
  obtain ⟨times, hlast, rfl⟩ := hrow
  exact ⟨id_of_lastRow hlast, coherent_sampleOf (mem_of_lastRow hlast) _⟩

/-- Indexed processes are coherent, whatever the total. -/
theorem coherent_indexProcesses (totalKb : UInt64) (pids : List Int32) :
    (Content.processes (Store.indexProcesses
      ((collectEach fs config totalKb pids).map (·.2.value)))).Coherent config := by
  intro pid process hprocess
  rw [Store.indexProcesses, getElem?_ofList_map] at hprocess
  obtain ⟨hpid, hcoherent, -⟩ := coherent_of_findRev?_collectEach hprocess
  exact ⟨hpid, hcoherent⟩

/-- What there is at the start is coherent: an uptime of zero seconds, a memory of an
unknown total, and nothing else. -/
theorem coherent_empty (p : Phase) : (Store.empty.content p).Coherent config := by
  cases p with
  | uptime =>
      have hzero : (default : Uptime) = .ofTotalSeconds (zero double false) := by
        decide +kernel
      show (default : Uptime).Coherent
      rw [hzero]
      exact Uptime.coherent_ofTotalSeconds _
  | cpu =>
      intro id row (h : (∅ : Std.ExtTreeMap String Cpu Cpu.order)[id]? = some row)
      rw [Std.ExtTreeMap.getElem?_empty] at h
      cases h
  | memory =>
      show (default : Memory).Coherent
      exact published_zero.symm
  | processes =>
      intro pid process (h : (∅ : Std.ExtTreeMap Int32 ProcessUsage)[pid]? = some process)
      rw [Std.ExtTreeMap.getElem?_empty] at h
      cases h

private theorem exists_of_map_toOption {ε α β : Type} {x : Except ε α} {f : α → β} {b : β}
    (h : x.toOption.map f = some b) : ∃ a, x = .ok a ∧ f a = b := by
  cases x with
  | error e => cases h
  | ok a => exact ⟨a, rfl, Option.some.inj h⟩

/-- What phases publish is coherent, and so is what there was at the start. -/
theorem coherent_content (config : Config) : Invariant config (Content.Coherent config) where
  empty := coherent_empty
  published {fs s totalKb p content} h := by
    cases p with
    | uptime =>
        obtain ⟨uptime, hread, rfl⟩ := exists_of_map_toOption h
        obtain ⟨_, t, -, -, rfl⟩ := readUptime_eq_ok hread
        exact Uptime.coherent_ofTotalSeconds t
    | cpu =>
        obtain ⟨rows, hread, rfl⟩ := exists_of_map_toOption h
        obtain ⟨text, -, rfl⟩ := readCpuRows_eq_ok hread
        exact coherent_indexCpus s.cpu? text
    | memory =>
        obtain ⟨reading, hread, rfl⟩ := exists_of_map_toOption h
        obtain ⟨text, -, rfl⟩ := readMemory_eq_ok hread
        rfl
    | processes =>
        obtain ⟨reading, hread, rfl⟩ := exists_of_map_toOption h
        obtain ⟨pids, -, hvalue⟩ := collectAll_eq_ok fs config hread
        rw [hvalue]
        exact coherent_indexProcesses totalKb pids

-- =========================================================== stores

/-- The store is coherent at every time of every life. -/
theorem coherent_storeAt (config : Config) (fs : FileSystem) (turns : List Turn) (time : Nat) :
    (storeAt config fs turns time).Coherent config :=
  Store.coherent_of_content ((coherent_content config).content_storeAt fs turns time)

/-- The store a life ends with is coherent. -/
theorem coherent_latest (config : Config) (fs : FileSystem) (turns : List Turn) :
    (latest (history config fs turns)).Coherent config := by
  rw [← storeAt_of_accesses_le (Nat.le_refl _)]
  exact coherent_storeAt config fs turns _

/-- The processes that a sweep publishes have shares of the total it leaves. -/
theorem memoryShare_sweep {s : Store}
    (h : Phase.processes ∉ (sweep fs config s).1.report.failed) {pid : Int32}
    {process : ProcessUsage} (hprocess : (sweep fs config s).2.process? pid = some process) :
    process.MemoryShare (sweep fs config s).2.memory.totalKb := by
  have hobtained := obtainable_of_notMem_failed h
  obtain ⟨pids, -, hprocesses⟩ := exists_processes_sweep hobtained s
  have hstored : (sweep fs config s).2.process? pid
      = ((collectEach fs config (sweep fs config s).2.memory.totalKb pids).map
          (·.2.value)).findRev? (·.pid = pid) := by
    rw [Store.process?, hprocesses, Store.indexProcesses, getElem?_ofList_map]
  rw [hstored] at hprocess
  exact (coherent_of_findRev?_collectEach hprocess).2.2

/-- In every life of a collector that starts with nothing in its store, the samples
are coherent at every moment, between two accesses of a sweep as well as after the
last one.

What a sweep leaves is coherent across two of its categories as well, if it could
list the processes: each has the share of its memory in the total that is in the
store by then, be that of this sweep or of one before. -/
theorem stored_samples_are_coherent (config : Config) (fs : FileSystem) (turns : List Turn) :
    (∀ time, (storeAt config fs turns time).Coherent config)
    ∧ (latest (history config fs turns)).Coherent config
    ∧ ∀ g ∈ history config fs turns, Phase.processes ∉ g.outcome.report.failed →
        ∀ pid process, g.store.process? pid = some process →
          process.MemoryShare g.store.memory.totalKb := by
  refine ⟨coherent_storeAt config fs turns, coherent_latest config fs turns, ?_⟩
  intro g hg hlisted pid process hprocess
  obtain ⟨s, hgeneration⟩ := exists_of_mem_history hg
  rw [hgeneration] at hlisted hprocess ⊢
  exact memoryShare_sweep hlisted hprocess

end Sweep

end Vitals
