/-
What is read of a store after any run of writes and reads.

A store has four categories, and a write names one of them and leaves the content of the
others alone (`content_apply`). So what a category holds after a run is what the last write
to it has put there, or what an empty store holds (`content_performed`): the induction is
from the end of the run, and a read is a step that does nothing. A read is of one category
as well, and sees no more of a store than the content of that one (`read_congr`), so it
depends on one write of the run at most.

What the read of a category kept by key then gives is a matter of the list that was written
last, and of the map that is made of it (`Keyed`).
-/
import Mathlib.Data.List.Induction
import Vitals.Proofs.Store.Order
import Vitals.Proofs.Sweep.Phase

namespace Vitals.Store

open Sweep (Phase)

-- ========================================================== operations

/-- What can be asked of a store. -/
inductive Query where
  | uptime
  | memory
  | cpuIds
  | cpuList
  | cpu (id : String)
  | pids
  | processList
  | process (pid : Int32)

abbrev Query.Answer : Query → Type
  | uptime => Uptime
  | memory => Memory
  | cpuIds => List String
  | cpuList => List Cpu
  | cpu _ => Option Cpu
  | pids => List Int32
  | processList => List ProcessUsage
  | process _ => Option ProcessUsage

/-- What a store answers. -/
def read (s : Store) : (q : Query) → q.Answer
  | .uptime => s.uptime
  | .memory => s.memory
  | .cpuIds => s.cpuIds
  | .cpuList => s.cpuList
  | .cpu id => s.cpu? id
  | .pids => s.pids
  | .processList => s.processList
  | .process pid => s.process? pid

/-- The category that is asked for. -/
def Query.category : Query → Phase
  | uptime => .uptime
  | memory => .memory
  | cpuIds | cpuList | cpu _ => .cpu
  | pids | processList | process _ => .processes

/-- The category that is written. -/
def Write.category : Write → Phase
  | uptime _ => .uptime
  | memory _ => .memory
  | cpus _ => .cpu
  | processes _ => .processes

/-- What can be done with a store. -/
inductive Operation where
  | write (write : Write)
  | read (query : Query)

def Operation.write? : Operation → Option Write
  | write w => some w
  | read _ => none

/-- The store after an operation. -/
def perform (s : Store) : Operation → Store
  | .write w => s.apply w
  | .read _ => s

/-- The store after some operations, from nothing. -/
def performed (ops : List Operation) : Store := ops.foldl perform empty

/-- The last write of a category among some operations. -/
def lastWrite (ops : List Operation) (p : Phase) : Option Write :=
  (ops.filterMap Operation.write?).findRev? (·.category = p)

/-- One more operation is the last write of a category if it writes to it. -/
theorem lastWrite_concat (ops : List Operation) (op : Operation) (p : Phase) :
    lastWrite (ops ++ [op]) p
      = match op with
        | .write w => if w.category = p then some w else lastWrite ops p
        | .read _ => lastWrite ops p := by
  cases op with
  | write w =>
      simp only [lastWrite, List.filterMap_append, List.findRev?_eq_find?_reverse]
      by_cases h : w.category = p <;> simp [Operation.write?, h]
  | read q =>
      rw [lastWrite, lastWrite, List.filterMap_append, List.filterMap_cons_none rfl]
      simp

/-- The last write of a category is a write to that category. -/
theorem category_lastWrite {ops : List Operation} {p : Phase} {w : Write}
    (h : lastWrite ops p = some w) : w.category = p := by
  rw [lastWrite, List.findRev?_eq_find?_reverse] at h
  simpa using List.find?_some h

-- ============================================================ contents

/-- What a write leaves in its category depends on nothing that was there. -/
theorem content_apply (s : Store) (w : Write) (p : Phase) :
    (s.apply w).content p = if w.category = p then (empty.apply w).content p else s.content p := by
  cases w <;> cases p <;> rfl

/-- A category holds what its last write puts into an empty store. -/
theorem content_performed (ops : List Operation) (p : Phase) :
    (performed ops).content p
      = match lastWrite ops p with
        | some w => (empty.apply w).content p
        | none => empty.content p := by
  induction ops using List.reverseRecOn with
  | nil => rfl
  | append_singleton ops op ih =>
      have hstep : performed (ops ++ [op]) = (performed ops).perform op := by simp [performed]
      rw [hstep, lastWrite_concat]
      cases op with
      | write w =>
          dsimp only [perform]
          rw [content_apply]
          by_cases h : w.category = p
          · rw [if_pos h, if_pos h]
          · rw [if_neg h, if_neg h, ih]
      | read q => exact ih

/-- A category was never written to and is empty, or holds what was written to it last. -/
theorem lastWrite_cases (ops : List Operation) (p : Phase) :
    (lastWrite ops p = none ∧ (performed ops).content p = empty.content p)
    ∨ ∃ w, lastWrite ops p = some w ∧ w.category = p
        ∧ (performed ops).content p = (empty.apply w).content p := by
  have hcontent := content_performed ops p
  cases hlast : lastWrite ops p with
  | none =>
      rw [hlast] at hcontent
      exact .inl ⟨rfl, hcontent⟩
  | some w =>
      rw [hlast] at hcontent
      exact .inr ⟨w, rfl, category_lastWrite hlast, hcontent⟩

/-- A read sees the content of its category, and nothing else of a store. -/
theorem read_congr {s t : Store} {q : Query}
    (h : s.content q.category = t.content q.category) : s.read q = t.read q := by
  cases q with
  | uptime => exact Content.uptime.inj h
  | memory => exact Content.memory.inj h
  | cpuIds | cpuList | cpu =>
      have hcpus : s.cpus = t.cpus := Content.cpus.inj h
      simp only [read, cpuIds, cpuList, cpu?, hcpus]
  | pids | processList | process =>
      have hprocesses : s.processes = t.processes := Content.processes.inj h
      simp only [read, pids, processList, process?, hprocesses]

/-- A read of any kind is answered from the last write of its category alone. -/
theorem read_performed (ops : List Operation) (q : Query) :
    (performed ops).read q
      = match lastWrite ops q.category with
        | some w => (empty.apply w).read q
        | none => empty.read q := by
  rcases lastWrite_cases ops q.category with ⟨hlast, hcontent⟩ | ⟨w, hlast, -, hcontent⟩
  · rw [hlast]
    exact read_congr hcontent
  · rw [hlast]
    exact read_congr hcontent

-- =========================================================== the lists

/-- The rows that were written last. -/
def rowsIn (ops : List Operation) : List Cpu :=
  match lastWrite ops .cpu with
  | some (.cpus rows) => rows
  | _ => []

/-- The processes that were written last. -/
def processesIn (ops : List Operation) : List ProcessUsage :=
  match lastWrite ops .processes with
  | some (.processes processes) => processes
  | _ => []

/-- The processor rows are those of the last write of rows, by their names. -/
theorem cpus_performed (ops : List Operation) :
    (performed ops).cpus = indexCpus (rowsIn ops) := by
  rcases lastWrite_cases ops .cpu with ⟨hlast, hcontent⟩ | ⟨w, hlast, hcategory, hcontent⟩
  · rw [rowsIn, hlast]
    exact Content.cpus.inj hcontent
  · rw [rowsIn, hlast]
    cases w with
    | cpus _ => exact Content.cpus.inj hcontent
    | uptime | memory | processes => cases hcategory

/-- The processes are those of the last write of processes, by their numbers. -/
theorem processes_performed (ops : List Operation) :
    (performed ops).processes = indexProcesses (processesIn ops) := by
  rcases lastWrite_cases ops .processes with ⟨hlast, hcontent⟩ | ⟨w, hlast, hcategory, hcontent⟩
  · rw [processesIn, hlast]
    exact Content.processes.inj hcontent
  · rw [processesIn, hlast]
    cases w with
    | processes _ => exact Content.processes.inj hcontent
    | uptime | memory | cpus => cases hcategory

/-- Nothing is found under a key precisely if no entry has it. -/
theorem findRev?_eq_none_iff {α β : Type} [DecidableEq α] {key : β → α} {l : List β} {k : α} :
    l.findRev? (key · = k) = none ↔ k ∉ l.map key := by
  rw [List.findRev?_eq_find?_reverse, List.find?_eq_none, List.mem_map]
  simp

variable (ops : List Operation)

/-- A row is the last of its name in the last write. -/
theorem cpu?_performed (id : String) :
    (performed ops).cpu? id = (rowsIn ops).findRev? (·.id = id) := by
  rw [cpu?, cpus_performed]
  exact getElem?_ofList_map Cpu.id _ id

/-- A process is the last of its number in the last write. -/
theorem process?_performed (pid : Int32) :
    (performed ops).process? pid = (processesIn ops).findRev? (·.pid = pid) := by
  rw [process?, processes_performed]
  exact getElem?_ofList_map ProcessUsage.pid _ pid

/-- What a store holds stands under its own name or number, whatever was done to it. -/
theorem keyed_performed : (performed ops).Keyed where
  cpus id row h := by
    rw [cpus_performed] at h
    exact key_of_getElem?_ofList_map h
  processes pid process h := by
    rw [processes_performed] at h
    exact key_of_getElem?_ofList_map h

/-- The listing has the rows that are found under their names, and no others. -/
theorem mem_cpuList_performed (row : Cpu) :
    row ∈ (performed ops).cpuList ↔ (rowsIn ops).findRev? (·.id = row.id) = some row := by
  rw [← cpu?_performed]
  exact mem_values_iff (keyed_performed ops).cpus

/-- The listing has the processes that are found under their numbers, and no others. -/
theorem mem_processList_performed (process : ProcessUsage) :
    process ∈ (performed ops).processList
      ↔ (processesIn ops).findRev? (·.pid = process.pid) = some process := by
  rw [← process?_performed]
  exact mem_values_iff (keyed_performed ops).processes

/-- No name is listed twice. -/
theorem nodup_cpuIds_performed : (performed ops).cpuIds.Nodup :=
  nodup_map_key_values (keyed_performed ops).cpus

/-- The processes are listed by ascending number. -/
theorem pairwise_processList_performed :
    (performed ops).processList.Pairwise (·.pid < ·.pid) :=
  (pairwise_values (keyed_performed ops).processes).imp fun hlt => Std.compare_eq_lt.mp hlt

/-- The uptime is the one that was written last. -/
theorem uptime_performed :
    (performed ops).uptime
      = match lastWrite ops .uptime with | some (.uptime uptime) => uptime | _ => default := by
  rcases lastWrite_cases ops .uptime with ⟨hlast, hcontent⟩ | ⟨w, hlast, hcategory, hcontent⟩
  · rw [hlast]
    exact Content.uptime.inj hcontent
  · rw [hlast]
    cases w with
    | uptime _ => exact Content.uptime.inj hcontent
    | memory | cpus | processes => cases hcategory

/-- The memory is the one that was written last. -/
theorem memory_performed :
    (performed ops).memory
      = match lastWrite ops .memory with | some (.memory memory) => memory | _ => default := by
  rcases lastWrite_cases ops .memory with ⟨hlast, hcontent⟩ | ⟨w, hlast, hcategory, hcontent⟩
  · rw [hlast]
    exact Content.memory.inj hcontent
  · rw [hlast]
    cases w with
    | memory _ => exact Content.memory.inj hcontent
    | uptime | cpus | processes => cases hcategory

/-- After any run of writes and reads from an empty store, each read gives what the last
write to its own category has left.

It gives what it would give if that write were the only one, and what it gives of an empty
store if there is none; and no write to one category changes what a read of another gives.
So the uptime and the memory are those written last. Under a name or a number stands the
last entry with it in the list written last, and nothing if that list has none. The
listings have these entries and no others, each of them once, the names and the numbers
are those of the listings and stand in their order, and the processes ascend by number. -/
theorem reads_follow_last_writes (ops : List Operation) :
    (∀ q, (performed ops).read q
      = match lastWrite ops q.category with
        | some w => (empty.apply w).read q
        | none => empty.read q)
    ∧ (∀ (s : Store) w q, w.category ≠ q.category → (s.apply w).read q = s.read q)
    ∧ (performed ops).uptime
      = (match lastWrite ops .uptime with | some (.uptime uptime) => uptime | _ => default)
    ∧ (performed ops).memory
      = (match lastWrite ops .memory with | some (.memory memory) => memory | _ => default)
    ∧ ((∀ id, (performed ops).cpu? id = (rowsIn ops).findRev? (·.id = id))
      ∧ (∀ id, (performed ops).cpu? id = none ↔ id ∉ (rowsIn ops).map (·.id))
      ∧ (∀ row, row ∈ (performed ops).cpuList
          ↔ (rowsIn ops).findRev? (·.id = row.id) = some row)
      ∧ (performed ops).cpuList.map (·.id) = (performed ops).cpuIds
      ∧ (performed ops).cpuIds.Nodup)
    ∧ (∀ pid, (performed ops).process? pid = (processesIn ops).findRev? (·.pid = pid))
    ∧ (∀ pid, (performed ops).process? pid = none ↔ pid ∉ (processesIn ops).map (·.pid))
    ∧ (∀ process, process ∈ (performed ops).processList
        ↔ (processesIn ops).findRev? (·.pid = process.pid) = some process)
    ∧ (performed ops).processList.map (·.pid) = (performed ops).pids
    ∧ (performed ops).processList.Pairwise (·.pid < ·.pid) := by
  refine ⟨read_performed ops, ?_, uptime_performed ops, memory_performed ops,
    ⟨cpu?_performed ops, fun id => ?_, mem_cpuList_performed ops, rfl,
      nodup_cpuIds_performed ops⟩,
    process?_performed ops, fun pid => ?_, mem_processList_performed ops,
    (keyed_performed ops).map_pid_processList, pairwise_processList_performed ops⟩
  · intro s w q hne
    apply read_congr
    rw [content_apply, if_neg hne]
  · rw [cpu?_performed, findRev?_eq_none_iff]
  · rw [process?_performed, findRev?_eq_none_iff]

end Vitals.Store
