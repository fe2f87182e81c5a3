/-
The order in which a directory is listed leaves no trace in a sweep.

A sweep lists one directory, that of the process table, and sorts the numbers that it
finds there before it does anything else (`discover_eq`). Numbers that are not told
apart by the sorting are the same number, be they of one entry or of two that spell it
in different ways, so from there on the two sweeps are one: phase for phase they are
the same script (`phase_eq`). Nor do the two stores behind them hold an order of their
own (`mergeSort_eq_values`).
-/
import Mathlib.Data.List.Forall2
import Vitals.Proofs.Store.Order
import Vitals.Proofs.Sweep.History

namespace Vitals

open Binary Proc

/-- Two answers that list the same entries, in orders of their own, or that are the same
failure. -/
inductive SameListing : Except ReadFailure (List Path) → Except ReadFailure (List Path) → Prop
  | failure (cause : ReadFailure) : SameListing (.error cause) (.error cause)
  | entries {l l' : List Path} (perm : l.Perm l') : SameListing (.ok l) (.ok l')

/-- Two file systems that differ in nothing but the order in which they list. -/
structure FileSystem.SameButOrder (fs fs' : FileSystem) : Prop where
  read : ∀ p, fs'.read p = fs.read p
  contains : ∀ p, fs'.contains p = fs.contains p
  list : ∀ p, SameListing (fs.list p) (fs'.list p)

/-- Sorted, the numbers of processes are the same whatever order they were in. -/
theorem mergeSort_pids_eq {pids pids' : List Int32} (h : pids.Perm pids') :
    pids.mergeSort (· ≤ ·) = pids'.mergeSort (· ≤ ·) := by
  rw [mergeSort_eq_of_perm ?_ ?_ h ?_]
  · intro a b c hab hbc
    exact decide_eq_true (Int32.le_trans (of_decide_eq_true hab) (of_decide_eq_true hbc))
  · intro a b
    simpa using Int32.le_total a b
  · intro a _ b _ hab hba
    exact Int32.le_antisymm (of_decide_eq_true hab) (of_decide_eq_true hba)

namespace FileSystem.SameButOrder

variable {fs fs' : FileSystem}

-- =========================================================== processes

/-- The same entries are taken for processes. -/
theorem entryPid?_eq (h : fs.SameButOrder fs') : entryPid? fs' = entryPid? fs := by
  funext entry
  unfold entryPid?
  rw [h.contains]

/-- The same pids are found, in the same order. -/
theorem discover_eq (h : fs.SameButOrder fs') (config : Config) :
    discover fs' config = discover fs config := by
  unfold discover
  rw [h.entryPid?_eq]
  have hlist := h.list config.root
  generalize fs.list config.root = answer at hlist ⊢
  generalize fs'.list config.root = answer' at hlist ⊢
  cases hlist with
  | failure cause => rfl
  | entries perm =>
      dsimp only
      rw [mergeSort_pids_eq (perm.filterMap (entryPid? fs))]

/-- The same table is collected, with the same issues. -/
theorem collectAll_eq (h : fs.SameButOrder fs') (config : Config) :
    collectAll fs' config = collectAll fs config := by
  have hcollect : collect fs' config = collect fs config := by
    funext pid totalKb
    unfold collect
    simp only [h.read]
  funext totalKb
  unfold collectAll
  rw [h.discover_eq, hcollect]

-- ============================================================== sweeps

/-- Every phase reads the same. -/
theorem phase_eq (h : fs.SameButOrder fs') (config : Config) (p : Sweep.Phase) :
    Sweep.phase fs' config p = Sweep.phase fs config p := by
  have hfile : readFile fs' = readFile fs := by
    funext path
    unfold readFile
    rw [h.read]
  cases p with
  | uptime =>
      rw [Sweep.phase, Sweep.phase, Sweep.uptimePhase, Sweep.uptimePhase, readUptime,
        readUptime, hfile]
  | cpu =>
      rw [Sweep.phase, Sweep.phase, Sweep.cpuPhase, Sweep.cpuPhase, readCpuRows, readCpuRows,
        hfile]
  | memory =>
      rw [Sweep.phase, Sweep.phase, Sweep.memoryPhase, Sweep.memoryPhase, Proc.readMemory,
        Proc.readMemory, hfile]
  | processes =>
      rw [Sweep.phase, Sweep.phase, Sweep.processPhase, Sweep.processPhase, h.collectAll_eq]

/-- A sweep reports the same and leaves the same store. -/
theorem sweep_eq (h : fs.SameButOrder fs') (config : Config) (s : Store) :
    Sweep.sweep fs' config s = Sweep.sweep fs config s := by
  have hphases : ∀ ps, Sweep.phases fs' config ps = Sweep.phases fs config ps := by
    intro ps
    induction ps with
    | nil => rfl
    | cons p ps ih => rw [Sweep.phases, Sweep.phases, h.phase_eq, ih]
  rw [Sweep.sweep, Sweep.sweep, Sweep.script, Sweep.script, hphases]

end FileSystem.SameButOrder

namespace Sweep

/-- Whole runs report the same and leave the same stores. -/
theorem generations_eq_of_forall₂ {config : Config} {fss fss' : List FileSystem}
    (h : List.Forall₂ FileSystem.SameButOrder fss fss') (s : Store) :
    (generations config s fss').map (fun g => (g.outcome, g.store))
      = (generations config s fss).map fun g => (g.outcome, g.store) := by
  induction h generalizing s with
  | nil => rfl
  | cons hfs _ ih =>
      rw [generations, generations, List.map_cons, List.map_cons, generation, generation,
        hfs.sweep_eq, ih]

/-- No order that a sweep is not told to keep leaves a trace.

Over two file systems that differ in the order of their listings at most, a sweep tells
and leaves the same from every store, and so do sweeps one after the other. A store
that has been written to in any way reads the same whatever order its maps list their
entries in: sorted, the entries are what is read of it, rows and names of rows,
processes and numbers of processes. And a store in which rows or processes with keys of
their own are stored is the same whatever order they are stored in. -/
theorem order_leaves_no_trace (config : Config) :
    (∀ fs fs' : FileSystem, fs.SameButOrder fs' →
      ∀ s, sweep fs' config s = sweep fs config s)
    ∧ (∀ fss fss', List.Forall₂ FileSystem.SameButOrder fss fss' → ∀ s,
        (generations config s fss').map (fun g => (g.outcome, g.store))
          = (generations config s fss).map fun g => (g.outcome, g.store))
    ∧ (∀ writes entries, Enumerates entries (Store.written writes).cpus →
        Store.sortedCpus (entries.map (·.2)) = (Store.written writes).cpuList
        ∧ (Store.sortedCpus (entries.map (·.2))).map (·.id) = (Store.written writes).cpuIds)
    ∧ (∀ writes entries, Enumerates entries (Store.written writes).processes →
        Store.sortedProcesses (entries.map (·.2)) = (Store.written writes).processList
        ∧ (Store.sortedProcesses (entries.map (·.2))).map (·.pid) = (Store.written writes).pids)
    ∧ (∀ (s : Store) (rows rows' : List Cpu), rows.Perm rows' → (rows.map (·.id)).Nodup →
        s.replaceCpus rows = s.replaceCpus rows')
    ∧ ∀ (s : Store) (processes processes' : List ProcessUsage), processes.Perm processes' →
        (processes.map (·.pid)).Nodup →
        s.replaceProcesses processes = s.replaceProcesses processes' := by
  refine ⟨fun fs fs' h => h.sweep_eq config, fun fss fss' h => generations_eq_of_forall₂ h,
    ?_, ?_, fun s rows rows' => ?_, fun s processes processes' => ?_⟩
  · intro writes entries hentries
    have hlist := (Store.keyed_written writes).sortedCpus_eq hentries
    exact ⟨hlist, congrArg (List.map (·.id)) hlist⟩
  · intro writes entries hentries
    have hkeyed := Store.keyed_written writes
    have hlist := hkeyed.sortedProcesses_eq hentries
    exact ⟨hlist, (congrArg (List.map (·.pid)) hlist).trans hkeyed.map_pid_processList⟩
  · exact fun hperm hnodup => Store.replaceCpus_eq_of_perm hperm hnodup s
  · exact fun hperm hnodup => Store.replaceProcesses_eq_of_perm hperm hnodup s

/-- A table with three entries for two processes, which both report the number 7. -/
def scattered : FileSystem where
  read p :=
    if p.text = "/proc/5/status" then .ok "Name: fifth\nPid: 7\n"
    else if p.text = "/proc/7/status" then .ok "Name: seventh\n"
    else .error .noEntry
  contains p :=
    p.text = "/proc/5/status" || p.text = "/proc/7/status" || p.text = "/proc/07/status"
  list p :=
    if p.text = "/proc" then .ok [⟨"/proc/07"⟩, ⟨"/proc/5"⟩, ⟨"/proc/7"⟩]
    else .error .noEntry

/-- The same table, listed the other way round. -/
def gathered : FileSystem :=
  { scattered with
    list := fun p =>
      if p.text = "/proc" then .ok [⟨"/proc/7"⟩, ⟨"/proc/5"⟩, ⟨"/proc/07"⟩]
      else .error .noEntry }

theorem scattered_sameButOrder_gathered : scattered.SameButOrder gathered where
  read _ := rfl
  contains _ := rfl
  list p := by
    show SameListing (if p.text = "/proc" then _ else _) (if p.text = "/proc" then _ else _)
    split
    · exact .entries (by decide)
    · exact .failure _

/-- Two processor rows, not in the order of their names. -/
def twoRows : List Cpu := [⟨"cpu1", 1, 2, zero single false⟩, ⟨"cpu", 3, 4, zero single false⟩]

/-- Two processes, not in the order of their numbers. -/
def twoProcesses : List ProcessUsage :=
  [{ (default : ProcessUsage) with pid := 9 }, { (default : ProcessUsage) with pid := 3 }]

/-- A store that holds them. -/
def holding : Store := .written [.cpus twoRows, .processes twoProcesses]

/-- The two tables are swept alike, once and again, and the store reads alike with its
entries listed from the end and stored from the end. -/
theorem scattered_is_swept_as_gathered :
    (scattered.SameButOrder gathered
      ∧ gathered.list ⟨"/proc"⟩ ≠ scattered.list ⟨"/proc"⟩
      ∧ sweep gathered {} .empty = sweep scattered {} .empty)
    ∧ (List.Forall₂ FileSystem.SameButOrder [scattered, scattered] [gathered, gathered]
      ∧ (generations {} .empty [gathered, gathered]).map (fun g => (g.outcome, g.store))
        = (generations {} .empty [scattered, scattered]).map fun g => (g.outcome, g.store))
    ∧ (Enumerates holding.cpus.toList.reverse holding.cpus
      ∧ Store.sortedCpus (holding.cpus.toList.reverse.map (·.2)) = holding.cpuList)
    ∧ (Enumerates holding.processes.toList.reverse holding.processes
      ∧ Store.sortedProcesses (holding.processes.toList.reverse.map (·.2))
        = holding.processList)
    ∧ (twoRows.Perm twoRows.reverse ∧ (twoRows.map (·.id)).Nodup
      ∧ holding.replaceCpus twoRows = holding.replaceCpus twoRows.reverse)
    ∧ twoProcesses.Perm twoProcesses.reverse ∧ (twoProcesses.map (·.pid)).Nodup
      ∧ holding.replaceProcesses twoProcesses = holding.replaceProcesses twoProcesses.reverse := by
  obtain ⟨honce, hagain, hcpus, hprocesses, hrows, hstored⟩ := order_leaves_no_trace {}
  have hsame := scattered_sameButOrder_gathered
  have hboth : List.Forall₂ FileSystem.SameButOrder [scattered, scattered]
      [gathered, gathered] := .cons hsame (.cons hsame .nil)
  have hrowsReversed := enumerates_iff_perm.mpr (List.reverse_perm holding.cpus.toList)
  have hprocessesReversed :=
    enumerates_iff_perm.mpr (List.reverse_perm holding.processes.toList)
  have hids : (twoRows.map (·.id)).Nodup := by decide
  have hpids : (twoProcesses.map (·.pid)).Nodup := by decide
  exact ⟨⟨hsame, by decide, honce _ _ hsame _⟩, ⟨hboth, hagain _ _ hboth _⟩,
    ⟨hrowsReversed, (hcpus _ _ hrowsReversed).1⟩,
    ⟨hprocessesReversed, (hprocesses _ _ hprocessesReversed).1⟩,
    ⟨(List.reverse_perm _).symm, hids, hrows _ _ _ (List.reverse_perm _).symm hids⟩,
    (List.reverse_perm _).symm, hpids, hstored _ _ _ (List.reverse_perm _).symm hpids⟩

end Sweep

end Vitals
