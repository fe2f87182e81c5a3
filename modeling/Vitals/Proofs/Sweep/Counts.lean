/-
What the counts of a report count.

A sweep counts readings: the processor rows that were well formed, and the
processes that could be read. What it leaves in the store is kept by key, and of
readings with one key only the last is kept. So a count is the number of entries
precisely when no two readings share a key (`length_eq_length_dedup_iff`), and it is too
great otherwise, by one for every reading that another one has replaced. Nothing in
a file rules that out. A name may head two rows, and the number that a process is
kept under is what its status says and not what its directory is called.
-/
import Mathlib.Data.List.Dedup
import Vitals.Proofs.Sweep.Coherence

namespace Vitals

open Proc

-- ============================================================ entries

section Maps

open Std (ExtTreeMap TransCmp LawfulEqCmp)

variable {α β : Type} {cmp : α → α → Ordering} [TransCmp cmp]

theorem length_values (t : ExtTreeMap α β cmp) : t.values.length = t.keys.length := by
  rw [values_eq_map_toList, ← ExtTreeMap.map_fst_toList_eq_keys, List.length_map,
    List.length_map]

/-- The map of a list has an entry for each key that occurs in the list. -/
theorem length_values_ofList_map [LawfulEqCmp cmp] [DecidableEq α] (key : β → α) (l : List β) :
    (ExtTreeMap.ofList (l.map fun v => (key v, v)) cmp).values.length
      = (l.map key).dedup.length := by
  rw [length_values]
  refine List.Perm.length_eq ?_
  rw [List.perm_ext_iff_of_nodup ExtTreeMap.nodup_keys (List.nodup_dedup _)]
  intro k
  rw [ExtTreeMap.mem_keys, ExtTreeMap.mem_iff_isSome_getElem?, getElem?_ofList_map,
    List.findRev?_eq_find?_reverse, List.find?_isSome, List.mem_dedup, List.mem_map]
  simp

end Maps

/-- Keys are as many as they are distinct precisely if none occurs twice. -/
theorem length_eq_length_dedup_iff {α : Type} [DecidableEq α] (l : List α) :
    l.length = l.dedup.length ↔ l.Nodup := by
  constructor
  · intro h
    rw [← List.dedup_eq_self]
    exact (List.dedup_sublist l).eq_of_length h.symm
  · intro h
    rw [h.dedup]

namespace Sweep

variable {fs : FileSystem} {config : Config}

-- ============================================================= report

/-- The report of a phase. -/
def reported (fs : FileSystem) (config : Config) (p : Phase) (s : Store) : Report :=
  ((phase fs config p).run s).1.report

theorem report_phases_cons (p : Phase) (ps : List Phase) (s : Store) :
    ((phases fs config (p :: ps)).run s).1.report
      = reported fs config p s
        ++ ((phases fs config ps).run (left fs config p s)).1.report := by
  rw [phases, Script.run_bind, Script.run_bind]
  rfl

/-- The readings that a report counts for a category. -/
def Report.readings (r : Report) : Phase → Nat
  | .cpu => r.cpus
  | .processes => r.processes
  | .uptime | .memory => 0

theorem readings_append (a b : Report) (p : Phase) :
    (a ++ b).readings p = a.readings p + b.readings p := by
  cases p <;> rfl

/-- A phase counts readings of its own category only. -/
theorem readings_reported_of_ne {p q : Phase} (h : q ≠ p) (s : Store) :
    (reported fs config p s).readings q = 0 := by
  cases hobtained : unobtainable fs config p with
  | true =>
      obtain ⟨cause, hrun⟩ := run_phase_of_unobtainable hobtained s
      rw [reported, hrun]
      cases q <;> rfl
  | false =>
      cases p with
      | uptime =>
          obtain ⟨uptime, hread⟩ := exists_readUptime hobtained
          rw [reported, run_uptimePhase hread]
          cases q <;> rfl
      | cpu =>
          obtain ⟨rows, hread⟩ := exists_readCpuRows hobtained
          rw [reported, run_cpuPhase hread]
          cases q <;> first | rfl | exact absurd rfl h
      | memory =>
          obtain ⟨reading, hread⟩ := exists_readMemory hobtained
          rw [reported, run_memoryPhase hread]
          cases q <;> rfl
      | processes =>
          obtain ⟨reading, hread⟩ := exists_collectAll hobtained s.memory.totalKb
          rw [reported, run_processPhase hread]
          cases q <;> first | rfl | exact absurd rfl h

theorem readings_phases_of_notMem {ps : List Phase} {q : Phase} (h : q ∉ ps) (s : Store) :
    (((phases fs config ps).run s).1.report).readings q = 0 := by
  induction ps generalizing s with
  | nil => cases q <;> rfl
  | cons p ps ih =>
      obtain ⟨hp, hps⟩ := not_or.mp (mt List.mem_cons.mpr h)
      rw [report_phases_cons, readings_append, readings_reported_of_ne hp, ih hps]

/-- Phases one after the other count for a category what its own phase counts. -/
theorem readings_phases {before after : List Phase} {q : Phase} (hbefore : q ∉ before)
    (hafter : q ∉ after) (s : Store) :
    (((phases fs config (before ++ q :: after)).run s).1.report).readings q
      = (reported fs config q ((phases fs config before).run s).2).readings q := by
  induction before generalizing s with
  | nil =>
      rw [List.nil_append, report_phases_cons, readings_append, readings_phases_of_notMem hafter]
      rfl
  | cons p ps ih =>
      obtain ⟨hp, hps⟩ := not_or.mp (mt List.mem_cons.mpr hbefore)
      rw [List.cons_append, report_phases_cons, readings_append, readings_reported_of_ne hp,
        Nat.zero_add, ih hps, run_phases_snd, run_phases_snd, List.foldl_cons]

/-- A sweep counts for a category what its own phase counts, once those before it
are over. -/
theorem readings_sweep {before after : List Phase} {q : Phase}
    (hall : Phase.all = before ++ q :: after) (hbefore : q ∉ before) (hafter : q ∉ after)
    (s : Store) :
    ((sweep fs config s).1.report).readings q
      = (reported fs config q ((phases fs config before).run s).2).readings q := by
  rw [← readings_phases hbefore hafter, ← hall, sweep, script, Script.run_bind]
  rfl

/-- The last phase leaves the total that it takes shares of. -/
theorem totalKb_sweep (s : Store) :
    (sweep fs config s).2.memory.totalKb
      = ((phases fs config [.uptime, .cpu, .memory]).run s).2.memory.totalKb := by
  have hkept := @content_left_of_ne fs config .processes .memory (by decide)
    ((phases fs config [.uptime, .cpu, .memory]).run s).2
  rw [run_phases_snd] at hkept ⊢
  rw [sweep_snd]
  exact congrArg Memory.totalKb (Content.memory.inj hkept)

-- =========================================================== the law

/-- A sweep that can read the processor rows counts those that are well formed, and
leaves an entry for each name among them. -/
theorem exists_rows_sweep {s : Store} (h : Phase.cpu ∉ (sweep fs config s).1.report.failed) :
    ∃ content, fs.read (config.root.join ⟨"stat"⟩) = .ok content
      ∧ (sweep fs config s).1.report.cpus = ((wellFormed (cpuRows content)).map (·.id)).length
      ∧ (sweep fs config s).2.cpuList.length
        = ((wellFormed (cpuRows content)).map (·.id)).dedup.length := by
  have hobtained := obtainable_of_notMem_failed h
  obtain ⟨rows, hread⟩ := exists_readCpuRows hobtained
  obtain ⟨content, hfile, rfl⟩ := readCpuRows_eq_ok hread
  refine ⟨content, hfile, ?_, ?_⟩
  · have hcount := @readings_sweep fs config [.uptime] [.memory, .processes] .cpu rfl
      (by decide) (by decide) s
    rw [reported, run_cpuPhase hread] at hcount
    rw [List.length_map]
    exact hcount
  · rw [Store.cpuList, cpus_sweep hfile, Store.indexCpus, length_values_ofList_map,
      samplesAgainst, List.map_map]
    rfl

/-- A sweep that can list the processes counts those that it can read, and leaves an
entry for each number that they report. -/
theorem exists_readings_sweep {s : Store}
    (h : Phase.processes ∉ (sweep fs config s).1.report.failed) :
    ∃ pids readings, discover fs config = .ok pids
      ∧ readings = collectEach fs config (sweep fs config s).2.memory.totalKb pids
      ∧ (sweep fs config s).1.report.processes = (readings.map (·.2.value.pid)).length
      ∧ (sweep fs config s).2.processList.length
        = (readings.map (·.2.value.pid)).dedup.length := by
  have hobtained := obtainable_of_notMem_failed h
  obtain ⟨pids, hpids, hstored⟩ := exists_processes_sweep hobtained s
  refine ⟨pids, _, hpids, rfl, ?_, ?_⟩
  · obtain ⟨reading, hread⟩ := exists_collectAll hobtained
      ((phases fs config [.uptime, .cpu, .memory]).run s).2.memory.totalKb
    obtain ⟨pids', hpids', hvalue⟩ := collectAll_eq_ok fs config hread
    obtain rfl : pids' = pids := Except.ok.inj (hpids'.symm.trans hpids)
    have hcount := @readings_sweep fs config [.uptime, .cpu, .memory] [] .processes rfl
      (by decide) (by decide) s
    rw [reported, run_processPhase hread] at hcount
    rw [List.length_map, totalKb_sweep, ← List.length_map (·.2.value), ← hvalue]
    exact hcount
  · rw [Store.processList, hstored, Store.indexProcesses, length_values_ofList_map,
      List.map_map]
    rfl

/-- What the counts of a sweep are, from every store and over every file system.

If it could read the processor rows, it counts those that are well formed, and it
leaves an entry for each name among them. If it could list the processes, it counts
those it could read, and it leaves an entry for each number they report. So it never
counts less than it leaves, and as much precisely if no two rows have a name in
common, or no two processes a number. -/
theorem report_counts_readings (fs : FileSystem) (config : Config) (s : Store) :
    (Phase.cpu ∉ (sweep fs config s).1.report.failed →
      ∃ content ids, fs.read (config.root.join ⟨"stat"⟩) = .ok content
      ∧ ids = (wellFormed (cpuRows content)).map (·.id)
      ∧ (sweep fs config s).1.report.cpus = ids.length
      ∧ (sweep fs config s).2.cpuList.length = ids.dedup.length
      ∧ (sweep fs config s).2.cpuList.length ≤ (sweep fs config s).1.report.cpus
      ∧ ((sweep fs config s).1.report.cpus = (sweep fs config s).2.cpuList.length ↔ ids.Nodup))
    ∧ (Phase.processes ∉ (sweep fs config s).1.report.failed →
      ∃ directories pids, discover fs config = .ok directories
      ∧ pids = (collectEach fs config (sweep fs config s).2.memory.totalKb directories).map
          (·.2.value.pid)
      ∧ (sweep fs config s).1.report.processes = pids.length
      ∧ (sweep fs config s).2.processList.length = pids.dedup.length
      ∧ (sweep fs config s).2.processList.length ≤ (sweep fs config s).1.report.processes
      ∧ ((sweep fs config s).1.report.processes = (sweep fs config s).2.processList.length ↔
          pids.Nodup)) := by
  constructor
  · intro h
    obtain ⟨content, hfile, hcount, hentries⟩ := exists_rows_sweep h
    refine ⟨content, _, hfile, rfl, hcount, hentries, ?_, ?_⟩
    · rw [hcount, hentries]
      exact (List.dedup_sublist _).length_le
    · rw [hcount, hentries]
      exact length_eq_length_dedup_iff _
  · intro h
    obtain ⟨directories, readings, hlisted, rfl, hcount, hentries⟩ := exists_readings_sweep h
    refine ⟨directories, _, hlisted, rfl, hcount, hentries, ?_, ?_⟩
    · rw [hcount, hentries]
      exact (List.dedup_sublist _).length_le
    · rw [hcount, hentries]
      exact length_eq_length_dedup_iff _

/-- A host where two rows have one name, and two processes one number. -/
def doubled : FileSystem where
  read p :=
    if p.text = "/proc/stat" then .ok "cpu 1 0 1 8 0 0 0\ncpu 2 0 2 16 0 0 0\n"
    else if p.text = "/proc/3/status" ∨ p.text = "/proc/5/status" then .ok "Pid: 7\n"
    else .error .noEntry
  contains p := p.text = "/proc/3/status" || p.text = "/proc/5/status"
  list p := if p.text = "/proc" then .ok [⟨"/proc/3"⟩, ⟨"/proc/5"⟩] else .error .noEntry

theorem discover_doubled : discover doubled {} = .ok [3, 5] := by
  have hentries : ([⟨"/proc/3"⟩, ⟨"/proc/5"⟩] : List Path).filterMap (entryPid? doubled)
      = [3, 5] := by
    decide +kernel
  show Except.ok (List.mergeSort (List.filterMap (entryPid? doubled) [⟨"/proc/3"⟩, ⟨"/proc/5"⟩])
    (· ≤ ·)) = _
  rw [hentries, List.mergeSort_of_pairwise (by decide)]

/-- Of what is counted there, twice as much as is left in the store. -/
theorem doubled_is_counted_twice :
    Phase.cpu ∉ (sweep doubled {} .empty).1.report.failed
    ∧ (sweep doubled {} .empty).1.report.cpus = 2
    ∧ (sweep doubled {} .empty).2.cpuList.length = 1
    ∧ Phase.processes ∉ (sweep doubled {} .empty).1.report.failed
    ∧ (sweep doubled {} .empty).1.report.processes = 2
    ∧ (sweep doubled {} .empty).2.processList.length = 1 := by
  have hlisted : Phase.processes ∉ (sweep doubled {} .empty).1.report.failed := by
    decide +kernel
  obtain ⟨directories, readings, hfound, rfl, hcount, hentries⟩ := exists_readings_sweep hlisted
  obtain rfl : [3, 5] = directories := Except.ok.inj (discover_doubled.symm.trans hfound)
  have htotal : (sweep doubled {} .empty).2.memory.totalKb = 0 := by decide +kernel
  have hpids : (collectEach doubled {} 0 [3, 5]).map (·.2.value.pid) = [7, 7] := by
    decide +kernel
  rw [htotal, hpids] at hcount hentries
  refine ⟨by decide +kernel, by decide +kernel, by decide +kernel, hlisted, hcount, ?_⟩
  rw [hentries]
  decide

end Sweep

end Vitals
