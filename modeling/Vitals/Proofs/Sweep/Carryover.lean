/-
What one sweep hands on to the next, and what it does not.

Three things of a store come into a sweep. The counters of the processor rows are
what the new ones are taken against (`sampleOf_congr`), a category whose source
cannot be had is kept as it is, and the total of the memory, if it is kept, is
what the shares of the processes are taken of. No failure is handed on, for a
sweep tells what the files tell (`sweep_fst_eq`) and keeps no record of it.

# What follows

Where every source can be had, only the counters are left of the three, so two
stores with the same counters come out of a sweep as one. Counters are replaced by
those of the file whatever they were, so after two such sweeps not even they are
left.

Where the files stay as they are, every category but the processor rows comes out
of a second sweep as it went in. The rows do up to their shares, which are then
taken of no ticks at all; and a third sweep finds nothing more to change.
-/
import Vitals.Proofs.Sweep.Account
import Vitals.Proofs.Sweep.Baseline

namespace Vitals

open Binary Proc

/-- The counters of a sample, without the share that was taken of them. -/
def Cpu.counters (row : Cpu) : UInt64 × UInt64 := (row.idleJiffies, row.totalJiffies)

namespace Store

/-- Two stores have rows of the same names, with the same counters. -/
def SameCounters (s t : Store) : Prop :=
  ∀ id, (s.cpu? id).map Cpu.counters = (t.cpu? id).map Cpu.counters

/-- The store with a share of zero in each of its rows. -/
def standstill (s : Store) : Store :=
  { s with cpus := s.cpus.map fun _ row => { row with usagePercent := zero single false } }

/-- A store is made of the contents of its four categories. -/
theorem eq_of_content_eq {s t : Store} (h : ∀ p, s.content p = t.content p) : s = t := by
  obtain ⟨uptime, memory, cpus, processes⟩ := s
  obtain ⟨uptime', memory', cpus', processes'⟩ := t
  obtain rfl : uptime = uptime' := Content.uptime.inj (h .uptime)
  obtain rfl : memory = memory' := Content.memory.inj (h .memory)
  obtain rfl : cpus = cpus' := Content.cpus.inj (h .cpu)
  obtain rfl : processes = processes' := Content.processes.inj (h .processes)
  rfl

/-- A standstill concerns the processors only. -/
theorem content_standstill {p : Sweep.Phase} (hp : p ≠ .cpu) (s : Store) :
    s.standstill.content p = s.content p := by
  cases p with
  | uptime => rfl
  | cpu => exact absurd rfl hp
  | memory => rfl
  | processes => rfl

theorem standstill_standstill (s : Store) : s.standstill.standstill = s.standstill := by
  simp [standstill, Std.ExtTreeMap.map_map]

end Store

namespace Sweep

variable {fs : FileSystem} {config : Config}

-- ============================================================ counters

/-- A sample is taken against counters alone, not against a share. -/
theorem sampleOf_congr {before before' : Option Cpu}
    (h : before.map Cpu.counters = before'.map Cpu.counters) (times : CpuTimes) :
    sampleOf before times = sampleOf before' times := by
  cases before with
  | none =>
      cases before' with
      | none => rfl
      | some row' => cases h
  | some row =>
      cases before' with
      | none => cases h
      | some row' =>
          obtain ⟨hidle, htotal⟩ := Prod.mk.inj (Option.some.inj h)
          rw [sampleOf, sampleOf, Rate.cpuUsagePercent, Rate.cpuUsagePercent, Rate.cpuUsage,
            Rate.cpuUsage, hidle, htotal]

theorem samplesAgainst_congr {s t : Store} (h : s.SameCounters t)
    (rows : List (Except ParseError CpuTimes)) :
    samplesAgainst s.cpu? rows = samplesAgainst t.cpu? rows :=
  List.map_congr_left fun times _ => sampleOf_congr (h times.id) times

/-- What a phase stores depends on the earlier counters and on nothing else of the store. -/
theorem replacement_congr_counters {s t : Store} (h : s.SameCounters t) (totalKb : UInt64)
    (p : Phase) : replacement fs config s totalKb p = replacement fs config t totalKb p := by
  cases p with
  | uptime => rfl
  | cpu => simp only [replacement, samplesAgainst_congr h]
  | memory => rfl
  | processes => rfl

/-- A sweep that reads the rows leaves the counters of the file, whatever there was. -/
theorem sameCounters_sweep (h : unobtainable fs config .cpu = false) (s t : Store) :
    (sweep fs config s).2.SameCounters (sweep fs config t).2 := by
  intro id
  cases hstat : fs.read (config.root.join ⟨"stat"⟩) with
  | error e =>
      rw [unobtainable, hstat] at h
      cases h
  | ok content =>
      rw [cpu?_sweep hstat, cpu?_sweep hstat, Option.map_map, Option.map_map]
      rfl

-- ========================================================== two stores

/-- Stores with the same counters are given the same content by a phase that does not fail.
-/
theorem content_sweep_congr {s t : Store} (h : s.SameCounters t) {p : Phase}
    (hp : unobtainable fs config p = false)
    (htotal : p = .processes →
      (sweep fs config s).2.memory.totalKb = (sweep fs config t).2.memory.totalKb) :
    (sweep fs config s).2.content p = (sweep fs config t).2.content p := by
  apply Option.some.inj
  rw [← replacement_sweep hp, ← replacement_sweep hp, ← replacement_congr_counters h]
  exact replacement_congr (fun _ => rfl) htotal

/-- Where every source can be had, a sweep makes one of two stores with the same
counters. -/
theorem sweep_eq_of_sameCounters {s t : Store} (h : s.SameCounters t)
    (hobtained : ∀ p, unobtainable fs config p = false) :
    sweep fs config s = sweep fs config t := by
  have hmemory : (sweep fs config s).2.memory = (sweep fs config t).2.memory :=
    Content.memory.inj (content_sweep_congr h (hobtained .memory) nofun)
  refine Prod.ext (sweep_fst_eq s t) (Store.eq_of_content_eq fun p => ?_)
  exact content_sweep_congr h (hobtained p) fun _ => congrArg Memory.totalKb hmemory

/-- A sweep without failed phases obtains every category. -/
theorem obtainable_of_failed_eq_nil {s : Store}
    (h : (sweep fs config s).1.report.failed = []) (p : Phase) :
    unobtainable fs config p = false :=
  obtainable_of_notMem_failed (h ▸ List.not_mem_nil)

/-- No failure outlives a sweep over sources that can all be had.

Two stores that agree on the names of the processor rows and on their counters, and
on nothing else, come out of such a sweep as the same store, and the sweeps tell the
same, report and events. Out of a second such sweep any two stores come as the same. -/
theorem readable_sweep_forgets (fs : FileSystem) (config : Config) (s t : Store)
    (hcounters : s.SameCounters t) (hfailed : (sweep fs config s).1.report.failed = []) :
    sweep fs config s = sweep fs config t
    ∧ ∀ fs' u, (sweep fs' config (sweep fs config s).2).1.report.failed = [] →
        sweep fs' config (sweep fs config s).2 = sweep fs' config (sweep fs config u).2 := by
  have hobtained := obtainable_of_failed_eq_nil hfailed
  refine ⟨sweep_eq_of_sameCounters hcounters hobtained, ?_⟩
  intro fs' u hfailed'
  exact sweep_eq_of_sameCounters (sameCounters_sweep (hobtained .cpu) s u)
    (obtainable_of_failed_eq_nil hfailed')

/-- A host of which every source can be had. -/
def healthy : FileSystem where
  read p :=
    if p.text = "/proc/uptime" then .ok "10.5 3.0\n"
    else if p.text = "/proc/stat" then .ok "cpu 1 0 1 8 0 0 0\ncpu0 many\n"
    else if p.text = "/proc/meminfo" then .ok "MemTotal: 100 kB\nMemFree: 50 kB\n"
    else if p.text = "/proc/3/status" then .ok "Pid: 3\nVmSize: 10 kB\n"
    else .error .noEntry
  contains p := p.text = "/proc/3/status"
  list p := if p.text = "/proc" then .ok [⟨"/proc/3"⟩] else .error .noEntry

/-- A store after one sweep of a processor. -/
def fresh : Store := Store.empty.replaceCpus [⟨"cpu", 4, 5, zero single false⟩]

/-- A store with the same counters and a past of its own. -/
def seasoned : Store :=
  ((Store.empty.replaceCpus [⟨"cpu", 4, 5, ofRat single 80⟩]).setMemory
    ⟨7, 7, zero single false⟩).replaceProcesses [{ (default : ProcessUsage) with pid := 9 }]

theorem sameCounters_fresh_seasoned : fresh.SameCounters seasoned := by
  intro id
  show ((Store.empty.replaceCpus _).cpu? id).map _ = ((Store.empty.replaceCpus _).cpu? id).map _
  rw [Store.cpu?_replaceCpus, Store.cpu?_replaceCpus]
  by_cases h : "cpu" = id
  · simp [List.findRev?, h, Cpu.counters]
  · simp [List.findRev?, h]

theorem seasoned_is_forgotten :
    fresh.SameCounters seasoned
    ∧ (sweep healthy {} fresh).1.report.failed = []
    ∧ sweep healthy {} fresh = sweep healthy {} seasoned := by
  have hfailed : (sweep healthy {} fresh).1.report.failed = [] := by
    rw [failed_sweep]
    decide +kernel
  exact ⟨sameCounters_fresh_seasoned, hfailed,
    (readable_sweep_forgets healthy {} fresh seasoned sameCounters_fresh_seasoned hfailed).1⟩

-- =================================================== unchanged files

/-- The categories other than the processors are not changed by a second sweep of unchanged
files. -/
theorem content_sweep_sweep_of_totalKb {p : Phase} (hp : p ≠ .cpu) {s : Store}
    (htotal : p = .processes →
      (sweep fs config (sweep fs config s).2).2.memory.totalKb
        = (sweep fs config s).2.memory.totalKb) :
    (sweep fs config (sweep fs config s).2).2.content p = (sweep fs config s).2.content p := by
  cases hobtained : unobtainable fs config p with
  | true => exact content_sweep_of_unobtainable hobtained _
  | false =>
      have hsame : replacement fs config (sweep fs config s).2
            (sweep fs config (sweep fs config s).2).2.memory.totalKb p
          = replacement fs config s (sweep fs config s).2.memory.totalKb p :=
        replacement_congr (fun h => absurd h hp) htotal
      rw [replacement_sweep hobtained, replacement_sweep hobtained] at hsame
      exact Option.some.inj hsame

/-- A second sweep over the same files changes no category but the rows. -/
theorem content_sweep_sweep {p : Phase} (hp : p ≠ .cpu) (s : Store) :
    (sweep fs config (sweep fs config s).2).2.content p = (sweep fs config s).2.content p := by
  -- the total has to be settled before the processes can be
  have hmemory : (sweep fs config (sweep fs config s).2).2.memory
      = (sweep fs config s).2.memory :=
    Content.memory.inj (content_sweep_sweep_of_totalKb (p := .memory) (by decide) nofun)
  exact content_sweep_sweep_of_totalKb hp fun _ => congrArg Memory.totalKb hmemory

/-- A sample taken again of the same counters has no usage. -/
theorem sampleOf_sampleOf (before : Option Cpu) (times : CpuTimes) :
    sampleOf (some (sampleOf before times)) times
      = { sampleOf before times with usagePercent := zero single false } := by
  have hshare : Rate.cpuUsagePercent (some (sampleOf before times)) times.idle times.total
      = zero single false := by
    have hpassed : times.total.toNat - (sampleOf before times).totalJiffies.toNat = 0 :=
      Nat.sub_self _
    rw [Rate.cpuUsagePercent, Rate.cpuUsage, if_pos hpassed]
    exact published_zero
  rw [sampleOf, hshare]
  rfl

/-- After a second sweep of unchanged files no processor shows usage. -/
theorem cpus_sweep_sweep {content : String}
    (h : fs.read (config.root.join ⟨"stat"⟩) = .ok content) (s : Store) :
    (sweep fs config (sweep fs config s).2).2.cpus = (sweep fs config s).2.standstill.cpus := by
  apply Std.ExtTreeMap.ext_getElem?
  intro id
  have hfirst : (sweep fs config s).2.cpus[id]?
      = (lastRow id (cpuRows content)).map (sampleOf (s.cpu? id)) := cpu?_sweep h s id
  have hsecond : (sweep fs config (sweep fs config s).2).2.cpus[id]?
      = (lastRow id (cpuRows content)).map (sampleOf ((sweep fs config s).2.cpu? id)) :=
    cpu?_sweep h _ id
  rw [hsecond, Store.cpu?, Store.standstill, Std.ExtTreeMap.getElem?_map, hfirst]
  cases lastRow id (cpuRows content) with
  | none => rfl
  | some times => exact congrArg some (sampleOf_sampleOf _ times)

/-- A second sweep over the same files leaves the rows at a standstill if it can read
them, and all else as it was. -/
theorem sweep_sweep (s : Store) :
    (sweep fs config (sweep fs config s).2).2
      = if (fs.read (config.root.join ⟨"stat"⟩)).isOk then (sweep fs config s).2.standstill
        else (sweep fs config s).2 := by
  cases hstat : fs.read (config.root.join ⟨"stat"⟩) with
  | error e =>
      refine Store.eq_of_content_eq fun p => ?_
      by_cases hp : p = .cpu
      · subst hp
        exact content_sweep_of_unobtainable (by rw [unobtainable, hstat]; rfl) _
      · exact content_sweep_sweep hp s
  | ok content =>
      refine Store.eq_of_content_eq fun p => ?_
      by_cases hp : p = .cpu
      · subst hp
        exact congrArg Content.cpus (cpus_sweep_sweep hstat s)
      · exact (content_sweep_sweep hp s).trans (Store.content_standstill hp _).symm

/-- A third sweep of unchanged files changes nothing. -/
theorem sweep_sweep_sweep (s : Store) :
    (sweep fs config (sweep fs config (sweep fs config s).2).2).2
      = (sweep fs config (sweep fs config s).2).2 := by
  rw [sweep_sweep, sweep_sweep]
  split
  · exact Store.standstill_standstill _
  · rfl

/-- From the second sweep of unchanged files on, the store stays as it is. -/
theorem swept_replicate (s : Store) (n : Nat) :
    swept config s (List.replicate (n + 2) fs) = swept config s [fs, fs] := by
  induction n generalizing s with
  | zero => rfl
  | succ n ih => exact (ih (sweep fs config s).2).trans (sweep_sweep_sweep s)

/-- What a sweep reports and logs does not depend on the store it starts from. -/
theorem outcome_of_mem_generations_replicate {s : Store} {n : Nat} {g : Generation}
    (h : g ∈ generations config s (List.replicate n fs)) (t : Store) :
    g.outcome = (sweep fs config t).1 := by
  induction n generalizing s with
  | zero => cases h
  | succ n ih =>
      rcases List.mem_cons.mp h with rfl | hrest
      · exact sweep_fst_eq s t
      · exact ih hrest

/-- Sweeps over a file system that does not change settle, from every store, be its
sources in reach or not, and whatever they say.

The second store is the first with all shares of processor rows at zero, if the rows
can be read, and the first itself if they cannot. All later ones are the second. And
every sweep tells what the first one told, report and events. -/
theorem unchanged_files_settle (fs : FileSystem) (config : Config) (s : Store) :
    swept config s [fs, fs]
      = (if (fs.read (config.root.join ⟨"stat"⟩)).isOk then (swept config s [fs]).standstill
        else swept config s [fs])
    ∧ (∀ n, swept config s (List.replicate (n + 2) fs) = swept config s [fs, fs])
    ∧ ∀ n, ∀ g ∈ generations config s (List.replicate n fs),
        g.outcome = (sweep fs config s).1 :=
  ⟨sweep_sweep s, swept_replicate s, fun _ _ hg => outcome_of_mem_generations_replicate hg s⟩

end Sweep

end Vitals
