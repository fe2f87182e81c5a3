/-
What the shares of the processor rows are taken against, over the whole life of
a collector.

# The invariant

The rows in the store are those of the last sweep that could read their file
(`cpu?_latest`): such a sweep replaces them all, and any other leaves them. A
sweep takes its samples before it stores any of them, so what it takes them
against is exactly that invariant, for every row and for every row of the same
name alike. Everything else is a consequence. A row that is missing from the last
file that could be read, or malformed in it, has no sample there to be taken
against, and its share is zero; counters that went back are a sample like any
other; and two rows of one name are both taken against the sweep before.
-/
import Mathlib.Data.List.Induction
import Vitals.Proofs.Sweep.History
import Vitals.Proofs.Sweep.Isolation

namespace Vitals.Sweep

open Binary Proc

variable (config : Config)

-- ========================================================== baseline

/-- What the row of a name is taken against after some generations: its sample in
the last of them that could read the file of the rows. -/
def baseline (earlier : List Generation) (id : String) : Option Cpu :=
  (earlier.findRev? fun g => (g.fileSystem.read (config.root.join ⟨"stat"⟩)).isOk).bind
    fun g => g.store.cpu? id

variable {config}

/-- A generation that could read the rows is the next baseline. -/
theorem baseline_concat_of_readable {earlier : List Generation} {g : Generation}
    (h : (g.fileSystem.read (config.root.join ⟨"stat"⟩)).isOk = true) (id : String) :
    baseline config (earlier ++ [g]) id = g.store.cpu? id := by
  simp [baseline, h]

/-- A generation that could not read the rows moves no baseline. -/
theorem baseline_concat_of_unreadable {earlier : List Generation} {g : Generation}
    (h : (g.fileSystem.read (config.root.join ⟨"stat"⟩)).isOk = false) (id : String) :
    baseline config (earlier ++ [g]) id = baseline config earlier id := by
  simp [baseline, h]

-- ========================================================= one sweep

/-- A sweep that reads the rows stores the samples of those that are well formed,
taken against the store before it. -/
theorem cpus_sweep {fs : FileSystem} {content : String}
    (h : fs.read (config.root.join ⟨"stat"⟩) = .ok content) (s : Store) :
    (sweep fs config s).2.cpus = Store.indexCpus (samplesAgainst s.cpu? (cpuRows content)) := by
  have hread : readCpuRows fs config.root = .ok (cpuRows content) := by
    unfold readCpuRows readFile
    rw [h]
    rfl
  have hcontent := @content_sweep fs config .cpu s
  rw [replacement, hread] at hcontent
  exact Content.cpus.inj hcontent

/-- A sweep that cannot read the rows leaves them. -/
theorem cpus_sweep_of_unreadable {fs : FileSystem}
    (h : (fs.read (config.root.join ⟨"stat"⟩)).isOk = false) (s : Store) :
    (sweep fs config s).2.cpus = s.cpus := by
  have hfailed : unobtainable fs config .cpu = true := by
    rw [unobtainable, h]
    rfl
  exact Content.cpus.inj (content_sweep_of_unobtainable hfailed s)

/-- The row of a name after a sweep that reads the rows: the last well-formed one,
taken against the row before the sweep. -/
theorem cpu?_sweep {fs : FileSystem} {content : String}
    (h : fs.read (config.root.join ⟨"stat"⟩) = .ok content) (s : Store) (id : String) :
    (sweep fs config s).2.cpu? id
      = (lastRow id (cpuRows content)).map (sampleOf (s.cpu? id)) := by
  have hstored : (sweep fs config s).2.cpu? id
      = (s.replaceCpus (samplesAgainst s.cpu? (cpuRows content))).cpu? id := by
    rw [Store.cpu?, cpus_sweep h]
    rfl
  rw [hstored, Store.cpu?_replaceCpus, findRev?_samplesAgainst]

-- ====================================================== the invariant

/-- The rows in the store are the baseline, after any sweeps whatever. -/
theorem cpu?_latest (fss : List FileSystem) (id : String) :
    (latest (generations config .empty fss)).cpu? id
      = baseline config (generations config .empty fss) id := by
  -- induction from the end: what the last sweep does is settled by its own file
  induction fss using List.reverseRecOn with
  | nil => simp [generations, latest, baseline, Store.cpu?, Store.empty]
  | append_singleton fss fs ih =>
      rw [generations_concat, ← latest_generations]
      cases hread : (fs.read (config.root.join ⟨"stat"⟩)).isOk with
      | true =>
          rw [baseline_concat_of_readable hread, latest, List.getLast?_concat]
      | false =>
          rw [baseline_concat_of_unreadable hread, latest, List.getLast?_concat, ← ih]
          show (sweep fs config _).2.cpus[id]? = _
          rw [cpus_sweep_of_unreadable hread]
          rfl

/-- The rows in the store are the baseline, in every life of a collector. -/
theorem cpu?_latest_history (fs : FileSystem) (turns : List Turn) :
    (latest (history config fs turns)).cpu? = baseline config (history config fs turns) := by
  funext id
  exact cpu?_latest (found fs turns) id

-- ============================================================ shares

/-- A published zero is the zero without a sign. -/
theorem published_zero : Rate.published 0 = zero single false := by
  decide +kernel

/-- A row without a baseline has no share. -/
theorem cpuUsagePercent_none (idle total : UInt64) :
    Rate.cpuUsagePercent none idle total = zero single false :=
  published_zero

-- ======================================================== whole lives

/-- Over every life of a collector that starts with nothing in its store, a sweep
is one more generation, and its processor rows follow from the baseline before
it.

If it reads the file of the rows, the names in the store are those of the
well-formed rows at the head of that file. Each has the counters of its last
well-formed row, and the share of these against the baseline, which is none for a
name without one. All samples of the file are taken against that same baseline,
those of one name too. Then the rows in the store are the next baseline, whatever
their counters, and none for a name without a well-formed row.

If it does not, the rows stay as they were, and so does the baseline. -/
theorem cpu_rows_follow_baseline (config : Config) (fs : FileSystem) (turns : List Turn) :
    ∃ g, history config fs (turns ++ [.sweep]) = history config fs turns ++ [g]
    ∧ (∀ content, g.fileSystem.read (config.root.join ⟨"stat"⟩) = .ok content →
        (∀ id, id ∈ g.store.cpus ↔ ∃ times ∈ wellFormed (cpuRows content), times.id = id)
        ∧ (∀ id, g.store.cpu? id = (lastRow id (cpuRows content)).map fun times =>
            { id
              idleJiffies := times.idle
              totalJiffies := times.total
              usagePercent :=
                Rate.cpuUsagePercent (baseline config (history config fs turns) id)
                  times.idle times.total })
        ∧ (∀ id, baseline config (history config fs turns) id = none →
            ∀ cpu, g.store.cpu? id = some cpu → cpu.usagePercent = zero single false)
        ∧ ((sampleRows (cpuRows content)).run (latest (history config fs turns))).1
            = samplesAgainst (baseline config (history config fs turns)) (cpuRows content)
        ∧ ∀ id, baseline config (history config fs (turns ++ [.sweep])) id
            = g.store.cpu? id)
    ∧ ((g.fileSystem.read (config.root.join ⟨"stat"⟩)).isOk = false →
        g.store.cpus = (latest (history config fs turns)).cpus
        ∧ ∀ id, baseline config (history config fs (turns ++ [.sweep])) id
            = baseline config (history config fs turns) id) := by
  have hbefore := @cpu?_latest_history config fs turns
  refine ⟨_, history_concat_sweep config fs turns, ?_, ?_⟩
  · intro content (hread : (edited fs turns).read (config.root.join ⟨"stat"⟩) = .ok content)
    -- the rows of the next generation, of which all that follows is a reading
    have hrow : ∀ id,
        (generation config (latest (history config fs turns)) (edited fs turns)).store.cpu? id
          = (lastRow id (cpuRows content)).map
              (sampleOf (baseline config (history config fs turns) id)) := by
      intro id
      rw [generation, cpu?_sweep hread, hbefore]
    refine ⟨?_, ?_, ?_, ?_, ?_⟩
    · intro id
      have hsome := congrArg Option.isSome (hrow id)
      rw [Option.isSome_map] at hsome
      rw [Std.ExtTreeMap.mem_iff_isSome_getElem?, ← isSome_lastRow, ← hsome]
      rfl
    · intro id
      rw [hrow id]
      refine Option.map_congr fun times hlast => ?_
      rw [sampleOf, id_of_lastRow hlast]
    · intro id hnone cpu hcpu
      rw [hrow id, hnone, Option.map_eq_some_iff] at hcpu
      obtain ⟨times, -, rfl⟩ := hcpu
      exact cpuUsagePercent_none times.idle times.total
    · rw [run_sampleRows, hbefore]
    · intro id
      have hreadable : ((edited fs turns).read (config.root.join ⟨"stat"⟩)).isOk = true := by
        rw [hread]
        rfl
      rw [history_concat_sweep, baseline_concat_of_readable hreadable]
  · intro (hunreadable : ((edited fs turns).read (config.root.join ⟨"stat"⟩)).isOk = false)
    refine ⟨cpus_sweep_of_unreadable hunreadable _, ?_⟩
    intro id
    rw [history_concat_sweep, baseline_concat_of_unreadable hunreadable]

end Vitals.Sweep
