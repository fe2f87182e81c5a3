/-
The phases of a sweep stand apart: whatever happens to the source of one, the
others do what they would have done without it.

# Why it holds

A phase asks the file system only about its own source (`SameSource`), writes
only its own category (`content_left_of_ne`) and reads the store in two places.
The processor rows read their own category, which no earlier phase has touched.
The processes read the memory, which the phase before them may have replaced:
that is the one way on which something passes from a phase to another, and it
carries a total and nothing else. So what a category is replaced by is a function
`replacement` of its own source, of the rows before the sweep and of the total in
the store afterwards.

A phase fails for want of its source only (`unobtainable`). What the rows, the
fields of the memory or the files of a process say does not enter.
-/
import Mathlib.Data.List.Basic
import Vitals.Proofs.Sweep.Phase

namespace Vitals.Sweep

open Proc

variable {fs fs' : FileSystem} {config : Config}

-- ======================================================== replacement

/-- There is a replacement precisely when the source can be had. -/
theorem isSome_replacement (s : Store) (totalKb : UInt64) (p : Phase) :
    (replacement fs config s totalKb p).isSome = !unobtainable fs config p := by
  cases p with
  | uptime =>
      rw [← isOk_readUptime, replacement]
      cases readUptime fs config.root <;> rfl
  | cpu =>
      rw [← isOk_readCpuRows, replacement]
      cases readCpuRows fs config.root <;> rfl
  | memory =>
      rw [← isOk_readMemory, replacement]
      cases Proc.readMemory fs config.root <;> rfl
  | processes =>
      rw [← isOk_collectAll fs config totalKb, replacement]
      cases collectAll fs config totalKb <;> rfl

/-- There is none without the source. -/
theorem replacement_of_unobtainable {p : Phase} (h : unobtainable fs config p = true)
    (s : Store) (totalKb : UInt64) : replacement fs config s totalKb p = none := by
  rw [← Option.not_isSome_iff_eq_none, isSome_replacement, h]
  decide

/-- A phase leaves its category replaced, or as it was if there is nothing to
replace it by. -/
theorem content_left (p : Phase) (s : Store) :
    (left fs config p s).content p
      = (replacement fs config s s.memory.totalKb p).getD (s.content p) := by
  cases hp : unobtainable fs config p with
  | true =>
      rw [left_of_unobtainable hp, replacement_of_unobtainable hp]
      rfl
  | false =>
      obtain ⟨outcome, content, hrun, -, rfl, hreplacement⟩ := run_phase_of_obtainable hp s
      rw [left, hrun, hreplacement]
      exact s.content_put content

/-- A replacement depends on a store only through its processor rows, and only
for these, and on a total only for the processes. -/
theorem replacement_congr {s t : Store} {totalKb totalKb' : UInt64} {p : Phase}
    (hcpu : p = .cpu → s.content .cpu = t.content .cpu)
    (htotal : p = .processes → totalKb = totalKb') :
    replacement fs config s totalKb p = replacement fs config t totalKb' p := by
  cases p with
  | uptime => rfl
  | cpu =>
      have hcpus : s.cpus = t.cpus := Content.cpus.inj (hcpu rfl)
      have hread : s.cpu? = t.cpu? := by
        funext id
        rw [Store.cpu?, Store.cpu?, hcpus]
      rw [replacement, replacement, hread]
  | memory => rfl
  | processes =>
      rw [htotal rfl]
      rfl

/-- A phase that comes upon a store with the same category, and with the given
total if it wants one, does to its category what it would do in that store. -/
theorem content_left_congr {s t : Store} {totalKb : UInt64} {p : Phase}
    (hcontent : t.content p = s.content p)
    (htotal : p = .processes → t.memory.totalKb = totalKb) :
    (left fs config p t).content p
      = (replacement fs config s totalKb p).getD (s.content p) := by
  have hreplacement : replacement fs config t t.memory.totalKb p
      = replacement fs config s totalKb p :=
    replacement_congr (fun hp => hp ▸ hcontent) htotal
  rw [content_left, hcontent, hreplacement]

/-- A sweep leaves each category replaced, from the store before it and with the
total in the store after it, or as it was. -/
theorem content_sweep (p : Phase) (s : Store) :
    (sweep fs config s).2.content p
      = (replacement fs config s (sweep fs config s).2.memory.totalKb p).getD
          (s.content p) := by
  -- the total stays as the memory phase left it, and so the processes are measured by it
  have hmemory : (sweep fs config s).2.memory
      = (left fs config .memory (left fs config .cpu (left fs config .uptime s))).memory := by
    rw [sweep_snd]
    exact Content.memory.inj (content_left_of_ne (q := .memory) (by decide) _)
  rw [hmemory, sweep_snd]
  cases p with
  | uptime =>
      rw [content_left_of_ne (by decide), content_left_of_ne (by decide),
        content_left_of_ne (by decide)]
      exact content_left_congr rfl nofun
  | cpu =>
      rw [content_left_of_ne (by decide), content_left_of_ne (by decide)]
      exact content_left_congr (content_left_of_ne (by decide) _) nofun
  | memory =>
      rw [content_left_of_ne (by decide)]
      refine content_left_congr ?_ nofun
      rw [content_left_of_ne (by decide), content_left_of_ne (by decide)]
  | processes =>
      refine content_left_congr ?_ fun _ => rfl
      rw [content_left_of_ne (by decide), content_left_of_ne (by decide),
        content_left_of_ne (by decide)]

/-- A sweep leaves the category of a phase without its source as it was. -/
theorem content_sweep_of_unobtainable {p : Phase} (h : unobtainable fs config p = true)
    (s : Store) : (sweep fs config s).2.content p = s.content p := by
  rw [content_sweep, replacement_of_unobtainable h]
  rfl

/-- A sweep replaces the category of a phase with its source. -/
theorem replacement_sweep {p : Phase} (h : unobtainable fs config p = false) (s : Store) :
    replacement fs config s (sweep fs config s).2.memory.totalKb p
      = some ((sweep fs config s).2.content p) := by
  have hsome : (replacement fs config s (sweep fs config s).2.memory.totalKb p).isSome := by
    rw [isSome_replacement, h]
    rfl
  obtain ⟨content, hcontent⟩ := Option.isSome_iff_exists.mp hsome
  rw [content_sweep, hcontent]
  rfl

-- =========================================================== sources

/-- Two file systems answer alike to all that a phase asks. The processes ask for
the listing of the table, for the status of what is listed, and for the files of
a process. -/
def SameSource (config : Config) (fs fs' : FileSystem) : Phase → Prop
  | .uptime => fs'.read (config.root.join ⟨"uptime"⟩) = fs.read (config.root.join ⟨"uptime"⟩)
  | .cpu => fs'.read (config.root.join ⟨"stat"⟩) = fs.read (config.root.join ⟨"stat"⟩)
  | .memory =>
      fs'.read (config.root.join ⟨"meminfo"⟩) = fs.read (config.root.join ⟨"meminfo"⟩)
  | .processes =>
      fs'.list config.root = fs.list config.root
        ∧ (∀ entries, fs.list config.root = .ok entries → ∀ entry ∈ entries,
            fs'.contains (entry.join ⟨"status"⟩) = fs.contains (entry.join ⟨"status"⟩))
        ∧ ∀ pid : Int32, ∀ name ∈ ["status", "stat", "cmdline"],
            fs'.read ((directoryOf config pid).join ⟨name⟩)
              = fs.read ((directoryOf config pid).join ⟨name⟩)

/-- Two file systems give away the same sources: the uptime reads alike in both,
and of the other sources each can be had in both or in neither. -/
def SameReach (config : Config) (fs fs' : FileSystem) : Prop :=
  fs'.read (config.root.join ⟨"uptime"⟩) = fs.read (config.root.join ⟨"uptime"⟩)
    ∧ (fs'.read (config.root.join ⟨"stat"⟩)).isOk = (fs.read (config.root.join ⟨"stat"⟩)).isOk
    ∧ (fs'.read (config.root.join ⟨"meminfo"⟩)).isOk
        = (fs.read (config.root.join ⟨"meminfo"⟩)).isOk
    ∧ (fs'.list config.root).isOk = (fs.list config.root).isOk

/-- The processes that are discovered depend on their source alone. -/
theorem discover_congr (h : SameSource config fs fs' .processes) :
    discover fs' config = discover fs config := by
  obtain ⟨hlist, hstatus, -⟩ := h
  unfold discover
  rw [hlist]
  cases hentries : fs.list config.root with
  | error e => rfl
  | ok entries =>
      have hpid : entries.filterMap (entryPid? fs') = entries.filterMap (entryPid? fs) := by
        refine List.filterMap_congr fun entry hentry => ?_
        unfold entryPid?
        rw [hstatus entries hentries entry hentry]
      dsimp only
      rw [hpid]

/-- What is read of a process depends on its files alone. -/
theorem collect_congr (h : SameSource config fs fs' .processes) (pid : Int32)
    (totalKb : UInt64) : collect fs' config pid totalKb = collect fs config pid totalKb := by
  obtain ⟨-, -, hread⟩ := h
  unfold collect
  dsimp only
  rw [hread pid "status" (by simp), hread pid "stat" (by simp), hread pid "cmdline" (by simp)]

/-- A replacement depends on the source of its phase alone. -/
theorem replacement_congr_source {p : Phase} (h : SameSource config fs fs' p) (s : Store)
    (totalKb : UInt64) :
    replacement fs' config s totalKb p = replacement fs config s totalKb p := by
  cases p with
  | uptime =>
      have hread : readUptime fs' config.root = readUptime fs config.root := by
        unfold readUptime readFile
        rw [h]
      rw [replacement, replacement, hread]
  | cpu =>
      have hread : readCpuRows fs' config.root = readCpuRows fs config.root := by
        unfold readCpuRows readFile
        rw [h]
      rw [replacement, replacement, hread]
  | memory =>
      have hread : Proc.readMemory fs' config.root = Proc.readMemory fs config.root := by
        unfold Proc.readMemory readFile
        rw [h]
      rw [replacement, replacement, hread]
  | processes =>
      have hcollect : collectAll fs' config totalKb = collectAll fs config totalKb := by
        unfold collectAll
        rw [discover_congr h]
        simp only [collect_congr h]
      rw [replacement, replacement, hcollect]

/-- Whether a source can be had is a matter of reach, and not of what is in it. -/
theorem unobtainable_congr (h : SameReach config fs fs') :
    unobtainable fs' config = unobtainable fs config := by
  obtain ⟨huptime, hstat, hmeminfo, hlist⟩ := h
  funext p
  cases p with
  | uptime => rw [unobtainable, unobtainable, huptime]
  | cpu => rw [unobtainable, unobtainable, hstat]
  | memory => rw [unobtainable, unobtainable, hmeminfo]
  | processes => rw [unobtainable, unobtainable, hlist]

-- ========================================================= isolation

/-- The phases of a sweep are isolated, from every store and over every file
system.

The phases that fail are those whose source cannot be had, in their order. The
category of each stays as it was. Every other category is replaced by what its
own source gives, with shares of the total that is in the store by then: in any
other file system with the same source it would get the same replacement, and a
sweep there leaves the same in it, provided for the processes that it leaves the
same total. What stands in the rows, in the fields of the memory or in the files
of the processes makes no phase fail. -/
theorem sweep_isolates_phases (fs : FileSystem) (config : Config) (s : Store) :
    (sweep fs config s).1.report.failed = Phase.all.filter (unobtainable fs config)
    ∧ (∀ p ∈ (sweep fs config s).1.report.failed,
        (sweep fs config s).2.content p = s.content p)
    ∧ (∀ p ∉ (sweep fs config s).1.report.failed, ∀ fs', SameSource config fs fs' p →
        replacement fs' config s (sweep fs config s).2.memory.totalKb p
          = some ((sweep fs config s).2.content p)
        ∧ ((p = .processes →
              (sweep fs' config s).2.memory.totalKb = (sweep fs config s).2.memory.totalKb) →
            (sweep fs' config s).2.content p = (sweep fs config s).2.content p))
    ∧ ∀ fs', SameReach config fs fs' →
        (sweep fs' config s).1.report.failed = (sweep fs config s).1.report.failed := by
  refine ⟨failed_sweep s, ?_, ?_, ?_⟩
  · intro p hp
    exact content_sweep_of_unobtainable (mem_failed_sweep.mp hp) s
  · intro p hp fs' hsource
    have hobtained : unobtainable fs config p = false := by
      simpa using mt mem_failed_sweep.mpr hp
    constructor
    · rw [replacement_congr_source hsource, replacement_sweep hobtained]
    · intro htotal
      rw [content_sweep, content_sweep, replacement_congr_source hsource,
        replacement_congr (fun _ => rfl) htotal]
  · intro fs' hreach
    rw [failed_sweep, failed_sweep, unobtainable_congr hreach]

end Vitals.Sweep
