/-
Which bodies hold numbers in the fields that are numbers.

# Why it holds

Whole numbers are always written as numbers, and so are the percentages, which lie
between 0 and 100 at every moment of every life. What remains is the one field that
is taken from a file as it is read: the seconds of the uptime. Words such as `nan`
and `inf` stand for numbers of sixty-four bits as well, and so do digits beyond the
greatest of them, so a file can have the seconds published as `null`. It takes the
last file that could be read for that (`uptime_swept`), and the next one mends it.
-/
import Vitals.Http.Api
import Vitals.Proofs.Json.Record
import Vitals.Proofs.Sweep.Percentages

namespace Vitals

open Binary

namespace Http

open Json Proc Sweep

-- ============================================================ fields

/-- The fields of a body that are numbers. -/
def Category.numerals (s : Store) : Category → List (String × List Char)
  | uptime => Row.numerals _ (uptimeExposure.row s.uptime)
  | cpus => s.cpuList.flatMap fun row => Row.numerals _ (cpuExposure.row row)
  | processes => s.processList.flatMap fun process =>
      Row.numerals _ (processExposure.row process)
  | memory => Row.numerals _ (memoryExposure.row s.memory)

/-- A body with a number in each field that is one. -/
def Category.Numeric (s : Store) (category : Category) : Prop :=
  ∀ field ∈ category.numerals s, IsNumber field.2

/-- The text of every numeric field stands in the body behind its name. -/
theorem Category.infix_body {s : Store} {category : Category} {field : String × List Char}
    (h : field ∈ category.numerals s) : member field <:+: (category.body s).toList := by
  cases category with
  | uptime =>
      rw [Category.body, Exposure.one, String.toList_ofList]
      exact infix_write h
  | memory =>
      rw [Category.body, Exposure.one, String.toList_ofList]
      exact infix_write h
  | cpus =>
      obtain ⟨row, hrow, hfield⟩ := List.mem_flatMap.mp h
      rw [Category.body, Exposure.many, String.toList_ofList]
      exact infix_writeAll (List.mem_map_of_mem hrow) hfield
  | processes =>
      obtain ⟨process, hprocess, hfield⟩ := List.mem_flatMap.mp h
      rw [Category.body, Exposure.many, String.toList_ofList]
      exact infix_writeAll (List.mem_map_of_mem hprocess) hfield

-- ============================================================ bodies

/-- The uptime is written in numbers exactly when the seconds are finite. -/
theorem numeric_uptime_iff (s : Store) :
    Category.uptime.Numeric s ↔ s.uptime.totalSeconds.IsFinite := by
  rw [Category.Numeric, Category.numerals, isNumber_numerals_iff]
  simp [uptimeExposure, Row.Finite, Kind.Finite]

/-- The memory is written in numbers exactly when the percentage is finite. -/
theorem numeric_memory_iff (s : Store) :
    Category.memory.Numeric s ↔ s.memory.usagePercent.IsFinite := by
  rw [Category.Numeric, Category.numerals, isNumber_numerals_iff]
  simp [memoryExposure, Row.Finite, Kind.Finite]

/-- The processor rows are written in numbers exactly when their percentages are finite. -/
theorem numeric_cpus_iff (s : Store) :
    Category.cpus.Numeric s ↔ ∀ row ∈ s.cpuList, row.usagePercent.IsFinite := by
  simp only [Category.Numeric, Category.numerals, List.forall_mem_flatMap,
    isNumber_numerals_iff]
  simp [cpuExposure, Row.Finite, Kind.Finite]

/-- The processes are written in numbers exactly when their percentages are finite. -/
theorem numeric_processes_iff (s : Store) :
    Category.processes.Numeric s ↔ ∀ process ∈ s.processList,
      process.memUsagePercent.IsFinite ∧ process.cpuUsagePercent.IsFinite := by
  simp only [Category.Numeric, Category.numerals, List.forall_mem_flatMap,
    isNumber_numerals_iff]
  simp [processExposure, Row.Finite, Kind.Finite]

/-- With percentages that are finite, it depends on the seconds of the uptime alone
whether the bodies hold numbers. -/
theorem numeric_iff {s : Store} (hs : ∀ x ∈ s.percentages, x.IsFinite) (category : Category) :
    category.Numeric s ↔ (category = .uptime → s.uptime.totalSeconds.IsFinite) := by
  -- all numbers of the other three categories are percentages
  have hmemory : s.memory.usagePercent.IsFinite := hs _ (by simp [Store.percentages])
  have hcpus : ∀ row ∈ s.cpuList, row.usagePercent.IsFinite := by
    intro row hrow
    apply hs
    simp only [Store.percentages, List.cons_append, List.mem_cons, List.mem_append,
      List.mem_map]
    exact .inr (.inl ⟨row, hrow, rfl⟩)
  have hprocesses : ∀ process ∈ s.processList,
      process.memUsagePercent.IsFinite ∧ process.cpuUsagePercent.IsFinite := by
    intro process hprocess
    have hmem : ∀ x ∈ [process.memUsagePercent, process.cpuUsagePercent], x ∈ s.percentages := by
      intro x hx
      simp only [Store.percentages, List.cons_append, List.mem_cons, List.mem_append,
        List.mem_flatMap]
      exact .inr (.inr ⟨process, hprocess, by simpa using hx⟩)
    exact ⟨hs _ (hmem _ (by simp)), hs _ (hmem _ (by simp))⟩
  cases category with
  | uptime =>
      rw [numeric_uptime_iff]
      exact ⟨fun h _ => h, fun h => h rfl⟩
  | memory => exact iff_of_true ((numeric_memory_iff s).mpr hmemory) fun h => absurd h (by decide)
  | cpus => exact iff_of_true ((numeric_cpus_iff s).mpr hcpus) fun h => absurd h (by decide)
  | processes =>
      exact iff_of_true ((numeric_processes_iff s).mpr hprocesses) fun h => absurd h (by decide)

-- ============================================================ uptime

variable {config : Config}

/-- The uptime of the last of some file systems that give one. -/
def lastUptime (config : Config) (fss : List FileSystem) : Option Uptime :=
  fss.reverse.findSome? fun fs => (readUptime fs config.root).toOption

/-- A sweep stores the uptime it reads and keeps the earlier one otherwise. -/
theorem uptime_sweep (fs : FileSystem) (s : Store) :
    (sweep fs config s).2.uptime
      = ((readUptime fs config.root).toOption).getD s.uptime := by
  have hcontent := @content_sweep fs config .uptime s
  rw [replacement] at hcontent
  cases hread : (readUptime fs config.root).toOption with
  | none =>
      rw [hread] at hcontent
      exact Content.uptime.inj hcontent
  | some uptime =>
      rw [hread] at hcontent
      exact Content.uptime.inj hcontent

/-- The uptime that sweeps leave is the last that one of them could read. -/
theorem uptime_swept (fss : List FileSystem) :
    (swept config .empty fss).uptime = (lastUptime config fss).getD default := by
  induction fss using List.reverseRecOn with
  | nil => rfl
  | append_singleton fss fs ih =>
      rw [swept_concat, uptime_sweep, ih, lastUptime, lastUptime, List.reverse_concat,
        List.findSome?_cons]
      cases (readUptime fs config.root).toOption <;> rfl

/-- The stored uptime is the last one that was read up to its phase. -/
theorem uptime_storeAt (fs : FileSystem) (turns : List Turn) (time : Nat) :
    (storeAt config fs turns time).uptime
      = (lastUptime config ((found fs turns).take
          (generationAt config (found fs turns) .empty .uptime time))).getD default := by
  rw [← uptime_swept]
  exact Content.uptime.inj (content_after_sweeps (found fs turns) .uptime time .empty)

/-- The last of finite uptimes is finite. -/
theorem isFinite_lastUptime {fss : List FileSystem}
    (h : ∀ fs ∈ fss, ∀ uptime, readUptime fs config.root = .ok uptime →
      uptime.totalSeconds.IsFinite) :
    ((lastUptime config fss).getD default).totalSeconds.IsFinite := by
  cases hlast : lastUptime config fss with
  | none => exact trivial
  | some uptime =>
      obtain ⟨fs, hfs, hread⟩ := List.exists_of_findSome?_eq_some hlast
      apply h fs (List.mem_reverse.mp hfs)
      cases hvalue : readUptime fs config.root with
      | error e =>
          rw [hvalue] at hread
          cases hread
      | ok uptime' =>
          rw [hvalue] at hread
          cases hread
          rfl

-- ======================================================= whole lives

/-- Every percentage that is ever stored is finite. -/
theorem isFinite_of_mem_percentages {fs : FileSystem} {turns : List Turn} {time : Nat} :
    ∀ x ∈ (storeAt config fs turns time).percentages, x.IsFinite := by
  intro x hx
  obtain ⟨q, hq, -⟩ := value?_of_mem_percentages (coherent_storeAt config fs turns time) hx
  exact isFinite_iff.mpr ⟨q, hq⟩

/-- Which bodies hold numbers in a life, at any moment of it. Each of the fields in
question stands in its body with its key.

All percentages are finite, so all fields are numbers in all bodies, but for the
seconds of the uptime. These are a number if they are finite and `null` otherwise, and
they are those of the last file that a sweep has got seconds from, or zero without one.
So all is well as long as no file gives seconds that are not finite. -/
theorem bodies_hold_numbers_but_for_uptime (config : Config) (fs : FileSystem)
    (turns : List Turn) (time : Nat) :
    (∀ category, ∀ field ∈ Category.numerals (storeAt config fs turns time) category,
        member field <:+: (Category.body (storeAt config fs turns time) category).toList)
    ∧ (∀ x ∈ (storeAt config fs turns time).percentages, x.IsFinite)
    ∧ (∀ category : Category, category.Numeric (storeAt config fs turns time) ↔
        (category = .uptime → (storeAt config fs turns time).uptime.totalSeconds.IsFinite))
    ∧ (¬ (storeAt config fs turns time).uptime.totalSeconds.IsFinite →
        ("total_seconds", ['n', 'u', 'l', 'l'])
          ∈ Category.uptime.numerals (storeAt config fs turns time))
    ∧ (storeAt config fs turns time).uptime
        = (lastUptime config ((found fs turns).take
            (generationAt config (found fs turns) .empty .uptime time))).getD default
    ∧ ((∀ fs' ∈ found fs turns, ∀ uptime, readUptime fs' config.root = .ok uptime →
          uptime.totalSeconds.IsFinite) →
        ∀ category : Category, category.Numeric (storeAt config fs turns time)) := by
  have hpercentages := @isFinite_of_mem_percentages config fs turns time
  refine ⟨fun category field hfield => Category.infix_body hfield, hpercentages,
    numeric_iff hpercentages, ?_, uptime_storeAt fs turns time, ?_⟩
  · intro hseconds
    have hnull := write_of_not_isFinite doubleLayout hseconds
    simp [Category.numerals, uptimeExposure, Row.numerals, Kind.write, hnull]
  · intro hfiles category
    refine (numeric_iff hpercentages category).mpr fun _ => ?_
    rw [uptime_storeAt]
    exact isFinite_lastUptime fun fs' hfs' => hfiles fs' (List.mem_of_mem_take hfs')

/-- A host whose uptime file starts with a word that is not a number. -/
def timeless : FileSystem where
  read p := if p.text = "/proc/uptime" then .ok "nan 0\n" else .error .noEntry
  contains _ := false
  list _ := .error .noEntry

/-- One sweep there, and the seconds of the uptime are published as `null`. -/
theorem timeless_is_published_as_null :
    Category.body (latest (history {} timeless [.sweep])) .uptime
        = "\x7b\"hours\":0,\"minutes\":0,\"seconds\":0,\"total_seconds\":null,\"formatted\":\"00:00:00\"\x7d"
    ∧ ¬ Category.uptime.Numeric (latest (history {} timeless [.sweep])) := by
  refine ⟨by decide +kernel, ?_⟩
  rw [numeric_uptime_iff]
  decide +kernel

end Http

end Vitals
