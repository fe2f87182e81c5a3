/-
What a well-formed processor row and a command name look like, whatever file they
come from.
-/
import Mathlib.Data.List.GetD
import Vitals.Proc.Rows
import Vitals.Proofs.Text.Words

namespace Vitals.Proc

open Text

-- ==================================================== processor rows

theorem length_jiffies {line : String} {columns : List (List Char)} {counters : List UInt64}
    (h : jiffies line columns = .ok counters) : counters.length = columns.length := by
  induction columns generalizing counters with
  | nil =>
      cases h
      rfl
  | cons column columns ih =>
      rw [jiffies] at h
      split at h
      · cases h
      · cases hrest : jiffies line columns with
        | error e =>
            rw [hrest] at h
            cases h
        | ok others =>
            rw [hrest] at h
            cases h
            rw [List.length_cons, List.length_cons, ih hrest]

/-- A counter is no greater than the sum of all, capped or not. -/
theorem le_cappedSum {counters : List UInt64} {n : UInt64} (hn : n ∈ counters) :
    n ≤ cappedSum counters := by
  have hsum : n.toNat
      ≤ counters.foldr (fun counter total => counter.toNat + total) 0 := by
    induction counters with
    | nil => cases hn
    | cons m counters ih =>
        rw [List.foldr_cons]
        rcases List.mem_cons.mp hn with rfl | hrest
        · omega
        · have := ih hrest
          omega
  have hword : n.toNat < UInt64.size := n.toNat_lt_size
  rw [UInt64.le_iff_toNat_le, cappedSum, UInt64.toNat_ofNat_of_lt']
  · omega
  · have : 0 < UInt64.size := by decide
    omega

/-- A row that is well formed has the first word of its line for a name, and the
counters of the next seven. -/
theorem cpuRow_eq_ok {line : String} {times : CpuTimes} (h : cpuRow line = .ok times) :
    ∃ id columns counters, words line.toList = id :: columns
      ∧ 7 ≤ columns.length
      ∧ jiffies line (columns.take 7) = .ok counters
      ∧ times = { id := .ofList id, idle := counters.getD 3 0, total := cappedSum counters } := by
  unfold cpuRow at h
  split at h
  · next id columns hwords =>
      split at h
      · cases h
      · next hmany =>
          cases hcounters : jiffies line (columns.take 7) with
          | error e =>
              rw [hcounters] at h
              cases h
          | ok counters =>
              rw [hcounters] at h
              cases h
              exact ⟨id, columns, counters, hwords, by omega, hcounters, rfl⟩
  · cases h

/-- The idle time of a row is part of all its time. -/
theorem idle_le_total {line : String} {times : CpuTimes} (h : cpuRow line = .ok times) :
    times.idle ≤ times.total := by
  obtain ⟨id, columns, counters, -, hmany, hcounters, rfl⟩ := cpuRow_eq_ok h
  have hlength : counters.length = 7 := by
    rw [length_jiffies hcounters, List.length_take]
    omega
  show counters.getD 3 0 ≤ cappedSum counters
  rw [List.getD_eq_getElem _ _ (by omega)]
  exact le_cappedSum (List.getElem_mem _)

/-- No name of a row has a blank. -/
theorem not_isBlank_of_mem_id {line : String} {times : CpuTimes} (h : cpuRow line = .ok times)
    {c : Char} (hc : c ∈ times.id.toList) : isBlank c = false := by
  obtain ⟨id, columns, counters, hwords, -, -, rfl⟩ := cpuRow_eq_ok h
  have hid : c ∈ id := by simpa using hc
  exact (mem_and_not_isBlank_of_mem_words (hwords ▸ List.mem_cons_self ..) hid).2

/-- A row among the processor rows has a name that opens like all of them. -/
theorem prefix_id {line : List Char} (hline : isCpuLine line = true) {times : CpuTimes}
    (h : cpuRow (.ofList line) = .ok times) : ['c', 'p', 'u'] <+: times.id.toList := by
  obtain ⟨id, columns, counters, hwords, -, -, rfl⟩ := cpuRow_eq_ok h
  obtain ⟨rest, rfl⟩ := List.isPrefixOf_iff_prefix.mp hline
  have hfirst := head?_words_cons (c := 'c') (by decide) ('p' :: 'u' :: rest)
  have hopen : 'c' :: ('p' :: 'u' :: rest).takeWhile (fun d => !isBlank d)
      = ['c', 'p', 'u'] ++ rest.takeWhile fun d => !isBlank d := rfl
  rw [String.toList_ofList] at hwords
  rw [hopen, show 'c' :: 'p' :: 'u' :: rest = ['c', 'p', 'u'] ++ rest from rfl, hwords,
    List.head?_cons] at hfirst
  rw [String.toList_ofList, Option.some.inj hfirst]
  exact List.prefix_append _ _

/-- The rows at the head of a file are those of lines that open like them. -/
theorem exists_line_of_mem_cpuRows {content : String} {row : Except ParseError CpuTimes}
    (h : row ∈ cpuRows content) :
    ∃ line, isCpuLine line = true ∧ cpuRow (.ofList line) = row := by
  obtain ⟨line, hline, rfl⟩ := List.mem_map.mp h
  exact ⟨line, List.mem_takeWhile_imp hline, rfl⟩

-- ====================================================== command line

/-- A command name has no blank, and no NUL. -/
theorem not_isBlank_of_mem_commandName {content : String} {c : Char}
    (hc : c ∈ (commandName content).toList) : isBlank c = false ∧ c ≠ '\x00' := by
  unfold commandName at hc
  split at hc
  · cases hc
  · next word others hwords =>
      rw [String.toList_ofList] at hc
      obtain ⟨hmem, hblank⟩ :=
        mem_and_not_isBlank_of_mem_words (hwords ▸ List.mem_cons_self ..) hc
      refine ⟨hblank, ?_⟩
      -- a NUL of the file has become a blank before the words are cut
      obtain ⟨d, -, rfl⟩ := List.mem_map.mp hmem
      split
      · decide
      · next hd => exact hd

end Vitals.Proc
