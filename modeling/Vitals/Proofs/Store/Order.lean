/-
The order of entries leaves no trace in a store.

A category that is kept by key may list its entries in any order at all, as long as
it lists each of them once (`Enumerates`). What is read of it is sorted, and the
order that it is sorted by is strict on the keys, so one sorted listing is all there
is: two entries that the order does not tell apart have one key, and under one key
stands one entry. The order in which entries were stored is lost for the same reason,
unless two of them have a key in common, for then the later one stands.

All of this rests on every entry standing under its own key, which no write can
break (`keyed_written`).
-/
import Mathlib.Data.List.Nodup
import Vitals.Proofs.Store.Contents

namespace Vitals

open Std (ExtTreeMap TransCmp LawfulEqCmp OrientedCmp)

-- ============================================================= sorting

/-- Sorting forgets the order of a list, if the order it sorts by tells any two of the
entries apart. -/
theorem mergeSort_eq_of_perm {α : Type} {le : α → α → Bool}
    (htrans : ∀ a b c, le a b = true → le b c = true → le a c = true)
    (htotal : ∀ a b, (le a b || le b a) = true) {l l' : List α} (hperm : l.Perm l')
    (hantisymm : ∀ a ∈ l, ∀ b ∈ l, le a b = true → le b a = true → a = b) :
    l.mergeSort le = l'.mergeSort le := by
  have hsorted := List.pairwise_mergeSort htrans htotal
  refine List.Perm.eq_of_pairwise ?_ (hsorted l) (hsorted l') ?_
  · intro a b ha hb
    rw [List.mem_mergeSort] at ha hb
    exact hantisymm a ha b (hperm.mem_iff.mpr hb)
  · exact (l.mergeSort_perm le).trans (hperm.trans (l'.mergeSort_perm le).symm)

-- ================================================================ maps

section Maps

variable {α β : Type} {cmp : α → α → Ordering} [TransCmp cmp]

/-- A list has the entries of a map, each of them once and in any order. -/
structure Enumerates (entries : List (α × β)) (t : ExtTreeMap α β cmp) : Prop where
  nodup : entries.Nodup
  mem_iff : ∀ k v, (k, v) ∈ entries ↔ t[k]? = some v

/-- What enumerates a map is its own listing in some order. -/
theorem enumerates_iff_perm [LawfulEqCmp cmp] {entries : List (α × β)}
    {t : ExtTreeMap α β cmp} : Enumerates entries t ↔ entries.Perm t.toList := by
  have htoList : t.toList.Nodup := by
    refine t.distinct_keys_toList.imp ?_
    rintro a b hab rfl
    exact hab Std.ReflCmp.compare_self
  constructor
  · rintro ⟨hnodup, hmem⟩
    refine (List.perm_ext_iff_of_nodup hnodup htoList).mpr ?_
    rintro ⟨k, v⟩
    rw [hmem, ExtTreeMap.mem_toList_iff_getElem?_eq_some]
  · intro hperm
    refine ⟨hperm.nodup_iff.mpr htoList, fun k v => ?_⟩
    rw [hperm.mem_iff, ExtTreeMap.mem_toList_iff_getElem?_eq_some]

theorem total_isLE (a b : α) : ((cmp a b).isLE || (cmp b a).isLE) = true := by
  rw [@OrientedCmp.eq_swap α cmp _ b a]
  cases cmp a b <;> rfl

/-- Where keys differ, the last entry of a key is its only one. -/
theorem findRev?_eq_some_iff_of_nodup [DecidableEq α] {key : β → α} {l : List β}
    (hnodup : (l.map key).Nodup) {k : α} {v : β} :
    l.findRev? (key · = k) = some v ↔ v ∈ l ∧ key v = k := by
  rw [List.findRev?_eq_find?_reverse]
  constructor
  · intro hfind
    have hkey : key v = k := by simpa using List.find?_some hfind
    exact ⟨List.mem_reverse.mp (List.mem_of_find?_eq_some hfind), hkey⟩
  · rintro ⟨hmem, rfl⟩
    cases hfind : l.reverse.find? (key · = key v) with
    | none =>
        rw [List.find?_eq_none] at hfind
        exact absurd (decide_eq_true rfl) (hfind v (List.mem_reverse.mpr hmem))
    | some w =>
        have hw := List.mem_reverse.mp (List.mem_of_find?_eq_some hfind)
        have hkey : key w = key v := by simpa using List.find?_some hfind
        rw [List.inj_on_of_nodup_map hnodup hw hmem hkey]

/-- Where keys differ, the order in which entries are put into a map leaves no trace. -/
theorem ofList_map_eq_of_perm [LawfulEqCmp cmp] [DecidableEq α] {key : β → α} {l l' : List β}
    (hperm : l.Perm l') (hnodup : (l.map key).Nodup) :
    ExtTreeMap.ofList (l.map fun v => (key v, v)) cmp
      = ExtTreeMap.ofList (l'.map fun v => (key v, v)) cmp := by
  have hnodup' : (l'.map key).Nodup := (hperm.map key).nodup_iff.mp hnodup
  apply ExtTreeMap.ext_getElem?
  intro k
  rw [getElem?_ofList_map, getElem?_ofList_map]
  ext v
  rw [findRev?_eq_some_iff_of_nodup hnodup, findRev?_eq_some_iff_of_nodup hnodup',
    hperm.mem_iff]

/-- Sorted by the order of their keys, the values of a map are its listing, in whatever
order they are had. -/
theorem mergeSort_eq_values [LawfulEqCmp cmp] {key : β → α} {t : ExtTreeMap α β cmp}
    (hkey : ∀ k v, t[k]? = some v → key v = k) {entries : List (α × β)}
    (h : Enumerates entries t) :
    (entries.map (·.2)).mergeSort (fun a b => (cmp (key a) (key b)).isLE) = t.values := by
  have hperm : (entries.map (·.2)).Perm t.values := by
    rw [values_eq_map_toList]
    exact (enumerates_iff_perm.mp h).map _
  rw [mergeSort_eq_of_perm (fun a b c => TransCmp.isLE_trans) (fun a b => total_isLE _ _) hperm]
  · refine List.mergeSort_of_pairwise ((pairwise_values hkey).imp ?_)
    intro a b hab
    rw [hab]
    rfl
  · -- what the order does not tell apart stands under one key
    intro a ha b hb hab hba
    have hkeys : key a = key b := LawfulEqCmp.eq_of_compare (OrientedCmp.isLE_antisymm hab hba)
    have hfound := (mem_values_iff hkey).mp (hperm.mem_iff.mp ha)
    rw [hkeys, (mem_values_iff hkey).mp (hperm.mem_iff.mp hb)] at hfound
    exact (Option.some.inj hfound).symm

theorem map_key_values [LawfulEqCmp cmp] {key : β → α} {t : ExtTreeMap α β cmp}
    (hkey : ∀ k v, t[k]? = some v → key v = k) : t.values.map key = t.keys := by
  rw [values_eq_map_toList, ← ExtTreeMap.map_fst_toList_eq_keys, List.map_map]
  refine List.map_congr_left fun e he => ?_
  exact hkey e.1 e.2 (ExtTreeMap.mem_toList_iff_getElem?_eq_some.mp he)

/-- A listing names each key once. -/
theorem nodup_map_key_values [LawfulEqCmp cmp] {key : β → α} {t : ExtTreeMap α β cmp}
    (hkey : ∀ k v, t[k]? = some v → key v = k) : (t.values.map key).Nodup := by
  rw [map_key_values hkey]
  exact ExtTreeMap.nodup_keys

end Maps

namespace Store

-- ============================================================== writes

/-- A write to a store. -/
inductive Write where
  /-- Publishes an uptime. -/
  | uptime (uptime : Uptime)
  /-- Publishes a memory. -/
  | memory (memory : Memory)
  /-- Publishes the processor rows. -/
  | cpus (rows : List Cpu)
  /-- Publishes the processes. -/
  | processes (processes : List ProcessUsage)

/-- The store after a write. -/
def apply (s : Store) : Write → Store
  | .uptime uptime => s.setUptime uptime
  | .memory memory => s.setMemory memory
  | .cpus rows => s.replaceCpus rows
  | .processes processes => s.replaceProcesses processes

/-- The store after some writes, from nothing. -/
def written (writes : List Write) : Store := writes.foldl apply empty

/-- A store in which every row and every process stands under its own key. -/
structure Keyed (s : Store) : Prop where
  cpus : ∀ id (row : Cpu), s.cpus[id]? = some row → row.id = id
  processes : ∀ pid (process : ProcessUsage), s.processes[pid]? = some process →
    process.pid = pid

/-- Every write files the entries under their own keys. -/
theorem Keyed.apply {s : Store} (h : s.Keyed) (w : Write) : (s.apply w).Keyed := by
  cases w with
  | uptime uptime => exact ⟨h.cpus, h.processes⟩
  | memory memory => exact ⟨h.cpus, h.processes⟩
  | cpus rows => exact ⟨fun _ _ => key_of_getElem?_ofList_map, h.processes⟩
  | processes processes => exact ⟨h.cpus, fun _ _ => key_of_getElem?_ofList_map⟩

theorem keyed_empty : empty.Keyed where
  cpus id row h := by
    rw [empty, ExtTreeMap.getElem?_empty] at h
    cases h
  processes pid process h := by
    rw [empty, ExtTreeMap.getElem?_empty] at h
    cases h

/-- Whatever has been written, everything stands under its own key. -/
theorem keyed_written (writes : List Write) : (written writes).Keyed := by
  have hrun : ∀ (ws : List Write) {s : Store}, s.Keyed → (ws.foldl Store.apply s).Keyed := by
    intro ws
    induction ws with
    | nil => exact fun h => h
    | cons w ws ih => exact fun h => ih (h.apply w)
  exact hrun writes keyed_empty

-- =============================================================== reads

/-- Processor rows in the order in which they are read. -/
def sortedCpus (rows : List Cpu) : List Cpu :=
  rows.mergeSort fun a b => (Cpu.order a.id b.id).isLE

/-- Processes in the order in which they are read. -/
def sortedProcesses (processes : List ProcessUsage) : List ProcessUsage :=
  processes.mergeSort fun a b => (compare a.pid b.pid).isLE

/-- Sorting any enumeration of the stored rows gives the listing. -/
theorem Keyed.sortedCpus_eq {s : Store} (h : s.Keyed) {entries : List (String × Cpu)}
    (hentries : Enumerates entries s.cpus) : sortedCpus (entries.map (·.2)) = s.cpuList :=
  mergeSort_eq_values h.cpus hentries

/-- Sorting any enumeration of the stored processes gives the listing. -/
theorem Keyed.sortedProcesses_eq {s : Store} (h : s.Keyed)
    {entries : List (Int32 × ProcessUsage)} (hentries : Enumerates entries s.processes) :
    sortedProcesses (entries.map (·.2)) = s.processList :=
  mergeSort_eq_values h.processes hentries

theorem Keyed.map_pid_processList {s : Store} (h : s.Keyed) :
    s.processList.map (·.pid) = s.pids :=
  map_key_values h.processes

/-- Rows with different ids are stored alike in any order. -/
theorem replaceCpus_eq_of_perm {rows rows' : List Cpu} (hperm : rows.Perm rows')
    (hnodup : (rows.map (·.id)).Nodup) (s : Store) :
    s.replaceCpus rows = s.replaceCpus rows' := by
  rw [replaceCpus, replaceCpus, indexCpus, indexCpus, ofList_map_eq_of_perm hperm hnodup]

/-- Processes with different pids are stored alike in any order. -/
theorem replaceProcesses_eq_of_perm {processes processes' : List ProcessUsage}
    (hperm : processes.Perm processes') (hnodup : (processes.map (·.pid)).Nodup) (s : Store) :
    s.replaceProcesses processes = s.replaceProcesses processes' := by
  rw [replaceProcesses, replaceProcesses, indexProcesses, indexProcesses,
    ofList_map_eq_of_perm hperm hnodup]

end Store

end Vitals
