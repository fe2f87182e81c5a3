/-
What the maps of a store hold after a write. A category that is kept by key is
replaced by the map of a list, so everything that can be read of it afterwards
is a fact about that list: under a key stands the last entry of the list with
that key, the listing is the values of the map in the order of their keys, and a
value always stands under its own key. The entries of the map before the write
do not occur in any of it.

The order of a listing is strict, so a listing names each key once.
-/
import Vitals.Store

namespace Vitals

open Std (ExtTreeMap TransCmp LawfulEqCmp)

-- ====================================================== maps of lists

section Maps

variable {α β : Type} {cmp : α → α → Ordering} [TransCmp cmp]

/-- Under a key of the map of a list stands the last entry with that key. -/
theorem getElem?_ofList [LawfulEqCmp cmp] [DecidableEq α] (l : List (α × β)) (k : α) :
    (ExtTreeMap.ofList l cmp)[k]? = (l.findRev? (·.1 = k)).map (·.2) := by
  rw [ExtTreeMap.ofList_eq_foldl, List.findRev?_eq_find?_reverse, ← l.foldr_reverse]
  induction l.reverse with
  | nil => simp
  | cons e l ih =>
      rw [List.foldr_cons, ExtTreeMap.getElem?_insert, ih, List.find?_cons]
      by_cases hk : e.1 = k
      · simp [hk]
      · simp [hk]

/-- The map of a list that gives each value its own key. -/
theorem getElem?_ofList_map [LawfulEqCmp cmp] [DecidableEq α] (key : β → α) (l : List β)
    (k : α) :
    (ExtTreeMap.ofList (l.map fun v => (key v, v)) cmp)[k]? = l.findRev? (key · = k) := by
  rw [getElem?_ofList, List.findRev?_eq_find?_reverse, List.findRev?_eq_find?_reverse,
    ← List.map_reverse, List.find?_map, Option.map_map]
  exact Option.map_id'

/-- In the map of such a list every value stands under its own key. -/
theorem key_of_getElem?_ofList_map [LawfulEqCmp cmp] [DecidableEq α] {key : β → α} {l : List β}
    {k : α} {v : β} (h : (ExtTreeMap.ofList (l.map fun v => (key v, v)) cmp)[k]? = some v) :
    key v = k := by
  rw [getElem?_ofList_map, List.findRev?_eq_find?_reverse] at h
  simpa using List.find?_some h

/-- A value stands under a key of the map of a list if its entry is the last with that
key. -/
theorem getElem?_ofList_eq_some_iff [LawfulEqCmp cmp] [DecidableEq α] {l : List (α × β)} {k : α}
    {v : β} :
    (ExtTreeMap.ofList l cmp)[k]? = some v
      ↔ ∃ earlier later, l = earlier ++ (k, v) :: later ∧ ∀ e ∈ later, e.1 ≠ k := by
  rw [getElem?_ofList, List.findRev?_eq_find?_reverse, Option.map_eq_some_iff]
  constructor
  · intro ⟨⟨k', v'⟩, hfind, hv⟩
    obtain ⟨hk, later, earlier, hsplit, hlater⟩ := List.find?_eq_some_iff_append.mp hfind
    obtain rfl : k' = k := by simpa using hk
    obtain rfl : v' = v := hv
    refine ⟨earlier.reverse, later.reverse, ?_, fun e he => ?_⟩
    · rw [← List.reverse_reverse l, hsplit]
      simp
    · simpa using hlater e (List.mem_reverse.mp he)
  · intro ⟨earlier, later, hsplit, hlater⟩
    refine ⟨(k, v), ?_, rfl⟩
    rw [hsplit, List.reverse_append, List.reverse_cons, List.append_assoc]
    refine List.find?_eq_some_iff_append.mpr ⟨by simp, _, _, rfl, fun e he => ?_⟩
    simpa using hlater e (List.mem_reverse.mp he)

/-- The values of a map are those of its entries, in their order. -/
theorem values_eq_map_toList (t : ExtTreeMap α β cmp) : t.values = t.toList.map (·.2) := by
  have hfold : t.values = t.foldr (fun _ v l => v :: l) [] := by
    rcases t with ⟨t⟩
    induction t with
    | mk t => rfl
  rw [hfold, ExtTreeMap.foldr_eq_foldr_toList]
  exact List.map_eq_foldr.symm

/-- If every value stands under its own key, the values are those that are found
under it. -/
theorem mem_values_iff [LawfulEqCmp cmp] {key : β → α} {t : ExtTreeMap α β cmp}
    (hkey : ∀ k v, t[k]? = some v → key v = k) {v : β} :
    v ∈ t.values ↔ t[key v]? = some v := by
  rw [values_eq_map_toList, List.mem_map]
  constructor
  · rintro ⟨⟨k, v⟩, hmem, rfl⟩
    have hk := ExtTreeMap.mem_toList_iff_getElem?_eq_some.mp hmem
    rw [hkey k v hk]
    exact hk
  · intro hv
    exact ⟨(key v, v), ExtTreeMap.mem_toList_iff_getElem?_eq_some.mpr hv, rfl⟩

/-- If every value stands under its own key, the values are in the strict order
of their keys. -/
theorem pairwise_values [LawfulEqCmp cmp] {key : β → α} {t : ExtTreeMap α β cmp}
    (hkey : ∀ k v, t[k]? = some v → key v = k) :
    t.values.Pairwise fun a b => cmp (key a) (key b) = .lt := by
  rw [values_eq_map_toList, List.pairwise_map]
  refine List.Pairwise.imp_of_mem ?_ t.ordered_keys_toList
  intro a b ha hb hab
  have hka := hkey a.1 a.2 (ExtTreeMap.mem_toList_iff_getElem?_eq_some.mp ha)
  have hkb := hkey b.1 b.2 (ExtTreeMap.mem_toList_iff_getElem?_eq_some.mp hb)
  rw [hka, hkb]
  exact hab

end Maps

namespace Store

variable (s : Store)

-- ===================================================== processor rows

/-- After rows are stored, a name has the last of them that carries it. -/
@[simp] theorem cpu?_replaceCpus (rows : List Cpu) (id : String) :
    (s.replaceCpus rows).cpu? id = rows.findRev? (·.id = id) :=
  getElem?_ofList_map Cpu.id rows id

-- ========================================================== processes

/-- After processes are stored, a number has the last of them that carries it. -/
@[simp] theorem process?_replaceProcesses (processes : List ProcessUsage) (pid : Int32) :
    (s.replaceProcesses processes).process? pid = processes.findRev? (·.pid = pid) :=
  getElem?_ofList_map ProcessUsage.pid processes pid

/-- A stored process stands under its own number. -/
theorem pid_of_getElem?_indexProcesses {processes : List ProcessUsage} {pid : Int32}
    {process : ProcessUsage} (h : (indexProcesses processes)[pid]? = some process) :
    process.pid = pid :=
  key_of_getElem?_ofList_map h

/-- The stored processes are listed once each, under their own numbers. -/
theorem mem_processList_replaceProcesses (processes : List ProcessUsage)
    {process : ProcessUsage} :
    process ∈ (s.replaceProcesses processes).processList
      ↔ (s.replaceProcesses processes).process? process.pid = some process :=
  mem_values_iff fun _ _ => pid_of_getElem?_indexProcesses

/-- The stored processes are listed in strictly ascending order. -/
theorem pairwise_processList_replaceProcesses (processes : List ProcessUsage) :
    (s.replaceProcesses processes).processList.Pairwise (·.pid < ·.pid) := by
  have hkeys : (indexProcesses processes).values.Pairwise fun a b => compare a.pid b.pid = .lt :=
    pairwise_values fun _ _ => pid_of_getElem?_indexProcesses
  exact hkeys.imp fun hab => Std.compare_eq_lt.mp hab

end Store

end Vitals
