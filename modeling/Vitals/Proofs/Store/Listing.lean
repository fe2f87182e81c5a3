/-
The order in which processor rows are listed.

Rows are compared by three things in turn: what kind of row it is, the number of the core,
and the name. The names decide in the end, and so the order is total and tells any two
names apart. What it comes to is a short list of cases (`Precedes`, `order_eq_lt_iff`),
since a row of all cores has no number, nor has a row of any other name.

A core can go by several names, as its number may have leading zeros or a plus sign
(`coreIndex?_eq_some_iff`). Such rows are all kept, and stand next to each other.

A listing is strictly ascending, so each kind of row stands in one stretch of it. It opens
with the row of all cores, if there is one, and goes on with the cores and then with the
others (`exists_cpuIds_eq`).
-/
import Mathlib.Data.List.Nodup
import Vitals.Proofs.Store.Order
import Vitals.Proofs.Text.Numeral

namespace Vitals

open Std (ExtTreeMap OrientedCmp TransCmp LawfulEqCmp)
open Text

-- ======================================================= ordered lists

/-- In an ordered list the lesser of two members stands first. -/
theorem pair_sublist {α : Type} {R : α → α → Prop} (hasymm : ∀ a b, R a b → ¬ R b a)
    {l : List α} (hl : l.Pairwise R) {a b : α} (ha : a ∈ l) (hb : b ∈ l) (hab : R a b) :
    [a, b].Sublist l := by
  obtain ⟨front, back, rfl⟩ := List.append_of_mem ha
  obtain ⟨-, -, hfront⟩ := List.pairwise_append.mp hl
  have hback : b ∈ back := by
    rcases List.mem_append.mp hb with hb | hb
    · exact absurd (hfront b hb a (List.mem_cons_self ..)) (hasymm a b hab)
    · rcases List.mem_cons.mp hb with heq | hb
      · rw [heq] at hab
        exact absurd hab (hasymm a a hab)
      · exact hb
  have hpair : [a, b].Sublist (a :: back) := (List.singleton_sublist.mpr hback).cons_cons a
  exact hpair.trans (List.sublist_append_right front _)

/-- If all that is of one kind stands in front of all that is not, a list is the two parts
one behind the other. -/
theorem eq_filter_append_filter {α : Type} {p : α → Bool} {l : List α}
    (hl : l.Pairwise fun a b => p b = true → p a = true) :
    l = l.filter p ++ l.filter fun a => !p a := by
  induction l with
  | nil => rfl
  | cons a l ih =>
      obtain ⟨ha, hrest⟩ := List.pairwise_cons.mp hl
      by_cases hp : p a = true
      · rw [List.filter_cons_of_pos hp, List.filter_cons_of_neg (by simp [hp]), List.cons_append,
          ← ih hrest]
      · have hnone : l.filter p = [] := List.filter_eq_nil_iff.mpr fun b hb hpb => hp (ha b hb hpb)
        have hall : (l.filter fun b => !p b) = l :=
          List.filter_eq_self.mpr fun b hb => by simpa using fun hpb => hp (ha b hb hpb)
        rw [List.filter_cons_of_neg hp, hnone, List.filter_cons_of_pos (by simp [hp]), hall]
        rfl

-- ============================================================= numbers

/-- The number of a core is a numeral of thirty-two bits behind three letters. -/
theorem coreIndex?_eq_some_iff {id : String} {n : UInt32} :
    coreIndex? id = some n ↔ ∃ number, id.toList = ['c', 'p', 'u'] ++ number
      ∧ IsNumeral number n.toNat := by
  rw [coreIndex?, Option.bind_eq_some_iff]
  simp only [afterOpening_eq_some_iff, word32?_eq_some_iff]

theorem coreIndex?_cpu : coreIndex? "cpu" = none := by decide

/-- The name of the core with a number, as it is written without need. -/
def coreName (n : Nat) : String := "cpu" ++ .ofList (decimal n)

/-- The name of a core is read as its number. -/
theorem coreIndex?_coreName {n : Nat} (hn : n < UInt32.size) :
    coreIndex? (coreName n) = some (UInt32.ofNatLT n hn) := by
  rw [coreIndex?_eq_some_iff]
  refine ⟨decimal n, by simp [coreName], .inl ?_⟩
  rw [UInt32.toNat_ofNatLT]
  exact isDigits_decimal n

-- =============================================================== order

namespace Cpu

/-- Whether the row of one name stands in front of the row of another. -/
inductive Precedes : String → String → Prop where
  /-- The row of all cores stands in front of all others. -/
  | all {b : String} (hb : b ≠ "cpu") : Precedes "cpu" b
  /-- A core stands in front of those with greater numbers. -/
  | number {a b : String} {n m : UInt32} (ha : coreIndex? a = some n) (hb : coreIndex? b = some m)
      (hlt : n < m) : Precedes a b
  /-- Names of one core stand in their own order. -/
  | spelling {a b : String} {n : UInt32} (ha : coreIndex? a = some n) (hb : coreIndex? b = some n)
      (hlt : a < b) : Precedes a b
  /-- A core stands in front of all that is none. -/
  | core {a b : String} {n : UInt32} (ha : coreIndex? a = some n) (hne : b ≠ "cpu")
      (hb : coreIndex? b = none) : Precedes a b
  /-- Other names stand in their own order. -/
  | other {a b : String} (hne : a ≠ "cpu") (ha : coreIndex? a = none) (hne' : b ≠ "cpu")
      (hb : coreIndex? b = none) (hlt : a < b) : Precedes a b

/-- An id is that of all cores, of one core, or neither. -/
theorem kind_cases (id : String) :
    id = "cpu" ∨ (∃ n, coreIndex? id = some n) ∨ (id ≠ "cpu" ∧ coreIndex? id = none) := by
  by_cases hcpu : id = "cpu"
  · exact .inl hcpu
  · cases hindex : coreIndex? id with
    | some n => exact .inr (.inl ⟨n, rfl⟩)
    | none => exact .inr (.inr ⟨hcpu, rfl⟩)

/-- The id of a core is not that of all cores. -/
theorem ne_of_coreIndex? {id : String} {n : UInt32} (h : coreIndex? id = some n) : id ≠ "cpu" := by
  intro hcpu
  rw [hcpu, coreIndex?_cpu] at h
  cases h

theorem rank_cpu : rank "cpu" = 0 ∧ place "cpu" = 0 := ⟨rfl, rfl⟩

/-- Cores come second, by their number. -/
theorem rank_of_core {id : String} {n : UInt32} (h : coreIndex? id = some n) :
    rank id = 1 ∧ place id = n.toNat := by
  rw [rank, place, if_neg (ne_of_coreIndex? h), if_neg (ne_of_coreIndex? h), h]
  exact ⟨rfl, rfl⟩

/-- Other ids come last. -/
theorem rank_of_other {id : String} (hne : id ≠ "cpu") (h : coreIndex? id = none) :
    rank id = 2 ∧ place id = 0 := by
  rw [rank, place, if_neg hne, if_neg hne, h]
  exact ⟨rfl, rfl⟩

/-- The order by what it compares, in turn. -/
theorem order_eq_lt_iff_rank {a b : String} :
    order a b = .lt ↔ rank a < rank b
      ∨ rank a = rank b ∧ (place a < place b ∨ place a = place b ∧ a < b) := by
  have hname : compare a b = .lt ↔ a < b := compareOfLessAndEq_eq_lt
  unfold order compareLex compareOn
  rw [Ordering.then_eq_lt, Ordering.then_eq_lt, Nat.compare_eq_lt, Nat.compare_eq_eq,
    Nat.compare_eq_lt, Nat.compare_eq_eq, hname]

/-- The order by kinds of rows. -/
theorem order_eq_lt_iff {a b : String} : order a b = .lt ↔ Precedes a b := by
  rw [order_eq_lt_iff_rank]
  constructor
  · intro h
    rcases kind_cases a with rfl | ⟨n, ha⟩ | ⟨hne, ha⟩
    · -- there is one row of all cores, and it is not in front of itself
      refine .all ?_
      intro hb
      rw [hb] at h
      simp at h
    · -- a core is in front of the cores behind it and of the rows without a number
      have hranka := rank_of_core ha
      rcases kind_cases b with rfl | ⟨m, hb⟩ | ⟨hne', hb⟩
      · have hrankb := rank_cpu
        omega
      · have hrankb := rank_of_core hb
        rw [hranka.1, hrankb.1, hranka.2, hrankb.2] at h
        rcases h with h | ⟨-, h | ⟨h, hlt⟩⟩
        · omega
        · exact .number ha hb (UInt32.lt_iff_toNat_lt.mpr h)
        · rw [UInt32.toNat_inj.mp h] at ha
          exact .spelling ha hb hlt
      · exact .core ha hne' hb
    · -- of the last kind only the spelling counts
      have hranka := rank_of_other hne ha
      rcases kind_cases b with rfl | ⟨m, hb⟩ | ⟨hne', hb⟩
      · have hrankb := rank_cpu
        omega
      · have hrankb := rank_of_core hb
        omega
      · have hrankb := rank_of_other hne' hb
        rw [hranka.1, hrankb.1, hranka.2, hrankb.2] at h
        refine .other hne ha hne' hb ?_
        simpa using h
  · intro h
    cases h with
    | all hne =>
        left
        -- the kind of the other row does not matter, as long as it is another
        rcases kind_cases b with hb | ⟨m, hb⟩ | ⟨hne, hb⟩
        · exact absurd hb hne
        · rw [(rank_of_core hb).1]
          decide
        · rw [(rank_of_other hne hb).1]
          decide
    | number ha hb hlt =>
        rw [(rank_of_core ha).1, (rank_of_core hb).1, (rank_of_core ha).2, (rank_of_core hb).2]
        exact .inr ⟨rfl, .inl (UInt32.lt_iff_toNat_lt.mp hlt)⟩
    | spelling ha hb hlt =>
        rw [(rank_of_core ha).1, (rank_of_core hb).1, (rank_of_core ha).2, (rank_of_core hb).2]
        exact .inr ⟨rfl, .inr ⟨rfl, hlt⟩⟩
    | core ha hne hb =>
        rw [(rank_of_core ha).1, (rank_of_other hne hb).1]
        exact .inl (by decide)
    | other hne ha hne' hb hlt =>
        rw [(rank_of_other hne ha).1, (rank_of_other hne' hb).1, (rank_of_other hne ha).2,
          (rank_of_other hne' hb).2]
        exact .inr ⟨rfl, .inr ⟨rfl, hlt⟩⟩

/-- Nothing stands in front of the row of all cores. -/
theorem Precedes.right_ne {a b : String} (h : Precedes a b) : b ≠ "cpu" := by
  cases h with
  | all hne => exact hne
  | number _ hb _ => exact ne_of_coreIndex? hb
  | spelling _ hb _ => exact ne_of_coreIndex? hb
  | core _ hne _ => exact hne
  | other _ _ hne _ _ => exact hne

/-- Only the row of all cores and other cores stand in front of a core. -/
theorem Precedes.left_isSome {a b : String} (h : Precedes a b) (hne : a ≠ "cpu")
    (hb : (coreIndex? b).isSome = true) : (coreIndex? a).isSome = true := by
  cases h with
  | all _ => exact absurd rfl hne
  | number ha _ _ => simp [ha]
  | spelling ha _ _ => simp [ha]
  | core ha _ _ => simp [ha]
  | other _ _ _ hb' _ => simp [hb'] at hb

/-- Cores are listed by number, then by id. -/
theorem Precedes.of_cores {a b : String} {n m : UInt32} (h : Precedes a b)
    (ha : coreIndex? a = some n) (hb : coreIndex? b = some m) : n < m ∨ n = m ∧ a < b := by
  cases h with
  | all _ => exact absurd rfl (ne_of_coreIndex? ha)
  | number ha' hb' hlt =>
      obtain rfl := Option.some.inj (ha'.symm.trans ha)
      obtain rfl := Option.some.inj (hb'.symm.trans hb)
      exact .inl hlt
  | spelling ha' hb' hlt =>
      obtain rfl := Option.some.inj (ha'.symm.trans ha)
      obtain rfl := Option.some.inj (hb'.symm.trans hb)
      exact .inr ⟨rfl, hlt⟩
  | core _ _ hb' => simp [hb'] at hb
  | other _ ha' _ _ _ => simp [ha'] at ha

/-- An id that is neither precedes greater ids only. -/
theorem Precedes.of_other {a b : String} (h : Precedes a b) (hne : a ≠ "cpu")
    (ha : coreIndex? a = none) : a < b := by
  cases h with
  | all _ => exact absurd rfl hne
  | number ha' _ _ => simp [ha'] at ha
  | spelling _ _ hlt => exact hlt
  | core ha' _ _ => simp [ha'] at ha
  | other _ _ _ _ hlt => exact hlt

/-- Names of cores stand by their numbers, however many digits those have. -/
theorem order_coreName {n m : Nat} (hlt : n < m) (hm : m < UInt32.size) :
    order (coreName n) (coreName m) = .lt := by
  refine order_eq_lt_iff.mpr (.number (coreIndex?_coreName (hlt.trans hm))
    (coreIndex?_coreName hm) ?_)
  rw [UInt32.lt_iff_toNat_lt, UInt32.toNat_ofNatLT, UInt32.toNat_ofNatLT]
  exact hlt

/-- No two ids come each before the other. -/
theorem not_order_eq_lt_of_order_eq_lt (a b : String) (h : order a b = .lt) : ¬ order b a = .lt := by
  rw [@OrientedCmp.eq_swap _ order _ b a, h]
  exact Ordering.noConfusion

end Cpu

-- ============================================================= listings

namespace Store

variable (s : Store) (rows : List Cpu)

/-- The listed rows ascend strictly. -/
theorem pairwise_cpuList_replaceCpus :
    (s.replaceCpus rows).cpuList.Pairwise fun a b => Cpu.order a.id b.id = .lt :=
  pairwise_values fun _ _ => key_of_getElem?_ofList_map

/-- The listed ids ascend strictly. -/
theorem pairwise_cpuIds_replaceCpus :
    (s.replaceCpus rows).cpuIds.Pairwise fun a b => Cpu.order a b = .lt := by
  rw [cpuIds, List.pairwise_map]
  exact s.pairwise_cpuList_replaceCpus rows

/-- What is listed are the names of the rows that were stored. -/
theorem mem_cpuIds_replaceCpus (id : String) :
    id ∈ (s.replaceCpus rows).cpuIds ↔ id ∈ rows.map (·.id) := by
  have hkeys : (s.replaceCpus rows).cpuIds = (indexCpus rows).keys :=
    map_key_values fun _ _ => key_of_getElem?_ofList_map
  rw [hkeys, ExtTreeMap.mem_keys, indexCpus, ExtTreeMap.mem_ofList, List.map_map]
  simp

theorem nodup_cpuIds_replaceCpus : (s.replaceCpus rows).cpuIds.Nodup :=
  nodup_map_key_values fun _ _ => key_of_getElem?_ofList_map

/-- What is listed is the last row of each name. -/
theorem mem_cpuList_replaceCpus {row : Cpu} :
    row ∈ (s.replaceCpus rows).cpuList ↔ rows.findRev? (·.id = row.id) = some row := by
  rw [← cpu?_replaceCpus s rows row.id]
  exact mem_values_iff fun _ _ => key_of_getElem?_ofList_map

/-- A listing opens with the row of all cores, if there is one, and goes on with the cores
by their numbers and then with all others by their names. -/
theorem exists_cpuIds_eq :
    ∃ cores others, (s.replaceCpus rows).cpuIds
        = (if "cpu" ∈ rows.map (·.id) then ["cpu"] else []) ++ cores ++ others
      ∧ (∀ id ∈ cores, (coreIndex? id).isSome = true)
      ∧ (cores.Pairwise fun a b => ∀ n m, coreIndex? a = some n → coreIndex? b = some m →
          n < m ∨ n = m ∧ a < b)
      ∧ (∀ id ∈ others, id ≠ "cpu" ∧ coreIndex? id = none)
      ∧ others.Pairwise (· < ·) := by
  have hordered := s.pairwise_cpuIds_replaceCpus rows
  have hnodup := s.nodup_cpuIds_replaceCpus rows
  have hmem := s.mem_cpuIds_replaceCpus rows "cpu"
  generalize (s.replaceCpus rows).cpuIds = ids at hordered hnodup hmem
  have hprecedes : ids.Pairwise Cpu.Precedes := hordered.imp Cpu.order_eq_lt_iff.mp
  have hcpu := @eq_filter_append_filter _ (fun id => id == "cpu") ids <|
    hprecedes.imp fun {a b} h hb => absurd (beq_iff_eq.mp hb) h.right_ne
  have hfirst : ids.filter (fun id => id == "cpu")
      = if "cpu" ∈ rows.map (·.id) then ["cpu"] else [] := by
    rw [List.filter_beq, hnodup.count]
    simp only [hmem]
    split <;> rfl
  -- behind the row of all cores no other is in front of a core
  have hrest := hprecedes.filter fun id => !(id == "cpu")
  have hne : ∀ id ∈ ids.filter (fun id => !(id == "cpu")), id ≠ "cpu" := by simp
  rw [hcpu, hfirst]
  generalize ids.filter (fun id => !(id == "cpu")) = rest at hrest hne
  have hcores := @eq_filter_append_filter _ (fun id => (coreIndex? id).isSome) rest <|
    hrest.imp_of_mem fun {a b} ha _ h hb => h.left_isSome (hne a ha) hb
  refine ⟨rest.filter fun id => (coreIndex? id).isSome,
    rest.filter fun id => !(coreIndex? id).isSome, ?_, ?_, ?_, ?_, ?_⟩
  · rw [List.append_assoc, ← hcores]
  · simp
  · exact (hrest.filter _).imp fun h _ _ => h.of_cores
  · intro id hid
    obtain ⟨hid, hnone⟩ := List.mem_filter.mp hid
    exact ⟨hne id hid, by simpa using hnone⟩
  · refine (hrest.filter _).imp_of_mem fun {a b} ha hb h => ?_
    obtain ⟨ha, hnone⟩ := List.mem_filter.mp ha
    exact h.of_other (hne a ha) (by simpa using hnone)

/-- The order of processor rows is total and tells any two names apart. A core stands in
front of every core with a greater number, and the row of all cores in front of it. Whatever
rows are stored, the last one of each name is listed, and the listing is strictly ascending:
it opens with the row of all cores, goes on with the cores by number and then by name, and
closes with all others by name. -/
theorem rows_are_listed_in_order :
    (∀ a b, Cpu.order a b = .eq ↔ a = b)
      ∧ (∀ a b, Cpu.order b a = (Cpu.order a b).swap)
      ∧ (∀ a b c, (Cpu.order a b).isLE = true → (Cpu.order b c).isLE = true →
          (Cpu.order a c).isLE = true)
      ∧ (∀ a b, Cpu.order a b = .lt ↔ Cpu.Precedes a b)
      ∧ (∀ id n, coreIndex? id = some n ↔ ∃ number,
          id.toList = ['c', 'p', 'u'] ++ number ∧ IsNumeral number n.toNat)
      ∧ ∀ (s : Store) (rows : List Cpu),
          (∀ row, row ∈ (s.replaceCpus rows).cpuList
            ↔ rows.findRev? (·.id = row.id) = some row)
          ∧ ((s.replaceCpus rows).cpuList.Pairwise fun a b => Cpu.order a.id b.id = .lt)
          ∧ (∃ cores others, (s.replaceCpus rows).cpuIds
                = (if "cpu" ∈ rows.map (·.id) then ["cpu"] else []) ++ cores ++ others
              ∧ (∀ id ∈ cores, (coreIndex? id).isSome = true)
              ∧ (cores.Pairwise fun a b => ∀ n m, coreIndex? a = some n → coreIndex? b = some m →
                  n < m ∨ n = m ∧ a < b)
              ∧ (∀ id ∈ others, id ≠ "cpu" ∧ coreIndex? id = none)
              ∧ others.Pairwise (· < ·))
          ∧ ∀ n m, n < m → m < UInt32.size →
              coreName n ∈ rows.map (·.id) → coreName m ∈ rows.map (·.id) →
              [coreName n, coreName m].Sublist (s.replaceCpus rows).cpuIds := by
  refine ⟨fun a b => LawfulEqCmp.compare_eq_iff_eq, fun a b => OrientedCmp.eq_swap,
    fun a b c => TransCmp.isLE_trans, fun a b => Cpu.order_eq_lt_iff,
    fun id n => coreIndex?_eq_some_iff, fun s rows => ⟨fun row => s.mem_cpuList_replaceCpus rows,
      s.pairwise_cpuList_replaceCpus rows, s.exists_cpuIds_eq rows, ?_⟩⟩
  intro n m hlt hm hn hm'
  rw [← s.mem_cpuIds_replaceCpus] at hn hm'
  refine pair_sublist Cpu.not_order_eq_lt_of_order_eq_lt (s.pairwise_cpuIds_replaceCpus rows)
    hn hm' (Cpu.order_coreName hlt hm)

/-- Two spellings of a number stand side by side, and a number of more than thirty-two bits
is none. -/
example : ["cpu", "cpu02", "cpu2", "cpu10", "cpu4294967296", "cpux"].Pairwise
    fun a b => Cpu.order a b = .lt := by decide

end Store

end Vitals
