/-
What there is on a disk after a change, and what is answered of it.

The places of a disk are sequences of names, and everything about a disk follows from
what is looked up under each of them. A path that is made of names leads to its own
components, past all that they open with (`way?_of_names`), so each change of the disk
comes down to one equation on look-ups: the place itself is replaced, or taken away with
all that is below it, and what is passed on the way becomes a directory if it was free.

The answers want one thing more. A disk asks for directories all the way down before it
looks at a place. Where every place lies in directories (`Sound`), which all changes
keep, nothing is ever found below a file, so the answer is what is looked up
(`find_toOption`).
-/
import Mathlib.Data.List.Nodup
import Vitals.FileSystem.Disk
import Vitals.Proofs.FileSystem.Paths

namespace Vitals

open Std (ExtTreeMap)
open Vitals.Path (Key IsName IsPlain)

namespace Disk

-- ================================================================ ways

/-- The places above a place are the proper prefixes of its key. -/
theorem mem_above {k place : Key} : k ∈ above place ↔ k <+: place ∧ k ≠ place := by
  rw [above, List.mem_map]
  constructor
  · rintro ⟨n, hn, rfl⟩
    have htake : place.take n <+: place := List.take_prefix n place
    refine ⟨htake, fun heq => ?_⟩
    have hlength := congrArg List.length heq
    rw [List.length_take] at hlength
    have := List.mem_range.mp hn
    omega
  · rintro ⟨hpre, hne⟩
    have htake : place.take k.length = k := (List.prefix_iff_eq_take.mp hpre).symm
    refine ⟨k.length, List.mem_range.mpr ?_, htake⟩
    by_contra hlength
    exact hne (hpre.eq_of_length_le (by omega))

/-- The places above a key that starts with a name are the root and those below that name.
-/
theorem above_cons (name : String) (names : Key) :
    above (name :: names) = [] :: (above names).map (name :: ·) := by
  rw [above, above, List.length_cons, List.range_succ_eq_map, List.map_cons, List.map_map,
    List.map_map]
  rfl

theorem step?_of_isName {name : String} (h : IsName name) (place : Key) :
    step? place name = some (place ++ [name]) := by
  rw [step?, if_neg h.2.2.1, if_neg h.2.2.2, if_neg h.ne_root]

/-- Names lead to the place that they spell, past all that they open with. -/
theorem way?_of_names {names : Key} (h : ∀ name ∈ names, IsName name) (place : Key) :
    way? place names = some ((above names).map (place ++ ·), place ++ names) := by
  induction names generalizing place with
  | nil => simp [way?, above]
  | cons name names ih =>
      have hrest := ih (fun n hn => h n (List.mem_cons_of_mem _ hn)) (place ++ [name])
      rw [way?, step?_of_isName (h name (List.mem_cons_self ..)), above_cons, Option.bind_eq_bind,
        Option.bind_some, hrest]
      simp

/-- A plain path leads along the places above its key. -/
theorem way?_of_isPlain {p : Path} (h : p.IsPlain) :
    way? [] p.key = some (above p.key, p.key) := by
  simpa using way?_of_names h.names []

-- ============================================================= look-ups

/-- The text of what is there, if that is a file whose bytes are a text. -/
def textOf : Option Node → Option String
  | some (.file bytes) => String.fromUTF8? bytes
  | _ => none

/-- A file stands where the disk holds bytes. -/
theorem isFile_iff {d : Disk} {place : Key} :
    d.isFile place = true ↔ ∃ bytes, d.nodes[place]? = some (.file bytes) := by
  unfold isFile
  split
  · case h_1 bytes heq => simp [heq]
  · case h_2 hnot => simpa using hnot

/-- A directory stands where the disk holds one. -/
theorem isDirectory_iff {d : Disk} {place : Key} :
    d.isDirectory place = true ↔ d.nodes[place]? = some .directory := by
  unfold isDirectory
  split
  · case h_1 heq => simp [heq]
  · case h_2 hnot => simpa using hnot

/-- A directory is made where there is no file. -/
theorem or_directory_of_isFile_eq_false {d : Disk} {place : Key} (h : d.isFile place = false) :
    d.nodes[place]?.or (some .directory) = some .directory := by
  cases hnode : d.nodes[place]? with
  | none => rfl
  | some node =>
      cases node with
      | file bytes =>
          rw [isFile_iff.mpr ⟨bytes, hnode⟩] at h
          cases h
      | directory => rfl

/-- Missing directories are added and whatever stands already is kept. -/
theorem getElem?_withDirectories (d : Disk) (places : List Key) (k : Key) :
    (d.withDirectories places).nodes[k]?
      = d.nodes[k]?.or (if k ∈ places then some .directory else none) := by
  unfold withDirectories
  dsimp only
  generalize d.nodes = nodes
  induction places generalizing nodes with
  | nil => simp
  | cons place places ih =>
      rw [List.foldl_cons, ih, ExtTreeMap.getElem?_insertIfNew]
      by_cases hk : place = k
      · subst hk
        by_cases hmem : place ∈ nodes
        · simp [hmem]
        · simp [hmem]
      · simp [hk, Ne.symm hk]

-- ============================================================= changes

/-- What is there once a path has become something: the path itself is that, and what the
path opens with has become a directory if it was free. -/
def placed (there : Option Node) (k path : Key) (node : Node) : Option Node :=
  if k = path then some node else there.or (if k <+: path then some .directory else none)

/-- Taking a subtree out keeps every place outside it. -/
theorem getElem?_filter_not_isPrefixOf {β : Type} (t : ExtTreeMap Key β) (place k : Key) :
    (t.filter fun key _ => !place.isPrefixOf key)[k]? = if place <+: k then none else t[k]? := by
  rw [ExtTreeMap.getElem?_filter']
  by_cases hpre : place <+: k
  · simp [hpre]
  · have hnot : place.isPrefixOf k = false := by
      rw [← Bool.not_eq_true, List.isPrefixOf_iff_prefix]
      exact hpre
    rw [if_neg hpre, hnot]
    cases t[k]? <;> rfl

theorem injective_concat (names : Key) :
    Function.Injective fun name : String => names ++ [name] := by
  intro a b hab
  simpa using hab

/-- Keys directly below a directory are that directory's key and their last names. -/
theorem map_filterMap_getLast? {names : Key} {ks : List Key}
    (hks : ∀ k ∈ ks, ∃ name, k = names ++ [name]) :
    (ks.filterMap (·.getLast?)).map (fun name => names ++ [name]) = ks := by
  induction ks with
  | nil => rfl
  | cons k ks ih =>
      obtain ⟨name, rfl⟩ := hks k (List.mem_cons_self ..)
      rw [List.filterMap_cons_some List.getLast?_concat, List.map_cons,
        ih fun k hk => hks k (List.mem_cons_of_mem _ hk)]

section Changes

variable {d : Disk} {p : Path} (hp : p.IsPlain)
  (hway : ∀ k, k <+: p.key → k ≠ p.key → d.isFile k = false)
include hp hway

/-- A file is written where nothing else is in the way. -/
theorem getElem?_write (hplace : d.isDirectory p.key = false) (bytes : ByteArray) (k : Key) :
    (d.write p bytes).nodes[k]? = placed d.nodes[k]? k p.key (.file bytes) := by
  have hfree : (above p.key).any d.isFile = false := by
    rw [List.any_eq_false]
    intro k hk
    obtain ⟨hpre, hne⟩ := mem_above.mp hk
    simp [hway k hpre hne]
  have hstill : (d.withDirectories (above p.key)).isDirectory p.key = false := by
    have hself : p.key ∉ above p.key := fun hmem => (mem_above.mp hmem).2 rfl
    rw [← Bool.not_eq_true, isDirectory_iff, getElem?_withDirectories, if_neg hself,
      Option.or_none, ← isDirectory_iff, hplace]
    exact Bool.false_ne_true
  unfold write
  rw [way?_of_isPlain hp]
  dsimp only
  rw [hfree, hp.ends, hstill]
  show ((d.withDirectories (above p.key)).nodes.insert p.key (.file bytes))[k]? = _
  rw [ExtTreeMap.getElem?_insert, getElem?_withDirectories, placed]
  by_cases hk : k = p.key
  · rw [if_pos hk, if_pos (by rw [hk]; exact Std.ReflCmp.compare_self)]
  · rw [if_neg hk, if_neg (by simpa using Ne.symm hk)]
    simp [mem_above, hk]

/-- A directory is made where no file is in the way. -/
theorem getElem?_makeDirectory (hplace : d.isFile p.key = false) (k : Key) :
    (d.makeDirectory p).nodes[k]? = placed d.nodes[k]? k p.key .directory := by
  have hmem : ∀ k, k ∈ above p.key ++ [p.key] ↔ k <+: p.key := by
    intro k
    rw [List.mem_append, mem_above, List.mem_singleton]
    by_cases hk : k = p.key
    · simp [hk]
    · simp [hk]
  -- no file is in the way, or where the directory is to stand
  have hfree : ∀ k, k <+: p.key → d.isFile k = false := by
    intro k hpre
    by_cases hk : k = p.key
    · rw [hk, hplace]
    · exact hway k hpre hk
  have hnone : (above p.key ++ [p.key]).any d.isFile = false := by
    rw [List.any_eq_false]
    intro k hk
    simp [hfree k ((hmem k).mp hk)]
  unfold makeDirectory
  rw [way?_of_isPlain hp]
  dsimp only
  rw [hnone]
  show (d.withDirectories (above p.key ++ [p.key])).nodes[k]? = _
  rw [getElem?_withDirectories, placed]
  by_cases hk : k = p.key
  · rw [if_pos hk, if_pos (by simp [hk]), hk, or_directory_of_isFile_eq_false hplace]
  · rw [if_neg hk]
    simp only [hmem]

end Changes

-- =========================================================== soundness

/-- A disk of names, in which every place lies in directories. -/
structure Sound (d : Disk) : Prop where
  /-- The root is a directory. -/
  root : d.nodes[([] : Key)]? = some .directory
  /-- Every place is named. -/
  names : ∀ (k : Key) (node : Node), d.nodes[k]? = some node → ∀ name ∈ k, IsName name
  /-- What is on the way to a place is a directory. -/
  way : ∀ (k : Key) (node : Node), d.nodes[k]? = some node →
    ∀ higher, higher <+: k → higher ≠ k → d.nodes[higher]? = some .directory

theorem getElem?_empty (k : Key) :
    empty.nodes[k]? = if k = [] then some .directory else none := by
  show ((∅ : ExtTreeMap Key Node).insert [] .directory)[k]? = _
  rw [ExtTreeMap.getElem?_insert, ExtTreeMap.getElem?_empty]
  cases k <;> rfl

theorem sound_empty : empty.Sound where
  root := getElem?_empty []
  names k node hnode := by
    rw [getElem?_empty] at hnode
    split at hnode
    · next hk => simp [hk]
    · cases hnode
  way k node hnode higher hpre hne := by
    rw [getElem?_empty] at hnode
    split at hnode
    · next hk =>
        rw [hk] at hpre hne
        exact absurd (List.prefix_nil.mp hpre) hne
    · cases hnode

namespace Sound

variable {d : Disk} (h : d.Sound)
include h

/-- There is nothing below what is no directory. -/
theorem eq_none_of_below {place k : Key} (hplace : d.nodes[place]? ≠ some .directory)
    (hpre : place <+: k) (hne : place ≠ k) : d.nodes[k]? = none := by
  cases hnode : d.nodes[k]? with
  | none => rfl
  | some node => exact absurd (h.way k node hnode place hpre hne) hplace

/-- A path is taken away with all that is below it, be there a way to it or not. -/
theorem getElem?_remove {p : Path} (hp : p.IsPlain) (k : Key) :
    (d.remove p).nodes[k]? = if p.key <+: k then none else d.nodes[k]? := by
  unfold remove
  rw [way?_of_isPlain hp]
  dsimp only
  rw [hp.endsInDots_eq_false, hp.ends]
  by_cases hway : (above p.key).all d.isDirectory
  · rw [hway]
    exact getElem?_filter_not_isPrefixOf d.nodes p.key k
  · -- where there is no way, there is nothing to take away
    rw [Bool.not_eq_true] at hway
    rw [hway]
    show d.nodes[k]? = _
    obtain ⟨place, hmem, hplace⟩ := List.all_eq_false.mp hway
    obtain ⟨hpre, hne⟩ := mem_above.mp hmem
    rw [isDirectory_iff] at hplace
    split_ifs with hk
    · refine h.eq_none_of_below hplace (hpre.trans hk) fun heq => hne ?_
      exact hpre.eq_of_length_le (heq ▸ hk.length_le)
    · rfl

/-- A disk stays sound when a path becomes something, unless that would put a file in the
place of a directory. -/
theorem of_placed {p : Path} (hp : p.IsPlain)
    (hway : ∀ k, k <+: p.key → k ≠ p.key → d.isFile k = false) {node : Node}
    (hplace : d.isDirectory p.key = true → node = .directory) {d' : Disk}
    (hd' : ∀ k : Key, d'.nodes[k]? = placed d.nodes[k]? k p.key node) : d'.Sound where
  root := by
    rw [hd', placed, if_neg (Ne.symm hp.ne_nil), h.root]
    rfl
  names k found hfound := by
    rw [hd', placed] at hfound
    split at hfound
    · next hk => exact hk ▸ hp.names
    · cases hnode : d.nodes[k]? with
      | some node => exact h.names k node hnode
      | none =>
          rw [hnode, Option.none_or] at hfound
          split at hfound
          · -- a place that a path opens with has names of the path only
            next hpre => exact fun name hname => hp.names name (hpre.subset hname)
          · cases hfound
  way k found hfound higher hpre hne := by
    rw [hd', placed]
    by_cases habove : higher <+: p.key ∧ higher ≠ p.key
    · rw [if_neg habove.2, if_pos habove.1, or_directory_of_isFile_eq_false]
      exact hway higher habove.1 habove.2
    · -- then the place is none of those that the path opens with, and was there before
      have hk : ¬ k <+: p.key := fun hk => habove ⟨hpre.trans hk, by
        rintro rfl
        exact hne (hpre.eq_of_length_le hk.length_le)⟩
      have hself : k ≠ p.key := fun heq => hk (heq ▸ List.prefix_refl _)
      rw [hd', placed, if_neg hself, if_neg hk, Option.or_none] at hfound
      have hdirectory := h.way k found hfound higher hpre hne
      split_ifs with heq
      · rw [hplace (isDirectory_iff.mpr (heq ▸ hdirectory))]
      · rw [hdirectory]
        rfl
      · rw [hdirectory]
        rfl

/-- Removing a path keeps the disk sound. -/
theorem remove {p : Path} (hp : p.IsPlain) : (d.remove p).Sound where
  root := by
    have hroot : ¬ p.key <+: [] := fun hpre => hp.ne_nil (List.prefix_nil.mp hpre)
    rw [h.getElem?_remove hp, if_neg hroot, h.root]
  names k node hnode := by
    rw [h.getElem?_remove hp] at hnode
    split at hnode
    · cases hnode
    · exact h.names k node hnode
  way k node hnode higher hpre hne := by
    rw [h.getElem?_remove hp] at hnode
    split at hnode
    · cases hnode
    · next hk =>
        rw [h.getElem?_remove hp, if_neg fun hp => hk (hp.trans hpre)]
        exact h.way k node hnode higher hpre hne

-- ============================================================== answers

/-- A place is found when something stands there. -/
theorem find_toOption (names : Key) : (d.find names).toOption = d.nodes[names]? := by
  unfold find
  split_ifs with hfile
  · obtain ⟨higher, hmem, hfile⟩ := List.any_eq_true.mp hfile
    obtain ⟨hpre, hne⟩ := mem_above.mp hmem
    obtain ⟨bytes, hnode⟩ := isFile_iff.mp hfile
    rw [h.eq_none_of_below (by rw [hnode]; exact nofun) hpre hne]
    rfl
  · cases d.nodes[names]? <;> rfl

/-- The text of a file is had where there is a file whose bytes are a text. -/
theorem read_toOption (names : Key) : (d.read names).toOption = textOf d.nodes[names]? := by
  rw [← h.find_toOption, read]
  cases d.find names with
  | error cause => rfl
  | ok node =>
      cases node with
      | directory => rfl
      | file bytes =>
          show _ = String.fromUTF8? bytes
          dsimp only
          split
          · next content htext => exact htext.symm
          · next htext => exact htext.symm

theorem contains_eq (names : Key) : d.contains names = (d.nodes[names]?).isSome := by
  rw [← h.find_toOption, contains]
  cases d.find names <;> rfl

/-- A directory lists the names of what lies in it, each once. -/
theorem list_eq_ok {names : Key} (hnames : d.nodes[names]? = some .directory) :
    ∃ found, d.list names = .ok found ∧ found.Nodup
      ∧ ∀ name, name ∈ found ↔ (d.nodes[names ++ [name]]?).isSome = true := by
  have hfind : d.find names = .ok .directory := by
    have hoption := h.find_toOption names
    rw [hnames] at hoption
    cases hfind : d.find names with
    | error cause => rw [hfind] at hoption; cases hoption
    | ok node => rw [hfind] at hoption; cases hoption; rfl
  -- what is listed is found by its key without the last name
  have hkey : ∀ k : Key, (k ≠ [] ∧ k.dropLast = names) ↔ ∃ name, k = names ++ [name] := by
    intro k
    constructor
    · rintro ⟨hne, rfl⟩
      exact ⟨k.getLast hne, (List.dropLast_append_getLast hne).symm⟩
    · rintro ⟨name, rfl⟩
      simp
  have hmem : ∀ k : Key, k ∈ (d.nodes.filter fun key _ => key ≠ [] && key.dropLast == names).keys
      ↔ (∃ name, k = names ++ [name]) ∧ (d.nodes[k]?).isSome = true := by
    intro k
    rw [ExtTreeMap.mem_keys, ExtTreeMap.mem_iff_isSome_getElem?, ExtTreeMap.getElem?_filter',
      ← hkey]
    cases d.nodes[k]? with
    | none => simp
    | some node => simp [Option.filter]
  have hmap := map_filterMap_getLast? fun k hk => ((hmem k).mp hk).1
  rw [list, hfind]
  refine ⟨_, rfl, ?_, fun name => ?_⟩
  · exact List.Nodup.of_map _ (hmap ▸ ExtTreeMap.nodup_keys)
  · rw [← List.mem_map_of_injective (injective_concat names), hmap, hmem]
    simp

end Sound

-- ============================================================ as a whole

section Mounted

variable (d : Disk) {root p : Path} {names : Key} (hp : p.key = root.key ++ names)
include hp

/-- A path below the root is known by the names behind it. -/
theorem namesBelow?_eq : namesBelow? root p = some names := by
  have hpre : root.key.isPrefixOf p.key = true := by
    rw [List.isPrefixOf_iff_prefix, hp]
    exact List.prefix_append _ _
  rw [namesBelow?, if_pos hpre, hp, List.drop_left]

/-- Reading below the root is reading the disk. -/
theorem read_fileSystem : (d.fileSystem root).read p = d.read names := by
  simp only [fileSystem, namesBelow?_eq hp]

theorem contains_fileSystem : (d.fileSystem root).contains p = d.contains names := by
  simp only [fileSystem, namesBelow?_eq hp]

/-- Listing below the root is listing the disk, each name joined to the path. -/
theorem list_fileSystem :
    (d.fileSystem root).list p
      = (d.list names).map fun found => found.map fun name => p.join ⟨name⟩ := by
  simp only [fileSystem, namesBelow?_eq hp]

end Mounted

end Disk

end Vitals
