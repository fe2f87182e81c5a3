/-
Sweeps at every interval, of which some die.

# What a sweep leaves that dies

A phase reads the files that it is said to read and asks nothing of any other
(`phase_congr`). So what stands at the path that a sweep dies in reading has no say in
what the sweep leaves (`sweepDyingAt_congr`), and it need not be known what dying there
is like. The phases in front of the first that reads the path leave what they leave in a
sweep that comes to its end. The others leave nothing (`content_sweepDyingAt`).

# What a run leaves

An interval either replaces a category as a sweep does or does not get to it
(`content_tick`), and nothing else that happens to a collector touches its store. By
induction a category is always what the last sweep that got to it left of it
(`content_after`), and what holds of all that phases publish holds at every time, with
any number of dead sweeps behind it (`invariant_after`). Each interval is told of once
(`length_numbers_add_deaths`), and the sweeps that come to their end are told under
numbers that follow on each other (`numbers_eq`).
-/
import Vitals.Proofs.Sweep.Percentages
import Vitals.Sweep.Periodic

namespace Vitals.Sweep

open Proc

variable {fs fs' : FileSystem} {config : Config} {path : Path}

-- ======================================================= files of phases

/-- Two file systems differ in nothing but what is read at a path. -/
structure SameBut (path : Path) (fs fs' : FileSystem) : Prop where
  read : ∀ file : Path, ¬ file.Same path → fs'.read file = fs.read file
  contains : fs'.contains = fs.contains
  list : fs'.list = fs.list

theorem SameBut.discover_eq (h : SameBut path fs fs') (config : Config) :
    discover fs' config = discover fs config := by
  unfold discover entryPid?
  rw [h.list, h.contains]

/-- The status is read of a process in any case, and so it does not matter what is read
there for whether the path is among its files. -/
theorem exists_mem_filesOf_congr (h : SameBut path fs fs') (pid : Int32) :
    (∃ file ∈ filesOf fs' config pid, file.Same path)
      ↔ ∃ file ∈ filesOf fs config pid, file.Same path := by
  by_cases hstatus : ((directoryOf config pid).join ⟨"status"⟩).Same path
  · have hmem : ∀ fs : FileSystem,
        (directoryOf config pid).join ⟨"status"⟩ ∈ filesOf fs config pid := by
      intro fs
      unfold filesOf
      dsimp only
      split <;> exact List.mem_cons_self ..
    exact iff_of_true ⟨_, hmem fs', hstatus⟩ ⟨_, hmem fs, hstatus⟩
  · have hfiles : filesOf fs' config pid = filesOf fs config pid := by
      unfold filesOf
      dsimp only
      rw [h.read _ hstatus]
    rw [hfiles]

theorem reads_iff {p : Phase} :
    reads fs config path p = true ↔ ∃ file ∈ filesRead fs config p, file.Same path := by
  simp [reads]

/-- What is read at a path has no say in which phases read it. -/
theorem reads_congr (h : SameBut path fs fs') (p : Phase) :
    reads fs' config path p = reads fs config path p := by
  rw [Bool.eq_iff_iff, reads_iff, reads_iff]
  cases p with
  | uptime => exact Iff.rfl
  | cpu => exact Iff.rfl
  | memory => exact Iff.rfl
  | processes =>
      rw [filesRead, filesRead, h.discover_eq]
      cases discover fs config with
      | error cause => exact Iff.rfl
      | ok pids =>
          simp only [List.mem_flatMap]
          constructor
          · intro hfiles
            obtain ⟨file, ⟨pid, hpid, hfile⟩, hsame⟩ := hfiles
            obtain ⟨file', hfile', hsame'⟩ :=
              (exists_mem_filesOf_congr h pid).mp ⟨file, hfile, hsame⟩
            exact ⟨file', ⟨pid, hpid, hfile'⟩, hsame'⟩
          · intro hfiles
            obtain ⟨file, ⟨pid, hpid, hfile⟩, hsame⟩ := hfiles
            obtain ⟨file', hfile', hsame'⟩ :=
              (exists_mem_filesOf_congr h pid).mpr ⟨file, hfile, hsame⟩
            exact ⟨file', ⟨pid, hpid, hfile'⟩, hsame'⟩

/-- A process is read alike if the path is none of its files. -/
theorem collect_congr_of_not_reads (h : SameBut path fs fs') {pid : Int32}
    (hnone : ¬ ∃ file ∈ filesOf fs config pid, file.Same path) (totalKb : UInt64) :
    collect fs' config pid totalKb = collect fs config pid totalKb := by
  unfold filesOf at hnone
  dsimp only at hnone
  unfold collect
  dsimp only
  cases hstatus : fs.read ((directoryOf config pid).join ⟨"status"⟩) with
  | error cause =>
      rw [hstatus] at hnone
      have hother : ¬ ((directoryOf config pid).join ⟨"status"⟩).Same path := by simpa using hnone
      rw [h.read _ hother, hstatus]
  | ok content =>
      rw [hstatus] at hnone
      have hothers : ¬ ((directoryOf config pid).join ⟨"status"⟩).Same path
          ∧ ¬ ((directoryOf config pid).join ⟨"stat"⟩).Same path
          ∧ ¬ ((directoryOf config pid).join ⟨"cmdline"⟩).Same path := by simpa using hnone
      rw [h.read _ hothers.1, h.read _ hothers.2.1, h.read _ hothers.2.2, hstatus]

/-- A phase that does not read a path does the same whatever is read there. -/
theorem phase_congr (h : SameBut path fs fs') {p : Phase}
    (hp : reads fs config path p = false) : phase fs' config p = phase fs config p := by
  have hnone : ¬ ∃ file ∈ filesRead fs config p, file.Same path := by
    rw [← reads_iff, hp]
    decide
  -- the file of a phase that has one
  have hfile : ∀ name : String, filesRead fs config p = [config.root.join ⟨name⟩] →
      readFile fs' (config.root.join ⟨name⟩) = readFile fs (config.root.join ⟨name⟩) := by
    intro name hname
    rw [hname] at hnone
    have hother : ¬ (config.root.join ⟨name⟩).Same path := by simpa using hnone
    rw [readFile, readFile, h.read _ hother]
  cases p with
  | uptime =>
      rw [phase, phase, uptimePhase, uptimePhase, readUptime, readUptime, hfile "uptime" rfl]
  | cpu => rw [phase, phase, cpuPhase, cpuPhase, readCpuRows, readCpuRows, hfile "stat" rfl]
  | memory =>
      rw [phase, phase, memoryPhase, memoryPhase, Proc.readMemory, Proc.readMemory,
        hfile "meminfo" rfl]
  | processes =>
      have hcollect : collectAll fs' config = collectAll fs config := by
        funext totalKb
        rw [collectAll_eq, collectAll_eq, h.discover_eq]
        cases hpids : discover fs config with
        | error cause => rfl
        | ok pids =>
            have heach : collectEach fs' config totalKb pids
                = collectEach fs config totalKb pids := by
              unfold collectEach
              refine List.filterMap_congr fun pid hpid => ?_
              rw [collect_congr_of_not_reads h ?_ totalKb]
              intro hfiles
              obtain ⟨file, hfile, hsame⟩ := hfiles
              refine hnone ⟨file, ?_, hsame⟩
              rw [filesRead, hpids]
              exact List.mem_flatMap.mpr ⟨pid, hpid, hfile⟩
            show Except.ok (Proc.gathered (collectEach fs' config totalKb pids)) = _
            rw [heach]
            rfl
      rw [phase, phase, processPhase, processPhase, hcollect]

-- ====================================================== sweeps that die

/-- The phases in front of the first that reads a path. -/
def inFrontOf (fs : FileSystem) (config : Config) (path : Path) : List Phase :=
  Phase.all.takeWhile fun p => !reads fs config path p

/-- What is read at the path that a sweep dies in reading has no say in what the sweep
leaves. -/
theorem sweepDyingAt_congr (h : SameBut path fs fs') (config : Config) (s : Store) :
    sweepDyingAt fs' config path s = sweepDyingAt fs config path s := by
  have hphases : ∀ ps : List Phase, (∀ p ∈ ps, reads fs config path p = false) →
      phases fs' config ps = phases fs config ps := by
    intro ps hps
    induction ps with
    | nil => rfl
    | cons p ps ih =>
        rw [phases, phases, phase_congr h (hps p (List.mem_cons_self ..)),
          ih fun q hq => hps q (List.mem_cons_of_mem _ hq)]
  unfold sweepDyingAt
  simp only [reads_congr h]
  rw [hphases]
  intro p hp
  simpa using List.mem_takeWhile_imp hp

/-- Phases leave the categories of all others as they were. -/
theorem content_foldl_left_of_notMem {ps : List Phase} {q : Phase} (hq : q ∉ ps) (s : Store) :
    (ps.foldl (fun s p => left fs config p s) s).content q = s.content q := by
  induction ps generalizing s with
  | nil => rfl
  | cons p ps ih =>
      rw [List.mem_cons, not_or] at hq
      rw [List.foldl_cons, ih hq.2, content_left_of_ne hq.1]

/-- A sweep that dies leaves a category as a whole sweep would if its phase stands in front
of the one that the sweep dies in, and as it was otherwise. -/
theorem content_sweepDyingAt (path : Path) (s : Store) (q : Phase) :
    (sweepDyingAt fs config path s).content q
      = if q ∈ inFrontOf fs config path then (sweep fs config s).2.content q else s.content q := by
  obtain ⟨rest, hrest⟩ : inFrontOf fs config path <+: Phase.all := List.takeWhile_prefix _
  have hdying : sweepDyingAt fs config path s
      = (inFrontOf fs config path).foldl (fun s p => left fs config p s) s :=
    run_phases_snd _ s
  have hwhole : (sweep fs config s).2 = Phase.all.foldl (fun s p => left fs config p s) s := by
    rw [sweep, script, Script.run_bind]
    exact run_phases_snd Phase.all s
  split
  · next hfront =>
      have hnodup : (inFrontOf fs config path ++ rest).Nodup := by
        rw [hrest]
        decide
      have hlater : q ∉ rest := List.disjoint_of_nodup_append hnodup hfront
      rw [hwhole, ← hrest, List.foldl_append, content_foldl_left_of_notMem hlater, hdying]
  · next hbehind => rw [hdying, content_foldl_left_of_notMem hbehind]

example : inFrontOf Tree.empty.fileSystem {} ⟨"/proc//meminfo"⟩ = [.uptime, .cpu] := by
  decide +kernel

-- ================================================================ runs

namespace Periodic

variable {p : Periodic}

/-- What happens to a collector that sweeps at every interval. -/
inductive Move where
  /-- An interval is over. Its sweep takes so long, and if it dies, then for a cause. -/
  | interval (elapsed : Duration) (cause : String)
  /-- The file system changes. -/
  | edit (change : Tree.Edit)
  /-- There is another path that sweeps die in reading, or none. -/
  | doom (fatal : Option Path)

/-- A collector after one thing more. -/
def apply (p : Periodic) : Move → Periodic
  | .interval .. => p.tick
  | .edit change => p.edit change
  | .doom fatal => { p with fatal }

/-- A collector after some things that happened. -/
def after (p : Periodic) (moves : List Move) : Periodic := moves.foldl apply p

/-- What is told while some things happen. -/
def notices : Periodic → List Move → List Notice
  | _, [] => []
  | p, .interval elapsed cause :: moves => p.told elapsed cause ++ notices p.tick moves
  | p, move :: moves => notices (p.apply move) moves

/-- Whether the next sweep gets to a phase. -/
def reaches (p : Periodic) (q : Phase) : Bool :=
  p.fatal.all fun path => (inFrontOf p.tree.fileSystem p.config path).contains q

/-- The collector each time that its sweep got to a phase, as it was before that sweep. -/
def arrivals (q : Phase) : Periodic → List Move → List Periodic
  | _, [] => []
  | p, .interval _ _ :: moves =>
      if p.reaches q then p :: arrivals q p.tick moves else arrivals q p.tick moves
  | p, move :: moves => arrivals q (p.apply move) moves

-- =============================================================== store

/-- A sweep comes to its end precisely if it gets to all phases. -/
theorem deadly?_eq_none_iff : p.deadly? = none ↔ ∀ q, p.reaches q = true := by
  unfold deadly? reaches
  cases p.fatal with
  | none => simp
  | some path =>
      rw [Option.filter_eq_none_iff]
      simp only [Option.some.injEq, forall_eq', Option.all_some, List.contains_iff_mem,
        List.any_eq_true, not_exists, not_and, Bool.not_eq_true]
      constructor
      · intro hunread q
        have hall : inFrontOf p.tree.fileSystem p.config path = Phase.all := by
          unfold inFrontOf
          rw [List.takeWhile_eq_self_iff]
          intro r hr
          rw [hunread r hr]
          rfl
        rw [hall]
        cases q <;> decide
      · intro hreaches r _
        simpa using List.mem_takeWhile_imp (hreaches r)

/-- An interval leaves a category as a sweep leaves it if its sweep gets to the phase, and as
it was otherwise. -/
theorem content_tick (p : Periodic) (q : Phase) :
    p.tick.store.content q
      = if p.reaches q then (sweep p.tree.fileSystem p.config p.store).2.content q
        else p.store.content q := by
  unfold tick
  cases hdeadly : p.deadly? with
  | none => rw [deadly?_eq_none_iff.mp hdeadly q, if_pos rfl]
  | some path =>
      have hfatal : p.fatal = some path := (Option.filter_eq_some_iff.mp hdeadly).1
      show (sweepDyingAt p.tree.fileSystem p.config path p.store).content q = _
      rw [content_sweepDyingAt, reaches, hfatal, Option.all_some]
      simp only [List.contains_iff_mem]

/-- A category is what the last sweep that got to it left of it, or what it was at first if
none did. -/
theorem content_after (p : Periodic) (moves : List Move) (q : Phase) :
    (p.after moves).store.content q
      = ((arrivals q p moves).getLast?.map fun last =>
          (sweep last.tree.fileSystem last.config last.store).2.content q).getD
            (p.store.content q) := by
  induction moves generalizing p with
  | nil => rfl
  | cons move moves ih =>
      rw [after, List.foldl_cons, ← after, ih]
      cases move with
      | interval elapsed cause =>
          rw [arrivals, apply, content_tick]
          cases p.reaches q with
          | false => rfl
          | true =>
              rw [if_pos rfl, if_pos rfl, List.getLast?_cons]
              cases (arrivals q p.tick moves).getLast? <;> rfl
      | edit change => rfl
      | doom fatal => rfl

/-- How a collector measures does not change. -/
theorem config_apply (p : Periodic) (move : Move) : (p.apply move).config = p.config := by
  cases move with
  | interval elapsed cause =>
      show p.tick.config = _
      unfold tick
      split <;> rfl
  | edit change => rfl
  | doom fatal => rfl

/-- What phases publish has a property, so an interval keeps it, however its sweep ends. -/
theorem invariant_tick {Q : Content → Prop} (h : Invariant p.config Q)
    (hp : ∀ q, Q (p.store.content q)) (q : Phase) : Q (p.tick.store.content q) := by
  rw [content_tick]
  split
  · exact h.content_sweep hp _ q
  · exact hp q

/-- What holds of all that phases publish holds of every category at every time, with any
number of dead sweeps behind it. -/
theorem invariant_after {Q : Content → Prop} (h : Invariant p.config Q)
    (hp : ∀ q, Q (p.store.content q)) (moves : List Move) (q : Phase) :
    Q ((p.after moves).store.content q) := by
  induction moves generalizing p with
  | nil => exact hp q
  | cons move moves ih =>
      rw [after, List.foldl_cons, ← after]
      apply ih
      · rwa [config_apply]
      · cases move with
        | interval elapsed cause => exact invariant_tick h hp
        | edit change => exact hp
        | doom fatal => exact hp

/-- A collector that starts with nothing in its store has coherent samples at every time, and
their percentages are numbers from 0 to 100. A sweep that dies halfway takes nothing of
that away. -/
theorem coherent_after (config : Config) (tree : Tree) (moves : List Move) :
    (after { config, tree } moves).store.Coherent config
      ∧ ∀ x ∈ (after { config, tree } moves).store.percentages,
          ∃ q, x.value? = some q ∧ 0 ≤ q ∧ q ≤ 100 := by
  have hcoherent : (after { config, tree } moves).store.Coherent config :=
    Store.coherent_of_content
      (invariant_after (coherent_content config) (coherent_content config).empty moves)
  exact ⟨hcoherent, fun x hx => value?_of_mem_percentages hcoherent hx⟩

end Periodic

-- ============================================================== notices

/-- The number of a sweep that is told to be over. -/
def Notice.number? : Notice → Option UInt64
  | first .. => some 1
  | later _ number .. => some number
  | died _ => none
  | slow .. => none

/-- Whether a sweep is told to have died. -/
def Notice.isDeath : Notice → Bool
  | died _ => true
  | _ => false

namespace Periodic

variable {p : Periodic}

/-- Whether an interval is over. -/
def Move.isInterval : Move → Bool
  | interval .. => true
  | _ => false

/-- The numbers of the sweeps that are told to be over while some things happen. -/
def numbers (p : Periodic) (moves : List Move) : List UInt64 :=
  (notices p moves).filterMap Notice.number?

/-- How many sweeps are told to have died. -/
def deaths (p : Periodic) (moves : List Move) : Nat := (notices p moves).countP Notice.isDeath

/-- The sweep of an interval is told to have died, and is not counted, or is told to be over
under the next number, which is the count from then on. -/
theorem interval_cases (p : Periodic) (elapsed : Duration) (cause : String) (moves : List Move) :
    (numbers p (.interval elapsed cause :: moves) = numbers p.tick moves
        ∧ deaths p (.interval elapsed cause :: moves) = deaths p.tick moves + 1
        ∧ p.tick.completed = p.completed)
      ∨ (numbers p (.interval elapsed cause :: moves) = (p.completed + 1) :: numbers p.tick moves
        ∧ deaths p (.interval elapsed cause :: moves) = deaths p.tick moves
        ∧ p.tick.completed = p.completed + 1) := by
  have hnumbers : numbers p (.interval elapsed cause :: moves)
      = (p.told elapsed cause).filterMap Notice.number? ++ numbers p.tick moves :=
    List.filterMap_append
  have hdeaths : deaths p (.interval elapsed cause :: moves)
      = (p.told elapsed cause).countP Notice.isDeath + deaths p.tick moves :=
    List.countP_append
  rw [hnumbers, hdeaths]
  generalize numbers p.tick moves = later, deaths p.tick moves = lost
  unfold told tick
  cases p.deadly? with
  | some path => exact .inl ⟨rfl, Nat.add_comm 1 lost, rfl⟩
  | none =>
      right
      dsimp only
      by_cases hfirst : p.completed + 1 = 1
      · rw [if_pos hfirst, hfirst]
        split <;> exact ⟨rfl, Nat.zero_add lost, rfl⟩
      · rw [if_neg hfirst]
        split <;> exact ⟨rfl, Nat.zero_add lost, rfl⟩

/-- To count on from the next number is to count one more, though the count goes round. -/
theorem succ_add_ofNat (n : UInt64) (k : Nat) : n + 1 + .ofNat k = n + .ofNat (k + 1) := by
  rw [UInt64.ofNat_add, UInt64.add_assoc, UInt64.add_comm 1]
  rfl

/-- The count of a collector goes up by one for each sweep that is told to be over. -/
theorem completed_after (p : Periodic) (moves : List Move) :
    (p.after moves).completed = p.completed + .ofNat (numbers p moves).length := by
  induction moves generalizing p with
  | nil => exact (UInt64.add_zero _).symm
  | cons move moves ih =>
      rw [after, List.foldl_cons, ← after, ih]
      cases move with
      | interval elapsed cause =>
          show p.tick.completed + .ofNat (numbers p.tick moves).length = _
          obtain ⟨hnumbers, -, hcompleted⟩ | ⟨hnumbers, -, hcompleted⟩ :=
            interval_cases p elapsed cause moves
          · rw [hnumbers, hcompleted]
          · rw [hnumbers, hcompleted, List.length_cons, succ_add_ofNat]
      | edit change => rfl
      | doom fatal => rfl

/-- The sweeps that come to their end are told in order, under numbers that follow on each
other from the count at first. -/
theorem numbers_eq (p : Periodic) (moves : List Move) :
    numbers p moves
      = (List.range (numbers p moves).length).map fun k => p.completed + .ofNat (k + 1) := by
  induction moves generalizing p with
  | nil => rfl
  | cons move moves ih =>
      cases move with
      | interval elapsed cause =>
          obtain ⟨hnumbers, -, hcompleted⟩ | ⟨hnumbers, -, hcompleted⟩ :=
            interval_cases p elapsed cause moves
          · rw [hnumbers, ← hcompleted]
            exact ih p.tick
          · have hrest := ih p.tick
            rw [hcompleted] at hrest
            rw [hnumbers, List.length_cons, List.range_succ_eq_map, List.map_cons, List.map_map]
            refine congrArg₂ _ rfl (hrest.trans ?_)
            refine List.map_congr_left fun k _ => ?_
            exact succ_add_ofNat p.completed (k + 1)
      | edit change => exact ih (p.edit change)
      | doom fatal => exact ih { p with fatal }

/-- Every interval is told of once: its sweep is over, or has died. -/
theorem length_numbers_add_deaths (p : Periodic) (moves : List Move) :
    (numbers p moves).length + deaths p moves = moves.countP Move.isInterval := by
  induction moves generalizing p with
  | nil => rfl
  | cons move moves ih =>
      cases move with
      | interval elapsed cause =>
          rw [List.countP_cons_of_pos rfl, ← ih p.tick]
          obtain ⟨hnumbers, hdeaths, -⟩ | ⟨hnumbers, hdeaths, -⟩ :=
            interval_cases p elapsed cause moves
          · rw [hnumbers, hdeaths, Nat.add_assoc]
          · rw [hnumbers, hdeaths, List.length_cons, Nat.add_right_comm]
      | edit change => exact ih (p.edit change)
      | doom fatal => exact ih { p with fatal }

end Periodic

end Vitals.Sweep
