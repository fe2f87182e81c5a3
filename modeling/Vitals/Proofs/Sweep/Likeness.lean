/-
Two file systems that look alike below a root each are swept alike.

A sweep asks a file system about no path but those below its root, and it never looks at
how such a path starts. So it cannot tell two tables apart that answer alike, path by
path: the same text or none, there or not there, and the same names in the directory of
the table, in whatever order and however they are spelled (`FileSystem.Alike`).

Only failures differ, for a failure names the path and gives a cause. A sweep has no more
of a failure in its report than that there was one, and publishes nothing for it. Hence
readings are compared with their failures forgotten (`toOption`), which every step of a
reading respects, and phase for phase the reports and the stores are the same
(`phase_eq`).
-/
import Vitals.Proofs.FileSystem.Paths
import Vitals.Proofs.Json.Number
import Vitals.Proofs.Proc.Table
import Vitals.Proofs.Sweep.Order

namespace Vitals

open Vitals.Path (Key IsName)
open Proc

-- ============================================================== places

/-- A path lies below one root as another path lies below another root. -/
def Path.SamePlace (root root' p p' : Path) : Prop :=
  ∃ names : Key, (∀ name ∈ names, IsName name)
    ∧ p.key = root.key ++ names ∧ p'.key = root'.key ++ names

namespace Path.SamePlace

variable {root root' p p' : Path}

/-- The roots stand in the same place. -/
theorem self (root root' : Path) : SamePlace root root' root root' :=
  ⟨[], nofun, (List.append_nil _).symm, (List.append_nil _).symm⟩

/-- What is one name below two paths in the same place is in the same place. -/
theorem join (h : SamePlace root root' p p') (name : String) (hname : IsName name) :
    SamePlace root root' (p.join ⟨name⟩) (p'.join ⟨name⟩) := by
  obtain ⟨names, hnames, hp, hp'⟩ := h
  refine ⟨names ++ [name], ?_, ?_, ?_⟩
  · intro other hother
    rcases List.mem_append.mp hother with hother | hother
    · exact hnames other hother
    · rw [List.mem_singleton.mp hother]
      exact hname
  · rw [key_join_name p hname, hp, List.append_assoc]
  · rw [key_join_name p' hname, hp', List.append_assoc]

end Path.SamePlace

/-- The text of a process number has nothing but digits and a sign. -/
theorem of_mem_pidText {pid : Int32} {c : Char} (h : c ∈ (pidText pid).toList) :
    c = '-' ∨ c.isDigit = true := by
  rw [pidText, String.toList_ofList, Text.signedDecimal] at h
  split at h
  · rcases List.mem_cons.mp h with rfl | h
    · exact .inl rfl
    · exact .inr (Text.isDigit_of_mem_decimal h)
  · exact .inr (Text.isDigit_of_mem_decimal h)

/-- The digits of a number, and its sign, make a name. -/
theorem isName_pidText (pid : Int32) : IsName (pidText pid) := by
  have hne : pidText pid ≠ "" := by
    intro hnil
    have hlist : Text.signedDecimal pid.toInt = [] := by
      simpa [pidText] using congrArg String.toList hnil
    unfold Text.signedDecimal at hlist
    split at hlist
    · cases hlist
    · exact Text.decimal_ne_nil _ hlist
  refine ⟨hne, fun hc => ?_, fun hhere => ?_, fun habove => ?_⟩
  · exact absurd (of_mem_pidText hc) (by decide)
  · exact absurd (@of_mem_pidText pid '.' (by rw [hhere]; decide)) (by decide)
  · exact absurd (@of_mem_pidText pid '.' (by rw [habove]; decide)) (by decide)

-- ============================================================== answers

/-- Two answers are the same value, or both are failures. -/
def SameValue {ε ε' α : Type} (x : Except ε α) (y : Except ε' α) : Prop :=
  x.toOption = y.toOption

namespace SameValue

variable {ε ε' ε'' α β : Type}

/-- Two answers fail together, or give one value. -/
theorem cases {x : Except ε α} {y : Except ε' α} (h : SameValue x y) :
    (∃ cause cause', x = .error cause ∧ y = .error cause')
      ∨ ∃ value, x = .ok value ∧ y = .ok value := by
  cases x with
  | error cause =>
      cases y with
      | error cause' => exact .inl ⟨cause, cause', rfl, rfl⟩
      | ok value => cases h
  | ok value =>
      cases y with
      | error cause' => cases h
      | ok value' =>
          cases h
          exact .inr ⟨value, rfl, rfl⟩

/-- What goes on alike from the same values comes to the same values. -/
theorem bind {x : Except ε α} {y : Except ε' α} (h : SameValue x y) {f : α → Except ε β}
    {g : α → Except ε' β} (hf : ∀ value, SameValue (f value) (g value)) :
    SameValue (x >>= f) (y >>= g) := by
  rcases h.cases with ⟨cause, cause', rfl, rfl⟩ | ⟨value, rfl, rfl⟩
  · rfl
  · exact hf value

/-- What is said of a failure has no part in it. -/
theorem mapError {x : Except ε α} {y : Except ε' α} (h : SameValue x y) (f : ε → ε'')
    (g : ε' → ε'') : SameValue (x.mapError f) (y.mapError g) := by
  rcases h.cases with ⟨cause, cause', rfl, rfl⟩ | ⟨value, rfl, rfl⟩
  · rfl
  · rfl

end SameValue

/-- The report of a sweep, or of a part of one, and the store that it leaves. -/
def Sweep.shown (result : Outcome × Store) : Report × Store := (result.1.report, result.2)

/-- The report of a sweep that has happened, and the store that it left. -/
def Sweep.Generation.shown (g : Generation) : Report × Store := (g.outcome.report, g.store)

/-- Two file systems answer alike below a root each. -/
structure FileSystem.Alike (root root' : Path) (fs fs' : FileSystem) : Prop where
  /-- A file has the same text, if it can be read. -/
  read : ∀ p p', Path.SamePlace root root' p p' → SameValue (fs.read p) (fs'.read p')
  /-- A path is there below both roots or below neither. -/
  contains : ∀ p p', Path.SamePlace root root' p p' → fs.contains p = fs'.contains p'
  /-- Both roots can be listed, and their listings name the same. -/
  list : ∃ l l' l'', fs.list root = .ok l ∧ fs'.list root' = .ok l' ∧ l.Perm l''
    ∧ List.Forall₂ (fun entry entry' => ∃ name, IsName name
        ∧ entry.key = root.key ++ [name] ∧ entry'.key = root'.key ++ [name]) l'' l'

namespace FileSystem.Alike

variable {root root' : Path} {fs fs' : FileSystem} (h : Alike root root' fs fs')
include h

-- ============================================================== the host

/-- A file is read alike below both roots. -/
theorem readFile {name : String} (hname : IsName name) :
    SameValue (Proc.readFile fs (root.join ⟨name⟩)) (Proc.readFile fs' (root'.join ⟨name⟩)) :=
  (h.read _ _ ((Path.SamePlace.self root root').join name hname)).mapError _ _

theorem readUptime : SameValue (Proc.readUptime fs root) (Proc.readUptime fs' root') :=
  (h.readFile (by decide)).bind fun _ => rfl

theorem readCpuRows : SameValue (Proc.readCpuRows fs root) (Proc.readCpuRows fs' root') :=
  (h.readFile (by decide)).bind fun _ => rfl

theorem readMemory : SameValue (Proc.readMemory fs root) (Proc.readMemory fs' root') :=
  (h.readFile (by decide)).bind fun _ => rfl

-- ========================================================== the processes

/-- An entry is one of the same process below both roots. -/
theorem entryPid?_eq {entry entry' : Path} {name : String} (hname : IsName name)
    (hentry : entry.key = root.key ++ [name]) (hentry' : entry'.key = root'.key ++ [name]) :
    entryPid? fs entry = entryPid? fs' entry' := by
  have hfile : ∀ {above : Key} {p : Path}, p.key = above ++ [name] → p.fileName? = some name := by
    intro above p hp
    rw [Path.fileName?, hp, List.getLast?_concat]
    exact if_neg fun hnot => hnot.elim hname.ne_root (Or.rec hname.2.2.1 hname.2.2.2)
  have hplace : Path.SamePlace root root' entry entry' :=
    ⟨[name], by simpa using hname, hentry, hentry'⟩
  rw [entryPid?, entryPid?, hfile hentry, hfile hentry',
    h.contains _ _ (hplace.join "status" (by decide))]

variable (config : Config)

/-- The same processes are discovered. -/
theorem discover : SameValue (Proc.discover fs { config with root := root })
    (Proc.discover fs' { config with root := root' }) := by
  obtain ⟨l, l', l'', hlist, hlist', hperm, hnames⟩ := h.list
  have hpids : l''.filterMap (entryPid? fs) = l'.filterMap (entryPid? fs') := by
    clear hlist hlist' hperm
    induction hnames with
    | nil => rfl
    | cons hentry _ ih =>
        obtain ⟨name, hname, hkey, hkey'⟩ := hentry
        rw [List.filterMap_cons, List.filterMap_cons, ih, h.entryPid?_eq hname hkey hkey']
  rw [Proc.discover, Proc.discover, hlist, hlist']
  dsimp only
  rw [mergeSort_pids_eq (hperm.filterMap (entryPid? fs)), hpids]
  rfl

/-- Each of them is read alike. -/
theorem collect (pid : Int32) (totalKb : UInt64) :
    SameValue (Proc.collect fs { config with root := root } pid totalKb)
      (Proc.collect fs' { config with root := root' } pid totalKb) := by
  have hplace : Path.SamePlace root root' (directoryOf { config with root := root } pid)
      (directoryOf { config with root := root' } pid) :=
    (Path.SamePlace.self root root').join _ (isName_pidText pid)
  have hstat := h.read _ _ (hplace.join "stat" (by decide))
  have hcmdline := h.read _ _ (hplace.join "cmdline" (by decide))
  unfold Proc.collect
  dsimp only
  rcases (h.read _ _ (hplace.join "status" (by decide))).cases
    with ⟨cause, cause', hstatus, hstatus'⟩ | ⟨content, hstatus, hstatus'⟩
  · rw [hstatus, hstatus']
    rfl
  · rw [hstatus, hstatus']
    rcases hstat.cases with ⟨_, _, hstat, hstat'⟩ | ⟨_, hstat, hstat'⟩
    all_goals
      rcases hcmdline.cases with ⟨_, _, hcmdline, hcmdline'⟩ | ⟨_, hcmdline, hcmdline'⟩
      all_goals
        rw [hstat, hstat', hcmdline, hcmdline']
        rfl

/-- So are all of them, one by one. -/
theorem collectEach_eq (totalKb : UInt64) (pids : List Int32) :
    collectEach fs { config with root := root } totalKb pids
      = collectEach fs' { config with root := root' } totalKb pids := by
  unfold collectEach
  refine List.filterMap_congr fun pid _ => ?_
  rcases (h.collect config pid totalKb).cases
    with ⟨cause, cause', hpid, hpid'⟩ | ⟨reading, hpid, hpid'⟩
  · rw [hpid, hpid']
  · rw [hpid, hpid']

/-- And as a whole. -/
theorem collectAll (totalKb : UInt64) :
    SameValue (Proc.collectAll fs { config with root := root } totalKb)
      (Proc.collectAll fs' { config with root := root' } totalKb) := by
  rw [Proc.collectAll_eq, Proc.collectAll_eq]
  refine (h.discover config).bind fun pids => ?_
  show SameValue (.ok (gathered (collectEach fs _ totalKb pids))) _
  rw [h.collectEach_eq]
  rfl

-- ============================================================== sweeps

/-- A phase reports the same below both roots, and leaves the same store. -/
theorem phase_eq (p : Sweep.Phase) (s : Store) :
    Sweep.shown ((Sweep.phase fs { config with root := root } p).run s)
      = Sweep.shown ((Sweep.phase fs' { config with root := root' } p).run s) := by
  cases p with
  | uptime =>
      rw [Sweep.phase, Sweep.phase, Sweep.uptimePhase, Sweep.uptimePhase]
      rcases h.readUptime.cases with ⟨cause, cause', hread, hread'⟩ | ⟨uptime, hread, hread'⟩
      · rw [hread, hread']
        rfl
      · rw [hread, hread']
  | cpu =>
      rw [Sweep.phase, Sweep.phase, Sweep.cpuPhase, Sweep.cpuPhase]
      rcases h.readCpuRows.cases with ⟨cause, cause', hread, hread'⟩ | ⟨rows, hread, hread'⟩
      · rw [hread, hread']
        rfl
      · rw [hread, hread']
  | memory =>
      rw [Sweep.phase, Sweep.phase, Sweep.memoryPhase, Sweep.memoryPhase]
      rcases h.readMemory.cases with ⟨cause, cause', hread, hread'⟩ | ⟨reading, hread, hread'⟩
      · rw [hread, hread']
        rfl
      · rw [hread, hread']
  | processes =>
      rw [Sweep.phase, Sweep.phase, Sweep.processPhase, Sweep.processPhase, Script.run, Script.run]
      rcases (h.collectAll config s.memory.totalKb).cases
        with ⟨cause, cause', hread, hread'⟩ | ⟨reading, hread, hread'⟩
      · rw [hread, hread']
        rfl
      · rw [hread, hread']

/-- Phases report the same below both roots, and leave the same store. -/
theorem phases_eq (ps : List Sweep.Phase) (s : Store) :
    Sweep.shown ((Sweep.phases fs { config with root := root } ps).run s)
      = Sweep.shown ((Sweep.phases fs' { config with root := root' } ps).run s) := by
  induction ps generalizing s with
  | nil => rfl
  | cons p ps ih =>
      have hphase := Prod.mk.inj (h.phase_eq config p s)
      have hrest := Prod.mk.inj (ih ((Sweep.phase fs' { config with root := root' } p).run s).2)
      rw [Sweep.phases, Sweep.phases, Script.run_bind, Script.run_bind, Script.run_bind,
        Script.run_bind, hphase.2]
      exact Prod.ext (congrArg₂ Sweep.Report.append hphase.1 hrest.1) hrest.2

/-- A sweep reports the same below both roots, and leaves the same store. -/
theorem sweep_eq (s : Store) :
    Sweep.shown (Sweep.sweep fs { config with root := root } s)
      = Sweep.shown (Sweep.sweep fs' { config with root := root' } s) := by
  rw [Sweep.sweep, Sweep.sweep, Sweep.script, Sweep.script, Script.run_bind, Script.run_bind]
  exact h.phases_eq config Sweep.Phase.all s

end FileSystem.Alike

/-- Sweeps over file systems that look alike, one after the other, report the same and
leave the same stores. -/
theorem Sweep.generations_eq_of_alike {root root' : Path} {fss fss' : List FileSystem}
    (h : List.Forall₂ (FileSystem.Alike root root') fss fss') (config : Config) (s : Store) :
    (generations { config with root := root } s fss).map Generation.shown
      = (generations { config with root := root' } s fss').map Generation.shown := by
  induction h generalizing s with
  | nil => rfl
  | cons hfs _ ih =>
      have hsweep := hfs.sweep_eq config s
      rw [generations, generations, List.map_cons, List.map_cons, (Prod.mk.inj hsweep).2, ih]
      exact congrArg (· :: _) hsweep

end Vitals
