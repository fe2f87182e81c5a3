/-
The life of a collector: its file system changes, it sweeps, and so on, in any
order and as often as it likes. What a sweep leaves behind is a generation, and
a life that starts from the empty store is the list of its generations.

An edit is any function on file systems. Between two sweeps anything may happen
to the host, and a sweep sees no more of it than the file system it finds.
-/
import Vitals.Proofs.Sweep.Phase

namespace Vitals.Sweep

open Proc

-- ============================================================= lives

/-- What happens to a collector. -/
inductive Turn where
  /-- Its file system changes, in whatever way. -/
  | edit (change : FileSystem → FileSystem)
  /-- It sweeps. -/
  | sweep

/-- The file system after some turns. -/
def edited : FileSystem → List Turn → FileSystem
  | fs, [] => fs
  | fs, .edit change :: turns => edited (change fs) turns
  | fs, .sweep :: turns => edited fs turns

/-- The file systems that the sweeps among some turns find, in order. -/
def found : FileSystem → List Turn → List FileSystem
  | _, [] => []
  | fs, .edit change :: turns => found (change fs) turns
  | fs, .sweep :: turns => fs :: found fs turns

/-- What a sweep finds in more turns, it finds from where the first ones end. -/
theorem found_append (fs : FileSystem) (turns more : List Turn) :
    found fs (turns ++ more) = found fs turns ++ found (edited fs turns) more := by
  induction turns generalizing fs with
  | nil => rfl
  | cons turn turns ih =>
      cases turn with
      | edit change => exact ih (change fs)
      | sweep => exact congrArg (fs :: ·) (ih fs)

-- ======================================================= generations

/-- A sweep as it has happened: the file system it found, what it told, and the
store it left. -/
structure Generation where
  /-- The file system that the sweep found. -/
  fileSystem : FileSystem
  /-- What the sweep told. -/
  outcome : Outcome
  /-- The store that the sweep left. -/
  store : Store

variable (config : Config)

/-- The generation of a sweep from a store. -/
def generation (s : Store) (fs : FileSystem) : Generation :=
  { fileSystem := fs
    outcome := (sweep fs config s).1
    store := (sweep fs config s).2 }

/-- The generations of sweeps one after the other, from a store. -/
def generations : Store → List FileSystem → List Generation
  | _, [] => []
  | s, fs :: rest => generation config s fs :: generations (sweep fs config s).2 rest

/-- The store after sweeps one after the other, from a store. -/
def swept (s : Store) (fss : List FileSystem) : Store :=
  fss.foldl (fun s fs => (sweep fs config s).2) s

/-- The generations of a collector that starts with nothing in its store. -/
def history (fs : FileSystem) (turns : List Turn) : List Generation :=
  generations config .empty (found fs turns)

/-- The store that the last of some generations left. -/
def latest (earlier : List Generation) : Store :=
  match earlier.getLast? with
  | some g => g.store
  | none => .empty

theorem swept_concat (s : Store) (fss : List FileSystem) (fs : FileSystem) :
    swept config s (fss ++ [fs]) = (sweep fs config (swept config s fss)).2 := by
  simp [swept]

/-- One more sweep is one more generation, from the store that the others left. -/
theorem generations_concat (s : Store) (fss : List FileSystem) (fs : FileSystem) :
    generations config s (fss ++ [fs])
      = generations config s fss ++ [generation config (swept config s fss) fs] := by
  induction fss generalizing s with
  | nil => rfl
  | cons first fss ih => exact congrArg (generation config s first :: ·) (ih _)

/-- The last of the generations from nothing left what the sweeps left. -/
theorem latest_generations (fss : List FileSystem) :
    latest (generations config .empty fss) = swept config .empty fss := by
  rcases List.eq_nil_or_concat fss with rfl | ⟨fss, fs, rfl⟩
  · rfl
  · rw [List.concat_eq_append, generations_concat, swept_concat, latest,
      List.getLast?_concat]
    rfl

/-- After one more sweep the history of a collector has one more generation, from
the store that the last one left and the file system as it is by then. -/
theorem history_concat_sweep (fs : FileSystem) (turns : List Turn) :
    history config fs (turns ++ [.sweep])
      = history config fs turns
        ++ [generation config (latest (history config fs turns)) (edited fs turns)] := by
  rw [history, found_append]
  show generations config .empty (found fs turns ++ [edited fs turns]) = _
  rw [generations_concat, ← latest_generations]
  rfl

end Vitals.Sweep
