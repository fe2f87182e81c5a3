/-
The stores that a life comes by, and what holds of all of them.

A reader does not wait for a sweep to be over, so the stores of a life are not
only those that its sweeps leave but those of every moment in between: `storeAt`
counts the accesses that have been made. Of such a store each category is as some
sweep left it, and not all of them as the same one. What relates the fields of
one category therefore holds at every moment (`Invariant`), and it takes no more
than a look at what the phases publish. What relates two categories has to be
looked for right after a sweep, where `exists_of_mem_history` leads.
-/
import Vitals.Proofs.Sweep.Isolation
import Vitals.Proofs.Sweep.Pace

namespace Vitals.Sweep

open Proc

variable {config : Config}

-- ============================================================ moments

/-- The store of a life after so many accesses of its sweeps, from nothing. -/
def storeAt (config : Config) (fs : FileSystem) (turns : List Turn) (time : Nat) : Store :=
  ((sweeps config (found fs turns)).after time .empty).2

theorem latest_history (fs : FileSystem) (turns : List Turn) :
    latest (history config fs turns) = swept config .empty (found fs turns) :=
  latest_generations config _

/-- Once all accesses have been made, the store is the one that the last sweep
left. -/
theorem storeAt_of_accesses_le {fs : FileSystem} {turns : List Turn} {time : Nat}
    (h : (sweeps config (found fs turns)).accesses .empty ≤ time) :
    storeAt config fs turns time = latest (history config fs turns) := by
  rw [storeAt, Script.after_of_accesses_le h, run_sweeps, latest_history]

/-- A generation of a life is that of a sweep from some store. -/
theorem exists_of_mem_history {fs : FileSystem} {turns : List Turn} {g : Generation}
    (h : g ∈ history config fs turns) : ∃ s, g = generation config s g.fileSystem := by
  have hrun : ∀ s fss, g ∈ generations config s fss →
      ∃ s, g = generation config s g.fileSystem := by
    intro s fss
    induction fss generalizing s with
    | nil => exact fun hmem => absurd hmem List.not_mem_nil
    | cons fs fss ih =>
        intro hmem
        rcases List.mem_cons.mp hmem with rfl | hrest
        · exact ⟨s, rfl⟩
        · exact ih _ hrest
  exact hrun _ _ h

-- ========================================================= invariants

/-- A property of contents that those of the empty store have, and whatever a
phase puts in their place. -/
structure Invariant (config : Config) (Q : Content → Prop) : Prop where
  empty : ∀ p, Q (Store.empty.content p)
  published : ∀ {fs s totalKb p content},
    replacement fs config s totalKb p = some content → Q content

namespace Invariant

variable {Q : Content → Prop}

/-- A sweep leaves a category replaced or as it was. -/
theorem content_sweep (h : Invariant config Q) {s : Store} (hs : ∀ p, Q (s.content p))
    (fs : FileSystem) (p : Phase) : Q ((sweep fs config s).2.content p) := by
  rw [Sweep.content_sweep]
  cases hreplacement : replacement fs config s (sweep fs config s).2.memory.totalKb p with
  | none => exact hs p
  | some content => exact h.published hreplacement

theorem content_swept (h : Invariant config Q) (fss : List FileSystem) :
    ∀ p, Q ((swept config .empty fss).content p) := by
  induction fss using List.reverseRecOn with
  | nil => exact h.empty
  | append_singleton fss fs ih =>
      rw [swept_concat]
      exact h.content_sweep ih fs

/-- At every moment each category is as some sweeps left it. -/
theorem content_storeAt (h : Invariant config Q) (fs : FileSystem) (turns : List Turn)
    (time : Nat) (p : Phase) : Q ((storeAt config fs turns time).content p) := by
  rw [storeAt, content_after_sweeps]
  exact h.content_swept _ p

end Invariant

end Vitals.Sweep
