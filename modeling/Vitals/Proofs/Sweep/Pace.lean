/-
What stands in the store while sweeps are under way. A run of sweeps is one
script, and after so many of its accesses each category is as a certain number of
sweeps left it (`generationAt`): a sweep counts for a category as soon as its
phase is over, and not before the sweep itself has begun.

# Why it holds

A phase publishes with its last access, so there is no moment at which its
category is neither what it was nor what it becomes (`store_after_phases_cons`).
No other phase of the sweep writes to that category, before or after, so within a
sweep it changes once, when the phase is over (`content_after_phases`); over a
whole run the sweeps add up (`content_after_sweeps`). A phase without its source
is over as soon as it makes no more accesses, and what it keeps is what its sweep
leaves.

Phases are over in their order, so of two categories that of the earlier phase is
never behind (`generationAt_le`), and no category ever goes back.
-/
import Mathlib.Data.List.Infix
import Vitals.Proofs.Sweep.Accesses
import Vitals.Proofs.Sweep.History

namespace Vitals.Sweep

open Proc

variable {fs : FileSystem} {config : Config}

-- ======================================================= within a phase

/-- Sampling writes nothing. -/
theorem readsOnly_sampleRows (rows : List (Except ParseError CpuTimes)) :
    (sampleRows rows).ReadsOnly := by
  induction rows with
  | nil => trivial
  | cons row rows ih =>
      cases row with
      | error e => exact ih
      | ok times => exact fun before => Script.readsOnly_bind ih fun samples => trivial

/-- A phase publishes last, whatever it publishes. -/
theorem publishesLast_phase (p : Phase) : (phase fs config p).PublishesLast := by
  cases p with
  | uptime =>
      rw [phase, uptimePhase]
      cases readUptime fs config.root with
      | error e => trivial
      | ok uptime => exact ⟨_, rfl⟩
  | cpu =>
      rw [phase, cpuPhase]
      cases readCpuRows fs config.root with
      | error e => trivial
      | ok rows =>
          exact Script.publishesLast_bind (readsOnly_sampleRows rows) fun samples => ⟨_, rfl⟩
  | memory =>
      rw [phase, memoryPhase]
      cases Proc.readMemory fs config.root with
      | error e => trivial
      | ok reading => exact ⟨_, rfl⟩
  | processes =>
      -- this phase begins with a read, of the total
      intro memory
      dsimp only
      cases collectAll fs config memory.totalKb with
      | error e => trivial
      | ok reading => exact ⟨_, rfl⟩

-- ======================================================= within a sweep

/-- The accesses of phases one after the other. -/
theorem accesses_phases_cons (p : Phase) (ps : List Phase) (s : Store) :
    (phases fs config (p :: ps)).accesses s
      = (phase fs config p).accesses s
        + (phases fs config ps).accesses (left fs config p s) := by
  rw [phases, Script.accesses_bind, Script.accesses_bind]
  rfl

/-- Until a phase is over the store is as it was, and from then on it is what the
phases after it make of what the phase left. -/
theorem store_after_phases_cons (p : Phase) (ps : List Phase) (t : Nat) (s : Store) :
    ((phases fs config (p :: ps)).after t s).2
      = if t < (phase fs config p).accesses s then s
        else ((phases fs config ps).after (t - (phase fs config p).accesses s)
          (left fs config p s)).2 := by
  rw [phases]
  split
  · rename_i h
    rw [Script.after_bind _ (Nat.le_of_lt h)]
    exact Script.store_after_of_publishesLast (publishesLast_phase p) h
  · rename_i h
    rw [Script.after_bind_of_accesses_le _ (Nat.le_of_not_lt h)]
    exact Script.store_after_bind_pure (phases fs config ps) _ _ _

/-- Phases make no more accesses than those that go on from them. -/
theorem accesses_phases_le_append (ps qs : List Phase) (s : Store) :
    (phases fs config ps).accesses s ≤ (phases fs config (ps ++ qs)).accesses s := by
  induction ps generalizing s with
  | nil => exact Nat.zero_le _
  | cons p ps ih =>
      rw [List.cons_append, accesses_phases_cons, accesses_phases_cons]
      exact Nat.add_le_add_left (ih _) _

/-- Phases of other categories never touch a category. -/
theorem content_after_phases_of_notMem {q : Phase} {ps : List Phase} (h : q ∉ ps) (t : Nat)
    (s : Store) : (((phases fs config ps).after t s).2).content q = s.content q := by
  induction ps generalizing t s with
  | nil =>
      show ((Script.done ({} : Outcome)).after t s).2.content q = _
      rw [Script.after_done]
  | cons p ps ih =>
      have hne : q ≠ p := List.ne_of_not_mem_cons h
      have hnot : q ∉ ps := List.not_mem_of_not_mem_cons h
      rw [store_after_phases_cons]
      split
      · rfl
      · rw [ih hnot, content_left_of_ne hne]

/-- Phases of other categories leave a category as it was. -/
theorem content_run_phases_of_notMem {q : Phase} {ps : List Phase} (h : q ∉ ps) (s : Store) :
    (((phases fs config ps).run s).2).content q = s.content q := by
  have hrun : (((phases fs config ps).after ((phases fs config ps).accesses s) s).2).content q
      = s.content q := content_after_phases_of_notMem h _ s
  rwa [Script.after_accesses] at hrun

/-- Among phases one after the other, the category of one is as it was until the
phase is over, and from then on as all of them leave it. -/
theorem content_after_phases {q : Phase} {ps qs : List Phase} (hps : q ∉ ps) (hqs : q ∉ qs)
    (t : Nat) (s : Store) :
    (((phases fs config (ps ++ q :: qs)).after t s).2).content q
      = if t < (phases fs config (ps ++ [q])).accesses s then s.content q
        else (((phases fs config (ps ++ q :: qs)).run s).2).content q := by
  induction ps generalizing t s with
  | nil =>
      have hone : (phases fs config [q]).accesses s = (phase fs config q).accesses s :=
        accesses_phases_cons q [] s
      rw [List.nil_append, List.nil_append, hone, store_after_phases_cons]
      split
      · rfl
      · -- the phase is over, and those behind it write elsewhere
        rw [content_after_phases_of_notMem hqs, run_phases_snd, List.foldl_cons,
          ← run_phases_snd, content_run_phases_of_notMem hqs]
  | cons p ps ih =>
      -- the phases in front write elsewhere, and only delay
      have hne : q ≠ p := List.ne_of_not_mem_cons hps
      have hnot : q ∉ ps := List.not_mem_of_not_mem_cons hps
      rw [List.cons_append, List.cons_append, store_after_phases_cons, accesses_phases_cons,
        run_phases_snd, List.foldl_cons, ← run_phases_snd]
      by_cases hfirst : t < (phase fs config p).accesses s
      · rw [if_pos hfirst, if_pos (Nat.lt_add_right _ hfirst)]
      · rw [if_neg hfirst, ih hnot, content_left_of_ne hne]
        refine if_congr ?_ rfl rfl
        omega

/-- The place of a phase in a sweep. -/
def Phase.position (p : Phase) : Nat := Phase.all.idxOf p

/-- The accesses of a sweep by which a phase is over. -/
def due (fs : FileSystem) (config : Config) (p : Phase) (s : Store) : Nat :=
  (phases fs config (Phase.all.take (p.position + 1))).accesses s

/-- Phases are over in their order. -/
theorem due_le_due {p q : Phase} (h : p.position ≤ q.position) (s : Store) :
    due fs config p s ≤ due fs config q s := by
  have hprefix : Phase.all.take (p.position + 1) <+: Phase.all.take (q.position + 1) :=
    List.take_prefix_take_left (Nat.succ_le_succ h)
  obtain ⟨between, hbetween⟩ := hprefix
  rw [due, due, ← hbetween]
  exact accesses_phases_le_append _ between s

/-- While a sweep is under way, a category is as it was until its phase is over,
and from then on as the sweep leaves it. -/
theorem content_after_script (p : Phase) (t : Nat) (s : Store) :
    (((script fs config).after t s).2).content p
      = if t < due fs config p s then s.content p else ((sweep fs config s).2).content p := by
  have hall : Phase.all.take p.position ++ p :: Phase.all.drop (p.position + 1) = Phase.all := by
    cases p <;> rfl
  have htake : Phase.all.take p.position ++ [p] = Phase.all.take (p.position + 1) := by
    cases p <;> rfl
  have hbefore : p ∉ Phase.all.take p.position := by
    cases p <;> decide
  have hbehind : p ∉ Phase.all.drop (p.position + 1) := by
    cases p <;> decide
  have hphases := @content_after_phases fs config p _ _ hbefore hbehind t s
  rw [hall, htake] at hphases
  rw [script, Script.store_after_bind_pure, hphases, sweep, script, Script.run_bind]
  rfl

-- ======================================================== over sweeps

/-- The script of sweeps one after the other, each over the file system that it
finds. -/
def sweeps (config : Config) : List FileSystem → Script (List Outcome)
  | [] => pure []
  | fs :: rest => do
      let first ← script fs config
      let others ← sweeps config rest
      return first :: others

/-- Undisturbed, sweeps tell and leave what their generations tell and leave. -/
theorem run_sweeps (fss : List FileSystem) (s : Store) :
    (sweeps config fss).run s
      = ((generations config s fss).map (·.outcome), swept config s fss) := by
  induction fss generalizing s with
  | nil => rfl
  | cons fs fss ih =>
      rw [sweeps, Script.run_bind, Script.run_bind]
      show (pure _ : Script (List Outcome)).run _ = _
      rw [Script.run_pure, ih]
      rfl

theorem accesses_sweeps_cons (fs : FileSystem) (fss : List FileSystem) (s : Store) :
    (sweeps config (fs :: fss)).accesses s
      = (script fs config).accesses s
        + (sweeps config fss).accesses (sweep fs config s).2 := by
  rw [sweeps, Script.accesses_bind, Script.accesses_bind]
  rfl

/-- Until the first sweep is over the store is as that sweep has it, and from then
on as the others have it that go on from there. -/
theorem store_after_sweeps_cons (fs : FileSystem) (fss : List FileSystem) (t : Nat)
    (s : Store) :
    ((sweeps config (fs :: fss)).after t s).2
      = if t < (script fs config).accesses s then ((script fs config).after t s).2
        else ((sweeps config fss).after (t - (script fs config).accesses s)
          (sweep fs config s).2).2 := by
  rw [sweeps]
  split
  · rename_i h
    rw [Script.after_bind _ (Nat.le_of_lt h)]
  · rename_i h
    rw [Script.after_bind_of_accesses_le _ (Nat.le_of_not_lt h)]
    exact Script.store_after_bind_pure (sweeps config fss) _ _ _

/-- The number of sweeps that count for a category after so many accesses: those
that have begun and are done with the phase of the category. -/
def generationAt (config : Config) : List FileSystem → Store → Phase → Nat → Nat
  | [], _, _, _ => 0
  | fs :: rest, s, p, t =>
      if t < (script fs config).accesses s then
        if t < due fs config p s then 0 else 1
      else
        generationAt config rest (sweep fs config s).2 p (t - (script fs config).accesses s) + 1

/-- There are no more generations than sweeps. -/
theorem generationAt_le_length (fss : List FileSystem) (s : Store) (p : Phase) (t : Nat) :
    generationAt config fss s p t ≤ fss.length := by
  induction fss generalizing s t with
  | nil => exact Nat.le_refl 0
  | cons fs fss ih =>
      rw [generationAt, List.length_cons]
      split
      · split
        · exact Nat.zero_le _
        · exact Nat.succ_le_succ (Nat.zero_le _)
      · exact Nat.succ_le_succ (ih _ _)

/-- After more accesses, and for a phase that is no later, no fewer sweeps count. -/
theorem generationAt_le {p q : Phase} (hphase : q.position ≤ p.position) {t u : Nat}
    (htime : t ≤ u) (fss : List FileSystem) (s : Store) :
    generationAt config fss s p t ≤ generationAt config fss s q u := by
  induction fss generalizing s t u with
  | nil => exact Nat.le_refl 0
  | cons fs fss ih =>
      have hdue : due fs config q s ≤ due fs config p s := due_le_due hphase s
      rw [generationAt, generationAt]
      by_cases hu : u < (script fs config).accesses s
      · rw [if_pos hu, if_pos (Nat.lt_of_le_of_lt htime hu)]
        split <;> split <;> omega
      · rw [if_neg hu]
        by_cases ht : t < (script fs config).accesses s
        · rw [if_pos ht]
          split <;> omega
        · rw [if_neg ht]
          exact Nat.succ_le_succ (ih (Nat.sub_le_sub_right htime _) _)

/-- The sweeps that are over count for every category. -/
theorem le_generationAt {fss : List FileSystem} {s : Store} {t n : Nat} (hn : n ≤ fss.length)
    (h : (sweeps config (fss.take n)).accesses s ≤ t) (p : Phase) :
    n ≤ generationAt config fss s p t := by
  induction fss generalizing s t n with
  | nil => exact hn
  | cons fs fss ih =>
      cases n with
      | zero => exact Nat.zero_le _
      | succ n =>
          rw [List.take_succ_cons, accesses_sweeps_cons] at h
          rw [generationAt, if_neg (by omega)]
          exact Nat.succ_le_succ (ih (Nat.le_of_succ_le_succ hn) (by omega))

/-- A sweep counts for no category before those ahead of it are over. -/
theorem generationAt_le_of_lt {fss : List FileSystem} {s : Store} {t n : Nat}
    (h : t < (sweeps config (fss.take n)).accesses s) (p : Phase) :
    generationAt config fss s p t ≤ n := by
  induction fss generalizing s t n with
  | nil => exact Nat.zero_le _
  | cons fs fss ih =>
      cases n with
      | zero => exact absurd h (Nat.not_lt_zero t)
      | succ n =>
          rw [List.take_succ_cons, accesses_sweeps_cons] at h
          rw [generationAt]
          split
          · split
            · exact Nat.zero_le _
            · exact Nat.succ_le_succ (Nat.zero_le _)
          · exact Nat.succ_le_succ (ih (by omega))

/-- While sweeps are under way, each category is as the sweeps that count for it
left it. -/
theorem content_after_sweeps (fss : List FileSystem) (p : Phase) (t : Nat) (s : Store) :
    (((sweeps config fss).after t s).2).content p
      = (swept config s (fss.take (generationAt config fss s p t))).content p := by
  induction fss generalizing t s with
  | nil =>
      show ((Script.done ([] : List Outcome)).after t s).2.content p = _
      rw [Script.after_done]
      rfl
  | cons fs fss ih =>
      rw [store_after_sweeps_cons, generationAt]
      split
      · rw [content_after_script]
        split
        · rfl
        · rfl
      · rw [ih, List.take_succ_cons]
        rfl

end Vitals.Sweep
