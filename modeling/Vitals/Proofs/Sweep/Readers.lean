/-
Readers against a running collector. Every access of a collector to its store is
one step, and so is every read of an endpoint; between two steps of the one,
any number of the others may come, from any number of clients. An interleaving is
a list of moves (`Move`), and `interleave` carries it out with the steps of the
collector and with the endpoints as they are registered.

# Why it holds

An endpoint hands back the store that it was given, so an interleaving takes the
collector exactly as far as its own moves do, and every read comes upon the store
that the collector alone has made so far (`interleave_eq_after`,
`mem_interleave`). What stands in it by then is settled by the accesses alone
(`content_after_sweeps`). Later reads come after no fewer accesses, and after no
fewer accesses no fewer sweeps count (`generationAt_le`).
-/
import Vitals.Http.Api
import Vitals.Proofs.Sweep.Pace

namespace Vitals

open Http Proc

-- ======================================================== categories

/-- The phase that publishes what an endpoint reads. -/
def Http.Category.phase : Category → Sweep.Phase
  | uptime => .uptime
  | cpus => .cpu
  | processes => .processes
  | memory => .memory

/-- A body tells of the content of its category and of nothing else. -/
theorem Http.Category.body_congr {category : Category} {s t : Store}
    (h : s.content category.phase = t.content category.phase) :
    category.body s = category.body t := by
  cases category with
  | uptime =>
      have huptime : s.uptime = t.uptime := Content.uptime.inj h
      rw [body, body, huptime]
  | cpus =>
      have hcpus : s.cpus = t.cpus := Content.cpus.inj h
      rw [body, body, Store.cpuList, Store.cpuList, hcpus]
  | processes =>
      have hprocesses : s.processes = t.processes := Content.processes.inj h
      rw [body, body, Store.processList, Store.processList, hprocesses]
  | memory =>
      have hmemory : s.memory = t.memory := Content.memory.inj h
      rw [body, body, hmemory]

namespace Sweep

-- ====================================================== interleavings

/-- A move in an interleaving. -/
inductive Move where
  /-- The collector makes its next access. -/
  | access
  /-- A client reads a category. -/
  | read (category : Category) (request : Request)

/-- Whether a move is one of the collector. -/
def Move.isAccess : Move → Bool
  | access => true
  | read .. => false

/-- What a client got to see. -/
structure Observation where
  /-- The accesses that the collector had made by then. -/
  time : Nat
  /-- The category that was read. -/
  category : Category
  /-- What was asked. -/
  request : Request
  /-- What the category held. -/
  content : Content
  /-- What was answered. -/
  response : Response

variable {α : Type}

/-- Carries out moves after so many accesses of the collector, from what is left
of its script and the store by then. What the clients got to see is listed in the
order in which they saw it. -/
def interleave : List Move → Nat → Script α × Store → List Observation × (Script α × Store)
  | [], _, here => ([], here)
  | .access :: moves, time, (p, s) => interleave moves (time + 1) (p.step s)
  | .read category request :: moves, time, (p, s) =>
      let handled := category.endpoint id request s
      let (others, last) := interleave moves time (p, handled.state)
      ({ time, category, request, content := s.content category.phase
         response := handled.response } :: others, last)

/-- Moves take a collector as far as its own moves among them do. -/
theorem interleave_snd (moves : List Move) (time : Nat) (p : Script α) (s : Store) :
    (interleave moves time (p, s)).2 = p.after (moves.countP Move.isAccess) s := by
  induction moves generalizing time p s with
  | nil => rfl
  | cons move moves ih =>
      cases move with
      | access =>
          rw [List.countP_cons_of_pos rfl]
          exact ih (time + 1) (p.step s).1 (p.step s).2
      | read category request =>
          rw [List.countP_cons_of_neg Bool.false_ne_true]
          exact ih time p s

/-- A read sees the store that the collector alone would have made so far. -/
theorem mem_interleave {moves : List Move} {time : Nat} {p : Script α} {s : Store}
    {o : Observation} (h : o ∈ (interleave moves time (p.after time s)).1) :
    time ≤ o.time
    ∧ o.content = ((p.after o.time s).2).content o.category.phase
    ∧ o.response = .ok o.request.keepAlive (o.category.body (p.after o.time s).2) := by
  induction moves generalizing time with
  | nil => cases h
  | cons move moves ih =>
      cases move with
      | access =>
          have hlater : o ∈ (interleave moves (time + 1) (p.after (time + 1) s)).1 := by
            rw [Script.after_succ]
            exact h
          obtain ⟨htime, hseen⟩ := ih hlater
          exact ⟨Nat.le_of_succ_le htime, hseen⟩
      | read category request =>
          rcases List.mem_cons.mp h with rfl | hlater
          · exact ⟨Nat.le_refl time, rfl, rfl⟩
          · exact ih hlater

/-- Reads see the collector in the order of its accesses. -/
theorem pairwise_time_interleave (moves : List Move) (time : Nat) (p : Script α) (s : Store) :
    (interleave moves time (p.after time s)).1.Pairwise fun o o' => o.time ≤ o'.time := by
  induction moves generalizing time with
  | nil => exact .nil
  | cons move moves ih =>
      cases move with
      | access =>
          have hlater := ih (time + 1)
          rw [Script.after_succ] at hlater
          exact hlater
      | read category request =>
          refine .cons (fun o ho => ?_) (ih time)
          exact (mem_interleave ho).1

-- =========================================================== readers

/-- The generation that a read returned: the number of sweeps that counted for
its category when it was made. -/
def Observation.generation (config : Config) (fss : List FileSystem) (s : Store)
    (o : Observation) : Nat :=
  generationAt config fss s o.category.phase o.time

/-- Readers against any number of sweeps, in every interleaving of their reads
with the accesses of the collector, from every store.

Each read returns a category whole, as one of the generations left it, the store
before the sweeps being the first; it is no older than the last sweep that was
over and no newer than the one under way. A later read of the same category, or
of one that a sweep publishes earlier, never returns an older generation, where a
phase without its source counts what it kept as what its sweep left. The reads
change nothing: the collector stands where it would stand had there been none of
them, and once it has made all its accesses, its outcomes and its store are those
of the same sweeps one after the other. -/
theorem readers_see_generations (config : Config) (fss : List FileSystem) (s : Store)
    (moves : List Move) :
    (∀ o ∈ (interleave moves 0 (sweeps config fss, s)).1,
        o.generation config fss s ≤ fss.length
        ∧ o.content
            = (swept config s (fss.take (o.generation config fss s))).content o.category.phase
        ∧ o.response
            = .ok o.request.keepAlive
                (o.category.body (swept config s (fss.take (o.generation config fss s))))
        ∧ (∀ n ≤ fss.length, (sweeps config (fss.take n)).accesses s ≤ o.time →
            n ≤ o.generation config fss s)
        ∧ ∀ n, o.time < (sweeps config (fss.take n)).accesses s →
            o.generation config fss s ≤ n)
    ∧ (interleave moves 0 (sweeps config fss, s)).1.Pairwise (fun o o' =>
        o'.category.phase.position ≤ o.category.phase.position →
          o.generation config fss s ≤ o'.generation config fss s)
    ∧ (interleave moves 0 (sweeps config fss, s)).2
        = (interleave (moves.filter Move.isAccess) 0 (sweeps config fss, s)).2
    ∧ ((sweeps config fss).accesses s ≤ moves.countP Move.isAccess →
        (interleave moves 0 (sweeps config fss, s)).2
          = (.done ((generations config s fss).map (·.outcome)), swept config s fss)) := by
  refine ⟨?_, ?_, ?_, ?_⟩
  · intro o ho
    have hseen : o ∈ (interleave moves 0 ((sweeps config fss).after 0 s)).1 := ho
    obtain ⟨-, hcontent, hresponse⟩ := mem_interleave hseen
    -- what was seen is the content after so many accesses of the sweeps alone
    have hgeneration := @content_after_sweeps config fss o.category.phase o.time s
    refine ⟨generationAt_le_length fss s _ _, ?_, ?_, ?_, ?_⟩
    · rw [hcontent, hgeneration, Observation.generation]
    · rw [hresponse, Category.body_congr hgeneration, Observation.generation]
    · exact fun n hn hover => le_generationAt hn hover _
    · exact fun n hunder => generationAt_le_of_lt hunder _
  · refine (pairwise_time_interleave moves 0 (sweeps config fss) s).imp ?_
    exact fun htime hphase => generationAt_le hphase htime fss s
  · rw [interleave_snd, interleave_snd, List.countP_filter]
    simp only [Bool.and_self]
  · intro hover
    rw [interleave_snd, Script.after_of_accesses_le hover, run_sweeps]

end Sweep

end Vitals
