/-
How far a script has come after so many of its accesses. `run` tells how a
script ends, which is all there is to know of one that is alone with its store;
whoever reads the store between two accesses also has to know what stands in it
by then. So accesses are counted (`accesses`), and a script is taken only as far
as a count says (`after`); the laws say how both go through a sequence, where the
counts add up.

A script that publishes last keeps what it found in its store until its last
access (`store_after_of_publishesLast`): there is no moment at which it has
published some of what it has to publish.
-/
import Vitals.Sweep.Script

namespace Vitals.Script

variable {α β : Type}

-- ========================================================== counting

/-- The accesses that a script makes, from a store that no one else writes to. -/
def accesses : Script α → Store → Nat
  | done _, _ => 0
  | setUptime uptime next, s => next.accesses (s.setUptime uptime) + 1
  | readCpu id next, s => (next (s.cpu? id)).accesses s + 1
  | replaceCpus rows next, s => next.accesses (s.replaceCpus rows) + 1
  | setMemory memory next, s => next.accesses (s.setMemory memory) + 1
  | readMemory next, s => (next s.memory).accesses s + 1
  | replaceProcesses processes next, s => next.accesses (s.replaceProcesses processes) + 1

/-- What is left of a script after so many accesses, and the store by then. A
script that has ended makes no more of them. -/
def after : Script α → Nat → Store → Script α × Store
  | p, 0, s => (p, s)
  | p, t + 1, s => (p.step s).1.after t (p.step s).2

/-- An access is one less to make. -/
theorem accesses_step {p : Script α} {s : Store} (h : 0 < p.accesses s) :
    (p.step s).1.accesses (p.step s).2 + 1 = p.accesses s := by
  cases p with
  | done value => exact absurd h (Nat.lt_irrefl 0)
  | _ => rfl

/-- The accesses of a sequence are those of its parts, of the second from the
store that the first one leaves. -/
theorem accesses_bind (p : Script α) (f : α → Script β) (s : Store) :
    (p >>= f).accesses s = p.accesses s + (f (p.run s).1).accesses (p.run s).2 := by
  show (p.bind f).accesses s = _
  induction p generalizing s with
  | done value => exact (Nat.zero_add _).symm
  | setUptime _ next ih | replaceCpus _ next ih | setMemory _ next ih
  | replaceProcesses _ next ih =>
      show (next.bind f).accesses _ + 1 = _
      rw [ih, Nat.add_right_comm]
      rfl
  | readCpu _ next ih | readMemory next ih =>
      show ((next _).bind f).accesses s + 1 = _
      rw [ih, Nat.add_right_comm]
      rfl

-- ======================================================= how far it is

theorem after_done (value : α) (t : Nat) (s : Store) :
    (done value).after t s = (done value, s) := by
  induction t with
  | zero => rfl
  | succ t ih => exact ih

/-- More accesses go on from where the first ones end. -/
theorem after_add (p : Script α) (t u : Nat) (s : Store) :
    p.after (t + u) s = (p.after t s).1.after u (p.after t s).2 := by
  induction t generalizing p s with
  | zero => rw [Nat.zero_add, after]
  | succ t ih =>
      rw [Nat.add_right_comm]
      exact ih (p.step s).1 (p.step s).2

theorem after_succ (p : Script α) (t : Nat) (s : Store) :
    p.after (t + 1) s = (p.after t s).1.step (p.after t s).2 :=
  after_add p t 1 s

/-- With the last of its accesses a script has run. -/
theorem after_accesses (p : Script α) (s : Store) :
    p.after (p.accesses s) s = (done (p.run s).1, (p.run s).2) := by
  induction p generalizing s with
  | done value => rfl
  | setUptime uptime next ih => exact ih _
  | readCpu id next ih => exact ih _ _
  | replaceCpus rows next ih => exact ih _
  | setMemory memory next ih => exact ih _
  | readMemory next ih => exact ih _ _
  | replaceProcesses processes next ih => exact ih _

/-- A script that has run stays as it is. -/
theorem after_of_accesses_le {p : Script α} {t : Nat} {s : Store} (h : p.accesses s ≤ t) :
    p.after t s = (done (p.run s).1, (p.run s).2) := by
  obtain ⟨u, rfl⟩ := Nat.exists_eq_add_of_le h
  rw [after_add, after_accesses, after_done]

/-- Until its first part has run, a sequence is that part with the rest to come. -/
theorem after_bind {p : Script α} {t : Nat} {s : Store} (f : α → Script β)
    (h : t ≤ p.accesses s) :
    (p >>= f).after t s = ((p.after t s).1 >>= f, (p.after t s).2) := by
  induction t generalizing p s with
  | zero => rfl
  | succ t ih =>
      have hstep : (p >>= f).step s = ((p.step s).1 >>= f, (p.step s).2) := by
        cases p with
        | done value => exact absurd h (Nat.not_succ_le_zero t)
        | _ => rfl
      have hcount := accesses_step (Nat.lt_of_lt_of_le (Nat.succ_pos t) h)
      have hrest : t ≤ (p.step s).1.accesses (p.step s).2 := by omega
      rw [after, after, hstep]
      exact ih hrest

/-- Once its first part has run, a sequence is the rest from the store which that
part left. -/
theorem after_bind_of_accesses_le {p : Script α} {t : Nat} {s : Store} (f : α → Script β)
    (h : p.accesses s ≤ t) :
    (p >>= f).after t s = (f (p.run s).1).after (t - p.accesses s) (p.run s).2 := by
  obtain ⟨u, rfl⟩ := Nat.exists_eq_add_of_le h
  rw [after_add, after_bind f (Nat.le_refl _), after_accesses, Nat.add_sub_cancel_left]
  rfl

/-- What is made of the value of a script in the end is of no matter to its store. -/
theorem store_after_bind_pure (p : Script α) (g : α → β) (t : Nat) (s : Store) :
    ((p >>= fun value => pure (g value)).after t s).2 = (p.after t s).2 := by
  rcases Nat.le_total t (p.accesses s) with h | h
  · rw [after_bind _ h]
  · rw [after_bind_of_accesses_le _ h, after_of_accesses_le h]
    show ((done (g (p.run s).1)).after _ _).2 = _
    rw [after_done]

-- =================================================== publishing last

/-- A script that writes nothing. -/
def ReadsOnly : Script α → Prop
  | done _ => True
  | readCpu _ next => ∀ row, (next row).ReadsOnly
  | readMemory next => ∀ memory, (next memory).ReadsOnly
  | _ => False

/-- A script that writes at most once, with its last access. -/
def PublishesLast : Script α → Prop
  | done _ => True
  | readCpu _ next => ∀ row, (next row).PublishesLast
  | readMemory next => ∀ memory, (next memory).PublishesLast
  | setUptime _ next | replaceCpus _ next | setMemory _ next | replaceProcesses _ next =>
      ∃ value, next = done value

/-- A sequence of scripts that write nothing writes nothing. -/
theorem readsOnly_bind {p : Script α} {f : α → Script β} (hp : p.ReadsOnly)
    (hf : ∀ value, (f value).ReadsOnly) : (p >>= f).ReadsOnly := by
  show (p.bind f).ReadsOnly
  induction p with
  | done value => exact hf value
  | readCpu id next ih => exact fun row => ih row (hp row)
  | readMemory next ih => exact fun memory => ih memory (hp memory)
  | _ => exact hp.elim

/-- A script that goes on after one that writes nothing still publishes last. -/
theorem publishesLast_bind {p : Script α} {f : α → Script β} (hp : p.ReadsOnly)
    (hf : ∀ value, (f value).PublishesLast) : (p >>= f).PublishesLast := by
  show (p.bind f).PublishesLast
  induction p with
  | done value => exact hf value
  | readCpu id next ih => exact fun row => ih row (hp row)
  | readMemory next ih => exact fun memory => ih memory (hp memory)
  | _ => exact hp.elim

/-- Up to its last access, a script that publishes last has changed nothing. -/
theorem store_after_of_publishesLast {p : Script α} (hp : p.PublishesLast) {t : Nat}
    {s : Store} (h : t < p.accesses s) : (p.after t s).2 = s := by
  induction t generalizing p with
  | zero => rfl
  | succ t ih =>
      cases p with
      | done value => exact absurd h (Nat.not_lt_zero _)
      | readCpu _ next | readMemory next => exact ih (hp _) (Nat.lt_of_succ_lt_succ h)
      | setUptime _ next | replaceCpus _ next | setMemory _ next | replaceProcesses _ next =>
          -- a write comes last, and here an access was still to come
          obtain ⟨value, rfl⟩ := hp
          exact absurd (Nat.lt_of_succ_lt_succ h) (Nat.not_lt_zero t)

end Vitals.Script
