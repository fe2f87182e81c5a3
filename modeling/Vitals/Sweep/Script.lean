/-
Programs over a store. A script is a sequence of accesses to the store, each of
one category and each done in one step, so that the reads of others can fall
between any two of them; run without any, it is a function on stores.
-/
import Vitals.Store

namespace Vitals

/-- A program over a store that ends in a value. -/
inductive Script (α : Type) where
  /-- Ends with a value. -/
  | done (value : α)
  /-- Publishes an uptime. -/
  | setUptime (uptime : Uptime) (next : Script α)
  /-- Reads the processor row of a name. -/
  | readCpu (id : String) (next : Option Cpu → Script α)
  /-- Publishes the processor rows. -/
  | replaceCpus (rows : List Cpu) (next : Script α)
  /-- Publishes a memory. -/
  | setMemory (memory : Memory) (next : Script α)
  /-- Reads the memory. -/
  | readMemory (next : Memory → Script α)
  /-- Publishes the processes. -/
  | replaceProcesses (processes : List ProcessUsage) (next : Script α)

namespace Script

variable {α β : Type}

-- ======================================================== sequencing

/-- The script that goes on with `f` where the first one ends. -/
def bind : Script α → (α → Script β) → Script β
  | done value, f => f value
  | setUptime uptime next, f => setUptime uptime (next.bind f)
  | readCpu id next, f => readCpu id fun row => (next row).bind f
  | replaceCpus rows next, f => replaceCpus rows (next.bind f)
  | setMemory memory next, f => setMemory memory (next.bind f)
  | readMemory next, f => readMemory fun memory => (next memory).bind f
  | replaceProcesses processes next, f => replaceProcesses processes (next.bind f)

instance : Monad Script where
  pure := done
  bind := bind

-- =========================================================== running

/-- One access of a script, with what is left of it and the store afterwards. -/
def step : Script α → Store → Script α × Store
  | done value, s => (done value, s)
  | setUptime uptime next, s => (next, s.setUptime uptime)
  | readCpu id next, s => (next (s.cpu? id), s)
  | replaceCpus rows next, s => (next, s.replaceCpus rows)
  | setMemory memory next, s => (next, s.setMemory memory)
  | readMemory next, s => (next s.memory, s)
  | replaceProcesses processes next, s => (next, s.replaceProcesses processes)

/-- A whole script, from its first access to its last. -/
def run : Script α → Store → α × Store
  | done value, s => (value, s)
  | setUptime uptime next, s => next.run (s.setUptime uptime)
  | readCpu id next, s => (next (s.cpu? id)).run s
  | replaceCpus rows next, s => next.run (s.replaceCpus rows)
  | setMemory memory next, s => next.run (s.setMemory memory)
  | readMemory next, s => (next s.memory).run s
  | replaceProcesses processes next, s => next.run (s.replaceProcesses processes)

-- ============================================================== laws

@[simp] theorem run_pure (value : α) (s : Store) :
    (pure value : Script α).run s = (value, s) := rfl

/-- A sequence runs its first part, and its second from the store that left. -/
@[simp] theorem run_bind (p : Script α) (f : α → Script β) (s : Store) :
    (p >>= f).run s = (f (p.run s).1).run (p.run s).2 := by
  show (p.bind f).run s = _
  induction p generalizing s with
  | done value => rfl
  | setUptime uptime next ih => exact ih _
  | readCpu id next ih => exact ih _ _
  | replaceCpus rows next ih => exact ih _
  | setMemory memory next ih => exact ih _
  | readMemory next ih => exact ih _ _
  | replaceProcesses processes next ih => exact ih _

end Script

end Vitals
