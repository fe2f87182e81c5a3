/-
Sweeps at every interval. The first one starts when the first interval is over,
and a sweep that dies does not keep the next one from starting: it is told of, and
what it has published by then stays.
-/
import Vitals.Duration
import Vitals.FileSystem.Tree
import Vitals.Log
import Vitals.Sweep

namespace Vitals.Sweep

/-- A collector that sweeps a tree at every interval. -/
structure Periodic where
  /-- How it measures, and how long it waits. -/
  config : Proc.Config
  /-- The file system that it reads. -/
  tree : Tree
  /-- A path that it dies in reading, if there is one. -/
  fatal : Option Path := none
  /-- What it has published. -/
  store : Store := .empty
  /-- How many of its sweeps have come to their end. -/
  completed : UInt64 := 0

/-- What is told of the sweeps of an interval each. -/
inductive Notice where
  /-- A sweep has died. -/
  | died (cause : String)
  /-- The first sweep is over. -/
  | first (elapsed : Duration) (cpus processes : Nat)
  /-- A later sweep is over. -/
  | later (elapsed : Duration) (number : UInt64) (processes warnings : Nat)
  /-- A sweep took more than half of the interval. -/
  | slow (elapsed interval : Duration)
deriving DecidableEq, Repr

/-- The whole milliseconds of a span, as far as a word holds them. -/
def Notice.millis (d : Duration) : String :=
  Log.count (UInt64.ofNat (d.nanoseconds / 1000000)).toNat

/-- The record of what is told of a sweep. -/
def Notice.record : Notice → Log.Record
  | died cause => ⟨.error, "sweep panicked in spawn_blocking", [("error", cause)]⟩
  | first elapsed cpus processes =>
      ⟨.info, "first sweep completed",
        [("duration_ms", millis elapsed), ("cpus", Log.count cpus),
          ("processes", Log.count processes)]⟩
  | later elapsed number processes warnings =>
      ⟨.debug, "sweep completed",
        [("duration_ms", millis elapsed), ("sweep_count", Log.count number.toNat),
          ("processes", Log.count processes), ("warnings", Log.count warnings)]⟩
  | slow elapsed interval =>
      ⟨.warn, "sweep exceeded 50% of interval",
        [("duration_ms", millis elapsed), ("interval_ms", millis interval)]⟩

namespace Periodic

/-- The path that the next sweep dies in reading, if it comes to read it. -/
def deadly? (p : Periodic) : Option Path :=
  p.fatal.filter fun path => Phase.all.any (reads p.tree.fileSystem p.config path)

/-- The collector after one sweep, whether or not the sweep dies. -/
def tick (p : Periodic) : Periodic :=
  match p.deadly? with
  | some path => { p with store := sweepDyingAt p.tree.fileSystem p.config path p.store }
  | none =>
      { p with
        store := (sweep p.tree.fileSystem p.config p.store).2
        completed := p.completed + 1 }

/-- What is told of the next sweep, if it takes so long, or dies for a cause. -/
def told (p : Periodic) (elapsed : Duration) (cause : String) : List Notice :=
  match p.deadly? with
  | some _ => [.died cause]
  | none =>
      let report := (sweep p.tree.fileSystem p.config p.store).1.report
      let number := p.completed + 1
      let ending :=
        if number = 1 then .first elapsed report.cpus report.processes
        else .later elapsed number report.processes report.warnings
      if p.config.interval.nanoseconds / 2 < elapsed.nanoseconds then
        [ending, .slow elapsed p.config.interval]
      else [ending]

/-- The collector after so many intervals. -/
def wait (p : Periodic) (intervals : Nat) : Periodic :=
  intervals.repeat tick p

/-- The collector after a change of its file system. -/
def edit (p : Periodic) (change : Tree.Edit) : Periodic :=
  { p with tree := p.tree.apply change }

end Periodic

end Vitals.Sweep
