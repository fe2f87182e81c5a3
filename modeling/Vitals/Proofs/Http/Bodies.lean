/-
What the body of a category tells, and that it tells nothing else.

# Why it holds

The body of a category is what is written of its rows, and a row that is written is read
back (`decode?_body`): its keys are those of the category, in their order, its strings are
the strings of the store with every character they have, and its numbers are so near to
those of the store that no other number is nearer. So a body is decided by the rows, and
decides them (`body_eq_iff`). The counters that the rows are made from have no place in a
row, and two stores that differ in nothing else have the same bodies.
-/
import Vitals.Proofs.Http.Answers
import Vitals.Proofs.Json.Rows

namespace Vitals.Http

open Json

-- ================================================================ rows

/-- The fields that are told of a category, each with its key. -/
def Category.schema : Category → Schema
  | uptime => [⟨"hours", .word32⟩, ⟨"minutes", .word8⟩, ⟨"seconds", .word8⟩,
      ⟨"total_seconds", .double⟩, ⟨"formatted", .text⟩]
  | cpus => [⟨"id", .text⟩, ⟨"usage_percent", .single⟩]
  | processes => [⟨"pid", .signed32⟩, ⟨"ppid", .signed32⟩, ⟨"name", .text⟩, ⟨"command", .text⟩,
      ⟨"mem_usage_percent", .single⟩, ⟨"cpu_usage_percent", .single⟩]
  | memory => [⟨"total_memory_kB", .word64⟩, ⟨"free_memory_kB", .word64⟩,
      ⟨"usage_percent", .single⟩]

/-- The rows that are told of a category: the one row of the uptime or the memory, a row
for each processor row or process, in the order in which the store lists them. -/
def Category.told (s : Store) : (category : Category) → List (Row category.schema)
  | uptime => [(s.uptime.hours, s.uptime.minutes, s.uptime.seconds, s.uptime.totalSeconds,
      s.uptime.formatted, ())]
  | cpus => s.cpuList.map fun row => (row.id, row.usagePercent, ())
  | processes => s.processList.map fun process => (process.pid, process.ppid, process.name,
      process.command, process.memUsagePercent, process.cpuUsagePercent, ())
  | memory => [(s.memory.totalKb, s.memory.freeKb, s.memory.usagePercent, ())]

/-- A category with no number that is an infinity or not a number. -/
def Category.Finite (s : Store) : Category → Prop
  | uptime => s.uptime.totalSeconds.IsFinite
  | cpus => ∀ row ∈ s.cpuList, row.usagePercent.IsFinite
  | processes => ∀ process ∈ s.processList,
      process.memUsagePercent.IsFinite ∧ process.cpuUsagePercent.IsFinite
  | memory => s.memory.usagePercent.IsFinite

/-- The rows that a text tells of a category, if it is a text of JSON that tells any. -/
def Category.decode? : (category : Category) → String → Option (List (Row category.schema))
  | uptime, body => ((Value.ofText body.toList).toOption.bind (Value.row? _)).map ([·])
  | cpus, body => (Value.ofText body.toList).toOption.bind (Value.rows? _)
  | processes, body => (Value.ofText body.toList).toOption.bind (Value.rows? _)
  | memory, body => ((Value.ofText body.toList).toOption.bind (Value.row? _)).map ([·])

-- ============================================================== bodies

variable {s t : Store} {category : Category}

/-- Whatever a store holds, its bodies are texts of JSON. -/
theorem exists_ofText_body (s : Store) (category : Category) :
    ∃ value, Value.ofText (category.body s).toList = .ok value := by
  cases category with
  | uptime =>
      rw [Category.body, Exposure.one, String.toList_ofList]
      exact ⟨_, Value.ofText_of_denotes (Value.denotes_write _ _)⟩
  | memory =>
      rw [Category.body, Exposure.one, String.toList_ofList]
      exact ⟨_, Value.ofText_of_denotes (Value.denotes_write _ _)⟩
  | cpus =>
      rw [Category.body, Exposure.many, String.toList_ofList]
      exact ⟨_, Value.ofText_of_denotes (Value.denotes_writeAll _ _)⟩
  | processes =>
      rw [Category.body, Exposure.many, String.toList_ofList]
      exact ⟨_, Value.ofText_of_denotes (Value.denotes_writeAll _ _)⟩

theorem finite_told (h : category.Finite s) :
    ∀ row ∈ category.told s, Row.Finite category.schema row := by
  intro row hrow
  cases category with
  | uptime =>
      obtain rfl := List.mem_singleton.mp hrow
      exact ⟨trivial, trivial, trivial, h, trivial, trivial⟩
  | memory =>
      obtain rfl := List.mem_singleton.mp hrow
      exact ⟨trivial, trivial, h, trivial⟩
  | cpus =>
      obtain ⟨cpu, hcpu, rfl⟩ := List.mem_map.mp hrow
      exact ⟨trivial, h cpu hcpu, trivial⟩
  | processes =>
      obtain ⟨process, hprocess, rfl⟩ := List.mem_map.mp hrow
      have hshares := h process hprocess
      exact ⟨trivial, trivial, trivial, trivial, hshares.1, hshares.2, trivial⟩

/-- The rows of a category are read back from its body. -/
theorem decode?_body (h : category.Finite s) :
    category.decode? (category.body s) = some (category.told s) := by
  have hfinite := finite_told h
  cases category with
  | uptime =>
      rw [Category.decode?, Category.body, Exposure.one, String.toList_ofList]
      exact congrArg (Option.map ([·])) (Value.row?_ofText (hfinite _ (List.mem_cons_self ..)))
  | memory =>
      rw [Category.decode?, Category.body, Exposure.one, String.toList_ofList]
      exact congrArg (Option.map ([·])) (Value.row?_ofText (hfinite _ (List.mem_cons_self ..)))
  | cpus =>
      rw [Category.decode?, Category.body, Exposure.many, String.toList_ofList]
      exact Value.rows?_ofText hfinite
  | processes =>
      rw [Category.decode?, Category.body, Exposure.many, String.toList_ofList]
      exact Value.rows?_ofText hfinite

/-- Nothing but the rows of a category has a place in its body. -/
theorem body_eq_of_told_eq (h : category.told s = category.told t) :
    category.body s = category.body t := by
  cases category with
  | uptime => exact congrArg (fun row => String.ofList (Row.write _ row)) (List.cons.inj h).1
  | memory => exact congrArg (fun row => String.ofList (Row.write _ row)) (List.cons.inj h).1
  | cpus => exact congrArg (fun rows => String.ofList (Row.writeAll _ rows)) h
  | processes => exact congrArg (fun rows => String.ofList (Row.writeAll _ rows)) h

/-- Two stores have one body exactly if they have the same rows. -/
theorem body_eq_iff (hs : category.Finite s) (ht : category.Finite t) :
    category.body s = category.body t ↔ category.told s = category.told t := by
  refine ⟨fun hbody => ?_, body_eq_of_told_eq⟩
  have hdecoded := decode?_body hs
  rw [hbody, decode?_body ht] at hdecoded
  exact (Option.some.inj hdecoded).symm

-- ============================================================= answers

theorem pairwise_pid_processList (writes : List Store.Write) :
    ((Store.written writes).processList.map (·.pid)).Pairwise (· < ·) := by
  rw [List.pairwise_map]
  exact (pairwise_values (Store.keyed_written writes).processes).imp fun hab =>
    Std.compare_eq_lt.mp hab

/-- What is told by the bodies that the dispatcher of the categories answers with, whatever
has been written to the store that they are about.

A body that comes with success is a text of JSON, and it is about the category that the path
of the request names. As long as the numbers of that category are finite, the body gives its
rows back: the values of its fields under their keys, of a list one row for each entry in the
order of the store, and the processes in the order of their numbers. And another store is
answered with the same body exactly if it has the same rows, no matter what else it holds. -/
theorem bodies_tell_the_rows (earlier : UInt64) (request : Request)
    (writes others : List Store.Write) :
    let d : Dispatcher Store := { api with requests := earlier }
    let s := Store.written writes
    let t := Store.written others
    let response := (d.dispatch request s).response
    (response.status = 200 →
        (∃ value, Value.ofText response.body.toList = .ok value)
        ∧ ∃ category : Category, category.Named (pathOf request.target.toList)
          ∧ (category.Finite s →
              category.decode? response.body = some (category.told s)
              ∧ (category.Finite t →
                  ((d.dispatch request t).response.body = response.body
                    ↔ category.told t = category.told s))))
    ∧ (s.processList.map (·.pid)).Pairwise (· < ·) := by
  intro d s t response
  refine ⟨fun hok => ?_, pairwise_pid_processList writes⟩
  have hroutes : d.routes = api.routes := rfl
  -- only a request that gets a category is answered so
  obtain ⟨category, hgets, hanswer⟩ : ∃ category : Category, request.Gets category
      ∧ response = .ok request.keepAlive (category.body s) := by
    rcases dispatch_eq hroutes request s with h | ⟨-, hbad⟩
    · exact h
    · have hbad : response = .badRequest request.keepAlive := hbad
      rw [hbad] at hok
      exact absurd hok (by simp [Response.badRequest])
  have hbody : response.body = category.body s := by rw [hanswer]; rfl
  have hother : (d.dispatch request t).response.body = category.body t := by
    rw [(dispatch_of_gets hroutes hgets t).1]
    rfl
  rw [hbody, hother]
  exact ⟨exists_ofText_body s category, category, hgets.2, fun hs =>
    ⟨decode?_body hs, fun ht => body_eq_iff ht hs⟩⟩

end Vitals.Http
