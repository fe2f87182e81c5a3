/-
The endpoints that publish the newest samples, one for each category.
-/
import Vitals.Http.Dispatcher
import Vitals.Json.Record
import Vitals.Store

namespace Vitals.Http

open Json

-- ============================================================ bodies

/-- What a body tells of a value: the fields that are exposed, and their
scalars. -/
structure Exposure (α : Type) where
  /-- The exposed fields. -/
  schema : Schema
  /-- The scalars of a value. -/
  row : α → Row schema

/-- What is exposed of an uptime. -/
def uptimeExposure : Exposure Uptime where
  schema := [⟨"hours", .word32⟩, ⟨"minutes", .word8⟩, ⟨"seconds", .word8⟩,
    ⟨"total_seconds", .double⟩, ⟨"formatted", .text⟩]
  row u := (u.hours, u.minutes, u.seconds, u.totalSeconds, u.formatted, ())

/-- What is exposed of a processor row. -/
def cpuExposure : Exposure Cpu where
  schema := [⟨"id", .text⟩, ⟨"usage_percent", .single⟩]
  row c := (c.id, c.usagePercent, ())

/-- What is exposed of a process. -/
def processExposure : Exposure ProcessUsage where
  schema := [⟨"pid", .signed32⟩, ⟨"ppid", .signed32⟩, ⟨"name", .text⟩, ⟨"command", .text⟩,
    ⟨"mem_usage_percent", .single⟩, ⟨"cpu_usage_percent", .single⟩]
  row p := (p.pid, p.ppid, p.name, p.command, p.memUsagePercent, p.cpuUsagePercent, ())

/-- What is exposed of a memory. -/
def memoryExposure : Exposure Memory where
  schema := [⟨"total_memory_kB", .word64⟩, ⟨"free_memory_kB", .word64⟩,
    ⟨"usage_percent", .single⟩]
  row m := (m.totalKb, m.freeKb, m.usagePercent, ())

/-- The body for one value. -/
def Exposure.one {α : Type} (e : Exposure α) (x : α) : String :=
  .ofList (Row.write e.schema (e.row x))

/-- The body for a list of values. -/
def Exposure.many {α : Type} (e : Exposure α) (xs : List α) : String :=
  .ofList (Row.writeAll e.schema (xs.map e.row))

-- ======================================================== categories

/-- The categories that have an endpoint. -/
inductive Category where
  | uptime
  | cpus
  | processes
  | memory
deriving DecidableEq, Repr

/-- The categories in the order of their registration. -/
def Category.all : List Category := [.uptime, .cpus, .processes, .memory]

/-- The resource of a category. -/
def Category.resource : Category → String
  | uptime => "/v0/uptime"
  | cpus => "/v0/cpus"
  | processes => "/v0/procs"
  | memory => "/v0/mem"

/-- The body that publishes a category. -/
def Category.body (s : Store) : Category → String
  | uptime => uptimeExposure.one s.uptime
  | cpus => cpuExposure.many s.cpuList
  | processes => processExposure.many s.processList
  | memory => memoryExposure.one s.memory

/-- What comes of writing the body of a category: the body, or the wording of why it
cannot be written. Keys are texts, a number without digits is written as `null`, and
a text takes whatever is written to it, so nothing here fails. -/
def Category.write (s : Store) (category : Category) : Except String String :=
  .ok (category.body s)

-- =============================================================== api

variable {σ : Type}

/-- The answer with a body that was to be written. A request whose body cannot be
written fails, and the cause is told. -/
def answerWritten (request : Request) (state : σ) : Except String String → Handled σ
  | .ok body => { response := .ok request.keepAlive body, state }
  | .error cause =>
      { response := .serverError request.keepAlive, state
        events := [.unwritten request.target cause] }

/-- The endpoint of a category, for states that hold a store. -/
def Category.endpoint (store : σ → Store) (category : Category) : Endpoint σ :=
  fun request state => answerWritten request state (category.write (store state))

/-- The dispatcher with the endpoints of all categories. -/
def Dispatcher.addApi (d : Dispatcher σ) (store : σ → Store) : Dispatcher σ :=
  Category.all.foldl
    (fun d category => (d.addRoute "GET" category.resource (category.endpoint store)).1) d

/-- The dispatcher that publishes a store, and nothing else. -/
def api : Dispatcher Store := Dispatcher.empty.addApi id

end Vitals.Http
