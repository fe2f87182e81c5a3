/-
The JSON form of the samples.
-/
import Vitals.Json.Record
import Vitals.Snapshot

namespace Vitals

open Json

/-- The JSON form of an uptime. -/
def Uptime.codec : Codec Uptime where
  schema := [⟨"total_seconds", .double⟩, ⟨"hours", .word32⟩, ⟨"minutes", .word8⟩,
    ⟨"seconds", .word8⟩]
  toRow u := (u.totalSeconds, u.hours, u.minutes, u.seconds, ())
  ofRow := fun (totalSeconds, hours, minutes, seconds, _) =>
    { totalSeconds, hours, minutes, seconds }

/-- The JSON form of a memory. -/
def Memory.codec : Codec Memory where
  schema := [⟨"total_kb", .word64⟩, ⟨"free_kb", .word64⟩, ⟨"usage_percent", .single⟩]
  toRow m := (m.totalKb, m.freeKb, m.usagePercent, ())
  ofRow := fun (totalKb, freeKb, usagePercent, _) => { totalKb, freeKb, usagePercent }

/-- The JSON form of a processor row. -/
def Cpu.codec : Codec Cpu where
  schema := [⟨"id", .text⟩, ⟨"idle_jiffies", .word64⟩, ⟨"total_jiffies", .word64⟩,
    ⟨"usage_percent", .single⟩]
  toRow c := (c.id, c.idleJiffies, c.totalJiffies, c.usagePercent, ())
  ofRow := fun (id, idleJiffies, totalJiffies, usagePercent, _) =>
    { id, idleJiffies, totalJiffies, usagePercent }

/-- The JSON form of a process. -/
def ProcessUsage.codec : Codec ProcessUsage where
  schema := [⟨"pid", .signed32⟩, ⟨"ppid", .signed32⟩, ⟨"name", .text⟩, ⟨"command", .text⟩,
    ⟨"mem_usage_kb", .word64⟩, ⟨"mem_usage_percent", .single⟩, ⟨"utime", .word64⟩,
    ⟨"stime", .word64⟩, ⟨"cpu_usage_percent", .single⟩]
  toRow p := (p.pid, p.ppid, p.name, p.command, p.memUsageKb, p.memUsagePercent, p.utime,
    p.stime, p.cpuUsagePercent, ())
  ofRow := fun (pid, ppid, name, command, memUsageKb, memUsagePercent, utime, stime,
      cpuUsagePercent, _) =>
    { pid, ppid, name, command, memUsageKb, memUsagePercent, utime, stime, cpuUsagePercent }

end Vitals
