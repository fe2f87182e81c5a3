/-
Ready-made process tables: a small host at work, and the same host with two
processes caught as they end.
-/
import Vitals.FileSystem.Tree

namespace Vitals.Scenario

open Text

-- ========================================================= templates

/-- The decimal text of a number. -/
def number (n : Nat) : String := .ofList (decimal n)

/-- A scheduling line with every column. Only the process, its command, its
parent and the two counters carry a meaning. -/
def statLine (pid : Int32) (command : String) (ppid : Int32) (utime stime : Nat) : String :=
  let self := Proc.pidText pid
  self ++ " (" ++ command ++ ") S " ++ Proc.pidText ppid ++ " " ++ self ++ " " ++ self
    ++ " 0 -1 4194304 1200 0 3 0 " ++ number utime ++ " " ++ number stime
    ++ " 0 0 20 0 1 0 4200 12345678 512 18446744073709551615"
    ++ " 0 0 0 0 0 0 0 0 0 0 0 0 17 1 0 0 0 0 0 0 0 0 0 0 0 0 0"

/-- The status file of a sleeping process. -/
def status (name : String) (pid ppid : Int32) (memoryKb : Nat) : String :=
  "Name:\t" ++ name ++ "\nUmask:\t0022\nState:\tS (sleeping)\nTgid:\t" ++ Proc.pidText pid
    ++ "\nPid:\t" ++ Proc.pidText pid ++ "\nPPid:\t" ++ Proc.pidText ppid
    ++ "\nUid:\t0\t0\t0\t0\nVmPeak:\t" ++ number memoryKb ++ " kB\nVmSize:\t"
    ++ number memoryKb ++ " kB\nVmRSS:\t    2048 kB\nThreads:\t1\n"

-- ============================================================= hosts

/-- The lines of a file. -/
def file (lines : List String) : String := String.join (lines.map (· ++ "\n"))

/-- The memory file of the small host. -/
def meminfo : String := file
  [ "MemTotal:       16384000 kB",
    "MemFree:         8192000 kB",
    "MemAvailable:   12000000 kB",
    "Buffers:          512000 kB",
    "Cached:          2048000 kB",
    "SwapTotal:       4096000 kB",
    "SwapFree:        4096000 kB" ]

/-- The processor file of the small host. -/
def stat : String := file
  [ "cpu  10000 500 3000 80000 1000 200 100 0 0 0",
    "cpu0 2500 125 750 20000 250 50 25 0 0 0",
    "cpu1 2500 125 750 20000 250 50 25 0 0 0",
    "cpu2 2500 125 750 20000 250 50 25 0 0 0",
    "cpu3 2500 125 750 20000 250 50 25 0 0 0",
    "intr 1000000 50 0 0 0 0 0 0 0 1 0 0 0 100 0 0 1000",
    "ctxt 500000",
    "btime 1700000000",
    "processes 10000",
    "procs_running 2",
    "procs_blocked 0" ]

/-- Four cores, sixteen gigabytes of memory, three processes, and two entries of
the table that are no processes. -/
def typical : Tree :=
  [ .addFile ⟨"/proc/uptime"⟩ "12345.67 98765.43\n",
    .addFile ⟨"/proc/meminfo"⟩ meminfo,
    .addFile ⟨"/proc/stat"⟩ stat,
    .addProcess 1 (status "systemd" 1 0 167936) (statLine 1 "systemd" 0 150 80)
      "/sbin/init\x00splash\x00",
    .addProcess 1000 (status "bash" 1000 1 4096000) (statLine 1000 "bash" 1 30 20)
      "-bash\x00",
    .addProcess 1001 (status "sshd" 1001 1 16384) (statLine 1001 "sshd" 1 5 3)
      "sshd: /usr/sbin/sshd -D [listener]\x00",
    .addDirectory ⟨"/proc/sys"⟩,
    .addDirectory ⟨"/proc/self"⟩ ].foldl Tree.apply .empty

/-- The small host with the directory of a process that has ended, and a process
of which only the status is left. -/
def vanishing : Tree :=
  [ .addDirectory ⟨"/proc/2000"⟩,
    .addProcess 2001 (status "worker" 2001 1000 8192) "" "" ].foldl Tree.apply typical

end Vitals.Scenario
