/-
The command line. The program sweeps the process table below the directory it
is given, or below the usual one, and answers the requests of one session: they
come on standard input without bodies, and the replies go to standard output.
All that it does itself is read files and lines; what they mean is decided by
the library.
-/
import Vitals.FileSystem.Tree
import Vitals.Http.Session
import Vitals.Sweep

namespace Vitals.Main

-- ========================================================= the table

/-- The change that adds a file as it is now, if it can be read. -/
def fileNow? (path : Path) : IO (Option Tree.Edit) := do
  try
    return some (.addFile path (← IO.FS.readFile path.text))
  catch _ =>
    return none

/-- The names of the entries of a directory, none if it cannot be listed. -/
def namesNow (directory : Path) : IO (List String) := do
  try
    let entries ← ((← IO.currentDir) / directory.text).readDir
    return entries.toList.map (·.fileName)
  catch _ =>
    return []

/-- The files that a sweep may read below the root, by the names of its
entries. -/
def namesOfFiles (entries : List String) : List String :=
  ["uptime", "stat", "meminfo"] ++ entries.flatMap fun entry =>
    ["status", "stat", "cmdline"].map fun file => entry ++ "/" ++ file

/-- The process table as it is now. -/
def tableNow (root : Path) : IO Tree := do
  let entries := (← namesNow root).filter (·.all Char.isDigit)
  let files ← (namesOfFiles entries).filterMapM fun name => fileNow? (root.join ⟨name⟩)
  return files.foldl Tree.apply .empty

-- ======================================================= the session

/-- The head of the next request, up to an empty line or the end of the input;
empty if there is none. -/
partial def nextHead (input : IO.FS.Stream) (read : String) : IO String := do
  let line ← input.getLine
  if line.isEmpty then return read
  else if line.trimAscii.isEmpty then
    if read.isEmpty then nextHead input read else return read
  else nextHead input (read ++ line)

/-- Answers requests until a reply closes the session or there are no more. -/
partial def serve (input output : IO.FS.Stream) (limit : Duration)
    (dispatcher : Http.Dispatcher Store) (store : Store) : IO Unit := do
  match Http.Incoming.parse (← nextHead input "") with
  | none => return
  | some request =>
      let answered := Http.answer limit dispatcher store request
      let reply := answered.message.reply request
      output.putStr reply.text
      output.flush
      if !reply.closes then serve input output limit answered.dispatcher answered.state

end Vitals.Main

/-- Sweeps the table below the first argument and serves one session. -/
def main (arguments : List String) : IO Unit := do
  let config : Vitals.Proc.Config := match arguments with
    | root :: _ => { root := ⟨root⟩ }
    | [] => {}
  let table ← Vitals.Main.tableNow config.root
  let store := (Vitals.Sweep.sweep table.fileSystem config .empty).2
  Vitals.Main.serve (← IO.getStdin) (← IO.getStdout) (.ofParts 10 0) Vitals.Http.api store
