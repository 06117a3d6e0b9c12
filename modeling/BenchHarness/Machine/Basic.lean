import BenchHarness.Machine.Edit

/-!
# Machines

A machine is what the harness works in: a file system, a working directory, environment variables
and a clock. The working directory is held by identity, so it survives being moved or removed.
-/

namespace BenchHarness

/-- A machine. -/
structure Machine where
  files : Files
  /-- The working directory. -/
  cwd : DirId
  /-- Environment variables, each name once. -/
  environment : List (String × String)
  /-- Nanoseconds since some start. -/
  now : Nat

namespace Machine

/-- The path of the working directory. -/
def currentDir (m : Machine) : Except IoError Bytes := m.files.pathOf m.cwd

/-- Changes the working directory. -/
def changeDir (m : Machine) (path : Bytes) : Except IoError Machine := do
  pure { m with cwd := ← m.files.findDirectory m.cwd path }

/-- The absolute path, free of links, of what a path leads to. -/
def canonical (m : Machine) (path : Bytes) : Except IoError Bytes := m.files.canonical m.cwd path

end Machine

/-! ## A fresh machine -/

/-- The programs of a fresh machine. -/
def systemPrograms : List String :=
  ["sh", "cat", "echo", "printf", "wc", "head", "tail", "tee", "seq", "basename", "dirname",
    "readlink", "pwd", "ls", "mkdir", "rmdir", "rm", "mv", "cp", "ln", "touch", "chmod", "sleep",
    "env", "test", "[", "true", "false", "bash", "dash", "printenv", "grep", "tr", "cut", "sort",
    "uniq", "rev", "tac", "nl", "yes", "which", "realpath", "egrep", "fgrep",
    "timeout", "nice", "nohup"]

/-- Where the programs of a system are usually looked for. -/
def searchPath : String := "/usr/local/sbin:/usr/local/bin:/usr/sbin:/usr/bin:/sbin:/bin"

/-- An entry of a directory. -/
def entry (name : String) (n : Node) : Bytes × Node := (Utf8.encode name, n)

/-- A fresh machine: the usual directories of a system, programs in `/usr/bin`, devices in `/dev`,
and an empty `/tmp`, which is the working directory. -/
def Machine.fresh : Machine where
  files := {
    root := .directory 0 [
      entry "bin" (.link (Utf8.encode "usr/bin")),
      entry "dev" (.directory 2 [
        entry "full" (.device .full), entry "null" (.device .null),
        entry "stderr" (.device .null), entry "stdin" (.device .null),
        entry "stdout" (.device .null), entry "zero" (.device .zero)]),
      entry "etc" (.directory 5 [
        entry "passwd" (.file 0o644 (Utf8.encode "root:x:0:0:root:/root:/bin/bash\n"))]),
      entry "home" (.directory 6 []),
      entry "lib" (.link (Utf8.encode "usr/lib")),
      entry "media" (.directory 7 []),
      entry "mnt" (.directory 8 []),
      entry "opt" (.directory 9 []),
      entry "proc" (.directory 10 []),
      entry "root" (.directory 11 []),
      entry "run" (.directory 12 []),
      entry "sbin" (.link (Utf8.encode "usr/sbin")),
      entry "srv" (.directory 13 []),
      entry "sys" (.directory 14 []),
      entry "tmp" (.directory 3 []),
      entry "usr" (.directory 4 [
        entry "bin" (.directory 1 (systemPrograms.map fun p => entry p (.program p))),
        entry "lib" (.directory 15 []),
        entry "local" (.directory 16 [
          entry "bin" (.directory 17 []), entry "sbin" (.directory 18 [])]),
        entry "sbin" (.directory 19 []),
        entry "share" (.directory 20 [])]),
      entry "var" (.directory 21 [])]
    removed := []
    next := 22
    unlisted := [] }
  cwd := 3
  environment := [("PATH", searchPath)]
  now := 0

end BenchHarness
