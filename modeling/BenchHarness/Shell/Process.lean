import BenchHarness.Machine.Basic
import BenchHarness.Output.Lines
import BenchHarness.Shell.Statement

/-!
# Processes

What a process has of its own, and what all processes of a run share: files, what has been opened,
and what has been written on the two streams that the harness reads. A process may leave what it is
doing: a loop, a function, or itself.
-/

namespace BenchHarness.Shell

/-- Something that a process can read or write. -/
inductive Opened where
  /-- A stream that the harness reads. -/
  | stream (s : Stream)
  /-- Keeps what is written, the latest piece first. If it holds a limited number of octets, `room`
  is how many more it takes. -/
  | collector (pieces : List Octets) (room : Option Nat)
  /-- Gives out some text. -/
  | feed (text : Octets)
  /-- A file, by its directory and name, and the position in it. -/
  | file (dir : DirId) (name : Bytes) (position : Nat) (atEnd : Bool)
  | device (d : Device)

/-- What a process has of its own. -/
structure Process where
  /-- The name it was called by. -/
  name : Octets
  arguments : List Octets
  bindings : List (Octets × Octets)
  /-- The names of the variables that programs are given. -/
  exported : List Octets
  /-- The names of the variables that cannot be changed. -/
  fixed : List Octets
  functions : List (Octets × Statement)
  /-- What its descriptors stand for, by position among what has been opened. -/
  descriptors : List (Nat × Nat)
  cwd : DirId
  /-- The line of the command that runs. -/
  line : Nat
  /-- The builtin or the file in whose name messages are given, if any. -/
  speaker : Option Octets
  /-- The status of the last command. -/
  status : Nat
  /-- The status of the last command whose output was put into a word of the running one. -/
  outputStatus : Nat
  pid : Nat
  /-- The processes that wait for this one. -/
  around : List Nat
  /-- The last process it did not wait for. -/
  lastJob : Option Nat
  exitOnError : Bool
  trace : Bool
  /-- Whether lines are shown as they are read. -/
  showsLines : Bool
  /-- Whether statements are read only. -/
  readsOnly : Bool
  /-- Whether a parameter that is not set is an error. -/
  strict : Bool
  /-- Whether patterns stay as they are. -/
  keepsPatterns : Bool
  /-- Whether the verdict of the command that runs is asked for, so that failing is no error. -/
  tested : Bool
  /-- How many loops are running. -/
  loops : Nat
  /-- What is done on a signal, by its number; 0 is the exit. -/
  traps : List (Octets × Octets)
  /-- Signals that have come and are to be dealt with, the latest first. -/
  pending : List Nat
  /-- How many functions are running. -/
  depth : Nat
  /-- The variables that the running function has replaced. -/
  shadowed : List (Octets × Option Octets)

/-- A process that is not waited for, and has not run yet. -/
structure Job where
  pid : Nat
  /-- What it starts with. -/
  process : Process
  body : Statement

/-- How a process has ended. -/
inductive Ending where
  | exited (status : Nat)
  | killed (signal : Nat)
  deriving DecidableEq, Repr

/-- What all processes of a run share. -/
structure Host where
  files : Files
  opened : Array Opened
  /-- What has been written on the streams that the harness reads, the latest first. -/
  written : List (Stream × Bytes)
  /-- How many nanoseconds have passed. -/
  elapsed : Nat
  nextPid : Nat
  jobs : List Job
  /-- Processes that were not waited for and have ended, with how they ended. -/
  ended : List (Nat × Ending)
  /-- Signals for processes, which take them when they are done with a command. -/
  sent : List (Nat × Nat)

/-- A running process. -/
structure State where
  process : Process
  host : Host

/-- Why a process does not go on with what it is doing. -/
inductive Departure where
  | breakLoop (levels : Nat)
  | continueLoop (levels : Nat)
  | returned
  | exited
  /-- Something is wrong that ends a script, but only a builtin if it is no special one. -/
  | refused
  /-- Ended by a signal. -/
  | killed (signal : Nat)

/-- What a process does. -/
abbrev Act := ExceptT Departure (StateM State)

namespace Act

/-- The process. -/
def process : Act Process := do pure (← get).process

/-- Changes the process. -/
def modifyProcess (f : Process → Process) : Act Unit :=
  modify fun s => { s with process := f s.process }

/-- What all processes share. -/
def host : Act Host := do pure (← get).host

/-- Changes what all processes share. -/
def modifyHost (f : Host → Host) : Act Unit := modify fun s => { s with host := f s.host }

/-- The files. -/
def files : Act Files := do pure (← host).files

/-- Tries to change the files. -/
def changeFiles (f : Files → Except IoError Files) : Act (Option IoError) := do
  match f (← files) with
  | .ok files => do
    modifyHost ({ · with files := files })
    pure none
  | .error e => pure (some e)

/-- Sets the status of the last command. -/
def setStatus (n : Nat) : Act Unit := modifyProcess ({ · with status := n })

/-- Ends the process with a status. -/
def exit {α : Type} (status : Nat) : Act α := do
  setStatus status
  throw .exited

/-! ## Variables -/

/-- The value of a variable. -/
def variableValue (name : Octets) : Act (Option Octets) := do
  pure ((← process).bindings.lookup name)

/-- Sets a variable, whether or not it can be changed. -/
def putVariable (name value : Octets) : Act Unit :=
  modifyProcess fun p =>
    { p with bindings := (name, value) :: p.bindings.filter (·.1 ≠ name) }

/-- Makes a variable not set, whether or not it can be changed. -/
def dropVariable (name : Octets) : Act Unit :=
  modifyProcess fun p =>
    { p with bindings := p.bindings.filter (·.1 ≠ name), exported := p.exported.filter (· ≠ name) }

/-- Gives a variable to programs. -/
def exportVariable (name : Octets) : Act Unit :=
  modifyProcess fun p => { p with exported := name :: p.exported.filter (· ≠ name) }

/-! ## Descriptors -/

/-- Keeps something opened, and gives its position. -/
def keepOpen (o : Opened) : Act Nat := do
  let n := (← host).opened.size
  modifyHost fun h => { h with opened := h.opened.push o }
  pure n

/-- What a descriptor stands for: its position and itself. -/
def descriptor? (fd : Nat) : Act (Option (Nat × Opened)) := do
  match (← process).descriptors.lookup fd with
  | none => pure none
  | some n => pure ((← host).opened[n]?.map fun o => (n, o))

/-- Lets a descriptor stand for something, or closes it. -/
def setDescriptor (fd : Nat) (position : Option Nat) : Act Unit :=
  modifyProcess fun p =>
    let others := p.descriptors.filter (·.1 ≠ fd)
    { p with descriptors := match position with
      | some n => (fd, n) :: others
      | none => others }

/-- Puts something opened in the place of another. -/
def updateOpened (n : Nat) (o : Opened) : Act Unit :=
  modifyHost fun h => { h with opened := h.opened.setIfInBounds n o }

/-- A byte run with some data written over it from a position on. -/
def overwrite (position : Nat) (data old : Bytes) : Bytes :=
  let start := old.take position
  start ++ List.replicate (position - start.length) 0 ++ data ++ old.drop (position + data.length)

/-- The content of a file, if it is still there. -/
def fileContent (dir : DirId) (name : Bytes) : Act (Option Bytes) := do
  match (← files).findNode false dir name with
  | .ok (.file _ content) => pure (some content)
  | _ => pure none

/-- The signal that ends a process whose output nobody reads. -/
def pipeSignal : Nat := 13

/-- Writes on a descriptor and tells what went wrong. -/
def write (fd : Nat) (data : Octets) : Act (Option IoError) := do
  let bytes := Octets.toBytes data
  match ← descriptor? fd with
  | none => pure (some (.system .badDescriptor))
  | some (_, .stream s) => do
    modifyHost fun h => { h with written := (s, bytes) :: h.written }
    pure none
  | some (n, .collector pieces room) => do
    if room.any (· < data.length) then throw (.killed pipeSignal)
    updateOpened n (.collector (data :: pieces) (room.map (· - data.length)))
    pure none
  | some (_, .feed _) => pure (some (.system .badDescriptor))
  | some (n, .file dir name position atEnd) => do
    match ← fileContent dir name with
    | none => pure none
    | some old => do
      let position := if atEnd then old.length else position
      updateOpened n (.file dir name (position + bytes.length) atEnd)
      changeFiles fun files => files.writeFile dir name (overwrite position bytes old)
  | some (_, .device .null) | some (_, .device .zero) => pure none
  | some (_, .device .full) => pure (some (.system .noSpace))

/-- Everything that is left to read on a descriptor. -/
def readAll (fd : Nat) : Act Octets := do
  match ← descriptor? fd with
  | some (n, .feed text) => do
    updateOpened n (.feed [])
    pure text
  | some (n, .file dir name position atEnd) => do
    let content := ((← fileContent dir name).getD []).drop position
    updateOpened n (.file dir name (position + content.length) atEnd)
    pure (Octets.ofBytes content)
  | _ => pure []

/-- The next line on a descriptor without its end, and whether the end was there. -/
def readLine (fd : Nat) : Act (Octets × Bool) := do
  let text ← readAll fd
  let line := text.takeWhile (· ≠ '\n')
  let rest := text.drop line.length
  match ← descriptor? fd with
  | some (n, .feed _) => updateOpened n (.feed (rest.drop 1))
  | some (n, .file dir name position atEnd) =>
    updateOpened n (.file dir name (position - (rest.drop 1).length) atEnd)
  | _ => pure ()
  pure (line, rest ≠ [])

/-! ## Messages -/

/-- Writes on standard error; nothing can be done about it if that fails. -/
def warn (text : Octets) : Act Unit := do
  let _ ← write 2 text

/-- Warns in the name of the running script. -/
def complain (message : Octets) : Act Unit := do
  let p ← process
  let speaker := match p.speaker with
    | some name => name ++ ": ".toList
    | none => []
  warn (p.name ++ ": ".toList ++ Octets.ofNat p.line ++ ": ".toList ++ speaker ++ message ++ ['\n'])

/-- Warns and ends the process. -/
def abort {α : Type} (message : Octets) : Act α := do
  complain message
  setStatus 2
  throw .refused

/-- Does something in whose messages a builtin or a file speaks. -/
def speaking {α : Type} (speaker : Octets) (act : Act α) : Act α := do
  let before := (← process).speaker
  let restore := modifyProcess ({ · with speaker := before })
  modifyProcess ({ · with speaker := some speaker })
  let a ← tryCatch act fun d => do
    restore
    throw d
  restore
  pure a

/-- Refuses to change a variable that cannot be changed. -/
def checkChangeable (name : Octets) : Act Unit := do
  if (← process).fixed.contains name then abort (name ++ ": is read only".toList)

/-- Sets a variable. -/
def setVariable (name value : Octets) : Act Unit := do
  checkChangeable name
  putVariable name value

/-- Makes a variable not set. -/
def unsetVariable (name : Octets) : Act Unit := do
  checkChangeable name
  dropVariable name

/-! ## Opening files -/

/-- The descriptor of this process that a path names. -/
def ownDescriptor? (path : Octets) : Option Nat :=
  match String.ofList path with
  | "/dev/stdin" | "/dev/fd/0" => some 0
  | "/dev/stdout" | "/dev/fd/1" => some 1
  | "/dev/stderr" | "/dev/fd/2" => some 2
  | _ => none

/-- What one of the own descriptors stands for. -/
def openOwn (fd : Nat) : Act (Except IoError Nat) := do
  match (← process).descriptors.lookup fd with
  | some n => pure (.ok n)
  | none => pure (.error (.system .noEntry))

/-- Opens a file to read. -/
def openInput (path : Octets) : Act (Except IoError Nat) := do
  if let some fd := ownDescriptor? path then return ← openOwn fd
  let files ← files
  match files.find true (← process).cwd (Octets.toBytes path) with
  | .error e => pure (.error e)
  | .ok (.vacant _ _) => pure (.error (.system .noEntry))
  | .ok (.directory _) => pure (.ok (← keepOpen (.feed [])))
  | .ok (.leaf trail name node) =>
    match node, files.idAt? (.linked trail) with
    | .file _ _, some dir => pure (.ok (← keepOpen (.file dir name 0 false)))
    | .device d, _ => pure (.ok (← keepOpen (.device d)))
    | _, _ => pure (.ok (← keepOpen (.feed [])))

/-- Opens a file to write, and makes it if there is none. With `fresh` it is emptied. -/
def openOutput (path : Octets) (fresh atEnd : Bool) : Act (Except IoError Nat) := do
  if let some fd := ownDescriptor? path then return ← openOwn fd
  let base := (← process).cwd
  let path := Octets.toBytes path
  let keep (old : Bytes) : Bytes := if fresh then [] else old
  match (← files).findNode true base path with
  | .ok (.device d) => pure (.ok (← keepOpen (.device d)))
  | .ok .pipe => pure (.ok (← keepOpen (.device .null)))
  | .ok (.program _) => pure (.error (.system .accessDenied))
  | _ =>
    match ← changeFiles (·.updateFile base path keep) with
    | some e => pure (.error e)
    | none =>
      let files ← files
      match files.find true base path with
      | .ok (.leaf trail name _) =>
        match files.idAt? (.linked trail) with
        | some dir => pure (.ok (← keepOpen (.file dir name 0 atEnd)))
        | none => pure (.error (.system .noEntry))
      | .ok _ => pure (.error (.system .isDirectory))
      | .error e => pure (.error e)

/-! ## Processes of their own -/

/-- The variables that programs are given. -/
def environment : Act (List (Octets × Octets)) := do
  let p ← process
  pure (p.bindings.filter fun v => p.exported.contains v.1)

/-- The number of the bucket in which a shell keeps a variable. -/
def bucketOf (name : Octets) : Nat :=
  (name.foldl (fun n c => n + c.toNat) ((name.head?.map Char.toNat).getD 0 * 16)) % 39

/-- Puts variables in the order in which a shell gives them to programs: bucket by bucket. -/
def sortVariables : Act Unit :=
  modifyProcess fun p =>
    { p with bindings := p.bindings.mergeSort fun a b => bucketOf a.1 ≤ bucketOf b.1 }

/-- Does something in a process of its own: what the process has of its own is as before
afterwards, only the status is kept. -/
def inChild (act : Act Unit) : Act Unit := do
  let before ← process
  let departure ← tryCatch (do act; pure none) fun d => pure (some d)
  let after ← process
  modifyProcess fun _ => { before with status := after.status }
  match departure with
  | some (.killed signal) => throw (.killed signal)
  | _ => pure ()

/-- Does something with standard output collected, and gives what was written. With `room` only so
many octets can be written. -/
def collecting (room : Option Nat) (act : Act Unit) : Act Octets := do
  let n ← keepOpen (.collector [] room)
  let before := (← process).descriptors
  setDescriptor 1 (some n)
  tryCatch act fun d => do
    modifyProcess ({ · with descriptors := before })
    throw d
  modifyProcess ({ · with descriptors := before })
  match (← host).opened[n]? with
  | some (.collector pieces _) => pure pieces.reverse.flatten
  | _ => pure []

end Act

end BenchHarness.Shell
