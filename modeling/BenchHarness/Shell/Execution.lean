import BenchHarness.Shell.FileTool
import BenchHarness.Shell.Filter
import BenchHarness.Shell.Startup

/-!
# Execution

What statements, scripts and programs do. The steps below say what each kind of task does, given how
the tasks in it are carried out; `perform` ties the knot. Its fuel bounds how deep tasks are nested,
and a process that runs out of it is ended by a signal, like one that runs out of memory.
-/

namespace BenchHarness.Shell

/-- Something to be carried out. -/
inductive Task where
  | statement (s : Statement)
  /-- The lines of a script from some place on. -/
  | script (c : Cursor)
  /-- The words of a command. With `plain`, functions are not looked for. -/
  | call (plain : Bool) (fields : List Octets)
  /-- A program in the place of the running one. -/
  | program (i : Invocation)
  /-- The processes that have not been waited for. -/
  | jobs

/-- The signal that ends a process without memory. -/
def memorySignal : Nat := 11

/-- The status of a process that a signal ended. -/
def signalStatus (signal : Nat) : Nat := 128 + signal

namespace Execution

/-! ## Redirections -/

/-- Carries out a redirection whose target is known, and tells what went wrong. -/
def redirect (r : Redirect) (target : Octets) : Act (Option Octets) := do
  let settle (making : Bool) (opened : Except IoError Nat) : Act (Option Octets) := do
    match opened with
    | .ok n => do
      Act.setDescriptor r.descriptor (some n)
      pure none
    | .error e => pure (some (openingProblem making target e))
  match r.kind with
  | .input => settle false (← Act.openInput target)
  | .output => settle true (← Act.openOutput target true false)
  | .append => settle true (← Act.openOutput target false true)
  | .both => settle true (← Act.openOutput target false false)
  | .document => settle false (.ok (← Act.keepOpen (.feed target)))
  | .duplicate =>
    if target = ['-'] then do
      Act.setDescriptor r.descriptor none
      pure none
    else
      match Octets.toNat? target with
      | none => pure (some "Syntax error: Bad fd number".toList)
      | some n => do
        match (← Act.process).descriptors.lookup n with
        | none => pure (some (target ++ ": Bad file descriptor".toList))
        | some position => do
          Act.setDescriptor r.descriptor (some position)
          pure none

/-- Carries out redirections in order up to the first that fails, and tells what went wrong. -/
def redirectAll (substitute : Octets → Act Octets) : List Redirect → Act (Option Octets)
  | [] => pure none
  | r :: rest => do
    let target ← Field.textOf substitute r.target
    match ← redirect r target with
    | some problem => pure (some problem)
    | none => redirectAll substitute rest

/-- Does something, and gives the descriptors back their meaning afterwards. -/
def restoring (act : Act Unit) : Act Unit := do
  let before := (← Act.process).descriptors
  let restore := Act.modifyProcess ({ · with descriptors := before })
  tryCatch act fun d => do
    restore
    throw d
  restore

/-! ## Verdicts -/

/-- Does something whose verdict is asked for. -/
def testing (act : Act Unit) : Act Bool := do
  let before := (← Act.process).tested
  let restore := Act.modifyProcess ({ · with tested := before })
  Act.modifyProcess ({ · with tested := true })
  tryCatch act fun d => do
    restore
    throw d
  restore
  pure ((← Act.process).status = 0)

/-- Ends the process after a failure, if it was asked to. -/
def checkFailure : Act Unit := do
  let p ← Act.process
  if p.exitOnError && ! p.tested && p.status ≠ 0 then throw .exited

/-- What happens to a loop after a turn. -/
inductive Turn where
  | again
  | over
  deriving DecidableEq

/-- Takes a turn of a loop. -/
def turn (act : Act Turn) : Act Turn := do
  let before := (← Act.process).loops
  let leave := Act.modifyProcess ({ · with loops := before })
  Act.modifyProcess ({ · with loops := before + 1 })
  let t ← tryCatch act fun d => do
    leave
    match d with
    | .breakLoop n => if n ≤ 1 then pure .over else throw (.breakLoop (n - 1))
    | .continueLoop n => if n ≤ 1 then pure .again else throw (.continueLoop (n - 1))
    | d => throw d
  leave
  pure t

/-! ## Commands -/

/-- The line that shows a command before it runs. -/
def traceLine (start : Octets) (assignments : List (Octets × Octets)) (fields : List Octets) :
    Octets :=
  let shown := assignments.map (fun (name, value) => name ++ '=' :: value) ++ fields
  start ++ Field.joined [' '] shown ++ ['\n']

/-- Shows a command before it runs, if that is asked for, on the standard error of some
descriptors. -/
def showCommand (descriptors : List (Nat × Nat)) (assignments : List (Octets × Octets))
    (fields : List Octets) : Act Unit := do
  let p ← Act.process
  if p.trace then
    let start := (p.bindings.lookup "PS4".toList).getD ['+', ' ']
    Act.modifyProcess ({ · with descriptors := descriptors })
    Act.warn (traceLine start assignments fields)
    Act.modifyProcess ({ · with descriptors := p.descriptors })

/-- The words with a meaning in the grammar. -/
def keywords : List String :=
  ["!", "case", "do", "done", "elif", "else", "esac", "fi", "for", "if", "in", "then", "until",
    "while", "\x7b", "\x7d"]

/-- What a name means when it is the first word of a command. -/
inductive Meaning where
  | keyword
  | function
  | builtin (special : Bool)
  | program (path : Octets)
  | nothing

/-- What a name means. -/
def meaningOf (name : Octets) : Act Meaning := do
  let p ← Act.process
  let text := String.ofList name
  if keywords.contains text then pure .keyword
  else if (p.functions.lookup name).isSome then pure .function
  else if Builtin.special.contains text then pure (.builtin true)
  else if (Builtin.table.lookup text).isSome || Builtin.others.contains text then
    pure (.builtin false)
  else if name.contains '/' then pure (if ← Field.isThere name then .program name else .nothing)
  else
    let search := (p.bindings.lookup "PATH".toList).getD []
    match Invocation.find (← Act.files) p.cwd search name [name] with
    | (path, .ok _) => pure (.program path)
    | (path, .error (.system .execFormat)) => pure (.program path)
    | _ => pure .nothing

/-- Shows what a name means: in short the word that stands for it, or else a sentence. -/
def showMeaning (short : Bool) (name : Octets) : Act Nat := do
  let say (text : String) : Act Nat :=
    Builtin.emit ((if short then name else name ++ text.toList) ++ ['\n'])
  match ← meaningOf name with
  | .keyword => say " is a shell keyword"
  | .function => say " is a shell function"
  | .builtin true => say " is a special shell builtin"
  | .builtin false => say " is a shell builtin"
  | .program path =>
    if short then Builtin.emit (path ++ ['\n'])
    else Builtin.emit (name ++ " is ".toList ++ path ++ ['\n'])
  | .nothing => do
    if ! short then
      let _ ← Builtin.emit (name ++ ": not found\n".toList)
    pure 127

/-- Says that a command cannot be run. One that was looked for and may not be run counts as not
found. -/
def refuseCommand (searched : Bool) (name : Octets) (e : IoError) : Act Unit := do
  match e with
  | .system .noEntry | .system .notDirectory => do
    let problem := if name = [] then ": Permission denied" else ": not found"
    Act.complain (name ++ problem.toList)
    Act.setStatus 127
  | e => do
    Act.complain (name ++ ": ".toList ++ Tool.reason e)
    Act.setStatus (match e with
      | .system .tooManyLinks | .system .nameTooLong => 127
      | .system .accessDenied => if searched then 127 else 126
      | _ => 126)

/-- The names of signals as they are told when a process was ended by one. -/
def signalText : Nat → Option String
  | 1 => some "Hangup"
  | 3 => some "Quit"
  | 4 => some "Illegal instruction"
  | 6 => some "Aborted"
  | 8 => some "Floating point exception"
  | 9 => some "Killed"
  | 10 => some "User defined signal 1"
  | 11 => some "Segmentation fault"
  | 12 => some "User defined signal 2"
  | 14 => some "Alarm clock"
  | 15 => some "Terminated"
  | _ => none

/-- Tells of a process that was ended by a signal. -/
def tellSignal (signal : Nat) : Act Unit := do
  match signalText signal with
  | some text => Act.warn (text.toList ++ ['\n'])
  | none => pure ()

/-- Runs a program in a process of its own. A signal that ends it is told. -/
def asProgram (act : Act Unit) : Act Unit := do
  let before ← Act.process
  let departure ← tryCatch (do act; pure none) fun d => pure (some d)
  let after ← Act.process
  Act.modifyProcess fun _ => { before with status := after.status % 256 }
  match departure with
  | some (.killed signal) => do
    tellSignal signal
    Act.setStatus (signalStatus signal)
  | _ => pure ()

/-! ## Tasks -/

variable (perform : Task → Act Unit)

/-- Does something up to the end of the process, where what the process wants done at its end is
done. -/
def ending (act : Act Unit) : Act Unit := do
  let departure ← tryCatch (do act; pure none) fun d => pure (some d)
  let p ← Act.process
  match departure, p.traps.lookup (Builtin.signalKey 0) with
  | some (.killed signal), _ => throw (.killed signal)
  | _, none => pure ()
  | _, some action => do
    Act.modifyProcess ({ · with traps := [], tested := false })
    perform (.script (.start action))
    Act.setStatus p.status

/-- Does something in a shell of its own, which does nothing on signals unless it is told to. -/
def inSubshell (act : Act Unit) : Act Unit :=
  Act.inChild do
    Act.modifyProcess fun p =>
      { p with traps := p.traps.filter fun t => t.2 = [] && t.1 ≠ Builtin.signalKey 0 }
    ending perform act
    Act.modifyProcess fun p => { p with status := p.status % 256 }

/-- Runs a script in a shell of its own and gives its output. -/
def substitute (source : Octets) : Act Octets := do
  let before := (← Act.process).status
  let text ← Act.collecting none (inSubshell perform (perform (.script (.start source))))
  Act.modifyProcess fun p => { p with outputStatus := p.status, status := before }
  pure text

/-- Does something under redirections. If one of them fails it is not done; for a special command
that ends the process. -/
def withRedirects (special : Bool) (redirects : List Redirect) (act : Act Unit) : Act Unit := do
  match ← redirectAll (substitute perform) redirects with
  | none => act
  | some problem => do
    Act.complain problem
    Act.setStatus 2
    if special then throw .refused

/-- Reads a script that a function or a file holds; `return` leaves it. -/
def returning (act : Act Unit) : Act Unit :=
  tryCatch act fun
    | .returned => pure ()
    | d => throw d

/-- Runs the next line of a script, and then the others. -/
def scriptStep (c : Cursor) : Act Unit := do
  match c.readLine with
  | .error fault => do
    Act.modifyProcess ({ · with line := fault.line })
    Act.abort fault.message.toList
  | .ok (s, after) => do
    let p ← Act.process
    if p.showsLines then Act.warn (c.rest.take (c.rest.length - after.rest.length))
    if ! p.readsOnly then perform (.statement s)
    if after.rest ≠ [] then perform (.script after)

/-- How many turns a loop takes. -/
def maxTurns : Nat := 10000000

/-- Takes the turns of a loop whose body has given some status; the first argument bounds how
many. -/
def loopTurns (wanted : Bool) (condition body : Statement) : Nat → (last : Nat) → Act Unit
  | 0, _ => throw (.killed memorySignal)
  | n + 1, last => do
    let t ← turn do
      if (← testing (perform (.statement condition))) = wanted then
        perform (.statement body)
        pure .again
      else
        Act.setStatus last
        pure .over
    if t = .again then loopTurns wanted condition body n (← Act.process).status

/-- Runs a body for each of some words. -/
def eachTurns (name : Octets) (body : Statement) : List Octets → Act Unit
  | [] => pure ()
  | item :: items => do
    Act.setVariable name item
    let t ← turn do
      perform (.statement body)
      pure .again
    if t = .again then eachTurns name body items

/-- Takes the signals that others have sent. -/
def takeSignals : Act Unit := do
  let pid := (← Act.process).pid
  let mine := (← Act.host).sent.filter (·.1 = pid)
  if mine ≠ [] then
    Act.modifyHost fun h => { h with sent := h.sent.filter (·.1 ≠ pid) }
    mine.forM fun (_, signal) => Builtin.signalSelf signal

/-- Does what was said to be done on the signals that have come. -/
def answerSignals : Act Unit := do
  takeSignals
  let pending := (← Act.process).pending.reverse
  if pending ≠ [] then
    Act.modifyProcess ({ · with pending := [] })
    pending.forM fun signal => do
      let p ← Act.process
      match p.traps.lookup (Builtin.signalKey signal) with
      | some action => do
        perform (.script (.start action))
        Act.setStatus p.status
      | none => pure ()

/-- Carries out assignments one after the other. -/
def assignAll : List (Octets × Word) → Act (List (Octets × Octets))
  | [] => pure []
  | (name, word) :: rest => do
    let value ← Field.textOf (substitute perform) word
    Act.setVariable name value
    pure ((name, value) :: (← assignAll rest))

/-- Does something and gives some variables back what they were before. -/
def keepingVariables (names : List Octets) (act : Act Unit) : Act Unit := do
  let p ← Act.process
  let restore : Act Unit := do
    names.forM fun name => do
      match p.bindings.lookup name with
      | some value => Act.putVariable name value
      | none => Act.dropVariable name
      if ! p.exported.contains name then
        Act.modifyProcess fun q => { q with exported := q.exported.filter (· ≠ name) }
  tryCatch act fun d => do
    restore
    throw d
  restore

/-- Runs a simple command. -/
def simpleStep (line : Nat) (assignments : List (Octets × Word)) (words : List Word)
    (redirects : List Redirect) : Act Unit := do
  Act.modifyProcess ({ · with line := line, outputStatus := 0 })
  let fields ← Field.ofWords (substitute perform) words
  let descriptors := (← Act.process).descriptors
  match fields with
  | [] =>
    restoring (withRedirects perform false redirects do
      let values ← assignAll perform assignments
      showCommand descriptors values []
      Act.setStatus (← Act.process).outputStatus)
  | name :: _ => do
    let special := Builtin.special.contains (String.ofList name)
    let run : Act Unit := withRedirects perform special redirects do
      let values ← assignAll perform assignments
      if ! special || name = "exec".toList then values.forM fun v => Act.exportVariable v.1
      showCommand descriptors values fields
      perform (.call false fields)
    if fields = ["exec".toList] then run
    else restoring (if special then run else keepingVariables (assignments.map (·.1)) run)
  checkFailure
  answerSignals perform

/-- How many octets a pipe takes. -/
def pipeRoom : Nat := 1000000

/-- Carries out a statement. -/
def statementStep : Statement → Act Unit
  | .nothing => pure ()
  | .sequence a b => do
    perform (.statement a)
    perform (.statement b)
  | .both a b => do
    if ← testing (perform (.statement a)) then perform (.statement b)
  | .either a b => do
    if ! (← testing (perform (.statement a))) then perform (.statement b)
  | .negated a => do
    let held ← testing (perform (.statement a))
    Act.setStatus (if held then 1 else 0)
  | .pipe a b => do
    let first : Act Unit := tryCatch (perform (.statement a)) fun
      | .killed signal =>
        if signal = Act.pipeSignal then Act.setStatus (signalStatus signal)
        else throw (.killed signal)
      | d => throw d
    let text ← Act.collecting (some pipeRoom) (inSubshell perform first)
    inSubshell perform do
      Act.setDescriptor 0 (some (← Act.keepOpen (.feed text)))
      perform (.statement b)
    checkFailure
  | .background a => do
    let pid := (← Act.host).nextPid
    let null ← Act.keepOpen (.device .null)
    let p ← Act.process
    let job := { p with
      descriptors := (0, null) :: p.descriptors.filter (·.1 ≠ 0), traps := [] }
    Act.modifyHost fun h => { h with nextPid := pid + 1, jobs := h.jobs ++ [⟨pid, job, a⟩] }
    Act.modifyProcess ({ · with lastJob := some pid, status := 0 })
  | .subshell a => do
    inSubshell perform (perform (.statement a))
    checkFailure
  | .redirected line a redirects => do
    Act.modifyProcess ({ · with line := line })
    restoring (withRedirects perform false redirects (perform (.statement a)))
    checkFailure
  | .conditional condition yes no => do
    if ← testing (perform (.statement condition)) then perform (.statement yes)
    else
      match no with
      | .nothing => Act.setStatus 0
      | no => perform (.statement no)
  | .loop wanted condition body => loopTurns perform wanted condition body maxTurns 0
  | .each name words body => do
    let items ← match words with
      | some words => Field.ofWords (substitute perform) words
      | none => do pure (← Act.process).arguments
    if items = [] then Act.setStatus 0 else eachTurns perform name body items
  | .choice subject arms => do
    let text ← Field.textOf (substitute perform) subject
    let chosen ← arms.findM? fun (patterns, _) =>
      patterns.anyM fun pattern => do
        pure (Pattern.isMatch (← Field.patternOf (substitute perform) pattern) text)
    match chosen with
    | some (_, .nothing) => Act.setStatus 0
    | some (_, body) => perform (.statement body)
    | none => Act.setStatus 0
  | .definition name body =>
    Act.modifyProcess fun p =>
      { p with functions := (name, body) :: p.functions.filter (·.1 ≠ name), status := 0 }
  | .simple line assignments words redirects => simpleStep perform line assignments words redirects

/-! ## Calls -/

/-- How many functions may run inside one another. -/
def maxDepth : Nat := 1000

/-- Calls a function. Its arguments and local variables end with it. -/
def callFunction (body : Statement) (arguments : List Octets) : Act Unit := do
  let p ← Act.process
  if maxDepth ≤ p.depth then
    Act.abort ("Maximum function recursion depth (".toList ++ Octets.ofNat maxDepth ++
      ") reached".toList)
  Act.modifyProcess ({ · with
    arguments := arguments, shadowed := [], loops := 0, depth := p.depth + 1 })
  let restore : Act Unit := do
    (← Act.process).shadowed.forM fun (name, old) =>
      match old with
      | some value => Act.putVariable name value
      | none => Act.dropVariable name
    Act.modifyProcess fun q => { q with
      arguments := p.arguments, shadowed := p.shadowed, loops := p.loops,
      depth := p.depth }
  tryCatch (returning (perform (.statement body))) fun d => do
    restore
    throw d
  restore

/-- Calls a builtin. What it refuses ends the process only if it is a special one. -/
def callBuiltin (name : Octets) (builtin : Tool) (special : Bool) (arguments : List Octets) :
    Act Unit := do
  let run : Act Unit := Act.speaking name do Act.setStatus (← builtin arguments)
  tryCatch run fun
    | .refused => if special then throw .refused else pure ()
    | d => throw d

/-- Puts a program in the place of the running one: of a shell that is `replaced`, or of a process
made for it. A file that no program interprets is a script. -/
def execute (replaced : Bool) (name : Octets) (arguments : List Octets) : Act Unit := do
  Act.sortVariables
  let p ← Act.process
  let search := (p.bindings.lookup "PATH".toList).getD []
  match Invocation.find (← Act.files) p.cwd search name (name :: arguments) with
  | (_, .ok i) => perform (.program i)
  | (path, .error (.system .execFormat)) => do
    let content := ((← Act.files).contentAt p.cwd (Octets.toBytes path)).toOption.getD []
    if Invocation.isText (Octets.ofBytes content) then
      perform (.program ⟨"sh", "sh".toList :: path :: arguments⟩)
    else refuseCommand false name (.system .execFormat)
  | (_, .error e) => refuseCommand (! replaced && ! name.contains '/') name e

/-- Does what `command` does: it shows what names mean, or calls what is no function. -/
def callPlainly (arguments : List Octets) : Act Unit := do
  match arguments with
  | ['-', 'v'] :: name :: _ => do Act.setStatus (← showMeaning true name)
  | ['-', 'V'] :: name :: _ => do Act.setStatus (← showMeaning false name)
  | ['-', 'p'] :: arguments => perform (.call true arguments)
  | ['-', '-'] :: arguments => perform (.call true arguments)
  | [] => Act.setStatus 0
  | arguments => perform (.call true arguments)

/-- The file that a name stands for when it is to be read: a path, or a name that is looked for in
the directories of the search path. -/
def scriptPath (name : Octets) : Act Octets := do
  if name.contains '/' then pure name
  else
    let search := ((← Act.variableValue "PATH".toList)).getD []
    let paths := (Pieces.split ':' search).map fun d => (if d = [] then ['.'] else d) ++ '/' :: name
    let files ← Act.files
    let cwd := (← Act.process).cwd
    match paths.find? fun path => files.isFile cwd (Octets.toBytes path) with
    | some path => pure path
    | none => Act.abort (name ++ ": not found".toList)

/-- Runs the script that a file holds in this process. -/
def callFile : List Octets → Act Unit
  | [] => Act.setStatus 0
  | name :: _ => do
    let (path, content) ← Act.speaking ['.'] do
      let path ← scriptPath name
      match (← Act.files).contentAt (← Act.process).cwd (Octets.toBytes path) with
      | .ok content => pure (path, content)
      | .error e => Act.abort (openingProblem false path e)
    Act.setStatus 0
    Act.speaking path (returning (perform (.script (.start (Octets.ofBytes content)))))

/-- Waits for processes, for all of them without an argument. -/
def callWait (arguments : List Octets) : Act Nat := do
  match arguments with
  | [] => do
    perform .jobs
    pure 0
  | arguments => do
    let statuses ← arguments.mapM fun s => do
      let pid ← Builtin.number s
      if (← Act.host).jobs.any (·.pid = pid) then perform .jobs
      match (← Act.host).ended.lookup pid with
      | some (.exited status) => pure status
      | some (.killed signal) => do
        tellSignal signal
        pure (signalStatus signal)
      | none => pure 127
    pure (statuses.getLast?.getD 0)

/-- Calls a command given by its words. -/
def callStep (plain : Bool) : List Octets → Act Unit
  | [] => Act.setStatus 0
  | name :: arguments => do
    let text := String.ofList name
    let functions := (← Act.process).functions
    let function := if plain then none else functions.lookup name
    match function, text with
    | some body, _ => callFunction perform body arguments
    | none, "eval" =>
      let source := Field.joined [' '] arguments
      if source.all Word.isBlank then Act.setStatus 0
      else Act.speaking name (perform (.script (.start source)))
    | none, "." => callFile perform arguments
    | none, "exec" =>
      match arguments with
      | [] => Act.setStatus 0
      | name :: arguments => do
        Act.modifyProcess ({ · with traps := [] })
        Act.speaking "exec".toList (execute perform true name arguments)
        if name = [] then Act.setStatus 126
        throw .exited
    | none, "wait" => callBuiltin name (callWait perform) false arguments
    | none, "type" => callBuiltin name (Tool.forAll · (showMeaning false)) false arguments
    | none, "command" => callPlainly perform arguments
    | none, text =>
      match Builtin.table.lookup text with
      | some builtin => callBuiltin name builtin (Builtin.special.contains text) arguments
      | none => asProgram (execute perform false name arguments)

/-! ## Programs -/

/-- Runs the shell in the place of the running program. -/
def shellStep (i : Invocation) : Act Unit := do
  let shell := i.arguments.headD []
  startShell shell
  ending perform do
    let line ← ShellLine.read (i.arguments.drop 1)
    let script ← scriptOf shell line
    Act.modifyProcess ({ · with name := script.name, arguments := script.arguments })
    perform (.script (.start script.source))

/-- Where programs are looked for if there is no search path. -/
def usualSearch : Octets := "/bin:/usr/bin".toList

/-- Puts a program in the place of the running one, for a tool that runs it; `doing` is what the
tool says it could not do. -/
def runFor (doing : String) (name : Octets) (arguments : List Octets) : Act Unit := do
  let p ← Act.process
  let search := ((← Act.environment).lookup "PATH".toList).getD usualSearch
  match (Invocation.find (← Act.files) p.cwd search name (name :: arguments)).2 with
  | .ok i => perform (.program i)
  | .error e => do
    let _ ← Tool.failed (doing.toList ++ Tool.named name ++ ": ".toList ++ Tool.reason e)
    Act.setStatus (match e with
      | .system .noEntry => 127
      | _ => 126)

/-- Carries out the options of `env` and gives the other arguments, or what is wrong with them. -/
def envOptions : List Octets → Act (Except Octets (List Octets))
  | ['-', '-'] :: rest => pure (.ok rest)
  | ['-'] :: rest | ['-', 'i'] :: rest => do
    Act.modifyProcess ({ · with exported := [] })
    envOptions rest
  | ['-', 'u'] :: name :: rest => do
    Act.dropVariable name
    envOptions rest
  | ('-' :: 'u' :: c :: name) :: rest => do
    Act.dropVariable (c :: name)
    envOptions rest
  | ('-' :: c :: _) :: _ => pure (.error ("invalid option -- ".toList ++ Tool.quoted [c]))
  | rest => pure (.ok rest)

/-- Runs a program with some variables set, or shows the environment. -/
def envStep (arguments : List Octets) : Act Unit := do
  match ← envOptions arguments with
  | .error message => do
    let _ ← Tool.misused message
    Act.setStatus 125
  | .ok arguments => do
    let isAssignment (s : Octets) : Bool := s.contains '='
    (arguments.takeWhile isAssignment).forM fun s => do
      let name := s.takeWhile (· ≠ '=')
      Act.putVariable name (s.drop (name.length + 1))
      Act.exportVariable name
    match arguments.dropWhile isAssignment with
    | [] => do Act.setStatus (← Tool.env [])
    | name :: arguments => runFor perform "" name arguments

/-- Shows the paths of programs. -/
def whichStep (names : List Octets) : Act Nat :=
  Tool.forAll names fun name => do
    let p ← Act.process
    let search := (p.bindings.lookup "PATH".toList).getD []
    match Invocation.find (← Act.files) p.cwd search name [name] with
    | (path, .ok _) => Tool.emit (path ++ ['\n'])
    | _ => pure 1

/-- Runs a program that may take some time. -/
def timeoutStep : List Octets → Act Unit
  | limit :: name :: arguments => do
    match Tool.nanoseconds? limit with
    | none => do
      let _ ← Tool.misused ("invalid time interval ".toList ++ Tool.quoted limit)
      Act.setStatus 125
    | some limit => do
      let start := (← Act.host).elapsed
      runFor perform "failed to run command " name arguments
      if limit ≠ 0 ∧ limit < (← Act.host).elapsed - start then
        Act.modifyHost fun h => { h with elapsed := start + limit }
        Act.setStatus 124
  | _ => do
    Tool.advise
    Act.setStatus 125

/-- The programs that are tools. -/
def tools : List (String × Tool) := Tool.table ++ Filter.table ++ FileTool.table

/-- Runs a program in the place of the running one. -/
def programStep (i : Invocation) : Act Unit := do
  Act.modifyProcess ({ · with name := i.arguments.headD [] })
  if ["sh", "dash", "bash"].contains i.program then shellStep perform i
  else if i.program = "env" then envStep perform (i.arguments.drop 1)
  else if i.program = "timeout" then timeoutStep perform (i.arguments.drop 1)
  else if i.program = "nice" || i.program = "nohup" then
    match i.arguments.drop 1 with
    | [] => do
      let _ ← Tool.misused "missing operand".toList
      Act.setStatus 125
    | name :: arguments =>
      runFor perform (if i.program = "nohup" then "failed to run command " else "") name arguments
  else if i.program = "which" then do Act.setStatus (← whichStep (i.arguments.drop 1))
  else
    match tools.lookup i.program with
    | some tool => do Act.setStatus (← tool (i.arguments.drop 1))
    | none => Act.setStatus 127

/-- Runs the next process that has not been waited for, and then the others. A signal it sends to
the process around it is for that one. -/
def jobsStep : Act Unit := do
  match (← Act.host).jobs with
  | [] => pure ()
  | job :: jobs => do
    Act.modifyHost ({ · with jobs := jobs })
    let before ← Act.process
    Act.modifyProcess fun _ => job.process
    let departure ← tryCatch (do ending perform (perform (.statement job.body)); pure none) fun d =>
      pure (some d)
    let status := (← Act.process).status % 256
    Act.modifyProcess fun _ => before
    match departure with
    | some (.killed signal) =>
      Act.modifyHost fun h => { h with
        ended := (job.pid, .killed signal) :: h.ended
        sent := h.sent ++ [(job.process.pid, signal)] }
    | _ => Act.modifyHost fun h => { h with ended := (job.pid, .exited status) :: h.ended }
    perform .jobs

/-- Carries out a task, given how the tasks in it are carried out. -/
def step : Task → Act Unit
  | .statement s => statementStep perform s
  | .script c => scriptStep perform c
  | .call plain fields => callStep perform plain fields
  | .program i => programStep perform i
  | .jobs => jobsStep perform

end Execution

/-- Carries out a task. -/
def perform : Nat → Task → Act Unit
  | 0, _ => throw (.killed memorySignal)
  | fuel + 1, task => Execution.step (perform fuel) task

end BenchHarness.Shell
