import BenchHarness.Shell.Tool

/-!
# Builtin commands

The commands that the shell carries out itself because they concern its own process, and those that
it has for speed. The ones that run other commands are not here: they belong to execution.
-/

namespace BenchHarness.Shell.Builtin

/-- Warns; `status` is the status of the builtin. -/
def failed (status : Nat) (message : Octets) : Act Nat := do
  Act.complain message
  pure status

/-- Writes on standard output. -/
def emit (text : Octets) : Act Nat := do
  if text = [] then pure 0
  else
    match ← Act.write 1 text with
    | none => pure 0
    | some _ => failed 1 (((← Act.process).speaker.getD []) ++ ": I/O error".toList)

/-- The number a text stands for; anything else is refused. -/
def number (s : Octets) : Act Nat := do
  match Octets.toNat? s with
  | some n => pure n
  | none => Act.abort ("Illegal number: ".toList ++ s)

/-- The number that the first argument stands for. -/
def numberOr (usual : Nat) : List Octets → Act Nat
  | [] => pure usual
  | s :: _ => number s

/-- Splits option letters off arguments; other letters than those known are refused. -/
def options (known : List Char) (arguments : List Octets) : Act (List Char × List Octets) := do
  let (letters, operands) := Tool.options arguments
  match letters.find? fun c => ! known.contains c with
  | some c => Act.abort ("Illegal option -".toList ++ [c])
  | none => pure (letters, operands)

/-- Refuses what is no name of a variable. -/
def checkName (name : Octets) : Act Unit := do
  if ! Word.isName name then Act.abort (name ++ ": bad variable name".toList)

/-! ## Output -/

/-- Writes its arguments with escapes resolved, and a line end unless `-n` comes first. -/
def echo : Tool := fun arguments =>
  let (bare, arguments) := match arguments with
    | ['-', 'n'] :: rest => (true, rest)
    | rest => (false, rest)
  let text := Field.joined [' '] arguments
  let (text, cut) := Format.unescape .shell (text.length + 1) text
  emit (if cut || bare then text else text ++ ['\n'])

/-- Writes arguments in a format. -/
def printf : Tool := fun arguments => do
  let (_, operands) ← match arguments.head? with
    | some ('-' :: _ :: _) => options [] arguments
    | _ => pure ([], arguments)
  match operands with
  | [] => failed 2 "usage: printf format [arg ...]".toList
  | format :: arguments => do
    let r := Format.write .shell format arguments
    let status ← emit r.output
    let complaints ← r.complaints.mapM fun complaint =>
      match complaint with
      | .misread argument m => failed 1 (argument ++ ": ".toList ++ m.message .shell)
      | .ignored _ => pure 0
    match r.fault with
    | some fault => failed 2 (fault.message .shell)
    | none => pure (complaints.foldl max status)

/-- Decides a condition: status 0 if it holds, 1 if not. -/
def test : Tool := fun operands => do
  match ← Condition.decide operands with
  | .ok true => pure 0
  | .ok false => pure 1
  | .error problem => failed 2 problem.message

/-- Decides a condition up to the closing bracket. -/
def bracket : Tool := fun operands =>
  if operands.getLast? = some [']'] then test operands.dropLast
  else failed 2 "missing ]".toList

/-! ## The working directory -/

/-- A path text taken from another one, with `.` and `..` resolved in the text. Of the separators
at the start two are kept if there are just two. -/
def logicalPath (base path : Octets) : Octets :=
  let whole := if path.head? = some '/' then path else base ++ '/' :: path
  let leading := (if path.head? = some '/' then path else base).takeWhile (· = '/')
  let steps := Pieces.split '/' whole
  let take (kept : List Octets) (step : Octets) : List Octets :=
    if step = [] || step = ['.'] then kept
    else if step = ['.', '.'] then kept.drop 1
    else step :: kept
  (if leading.length = 2 then ['/', '/'] else ['/']) ++
    Field.joined ['/'] (steps.foldl take []).reverse

/-- Changes the working directory. -/
def cd : Tool := fun arguments => do
  let (letters, operands) ← match arguments.head? with
    | some ('-' :: _ :: _) => options ['L', 'P'] arguments
    | _ => pure ([], arguments)
  let previous := (← Act.variableValue "PWD".toList).getD []
  let destination ← match operands with
    | [] => do pure ((← Act.variableValue "HOME".toList).getD [])
    | ['-'] :: _ => do pure ((← Act.variableValue "OLDPWD".toList).getD [])
    | s :: _ => pure s
  let destination := if destination = [] then ['.'] else destination
  let physical := letters.getLast? = some 'P' || previous = []
  let path := if physical then destination else logicalPath previous destination
  let base := (← Act.process).cwd
  match (← Act.files).findDirectory base (Octets.toBytes path) with
  | .error _ => Act.abort ("can't cd to ".toList ++ destination)
  | .ok dir => do
    Act.modifyProcess ({ · with cwd := dir })
    let shown := match physical, (← Act.files).pathOf dir with
      | true, .ok found => Octets.ofBytes found
      | _, _ => path
    Act.setVariable "OLDPWD".toList previous
    Act.setVariable "PWD".toList shown
    if operands.head? = some ['-'] then emit (shown ++ ['\n']) else pure 0

/-- Writes the path of the working directory; with `-P` the one without links. -/
def pwd : Tool := fun arguments => do
  let (letters, _) ← options ['L', 'P'] arguments
  let known ← Act.variableValue "PWD".toList
  let physical := ((← Act.files).pathOf (← Act.process).cwd).map Octets.ofBytes
  if letters.getLast? = some 'P' then
    match physical with
    | .ok found => emit (found ++ ['\n'])
    | .error e => do
      Act.complain ("getcwd() failed: ".toList ++ Tool.reason e)
      emit ['\n']
  else emit (known.getD (physical.toOption.getD []) ++ ['\n'])

/-! ## Variables -/

/-- Assigns a text of the form `name=value`, and gives the name. -/
def assignText (s : Octets) : Act Octets := do
  let name := s.takeWhile (· ≠ '=')
  checkName name
  if name.length < s.length then Act.setVariable name (s.drop (name.length + 1))
  pure name

/-- A value in single quotes, as the shell reads it again. -/
def quotedValue (s : Octets) : Octets :=
  '\x27' :: (s.flatMap fun c => if c = '\x27' then "'\x22'\x22'".toList else [c]) ++ ['\x27']

/-- Shows variables in the order of their names. -/
def showVariables (command : String) (names : List Octets) : Act Nat := do
  let bindings := (← Act.process).bindings
  let lines := (names.eraseDups.mergeSort Field.nameBefore).map fun name =>
    let value := match bindings.lookup name with
      | some value => '=' :: quotedValue value
      | none => []
    command.toList ++ ' ' :: name ++ value ++ ['\n']
  emit lines.flatten

/-- Gives variables to programs. -/
def exportNames : Tool := fun arguments => do
  let (_, names) ← options ['p'] arguments
  if names = [] then showVariables "export" (← Act.process).exported
  else do
    names.forM fun s => do Act.exportVariable (← assignText s)
    pure 0

/-- Keeps variables from being changed. -/
def fixNames : Tool := fun arguments => do
  let (_, names) ← options ['p'] arguments
  if names = [] then showVariables "readonly" (← Act.process).fixed
  else do
    names.forM fun s => do
      let name ← assignText s
      Act.modifyProcess fun p => { p with fixed := name :: p.fixed }
    pure 0

/-- Makes variables or functions not set. -/
def unset : Tool := fun arguments => do
  let (letters, names) ← options ['f', 'v'] arguments
  names.forM fun name =>
    if letters.contains 'f' then
      Act.modifyProcess fun p => { p with functions := p.functions.filter (·.1 ≠ name) }
    else do
      checkName name
      Act.unsetVariable name
  pure 0

/-- Keeps the values of variables for the end of the function. -/
def localNames : Tool := fun arguments => do
  if (← Act.process).depth = 0 then Act.abort "not in a function".toList
  arguments.forM fun s => do
    let name := s.takeWhile (· ≠ '=')
    let old ← Act.variableValue name
    Act.modifyProcess fun p => { p with shadowed := (name, old) :: p.shadowed }
    let _ ← assignText s
  pure 0

/-- Drops arguments. -/
def shift : Tool := fun arguments => do
  let n ← numberOr 1 arguments
  if (← Act.process).arguments.length < n then Act.abort "can't shift that many".toList
  else
    Act.modifyProcess fun p => { p with arguments := p.arguments.drop n }
    pure 0

/-- Turns an option on or off. -/
def setOption (on : Bool) (p : Process) : Char → Process
  | 'e' => { p with exitOnError := on }
  | 'f' => { p with keepsPatterns := on }
  | 'x' => { p with trace := on }
  | 'u' => { p with strict := on }
  | 'v' => { p with showsLines := on }
  | 'n' => { p with readsOnly := on }
  | _ => p

/-- The letters of the options, and their names. -/
def optionNames : List (Char × String) :=
  [('e', "errexit"), ('f', "noglob"), ('I', "ignoreeof"), ('i', "interactive"), ('m', "monitor"),
    ('n', "noexec"), ('s', "stdin"), ('x', "xtrace"), ('v', "verbose"), ('V', "vi"),
    ('E', "emacs"), ('C', "noclobber"), ('a', "allexport"), ('b', "notify"), ('u', "nounset")]

/-- Turns options given by their letters on or off. -/
def setLetters (on : Bool) (letters : List Char) : Act Unit :=
  letters.forM fun c => do
    if (optionNames.lookup c).isNone then Act.abort ("Illegal option -".toList ++ [c])
    Act.modifyProcess (setOption on · c)

/-- Turns an option given by its name on or off. -/
def setNamed (on : Bool) (name : Octets) : Act Unit := do
  match optionNames.find? (·.2.toList = name) with
  | some (c, _) => Act.modifyProcess (setOption on · c)
  | none => Act.abort ("Illegal option -o ".toList ++ name)

/-- Sets options and arguments. -/
def set : Tool := fun arguments => do
  match arguments with
  | ['-', '-'] :: rest => do
    Act.modifyProcess ({ · with arguments := rest })
    pure 0
  | ['-'] :: rest => do
    Act.modifyProcess ({ · with trace := false, showsLines := false })
    if rest ≠ [] then Act.modifyProcess ({ · with arguments := rest })
    pure 0
  | ['-', 'o'] :: name :: rest => do
    setNamed true name
    set rest
  | ['+', 'o'] :: name :: rest => do
    setNamed false name
    set rest
  | ('-' :: c :: letters) :: rest => do
    setLetters true (c :: letters)
    set rest
  | ('+' :: c :: letters) :: rest => do
    setLetters false (c :: letters)
    set rest
  | [] => pure 0
  | rest => do
    Act.modifyProcess ({ · with arguments := rest })
    pure 0

/-- Splits a line into as many fields as there are names; the last one takes what is left. -/
def assignFields (separators : Octets) : List Octets → List Glyph → Act Unit
  | [], _ => pure ()
  | name :: names, glyphs => do
    let isBlank (g : Glyph) : Bool := ! g.quoted && separators.contains g.char &&
      (g.char = ' ' || g.char = '\t' || g.char = '\n')
    let glyphs := glyphs.dropWhile isBlank
    let isSeparator (g : Glyph) : Bool := ! g.quoted && separators.contains g.char
    if names = [] then
      Act.setVariable name ((glyphs.reverse.dropWhile isBlank).reverse.map (·.char))
    else
      let field := glyphs.takeWhile (! isSeparator ·)
      Act.setVariable name (field.map (·.char))
      let after := (glyphs.drop field.length).dropWhile isBlank
      let after := match after with
        | g :: rest => if isSeparator g && field.length = 0 || isSeparator g then rest else after
        | [] => []
      assignFields separators names after

/-- The glyphs of a line in which a backslash protects the next character. -/
def protectedGlyphs : Octets → List Glyph
  | '\\' :: c :: rest => ⟨c, true⟩ :: protectedGlyphs rest
  | c :: rest => ⟨c, false⟩ :: protectedGlyphs rest
  | [] => []

/-- Reads a line, and the next one as long as a backslash stands at the end; the first argument
bounds how many. The result says whether there was an end. -/
def continuedLine : Nat → Act (List Glyph × Bool)
  | 0 => pure ([], false)
  | n + 1 => do
    let (line, ended) ← Act.readLine 0
    let protecting := (line.reverse.takeWhile (· = '\\')).length % 2 = 1
    if ended && protecting then do
      let (more, ended) ← continuedLine n
      pure (protectedGlyphs line.dropLast ++ more, ended)
    else pure (protectedGlyphs (if protecting then line.dropLast else line), ended)

/-- The most lines that are put together. -/
def maxContinued : Nat := 1000

/-- Reads a line into variables; fails at the end of the input. -/
def readLine : Tool := fun arguments => do
  let (letters, names) ← match arguments with
    | ['-', 'p'] :: _ :: rest => options ['r'] rest
    | rest => options ['r', 'p'] rest
  if names = [] then failed 2 "arg count".toList
  else
    let (glyphs, ended) ← if letters.contains 'r' then do
        let (line, ended) ← Act.readLine 0
        pure (Glyph.ofOctets false line, ended)
      else continuedLine maxContinued
    names.forM checkName
    assignFields (← Field.separators) names glyphs
    pure (if ended then 0 else 1)

/-! ## Control -/

/-- Leaves loops. -/
def leaveLoop (departure : Nat → Departure) : Tool := fun arguments => do
  let n ← numberOr 1 arguments
  if n = 0 then Act.abort ("Illegal number: ".toList ++ arguments.headD [])
  let levels := min n (← Act.process).loops
  Act.setStatus 0
  if levels = 0 then pure 0 else throw (departure levels)

/-- Ends the process; without an argument with the status of the last command. -/
def exit : Tool := fun arguments => do
  Act.exit (← numberOr (← Act.process).status arguments)

/-- Ends the function or the script that is read. -/
def leaveFunction : Tool := fun arguments => do
  Act.setStatus (← numberOr (← Act.process).status arguments)
  throw .returned

/-! ## Signals -/

/-- The signals by name and number. -/
def signals : List (String × Nat) :=
  [("HUP", 1), ("INT", 2), ("QUIT", 3), ("ILL", 4), ("TRAP", 5), ("ABRT", 6), ("BUS", 7),
    ("FPE", 8), ("KILL", 9), ("USR1", 10), ("SEGV", 11), ("USR2", 12), ("PIPE", 13), ("ALRM", 14),
    ("TERM", 15), ("CHLD", 17), ("CONT", 18), ("STOP", 19), ("TSTP", 20), ("TTIN", 21),
    ("TTOU", 22), ("URG", 23), ("XCPU", 24), ("XFSZ", 25), ("VTALRM", 26), ("PROF", 27),
    ("WINCH", 28), ("IO", 29), ("PWR", 30), ("SYS", 31)]

/-- A number above those of all signals. -/
def signalLimit : Nat := 65

/-- The number of a signal given by name or number. -/
def signalNumber? (s : Octets) : Option Nat :=
  match Octets.toNat? s with
  | some n => if n < signalLimit then some n else none
  | none => signals.lookup (String.ofList (s.map Char.toUpper))

/-- The name of a signal, or its number if it has none. -/
def signalName (n : Nat) : Octets :=
  if n = 0 then "EXIT".toList
  else
    match signals.find? (·.2 = n) with
    | some (name, _) => name.toList
    | none => Octets.ofNat n

/-- The name a signal's number is kept under. -/
def signalKey (n : Nat) : Octets := Octets.ofNat n

/-- The signals that do nothing unless they are asked for. -/
def harmless : List Nat := [0, 17, 18, 23, 28]

/-- Shows what is done on signals. -/
def showTraps : Act Nat := do
  let traps := (← Act.process).traps
  let lines := (List.range signalLimit).filterMap fun n =>
    (traps.lookup (signalKey n)).map fun action =>
      "trap -- ".toList ++ quotedValue action ++ ' ' :: signalName n ++ ['\n']
  emit lines.flatten

/-- Says what to do on signals. -/
def trap : Tool := fun arguments => do
  match arguments.dropWhile (· = ['-', '-']) with
  | [] => showTraps
  | action :: names => do
    let (action, names) := match names, Octets.toNat? action with
      | [], _ => (['-'], [action])
      | names, some _ => (['-'], action :: names)
      | names, none => (action, names)
    let statuses ← names.mapM fun name => do
      let number := if name.map Char.toUpper = "EXIT".toList then some 0 else signalNumber? name
      match number with
      | none => do
        Act.warn ("trap: ".toList ++ name ++ ": bad trap\n".toList)
        pure 1
      | some n => do
        Act.modifyProcess fun p =>
          let others := p.traps.filter (·.1 ≠ signalKey n)
          { p with traps := if action = ['-'] then others else (signalKey n, action) :: others }
        pure 0
    pure (statuses.foldl max 0)

/-- Sends a signal to this process. -/
def signalSelf (n : Nat) : Act Unit := do
  let p ← Act.process
  if ! harmless.contains n || (p.traps.lookup (signalKey n)).isSome then
    match p.traps.lookup (signalKey n) with
    | some action =>
      if n = 9 then throw (.killed n)
      else if action ≠ [] then Act.modifyProcess ({ · with pending := n :: p.pending })
    | none => throw (.killed n)

/-- Sends a signal to a process: to this one, to one around it, or to one that is not waited for. -/
def signal (n : Nat) (operand : Octets) : Act Nat := do
  let p ← Act.process
  let pid ← number operand
  if pid = p.pid then
    signalSelf n
    pure 0
  else if p.around.contains pid then
    Act.modifyHost fun h => { h with sent := h.sent ++ [(pid, n)] }
    pure 0
  else if (← Act.host).jobs.any (·.pid = pid) then
    if ! harmless.contains n then
      Act.modifyHost fun h => { h with
        jobs := h.jobs.filter (·.pid ≠ pid)
        ended := (pid, .killed n) :: h.ended }
    pure 0
  else if (← Act.host).ended.any (·.1 = pid) then pure 0
  else failed 1 "No such process\n".toList

/-- Says how `kill` is called. -/
def killUsage : Act Nat :=
  Act.abort ("Usage: kill [-s sigspec | -signum | -sigspec] [pid | job]... or\n".toList ++
    "kill -l [exitstatus]".toList)

/-- Shows the name of a signal, or all of them. -/
def listSignals : Tool := fun
  | [] => emit ("0\n".toList ++ (signals.flatMap fun (name, _) => name.toList ++ ['\n']))
  | s :: _ => do
    let n ← number s
    let n := if 128 < n then n - 128 else n
    if 0 < n ∧ n < signalLimit then emit (signalName n ++ ['\n'])
    else Act.abort ("invalid signal number or exit status: ".toList ++ s)

/-- Sends signals. -/
def kill : Tool := fun arguments => do
  let send (n : Nat) (operands : List Octets) : Act Nat := do
    if operands = [] then killUsage else Tool.forAll operands (signal n)
  let named (name : Octets) (operands : List Octets) : Act Nat := do
    match signalNumber? name with
    | some n => send n operands
    | none => Act.abort ("invalid signal number or name: ".toList ++ name)
  match arguments with
  | ['-', '-'] :: rest => send 15 rest
  | ('-' :: c :: name) :: rest =>
    match signalNumber? (c :: name), c, name with
    | some n, _, _ => send n rest
    | none, 'l', _ => listSignals rest
    | none, 's', [] => named (rest.headD []) (rest.drop 1)
    | none, 's', name => named name rest
    | none, c, _ => Act.abort ("Illegal option -".toList ++ [c])
  | rest => send 15 rest

/-- Shows which permission bits new files do not get. -/
def umask : Tool := fun
  | [] => emit "0022\n".toList
  | _ => pure 0

/-! ## The table -/

/-- The builtins by their names. -/
def table : List (String × Tool) :=
  [(":", fun _ => pure 0), ("true", fun _ => pure 0), ("false", fun _ => pure 1), ("echo", echo),
    ("printf", printf), ("test", test), ("[", bracket), ("cd", cd), ("pwd", pwd),
    ("export", exportNames), ("readonly", fixNames), ("unset", unset), ("local", localNames),
    ("shift", shift), ("set", set), ("read", readLine), ("break", leaveLoop .breakLoop),
    ("continue", leaveLoop .continueLoop), ("exit", exit), ("return", leaveFunction),
    ("trap", trap), ("kill", kill), ("umask", umask), ("hash", fun _ => pure 0),
    ("jobs", fun _ => pure 0), ("ulimit", fun _ => pure 0)]

/-- The builtins that run other commands, or tell about them. -/
def others : List String := ["command", "type", "wait"]

/-- The builtins whose assignments stay, and whose failed redirections end the process. -/
def special : List String :=
  [":", ".", "break", "continue", "eval", "exec", "exit", "export", "local", "readonly", "return",
    "set", "shift", "times", "trap", "unset"]

end BenchHarness.Shell.Builtin
