import BenchHarness.Shell.Condition
import BenchHarness.Shell.Field
import BenchHarness.Shell.Format
import BenchHarness.Shell.Quotation

/-!
# Tools

The programs of a fresh machine that are not the shell. A tool gets its arguments and gives its exit
status. Here are the things that tools have in common, and those that neither filter text nor change
files.
-/

namespace BenchHarness.Shell

/-- A program that gets arguments and gives an exit status. -/
abbrev Tool := List Octets → Act Nat

namespace Tool

/-! ## Messages -/

/-- What an error says, without its number. -/
def reason : IoError → Octets
  | .system e => e.text.toList
  | e => e.message.toList

/-- An option in quotes. -/
def bare (s : Octets) : Octets := '\x27' :: s ++ ['\x27']

/-- An argument in quotes. -/
def quoted (s : Octets) : Octets := Quotation.escaped s

/-- A name in quotes. -/
def named (s : Octets) : Octets := Quotation.always s

/-- A name, in quotes if it needs them. -/
def shown (s : Octets) : Octets := Quotation.ifNeeded s

/-- Warns in the name of the running tool; the status is that of a failure. -/
def failed (message : Octets) : Act Nat := do
  Act.warn ((← Act.process).name ++ ": ".toList ++ message ++ ['\n'])
  pure 1

/-- Says where the running tool is explained. -/
def advise : Act Unit := do
  Act.warn ("Try ".toList ++ quoted ((← Act.process).name ++ " --help".toList) ++
    " for more information.\n".toList)

/-- Warns in the name of the running tool, which was not called as it should be. -/
def misused (message : Octets) : Act Nat := do
  let status ← failed message
  advise
  pure status

/-- Writes on standard output. -/
def emit (text : Octets) : Act Nat := do
  if text = [] then pure 0
  else
    match ← Act.write 1 text with
    | none => pure 0
    | some e => failed ("write error: ".toList ++ reason e)

/-! ## Arguments -/

/-- Splits option letters off arguments. -/
def options : List Octets → List Char × List Octets
  | ['-', '-'] :: rest => ([], rest)
  | ('-' :: c :: letters) :: rest =>
    let (more, operands) := options rest
    (c :: letters ++ more, operands)
  | operands => ([], operands)

/-- The options of a tool, each with its value if it has one, and the operands. -/
structure Line where
  options : List (Char × Octets)
  operands : List Octets

namespace Line

/-- Whether an option is there. -/
def has (l : Line) (c : Char) : Bool := l.options.any (·.1 = c)

/-- The last value of an option. -/
def value? (l : Line) (c : Char) : Option Octets :=
  ((l.options.filter (·.1 = c)).getLast?).map (·.2)

/-- The operands, or standard input if there are none. -/
def inputs (l : Line) : List Octets := if l.operands = [] then [['-']] else l.operands

/-- Reads the letters of an argument: options of a `plain` letter have no value, and the value of a
`valued` one is the rest of the argument. If nothing is left for the value, the letter is given. -/
def letters (plain valued : List Char) :
    List Char → Except Octets (List (Char × Octets) × Option Char)
  | [] => .ok ([], none)
  | c :: rest =>
    if plain.contains c then do
      let (found, waiting) ← letters plain valued rest
      pure ((c, []) :: found, waiting)
    else if valued.contains c then
      if rest = [] then .ok ([], some c) else .ok ([(c, rest)], none)
    else .error ("invalid option -- ".toList ++ bare [c])

/-- An option given by a long name, with what follows an equals sign. The name may be cut as long as
it is the only one that goes on so. -/
def long (names : List (String × Char)) (plain : List Char) (text : Octets) :
    Except Octets (String × Char × Option Octets) :=
  let start := text.takeWhile (· ≠ '=')
  let value := if text.contains '=' then some (text.drop (start.length + 1)) else none
  let shown (name : Octets) : Octets := bare ('-' :: '-' :: name)
  let take (n : String × Char) : Except Octets (String × Char × Option Octets) :=
    if value.isSome && plain.contains n.2 then
      .error ("option ".toList ++ shown n.1.toList ++ " doesn't allow an argument".toList)
    else .ok (n.1, n.2, value)
  match names.find? (·.1.toList = start), names.filter (start.isPrefixOf ·.1.toList) with
  | some n, _ => take n
  | none, [n] => take n
  | none, [] => .error ("unrecognized option ".toList ++ shown text)
  | none, several =>
    .error ("option ".toList ++ shown text ++ " is ambiguous; possibilities:".toList ++
      several.flatMap fun n => ' ' :: shown n.1.toList)

/-- Reads arguments. Options may stand behind operands, up to a double dash. -/
def parse (names : List (String × Char)) (plain valued : List Char) :
    List Octets → Except Octets Line
  | [] => .ok ⟨[], []⟩
  | ['-', '-'] :: rest => .ok ⟨[], rest⟩
  | ('-' :: '-' :: text) :: rest => do
    let (name, c, value) ← long names plain text
    match value, valued.contains c, rest with
    | some value, _, rest => do
      let line ← parse names plain valued rest
      pure ⟨(c, value) :: line.options, line.operands⟩
    | none, false, rest => do
      let line ← parse names plain valued rest
      pure ⟨(c, []) :: line.options, line.operands⟩
    | none, true, value :: rest => do
      let line ← parse names plain valued rest
      pure ⟨(c, value) :: line.options, line.operands⟩
    | none, true, [] =>
      .error ("option ".toList ++ bare ('-' :: '-' :: name.toList) ++
        " requires an argument".toList)
  | ('-' :: c :: more) :: rest => do
    let (found, waiting) ← letters plain valued (c :: more)
    match waiting, rest with
    | none, rest => do
      let line ← parse names plain valued rest
      pure ⟨found ++ line.options, line.operands⟩
    | some c, [] => .error ("option requires an argument -- ".toList ++ bare [c])
    | some c, value :: rest => do
      let line ← parse names plain valued rest
      pure ⟨found ++ (c, value) :: line.options, line.operands⟩
  | operand :: rest => do
    let line ← parse names plain valued rest
    pure ⟨line.options, operand :: line.operands⟩

end Line

/-- A tool that reads its arguments first; its options also have long names. -/
def withNames (names : List (String × Char)) (plain valued : List Char) (act : Line → Act Nat) :
    Tool := fun arguments =>
  match Line.parse names plain valued arguments with
  | .ok line => act line
  | .error message => misused message

/-- A tool that reads its arguments first. -/
def withLine (plain valued : List Char) (act : Line → Act Nat) : Tool :=
  withNames [] plain valued act

/-- A tool that reads its arguments first and needs an operand. -/
def withOperands (plain valued : List Char) (missing : String) (act : Line → Act Nat) : Tool :=
  withLine plain valued fun line =>
    if line.operands = [] then misused missing.toList else act line

/-- Does something for each operand; the status is the worst one. -/
def forAll (operands : List Octets) (act : Octets → Act Nat) : Act Nat := do
  let statuses ← operands.mapM act
  pure (statuses.foldl max 0)

/-! ## Files -/

/-- The bytes of an operand. -/
def path (s : Octets) : Bytes := Octets.toBytes s

/-- Whether a path leads to a directory. -/
def isDirectory (s : Octets) : Act Bool := do
  match ← Condition.nodeAt true s with
  | some (.directory _ _) => pure true
  | _ => pure false

/-- Whether nothing is open under a descriptor. -/
def isClosed (fd : Nat) : Act Bool := do pure (← Act.descriptor? fd).isNone

/-- The content of a file, or of standard input for `-`. -/
def contentOf (operand : Octets) : Act (Except IoError Octets) := do
  if operand = ['-'] && (← isClosed 0) then pure (.error (.system .badDescriptor))
  else if operand = ['-'] || Act.ownDescriptor? operand = some 0 then pure (.ok (← Act.readAll 0))
  else pure (((← Act.files).contentAt (← Act.process).cwd (path operand)).map Octets.ofBytes)

/-- Puts the contents of files together; the status is that of the worst one. What cannot be read
is named as `name` does it. -/
def contents (name : Octets → Octets) (operands : List Octets) : Act (Octets × Nat) := do
  let parts ← operands.mapM fun operand => do
    match ← contentOf operand with
    | .ok text => pure (text, 0)
    | .error e => do pure ([], ← failed (name operand ++ ": ".toList ++ reason e))
  pure (parts.flatMap (·.1), (parts.map (·.2)).foldl max 0)

/-- The file that an operand names: its directory, its name, and how far it has been read. -/
def fileOf (operand : Octets) : Act (Option (DirId × Bytes × Nat)) := do
  if operand = ['-'] || Act.ownDescriptor? operand = some 0 then
    match ← Act.descriptor? 0 with
    | some (_, .file dir name position _) => pure (some (dir, name, position))
    | _ => pure none
  else
    let files ← Act.files
    match files.find true (← Act.process).cwd (path operand) with
    | .ok (.leaf trail name (.file _ _)) =>
      pure ((files.idAt? (.linked trail)).map fun dir => (dir, name, 0))
    | _ => pure none

/-- The file that standard output goes to: its directory, its name, and where it is written. -/
def outputFile : Act (Option (DirId × Bytes × Nat)) := do
  match ← Act.descriptor? 1 with
  | some (_, .file dir name position atEnd) =>
    let size := ((← Act.fileContent dir name).getD []).length
    pure (some (dir, name, if atEnd then size else position))
  | _ => pure none

/-- The lines of a text with their ends. -/
def linesOf (s : Octets) : List Octets :=
  let pieces := Pieces.split '\n' s
  pieces.dropLast.map (· ++ ['\n']) ++ (pieces.getLast?.filter (· ≠ [])).toList

/-- The lines of a text without their ends. -/
def bareLinesOf (s : Octets) : List Octets :=
  let pieces := Pieces.split '\n' s
  if pieces.getLast? = some [] then pieces.dropLast else pieces

/-- The path without separators at its end. -/
def withoutSlashes (s : Octets) : Octets :=
  let kept := (s.reverse.dropWhile (· = '/')).reverse
  if kept = [] ∧ s ≠ [] then ['/'] else kept

/-- The last step of a path. -/
def lastStep (s : Octets) : Octets :=
  match withoutSlashes s with
  | ['/'] => ['/']
  | s => (Pieces.split '/' s).getLast?.getD []

/-! ## Tools that write what they are told -/

/-- Writes its arguments. Escapes are resolved only if asked for. -/
def echo : Tool := fun arguments =>
  let isOption (s : Octets) : Bool := match s with
    | '-' :: c :: letters => (c :: letters).all fun c => c = 'n' || c = 'e' || c = 'E'
    | _ => false
  let letters := (arguments.takeWhile isOption).flatMap (·.drop 1)
  let text := Field.joined [' '] (arguments.dropWhile isOption)
  let (text, cut) := if (letters.filter (· ≠ 'n')).getLast? = some 'e' then
    Format.unescape .tool (text.length + 1) text else (text, false)
  emit (if cut || letters.contains 'n' then text else text ++ ['\n'])

/-- Writes arguments in a format. -/
def printf : Tool := fun arguments => do
  match if arguments.head? = some ['-', '-'] then arguments.drop 1 else arguments with
  | [] => misused "missing operand".toList
  | format :: arguments => do
    let r := Format.write .tool format arguments
    let status ← emit r.output
    let complaints ← r.complaints.mapM fun complaint =>
      match complaint with
      | .misread argument m => failed (quoted argument ++ ": ".toList ++ m.message .tool)
      | .ignored rest => do
        let _ ← failed ("warning: ".toList ++ rest ++
          ": character(s) following character constant have been ignored".toList)
        pure 0
    match r.fault with
    | some fault => failed (fault.message .tool)
    | none =>
      if ! r.asked && r.arguments ≠ [] && ! r.stopped then
        let _ ← failed ("warning: ignoring excess arguments, starting with ".toList ++
          quoted (r.arguments.headD []))
      pure (complaints.foldl max status)

/-- Puts a double dash in front of the first negative number, which is no option. -/
def guarded : List Octets → List Octets
  | [] => []
  | s :: rest =>
    match s with
    | '-' :: c :: _ => if c.isDigit then ['-', '-'] :: s :: rest else s :: guarded rest
    | _ => s :: guarded rest

/-- Writes the numbers of a range. -/
def seq : Tool := fun arguments => (withLine ['w'] ['s'] fun line => do
  let isNumber (s : Octets) : Bool := (Octets.toInt? s).isSome
  match line.operands.find? (! isNumber ·) with
  | some s => misused ("invalid floating point argument: ".toList ++ quoted s)
  | none => do
    let range (first step last : Int) : Act Nat :=
      if step = 0 then misused "invalid Zero increment value: \x270\x27".toList
      else
        let size := ((last - first).tdiv step + 1).toNat
        let size := if (step > 0 && last < first) || (step < 0 && last > first) then 0 else size
        let numbers := (List.range size).map fun (i : Nat) => Octets.ofInt (first + step * i)
        let width := if line.has 'w' then (numbers.map List.length).foldl max 0 else 0
        let padded := numbers.map fun digits =>
          List.replicate (width - digits.length) '0' ++ digits
        let text := Field.joined ((line.value? 's').getD ['\n']) padded
        emit (if text = [] then [] else text ++ ['\n'])
    match line.operands.filterMap Octets.toInt? with
    | [last] => range 1 1 last
    | [first, last] => range first 1 last
    | [first, step, last] => range first step last
    | [] => misused "missing operand".toList
    | _ => misused ("extra operand ".toList ++ quoted (line.operands.getD 3 [])))
    (guarded arguments)

/-- How many octets are written where there is no end. -/
def endless : Nat := 4000000

/-- Writes its arguments again and again. -/
def yes : Tool := fun arguments =>
  let text := Field.joined [' '] (if arguments = [] then [['y']] else arguments) ++ ['\n']
  let piece := (List.replicate 100 text).flatten
  let step (status : Nat) (_ : Nat) : Act Nat := do
    if status = 0 then emit piece else pure status
  (List.range (endless / piece.length)).foldlM step 0

/-! ## Paths -/

/-- Writes the last step of a path, without an ending. -/
def basename : Tool := fun arguments =>
  let shown (ending s : Octets) : Octets :=
    let name := lastStep s
    let name := if ending.isSuffixOf name && ending ≠ name then
      name.take (name.length - ending.length) else name
    name ++ ['\n']
  (withOperands ['a'] ['s'] "missing operand" fun line => do
    match line.value? 's', line.operands with
    | some ending, operands => emit (operands.flatMap (shown ending))
    | none, operands =>
      if line.has 'a' then emit (operands.flatMap (shown []))
      else
        match operands with
        | [s] => emit (shown [] s)
        | [s, ending] => emit (shown ending s)
        | _ => misused ("extra operand ".toList ++ quoted (operands.getD 2 [])))
    arguments

/-- The path without its last step. -/
def dirname : Tool := withOperands [] [] "missing operand" fun line =>
  forAll line.operands fun s =>
    let s := withoutSlashes s
    let above := (s.reverse.dropWhile (· ≠ '/')).reverse
    emit ((if above = [] then ['.'] else withoutSlashes above) ++ ['\n'])

/-- Writes the path of the working directory. -/
def pwd : Tool := fun _ => do
  match (← Act.files).pathOf (← Act.process).cwd with
  | .ok found => emit (Octets.ofBytes found ++ ['\n'])
  | .error e => failed (reason e)

/-! ## Other tools -/

/-- The nanoseconds of a time, if it is one: a number of seconds, minutes, hours or days. -/
def nanoseconds? (s : Octets) : Option Nat :=
  let whole := s.takeWhile Char.isDigit
  let after := s.drop whole.length
  let (places, ending) := match after with
    | '.' :: rest => (rest.takeWhile Char.isDigit, rest.dropWhile Char.isDigit)
    | rest => ([], rest)
  let unit : Option Nat := match ending with
    | [] | ['s'] => some 1
    | ['m'] => some 60
    | ['h'] => some 3600
    | ['d'] => some 86400
    | _ => none
  if whole = [] ∧ places = [] then none
  else
    let fraction := (places ++ List.replicate 9 '0').take 9
    unit.map fun unit =>
      unit * (Format.valueOf 10 whole * Nat.pow 10 9 + Format.valueOf 10 fraction)

/-- Waits. -/
def sleep : Tool := withOperands [] [] "missing operand" fun line => do
  match line.operands.find? fun s => (nanoseconds? s).isNone with
  | some s => misused ("invalid time interval ".toList ++ quoted s)
  | none => do
    let time := (line.operands.filterMap nanoseconds?).foldl (· + ·) 0
    Act.modifyHost fun h => { h with elapsed := h.elapsed + time }
    pure 0

/-- Writes the environment. -/
def env : Tool := fun _ => do
  emit ((← Act.environment).flatMap fun (name, value) => name ++ '=' :: value ++ ['\n'])

/-- Writes variables of the environment; fails if one of them is not there. -/
def printenv : Tool := fun names => do
  if names = [] then env []
  else
    let environment ← Act.environment
    forAll names fun name => do
      match environment.lookup name with
      | some value => emit (value ++ ['\n'])
      | none => pure 1

/-- Decides a condition: status 0 if it holds, 1 if not. -/
def test : Tool := fun operands => do
  match ← Condition.decide operands with
  | .ok true => pure 0
  | .ok false => pure 1
  | .error problem => do
    let _ ← failed problem.message
    pure 2

/-- The tools by their names. -/
def table : List (String × Tool) :=
  [("echo", echo), ("printf", printf), ("seq", seq), ("yes", yes), ("basename", basename),
    ("dirname", dirname), ("pwd", pwd), ("sleep", sleep), ("env", env), ("printenv", printenv),
    ("test", test), ("[", fun operands => test operands.dropLast),
    ("true", fun _ => pure 0), ("false", fun _ => pure 1)]

end Tool

end BenchHarness.Shell
