import BenchHarness.Shell.Tool

/-!
# Tools for files

The programs that look at the names in directories and change what is there.
-/

namespace BenchHarness.Shell.FileTool

open Tool

/-- Changes files, and warns if that fails. -/
def change (what : Octets) (f : DirId → Files → Except IoError Files) :
    Act Nat := do
  let base := (← Act.process).cwd
  match ← Act.changeFiles (f base) with
  | none => pure 0
  | some e => failed (what ++ ": ".toList ++ reason e)

/-- Says that there is nothing under a name. -/
def missing (doing : String) (name : Octets) : Act Nat :=
  failed (doing.toList ++ ' ' :: named name ++ ": No such file or directory".toList)

/-- What a path names inside another one, if that is a directory. -/
def target (source destination : Octets) : Act Octets := do
  if ← isDirectory destination then
    let inside := withoutSlashes destination
    pure (if inside = ['/'] then '/' :: lastStep source else inside ++ '/' :: lastStep source)
  else pure destination

/-- Whether two paths lead to the same thing. -/
def isSame (a b : Octets) : Act Bool := do
  let files ← Act.files
  let base := (← Act.process).cwd
  match files.canonical base (path a), files.canonical base (path b) with
  | .ok a, .ok b => pure (a = b)
  | _, _ => pure false

/-! ## Looking -/

/-- The paths of a directory and those below it, each before the ones in it; the first argument
bounds how deep they are. -/
def below (hidden : Bool) : Nat → Octets → Act (List Octets)
  | 0, s => pure [s]
  | depth + 1, s => do
    let names := (← Field.namesIn s).filter fun name => hidden || name.head? ≠ some '.'
    let inner ← names.mapM fun name => do
      let inside := s ++ '/' :: name
      match ← Condition.nodeAt false inside with
      | some (.directory _ _) => below hidden depth inside
      | _ => pure []
    pure (s :: inner.flatten)

/-- How deep directories are listed. -/
def maxDepth : Nat := 200

/-- Writes names, those in directories without the hidden ones unless asked for. -/
def ls : Tool := fun arguments => do
  match Line.parse [] ['a', 'A', '1', 'd', 'R', 'r', 'p', 'F', 'f', 'l'] [] arguments with
  | .error message => do
    let _ ← misused message
    pure 2
  | .ok line => do
    let turned (names : List Octets) : List Octets := if line.has 'r' then names.reverse else names
    let operands := if line.operands = [] then [['.']]
      else turned (line.operands.mergeSort Field.nameBefore)
    let kinds ← operands.mapM fun o => do pure (o, ← Field.isThere o, ← isDirectory o)
    let isListed (k : Octets × Bool × Bool) : Bool := k.2.2 && ! line.has 'd'
    let status ← forAll ((kinds.filter (! ·.2.1)).map (·.1)) fun o => do
      let _ ← missing "cannot access" o
      pure 2
    let plain := (kinds.filter fun k => k.2.1 && ! isListed k).map (·.1)
    let hidden := line.has 'a' || line.has 'A'
    let directories ← ((kinds.filter isListed).map (·.1)).mapM fun o =>
      if line.has 'R' then below hidden maxDepth o else pure [o]
    let directories := directories.flatten
    let marked (base name : Octets) : Act Octets := do
      if (line.has 'p' || line.has 'F') && (← isDirectory (base ++ name)) then pure (name ++ ['/'])
      else pure name
    let listings ← directories.mapM fun o => do
      let names := (← Field.namesIn o).filter fun name => hidden || name.head? ≠ some '.'
      let names := turned (if line.has 'a' then [['.'], ['.', '.']] ++ names else names)
      let shown ← names.mapM (marked (o ++ ['/']))
      let heading := if operands.length > 1 || line.has 'R' then o ++ [':', '\n'] else []
      pure (heading ++ shown.flatMap (· ++ ['\n']))
    let first := plain.flatMap (· ++ ['\n'])
    let text := Field.joined ['\n'] ((if first = [] then [] else [first]) ++ listings)
    pure (max status (if (← emit text) = 0 then 0 else 2))

/-- Writes what a link says; with `-f` where it leads to. -/
def readlink : Tool :=
  withOperands ['f', 'e', 'm', 'n', 'q', 's', 'v'] [] "missing operand" fun line =>
    let finish : Octets := if line.has 'n' then [] else ['\n']
    forAll line.operands fun operand => do
      if line.has 'f' || line.has 'e' || line.has 'm' then
        match (← Act.files).canonical (← Act.process).cwd (path operand) with
        | .ok found => emit (Octets.ofBytes found ++ finish)
        | .error _ => pure 1
      else
        match ← Condition.nodeAt false operand with
        | some (.link text) => emit (Octets.ofBytes text ++ finish)
        | _ => pure 1

/-- Writes where paths lead to. -/
def realpath : Tool := withOperands ['e', 'm', 'q'] [] "missing operand" fun line =>
  forAll line.operands fun operand => do
    match (← Act.files).canonical (← Act.process).cwd (path operand) with
    | .ok found => emit (Octets.ofBytes found ++ ['\n'])
    | .error e => failed (shown operand ++ ": ".toList ++ reason e)

/-! ## Directories -/

/-- Makes directories; with `-p` also those on the way, and existing ones are no error. -/
def mkdir : Tool := withOperands ['p', 'v'] ['m'] "missing operand" fun line =>
  forAll line.operands fun operand => do
    let isNew := ! (← Field.isThere operand)
    let status ← change ("cannot create directory ".toList ++ quoted operand)
      fun base files =>
        if line.has 'p' then files.makeDirectories base (path operand)
        else files.makeDirectory base (path operand)
    if line.has 'v' && isNew && status = 0 then
      emit ("mkdir: created directory ".toList ++ named operand ++ ['\n'])
    else pure status

/-- The path of a directory and those of the ones around it, as far as the path names them. -/
def upwards (s : Octets) : List Octets :=
  let steps := Pieces.split '/' (withoutSlashes s)
  ((List.range steps.length).map fun n => Field.joined ['/'] (steps.take (n + 1))).reverse

/-- Removes empty directories; with `-p` also those around them. -/
def rmdir : Tool := withOperands ['p', 'v'] [] "missing operand" fun line =>
  forAll line.operands fun operand => do
    let remove (s : Octets) : Act Nat :=
      change ("failed to remove ".toList ++ named s) fun base files =>
        files.removeDirectory base (path s)
    if line.has 'p' then
      (upwards operand).foldlM (fun status s => if status = 0 then remove s else pure status) 0
    else remove operand

/-! ## Removing and moving -/

/-- Removes files; with `-r` also directories, with `-f` missing ones are no error. -/
def rm : Tool := withLine ['r', 'R', 'f', 'v', 'i', 'd'] [] fun line => do
  if line.operands = [] ∧ ! line.has 'f' then misused "missing operand".toList
  else
    let whole := line.has 'r' || line.has 'R'
    forAll line.operands fun operand => do
      let step := lastStep operand
      if line.has 'f' && ! (← Field.isThere operand) then pure 0
      else if whole && (step = ['.'] || step = ['.', '.']) then
        failed ("refusing to remove '.' or '..' directory: skipping ".toList ++ named operand)
      else if whole && withoutSlashes operand = ['/'] then do
        let _ ← failed "it is dangerous to operate recursively on \x27/\x27".toList
        failed "use --no-preserve-root to override this failsafe".toList
      else
        change ("cannot remove ".toList ++ named operand) fun base files =>
          if whole then files.removeTree base (path operand)
          else files.removeFile base (path operand)

/-- The operands of a tool that takes sources and a destination. -/
def withDestination (plain : List Char)
    (act : Line → (source destination : Octets) → Act Nat) : Tool :=
  withOperands plain [] "missing file operand" fun line => do
    match line.operands.reverse with
    | destination :: source :: more =>
      if more ≠ [] ∧ ! (← isDirectory destination) then
        failed ("target ".toList ++ named destination ++ ": Not a directory".toList)
      else forAll (source :: more).reverse fun source => act line source destination
    | operands =>
      misused
        ("missing destination file operand after ".toList ++ named (operands.headD []))

/-- Gives what has some name another one, or one in a directory. -/
def mv : Tool := withDestination ['f', 'n', 'v', 'i', 'T'] fun line source destination => do
  if ! (← Field.isThere source) then missing "cannot stat" source
  else
    let target ← target source destination
    if ← isSame source target then
      failed (named source ++ " and ".toList ++ named target ++
        " are the same file".toList)
    else if line.has 'n' && (← Field.isThere target) then pure 0
    else
      change ("cannot move ".toList ++ named source ++ " to ".toList ++ named target)
        fun base files => files.rename base (path source) (path target)

/-- Copies a file, or with `whole` a directory; the first argument bounds how deep. -/
def copy (whole : Bool) : Nat → (source target : Octets) → Act Nat
  | 0, _, _ => pure 1
  | depth + 1, source, target => do
    match ← Condition.nodeAt (! whole) source with
    | none => missing "cannot stat" source
    | some (.directory _ children) => do
      if ! (← isDirectory target) then
        let _ ← change ("cannot create directory ".toList ++ named target) fun base files =>
          files.makeDirectory base (path target)
      forAll (children.map fun c => Octets.ofBytes c.1) fun name =>
        copy whole depth (source ++ '/' :: name) (target ++ '/' :: name)
    | some (.link text) =>
      change ("cannot create symbolic link ".toList ++ named target) fun base files =>
        files.makeLink base (path target) text
    | some node => do
      let (mode, content) := match node with
        | .file mode content => (mode, content)
        | _ => (Files.usualMode, [])
      let isNew := ! (← Field.isThere target)
      change ("cannot create regular file ".toList ++ named target) fun base files => do
        let files ← files.writeFile base (path target) content
        if isNew then files.setMode base (path target) mode else pure files

/-- Copies files; with `-r` also directories. -/
def cp : Tool := withDestination ['r', 'R', 'a', 'p', 'f', 'v', 'n', 'i', 'd', 'L', 'P', 'T']
  fun line source destination => do
    let whole := line.has 'r' || line.has 'R' || line.has 'a'
    if ! (← Field.isThere source) then missing "cannot stat" source
    else if ! whole && (← isDirectory source) then
      failed ("-r not specified; omitting directory ".toList ++ named source)
    else
      let target ← target source destination
      if ← isSame source target then
        failed (named source ++ " and ".toList ++ named target ++
          " are the same file".toList)
      else if line.has 'n' && (← Field.isThere target) then pure 0
      else copy whole maxDepth source target

/-! ## Making and changing files -/

/-- Makes links: with `-s` symbolic ones, without it another name that has the same content. -/
def ln : Tool := withOperands ['s', 'f', 'n', 'v', 'T'] []
    "missing file operand" fun line => do
  let (text, name) := match line.operands with
    | [text] => (text, lastStep text)
    | operands => (operands.headD [], operands.getLast?.getD [])
  let name ← target text name
  if line.has 'f' && (← Field.isThere name) then
    let _ ← change name fun base files => files.removeFile base (path name)
  if line.has 's' then
    change ("failed to create symbolic link ".toList ++ named name) fun base files =>
      files.makeLink base (path name) (path text)
  else if ! (← Field.isThere text) then missing "failed to access" text
  else if ← isDirectory text then
    failed (shown text ++ ": hard link not allowed for directory".toList)
  else if ← Field.isThere name then
    failed ("failed to create hard link ".toList ++ named name ++ ": File exists".toList)
  else copy false 1 text name

/-- Makes files that do not exist. -/
def touch : Tool :=
  withOperands ['a', 'c', 'm', 'h'] ['d', 't', 'r'] "missing file operand" fun line =>
    forAll line.operands fun operand => do
      if line.has 'c' || (← Field.isThere operand) then pure 0
      else
        change ("cannot touch ".toList ++ named operand) fun base files =>
          files.updateFile base (path operand) id

/-- The permission bits after a change. -/
def newMode (text : Octets) (old : Nat) : Option Nat :=
  if text ≠ [] ∧ text.all Format.isOctal then some (Format.valueOf 8 text)
  else
    let who := text.takeWhile fun c => ['u', 'g', 'o', 'a'].contains c
    let mask (c : Char) (bits : Nat) : Nat :=
      if who = [] || who.contains c || who.contains 'a' then bits else 0
    let places := mask 'u' 0o700 ||| mask 'g' 0o070 ||| mask 'o' 0o007
    match text.drop who.length with
    | sign :: letters =>
      let bit (c : Char) (bits : Nat) : Nat := if letters.contains c then bits else 0
      let bits := (bit 'r' 0o444 ||| bit 'w' 0o222 ||| bit 'x' 0o111) &&& places
      match sign with
      | '+' => some (old ||| bits)
      | '-' => some (old - (old &&& bits))
      | '=' => some ((old - (old &&& places)) ||| bits)
      | _ => none
    | [] => none

/-- Changes permission bits. -/
def chmod : Tool := fun
  | [] => misused "missing operand".toList
  | [mode] => misused ("missing operand after ".toList ++ quoted mode)
  | mode :: operands => do
    if (newMode mode 0).isNone then misused ("invalid mode: ".toList ++ quoted mode)
    else
      forAll operands fun operand => do
        match ← Condition.nodeAt true operand with
        | none => missing "cannot access" operand
        | some node => do
          let old := match node with
            | .file mode _ => mode
            | _ => 0o755
          change operand fun base files =>
            files.setMode base (path operand) ((newMode mode old).getD old)

/-- The tools by their names. -/
def table : List (String × Tool) :=
  [("ls", ls), ("readlink", readlink), ("realpath", realpath), ("mkdir", mkdir), ("rmdir", rmdir),
    ("rm", rm), ("mv", mv), ("cp", cp), ("ln", ln), ("touch", touch), ("chmod", chmod)]

end BenchHarness.Shell.FileTool
