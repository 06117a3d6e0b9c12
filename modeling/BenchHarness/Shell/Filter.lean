import BenchHarness.Shell.TextPattern
import BenchHarness.Shell.Tool

/-!
# Filters

The programs that read text and write some of it, changed or in another order, or count it.
-/

namespace BenchHarness.Shell.Filter

open Tool

/-- A text padded with blanks on the left. -/
def padded (width : Nat) (s : Octets) : Octets := List.replicate (width - s.length) ' ' ++ s

/-- Whether a character is white space. -/
def isSpace (c : Char) : Bool := c = ' ' || ('\t' ≤ c && c ≤ '\x0d')

/-! ## Writing files -/

/-- A character as it is made visible: a caret stands before control characters, and `M-` before
those above the others. -/
def visible (c : Char) : Octets :=
  let low (n : Nat) : Octets :=
    if n < 32 then ['^', Char.ofNat (n + 64)] else if n = 127 then ['^', '?'] else [Char.ofNat n]
  if c.toNat < 128 then low c.toNat else 'M' :: '-' :: low (c.toNat - 128)

/-- Leaves out empty lines that follow an empty one. -/
def squeezed : List Octets → List Octets
  | [] => []
  | line :: rest =>
    match squeezed rest with
    | next :: more => if line = ['\n'] ∧ next = ['\n'] then next :: more else line :: next :: more
    | [] => [line]

/-- Puts numbers in front of lines, of all of them or of those that are not empty. -/
def numbered (all : Bool) (blank : Octets) (lines : List Octets) : List Octets :=
  let step (state : List Octets × Nat) (line : Octets) : List Octets × Nat :=
    if all || line ≠ ['\n'] then
      ((padded 6 (Octets.ofNat state.2) ++ '\t' :: line) :: state.1, state.2 + 1)
    else ((blank ++ line) :: state.1, state.2)
  (lines.foldl step ([], 1)).1.reverse

/-- A text as options want it shown: with its lines numbered, ends of lines marked, empty lines left
out after an empty one, and characters made visible. -/
def dressed (line : Line) (text : Octets) : Octets :=
  let any (letters : List Char) : Bool := letters.any line.has
  let endMark : Octets := if any ['A', 'e', 'E'] then ['$', '\n'] else ['\n']
  let shown (c : Char) : Octets :=
    if c = '\n' then endMark
    else if c = '\t' then (if any ['A', 't', 'T'] then ['^', 'I'] else ['\t'])
    else if any ['A', 'e', 't', 'v'] then visible c
    else [c]
  let render (s : Octets) : Octets :=
    match any ['A', 'e', 'E'], s.reverse with
    | true, '\n' :: '\x0d' :: rest => rest.reverse.flatMap shown ++ ['^', 'M', '$', '\n']
    | _, _ => s.flatMap shown
  let step (state : List Octets × Nat) (s : Octets) : List Octets × Nat :=
    if line.has 'b' && s = ['\n'] then (render s :: state.1, state.2)
    else if any ['n', 'b'] then
      ((padded 6 (Octets.ofNat state.2) ++ '\t' :: render s) :: state.1, state.2 + 1)
    else (render s :: state.1, state.2)
  let lines := if line.has 's' then squeezed (linesOf text) else linesOf text
  (lines.foldl step ([], 1)).1.reverse.flatten

/-- How far the writing of files has come. -/
structure Progress where
  /-- What has been read. -/
  text : Octets
  /-- How many octets have been written. -/
  size : Nat
  status : Nat
  /-- Whether no more can be written. -/
  stopped : Bool

/-- Writes what some text adds to what has been written. -/
def Progress.put (line : Line) (p : Progress) (text : Octets) : Act Progress := do
  if p.stopped then pure p
  else
    let shown := if line.options.all (·.1 = 'u') then text else dressed line text
    let status ← emit (shown.drop p.size)
    pure { p with size := shown.length, status := max p.status status, stopped := status ≠ 0 }

/-- Reads a file and writes what it adds. A carriage return at its end may belong to the end of a
line, so it waits for what follows. -/
def Progress.take (line : Line) (p : Progress) (operand : Octets) : Act Progress := do
  if p.stopped then pure p
  else
    match ← contentOf operand with
    | .error e => do
      pure { p with status := ← failed (shown operand ++ ": ".toList ++ reason e) }
    | .ok more => do
      match ← fileOf operand, ← outputFile with
      | some (dir, name, start), some (dir', name', stop) =>
        if dir = dir' && name = name' && start < stop then
          return { p with
            status := ← failed (shown operand ++ ": input file is output file".toList) }
      | _, _ => pure ()
      let p := { p with text := p.text ++ more }
      let isMarked := ['A', 'e', 'E'].any line.has
      p.put line (if isMarked && p.text.getLast? = some '\x0d' then p.text.dropLast else p.text)

/-- Writes files one after the other. -/
def cat : Tool :=
  let names := [("number-nonblank", 'b'), ("number", 'n'), ("squeeze-blank", 's'),
    ("show-nonprinting", 'v'), ("show-ends", 'E'), ("show-tabs", 'T'), ("show-all", 'A')]
  withNames names ['A', 'b', 'e', 'E', 'n', 's', 't', 'T', 'u', 'v'] [] fun line => do
    if ← isClosed 1 then failed "standard output: Bad file descriptor".toList
    else
      let p ← line.inputs.foldlM (Progress.take line) ⟨[], 0, 0, false⟩
      let p ← p.put line p.text
      if ! p.stopped && line.inputs.contains ['-'] && (← isClosed 0) then
        failed "closing standard input: Bad file descriptor".toList
      else pure p.status

/-- Writes the lines of files in the opposite order. -/
def tac : Tool := withLine [] [] fun line => do
  let failing (name : Octets) : Octets :=
    "failed to open ".toList ++ named name ++ " for reading".toList
  let (text, status) ← contents failing line.inputs
  pure (max status (← emit (linesOf text).reverse.flatten))

/-- Writes the lines of files with the characters of each in the opposite order. -/
def rev : Tool := withLine [] [] fun line => do
  let (text, status) ← contents ("cannot open ".toList ++ ·) line.inputs
  let turned (s : Octets) : Octets :=
    if s.getLast? = some '\n' then s.dropLast.reverse ++ ['\n'] else s.reverse
  pure (max status (← emit ((linesOf text).flatMap turned)))

/-- Writes the lines of files with numbers. -/
def nl : Tool := withLine [] ['b'] fun line => do
  let (text, status) ← contents shown line.inputs
  let lines := numbered (line.value? 'b' = some ['a']) (List.replicate 7 ' ') (linesOf text)
  pure (max status (← emit lines.flatten))

/-- Writes standard input on standard output and into files. -/
def tee : Tool := withLine ['a', 'i'] [] fun line => do
  let text ← Act.readAll 0
  let base := (← Act.process).cwd
  let status ← forAll line.operands fun operand => do
    let changed ← Act.changeFiles fun files => files.updateFile base (path operand) fun old =>
      if line.has 'a' then old ++ path text else path text
    match changed with
    | none => pure 0
    | some e => failed (shown operand ++ ": ".toList ++ reason e)
  pure (max status (← emit text))

/-! ## Counting -/

/-- What is counted in a text. -/
structure Counts where
  lines : Nat
  words : Nat
  octets : Nat
  /-- The width of the widest line. -/
  width : Nat

/-- Counts a text. -/
def Counts.of (text : Octets) : Counts :=
  let step (state : Nat × Bool) (c : Char) : Nat × Bool :=
    if isSpace c then (state.1, false) else (if state.2 then state.1 else state.1 + 1, true)
  let column (n : Nat) (c : Char) : Nat := if c = '\t' then n / 8 * 8 + 8 else n + 1
  let widths := (Pieces.split '\n' text).map fun line =>
    (line.filter fun c => c = '\t' || (32 ≤ c.toNat && c.toNat < 127)).foldl column 0
  ⟨text.count '\n', (text.foldl step (0, false)).1, text.length, widths.foldl max 0⟩

/-- The counts of two texts together. -/
def Counts.add (a b : Counts) : Counts :=
  ⟨a.lines + b.lines, a.words + b.words, a.octets + b.octets, max a.width b.width⟩

/-- Whether an operand leads to something that has no size to tell. -/
def isSizeless (operand : Octets) : Act Bool := do
  if operand = ['-'] || Act.ownDescriptor? operand = some 0 then
    match ← Act.descriptor? 0 with
    | some (_, .file _ _ _ _) | none => pure false
    | _ => pure true
  else
    match ← Condition.nodeAt true operand with
    | some (.file _ _) | none => pure false
    | _ => pure true

/-- The counts that options ask for. -/
def Counts.columns (line : Line) (n : Counts) : List Nat :=
  let isWanted (c : Char) : Bool := line.has c || (line.options = [] && ['l', 'w', 'c'].contains c)
  [('l', n.lines), ('w', n.words), ('m', n.octets), ('c', n.octets), ('L', n.width)].filterMap
    fun (c, n) => if isWanted c then some n else none

/-- A row of counts; it ends in the name of what was counted if there are operands. -/
def Counts.row (line : Line) (width : Nat) (name : Octets) (n : Counts) : Octets :=
  let cells := (n.columns line).map fun n => padded width (Octets.ofNat n)
  Field.joined [' '] cells ++ (if line.operands = [] then [] else ' ' :: name) ++ ['\n']

/-- What was read under an operand. -/
structure Source where
  operand : Octets
  content : Except IoError Octets

/-- Whether a source is a directory. -/
def Source.isDirectory (s : Source) : Bool := match s.content with
  | .error (.system .isDirectory) => true
  | _ => false

/-- The counts of a source; what can be opened but not read counts as empty. -/
def Source.counts? (s : Source) : Option Counts :=
  match s.content with
  | .ok text => some (Counts.of text)
  | .error _ => if s.isDirectory || s.operand = ['-'] then some (Counts.of []) else none

/-- Counts lines, words and bytes. -/
def wc : Tool :=
  let names := [("lines", 'l'), ("words", 'w'), ("bytes", 'c'), ("chars", 'm'),
    ("max-line-length", 'L')]
  withNames names ['l', 'w', 'c', 'm', 'L'] [] fun line => do
    let sizeless ← line.inputs.anyM isSizeless
    let sources : List Source ← line.inputs.mapM fun o => do pure ⟨o, ← contentOf o⟩
    let total := (sources.filterMap Source.counts?).foldl Counts.add ⟨0, 0, 0, 0⟩
    let digits := (Octets.ofNat total.octets).length
    let width := if (total.columns line).length = 1 && sources.length = 1 then 1
      else if sizeless then max 7 digits else digits
    let rows ← sources.mapM fun source => do
      let status ← match source.content with
        | .ok _ => pure 0
        | .error e =>
          if source.operand = [] then failed "invalid zero-length file name".toList
          else
            let name := if line.operands = [] then quoted "standard input".toList
              else shown source.operand
            failed (name ++ ": ".toList ++ reason e)
      match source.counts? with
      | some n => pure (status, ← Act.write 1 (n.row line width source.operand))
      | none => pure (status, none)
    let last ← if sources.length > 1 then Act.write 1 (total.row line width "total".toList)
      else pure none
    let closing ← if line.inputs.contains ['-'] && (← isClosed 0) then
        failed "-: Bad file descriptor".toList
      else pure 0
    let written ← match rows.findSome? (·.2) <|> last with
      | none => pure 0
      | some (.system .badDescriptor) => failed "write error: Bad file descriptor".toList
      | some _ => failed "write error".toList
    pure ((rows.map (·.1)).foldl max (max closing written))

/-! ## Beginnings and ends -/

/-- Whether an operand gives zeros without end. -/
def isEndless (operand : Octets) : Act Bool := do
  if operand = ['-'] then
    match ← Act.descriptor? 0 with
    | some (_, .device .zero) => pure true
    | _ => pure false
  else
    match ← Condition.nodeAt true operand with
    | some (.device .zero) => pure true
    | _ => pure false

/-- Rewrites a first argument that is a sign and a number: it tells how many lines. Only if `signed`
the sign may be a plus. -/
def withOldNumber (signed : Bool) : List Octets → List Octets
  | (sign :: c :: rest) :: more =>
    if (c :: rest).all Char.isDigit && sign = '-' then ['-', 'n'] :: (c :: rest) :: more
    else if (c :: rest).all Char.isDigit && sign = '+' && signed then
      ['-', 'n'] :: (sign :: c :: rest) :: more
    else (sign :: c :: rest) :: more
  | arguments => arguments

/-- How much of a text is asked for: a number with its sign, of octets or of lines. -/
structure Amount where
  sign : Option Char
  size : Nat
  ofOctets : Bool

/-- The amount that options ask for; if `signed` it may have a plus. -/
def amountOf (signed : Bool) (line : Line) : Except Octets Amount :=
  let (ofOctets, text) := match line.value? 'c', line.value? 'n' with
    | some text, _ => (true, text)
    | none, some text => (false, text)
    | none, none => (false, ['1', '0'])
  let (sign, digits) := match text with
    | '-' :: digits => (some '-', digits)
    | '+' :: digits => (if signed then some '+' else none, digits)
    | digits => (none, digits)
  match Octets.toNat? digits with
  | some n => .ok ⟨sign, n, ofOctets⟩
  | none => .error ("invalid number of ".toList ++ (if ofOctets then "bytes" else "lines").toList ++
      ": ".toList ++ quoted digits)

/-- Writes parts of files, each under a heading if there are several. -/
def parts (signed : Bool) (pick : Amount → Octets → Octets) : Tool := fun arguments =>
  let names := [("lines", 'n'), ("bytes", 'c'), ("quiet", 'q'), ("silent", 'q'), ("verbose", 'v')]
  (withNames names ['q', 'v', 'z'] ['n', 'c'] fun line => do
    match amountOf signed line with
    | .error message => failed message
    | .ok amount => do
      let headings := (line.inputs.length > 1 || line.has 'v') && ! line.has 'q'
      let step (state : Nat × Bool) (operand : Octets) : Act (Nat × Bool) := do
        let read ← if ← isEndless operand then
            pure (.ok (List.replicate (if amount.ofOctets then amount.size else 0) '\x00'))
          else contentOf operand
        match read with
        | .error (.system .isDirectory) => do
          let status ← failed ("error reading ".toList ++ named operand ++
            ": Is a directory".toList)
          pure (max state.1 status, state.2)
        | .error e => do
          let status ← failed ("cannot open ".toList ++ named operand ++
            " for reading: ".toList ++ reason e)
          pure (max state.1 status, state.2)
        | .ok text => do
          let name := if operand = ['-'] then "standard input".toList else operand
          let heading := if headings then
              (if state.2 then ['\n'] else []) ++ "==> ".toList ++ name ++ " <==\n".toList
            else []
          let status ← emit (heading ++ pick amount text)
          pure (max state.1 status, true)
      let (status, _) ← line.inputs.foldlM step (0, false)
      pure status) (withOldNumber signed arguments)

/-- Writes the beginnings of files. -/
def head : Tool := parts false fun amount text =>
  let keep (size : Nat) : Nat := if amount.sign = some '-' then size - amount.size else amount.size
  if amount.ofOctets then text.take (keep text.length)
  else
    let lines := linesOf text
    (lines.take (keep lines.length)).flatten

/-- Writes the ends of files. -/
def tail : Tool := parts true fun amount text =>
  let skip (size : Nat) : Nat :=
    if amount.sign = some '+' then amount.size - 1 else size - amount.size
  if amount.ofOctets then text.drop (skip text.length)
  else
    let lines := linesOf text
    (lines.drop (skip lines.length)).flatten

/-! ## Characters -/

/-- The characters of a named class. -/
def classOf (name : Octets) : Octets :=
  let all := (List.range 256).map Char.ofNat
  match String.ofList name with
  | "upper" => all.filter Char.isUpper
  | "lower" => all.filter Char.isLower
  | "alpha" => all.filter Char.isAlpha
  | "digit" => all.filter Char.isDigit
  | "alnum" => all.filter Char.isAlphanum
  | "space" => all.filter isSpace
  | "blank" => ['\t', ' ']
  | "cntrl" => all.filter fun c => c.toNat < 32 || c.toNat = 127
  | "print" => all.filter fun c => 32 ≤ c.toNat && c.toNat < 127
  | "punct" => all.filter fun c => 32 < c.toNat && c.toNat < 127 && ! c.isAlphanum
  | _ => []

/-- The characters that a set names: ranges, classes and escapes; the first argument bounds its
length. -/
def members : Nat → Octets → Octets
  | 0, _ => []
  | n + 1, s =>
    match s with
    | [] => []
    | '[' :: ':' :: rest =>
      let name := rest.takeWhile (· ≠ ':')
      match rest.drop name.length with
      | ':' :: ']' :: after => classOf name ++ members n after
      | _ => '[' :: members n (':' :: rest)
    | c :: rest =>
      let (first, rest) : Char × Octets :=
        if c = '\\' then
          match rest with
          | [] => ('\\', [])
          | d :: more =>
            if Format.isOctal d then
              let digits := ((d :: more).takeWhile Format.isOctal).take 3
              (Format.octalByte digits, (d :: more).drop digits.length)
            else ((Format.escapeOf? d).getD d, more)
        else (c, rest)
      match rest with
      | '-' :: last :: after =>
        if first ≤ last then
          (List.range (last.toNat - first.toNat + 1)).map (fun i => Char.ofNat (first.toNat + i)) ++
            members n after
        else members n after
      | rest => first :: members n rest

/-- Leaves out characters of a set that follow the same one. -/
def withoutRepeats (isMember : Char → Bool) : Octets → Octets
  | [] => []
  | c :: rest =>
    match withoutRepeats isMember rest with
    | d :: more => if c = d ∧ isMember c then d :: more else c :: d :: more
    | [] => [c]

/-- Replaces, removes or squeezes characters of standard input. -/
def tr : Tool := withOperands ['d', 's', 'c', 'C', 't'] [] "missing operand" fun line => do
  let set (i : Nat) : Octets :=
    let s := line.operands.getD i []
    members s.length s
  let first := set 0
  let second := set 1
  let isMember (c : Char) : Bool := first.contains c != (line.has 'c' || line.has 'C')
  let text ← Act.readAll 0
  if line.has 'd' then
    let kept := text.filter (! isMember ·)
    emit (if line.has 's' then withoutRepeats second.contains kept else kept)
  else if line.operands.length = 1 then
    if line.has 's' then emit (withoutRepeats isMember text)
    else do
      let status ← failed ("missing operand after ".toList ++ quoted (line.operands.headD []))
      Act.warn "Two strings must be given when translating.\n".toList
      advise
      pure status
  else
    let last := second.getLast?.getD ' '
    let replaced (c : Char) : Char :=
      if line.has 'c' || line.has 'C' then (if isMember c then last else c)
      else
        match (first.length - 1 - first.reverse.idxOf c), first.contains c with
        | i, true => second.getD i last
        | _, false => c
    let text := text.map replaced
    emit (if line.has 's' then withoutRepeats second.contains text else text)

/-! ## Fields -/

/-- A range of positions, counted from 1; without an end it goes on to the last one. -/
structure Span where
  start : Nat
  stop : Option Nat

/-- The ranges of a list such as `1,3-5,7-`. -/
def spansOf (s : Octets) : List Span :=
  (Pieces.split ',' s).map fun piece =>
    match Pieces.split '-' piece with
    | [a] => ⟨(Octets.toNat? a).getD 0, Octets.toNat? a⟩
    | a :: b :: _ => ⟨(Octets.toNat? a).getD 1, Octets.toNat? b⟩
    | [] => ⟨0, some 0⟩

/-- The elements at the positions of some ranges. -/
def selected {α : Type} (spans : List Span) (items : List α) : List α :=
  (items.zipIdx.filter fun (_, i) =>
    spans.any fun span => span.start ≤ i + 1 && span.stop.all (i + 1 ≤ ·)).map (·.1)

/-- Writes some fields or characters of every line. -/
def cut : Tool := withLine ['s', 'n'] ['d', 'f', 'c', 'b'] fun line => do
  let (text, status) ← contents shown line.inputs
  let shown (s : Octets) : List Octets :=
    match line.value? 'c', line.value? 'b', line.value? 'f' with
    | some spans, _, _ => [selected (spansOf spans) s]
    | none, some spans, _ => [selected (spansOf spans) s]
    | none, none, some spans =>
      let separator := ((line.value? 'd').getD ['\t']).headD '\t'
      if s.contains separator then
        [Pieces.glue separator (selected (spansOf spans) (Pieces.split separator s))]
      else if line.has 's' then []
      else [s]
    | none, none, none => []
  if (line.options.any fun o => ['c', 'b', 'f'].contains o.1) then
    let lines := (bareLinesOf text).flatMap shown
    pure (max status (← emit (lines.flatMap (· ++ ['\n']))))
  else
    misused "you must specify a list of bytes, characters, or fields".toList

/-! ## Orders -/

/-- The number at the start of a line. -/
def leadingNumber (s : Octets) : Int :=
  let s := s.dropWhile isSpace
  let (negative, s) := match s with
    | '-' :: rest => (true, rest)
    | rest => (false, rest)
  let n : Int := Format.valueOf 10 (s.takeWhile Char.isDigit)
  if negative then -n else n

/-- The part of a line from the field of a key on. -/
def keyOf (key : Option Octets) (separator : Option Char) (s : Octets) : Octets :=
  match key.bind fun k => Octets.toNat? (k.takeWhile Char.isDigit) with
  | none => s
  | some n =>
    match separator with
    | some c => Pieces.glue c ((Pieces.split c s).drop (n - 1))
    | none =>
      let dropField (s : Octets) : Octets := (s.dropWhile isSpace).dropWhile (! isSpace ·)
      (List.range (n - 1)).foldl (fun s _ => dropField s) s

/-- Writes the lines of files in order. -/
def sort : Tool := withLine ['n', 'r', 'u', 'f', 'b', 's'] ['k', 't', 'o'] fun line => do
  let (text, status) ← contents ("cannot read: ".toList ++ shown ·) line.inputs
  let folded (s : Octets) : Octets := if line.has 'f' then s.map Char.toUpper else s
  let key (s : Octets) : Octets :=
    folded (keyOf (line.value? 'k') ((line.value? 't').bind List.head?) s)
  let before (a b : Octets) : Bool :=
    if line.has 'n' then leadingNumber (key a) < leadingNumber (key b)
    else Field.nameBefore (key a) (key b) && key a ≠ key b
  let inOrder (a b : Octets) : Bool :=
    let last := line.has 's' || line.has 'u' || (if line.has 'r' then Field.nameBefore b a
      else Field.nameBefore a b)
    if line.has 'r' then before b a || (! before a b && last)
    else before a b || (! before b a && last)
  let lines := (bareLinesOf text).mergeSort inOrder
  let isSame (a b : Octets) : Bool := ! before a b && ! before b a
  let lines := if line.has 'u' then
      lines.foldr (fun s kept => s :: kept.dropWhile (isSame s)) []
    else lines
  if status ≠ 0 then pure 2 else emit (lines.flatMap (· ++ ['\n']))

/-- Puts equal neighbours together with their number. -/
def runsOf : List Octets → List (Octets × Nat)
  | [] => []
  | s :: rest =>
    match runsOf rest with
    | (t, n) :: more => if s = t then (t, n + 1) :: more else (s, 1) :: (t, n) :: more
    | [] => [(s, 1)]

/-- Writes lines without repeating neighbours. -/
def uniq : Tool := withLine ['c', 'd', 'u'] [] fun line => do
  let (text, status) ← contents shown (line.inputs.take 1)
  let runs := (runsOf (bareLinesOf text)).filter fun (_, n) =>
    ! (line.has 'd' && n = 1) && ! (line.has 'u' && n > 1)
  let shown (run : Octets × Nat) : Octets :=
    (if line.has 'c' then padded 7 (Octets.ofNat run.2) ++ [' '] else []) ++ run.1 ++ ['\n']
  pure (max status (← emit (runs.flatMap shown)))

/-! ## Searching -/

/-- Writes the lines of files in which a pattern is found. -/
def grepWith (usual : TextPattern.Kind) : Tool := fun arguments => do
  let plain := ['c', 'v', 'n', 'q', 'F', 'E', 'G', 'x', 'i', 'o', 'l', 'L', 'h', 'H', 's', 'w', 'a']
  match Line.parse [] plain ['e', 'm'] arguments with
  | .error message => do
    let _ ← failed message
    pure 2
  | .ok line => do
    let (source, files) := match line.value? 'e', line.operands with
      | some pattern, operands => (some pattern, operands)
      | none, pattern :: operands => (some pattern, operands)
      | none, [] => (none, [])
    match source with
    | none => do
      Act.warn "Usage: grep [OPTION]... PATTERNS [FILE]...\n".toList
      Act.warn "Try 'grep --help' for more information.\n".toList
      pure 2
    | some source => do
      let kind := if line.has 'F' then .fixed else if line.has 'E' then .extended else usual
      let pattern := TextPattern.parse kind source
      let folded (s : Octets) : Octets := if line.has 'i' then s.map Char.toLower else s
      let pattern := if line.has 'i' then pattern.lowered else pattern
      let isWordAt (s : Octets) (m : Nat × Nat) : Bool :=
        let isWord (c : Option Char) : Bool := c.any Word.inName
        ! isWord (if m.1 = 0 then none else s[m.1 - 1]?) && ! isWord s[m.1 + m.2]?
      let found (s : Octets) : List (Nat × Nat) :=
        (pattern.occurrences (folded s)).filter fun m =>
          (! line.has 'w' || isWordAt s m) && (! line.has 'x' || (m.1 = 0 && m.2 = s.length))
      let isHit (s : Octets) : Bool :=
        let hit := if line.has 'x' then pattern.isWhole (folded s) else found s ≠ []
        hit != line.has 'v'
      let inputs := if files = [] then [['-']] else files
      let named := (inputs.length > 1 && ! line.has 'h') || line.has 'H'
      let results ← inputs.mapM fun operand => do
        let name := if operand = ['-'] then "(standard input)".toList else operand
        match ← contentOf operand with
        | .error e => do
          if ! line.has 's' then
            let _ ← failed (name ++ ": ".toList ++ reason e)
          pure (false, true)
        | .ok text => do
          let hits := (bareLinesOf text).zipIdx.filter fun (s, _) => isHit s
          let hits := match (line.value? 'm').bind Octets.toNat? with
            | some n => hits.take n
            | none => hits
          let label (i : Nat) : Octets :=
            (if named then name ++ [':'] else []) ++
              (if line.has 'n' then Octets.ofNat (i + 1) ++ [':'] else [])
          let rows := if line.has 'q' then []
            else if line.has 'l' then (if hits = [] then [] else [name])
            else if line.has 'c' then
              [(if named then name ++ [':'] else []) ++ Octets.ofNat hits.length]
            else if line.has 'o' then
              hits.flatMap fun (s, i) =>
                ((found s).filter (·.2 ≠ 0)).map fun m => label i ++ (s.drop m.1).take m.2
            else hits.map fun (s, i) => label i ++ s
          let status ← emit (rows.flatMap (· ++ ['\n']))
          pure (hits ≠ [], status ≠ 0)
      let isFound := results.any (·.1)
      if results.any (·.2) && ! (line.has 'q' && isFound) then pure 2
      else pure (if isFound then 0 else 1)

/-- The tools by their names. -/
def table : List (String × Tool) :=
  [("cat", cat), ("tac", tac), ("rev", rev), ("nl", nl), ("tee", tee), ("wc", wc), ("head", head),
    ("tail", tail), ("tr", tr), ("cut", cut), ("sort", sort), ("uniq", uniq),
    ("grep", grepWith .basic), ("egrep", grepWith .extended), ("fgrep", grepWith .fixed)]

end BenchHarness.Shell.Filter
