import BenchHarness.Shell.Quotation
import BenchHarness.Shell.Numeral
import BenchHarness.Text.Octets

/-!
# Formatted output

Backslash escapes, and the directives that fill texts and numbers into a format. A format is used
again as long as arguments are left.
-/

namespace BenchHarness.Shell.Format

/-- Who writes a format: the shell itself, or a tool that understands a little more. -/
inductive Dialect where
  | shell
  | tool
  deriving DecidableEq, Repr

/-! ## Escapes -/

/-- Whether a character is an octal digit. -/
def isOctal (c : Char) : Bool := '0' ≤ c && c ≤ '7'

/-- The byte of some octal digits. -/
def octalByte (digits : Octets) : Char :=
  Char.ofNat (digits.foldl (fun n c => n * 8 + (c.toNat - 48)) 0 % 256)

/-- What a letter stands for after a backslash. -/
def escapeOf? : Char → Option Char
  | 'a' => some '\x07'
  | 'b' => some '\x08'
  | 'e' => some '\x1b'
  | 'f' => some '\x0c'
  | 'n' => some '\n'
  | 'r' => some '\x0d'
  | 't' => some '\t'
  | 'v' => some '\x0b'
  | '\\' => some '\\'
  | _ => none

/-- Whether a character is a digit in a base up to sixteen. -/
def isDigitIn (base : Nat) (c : Char) : Bool :=
  if base = 16 then c.isDigit || ('a' ≤ c.toLower && c.toLower ≤ 'f')
  else '0' ≤ c && c.toNat < '0'.toNat + base

/-- The value of a digit up to fifteen. -/
def digitValue (c : Char) : Nat :=
  if c.isDigit then c.toNat - '0'.toNat else (c.toLower.toNat - 'a'.toNat) + 10

/-- The value of some digits in a base. -/
def valueOf (base : Nat) (digits : Octets) : Nat :=
  digits.foldl (fun n c => n * base + digitValue c) 0

/-- What a number in an escape stands for, and what follows it: up to three octal digits, or for a
tool up to two hexadecimal ones after an `x`. -/
def numbered? (d : Dialect) (s : Octets) : Option (Char × Octets) :=
  let cut (base size : Nat) (s : Octets) : Option (Char × Octets) :=
    let digits := (s.takeWhile (isDigitIn base)).take size
    if digits = [] then none
    else some (Char.ofNat (valueOf base digits % 256), s.drop digits.length)
  match s with
  | 'x' :: rest => if d = .tool then cut 16 2 rest else none
  | s => cut 8 3 s

/-- A text with its escapes resolved, and whether it was cut off by `\c`. A zero may stand before
the three digits of an octal escape; the first argument bounds the number of characters. -/
def unescape (d : Dialect) : Nat → Octets → Octets × Bool
  | 0, _ => ([], false)
  | n + 1, s =>
    let go (c : Char) (rest : Octets) : Octets × Bool :=
      let (text, cut) := unescape d n rest
      (c :: text, cut)
    match s with
    | [] => ([], false)
    | '\\' :: 'c' :: _ => ([], true)
    | '\\' :: '0' :: rest =>
      match numbered? .shell rest with
      | some (c, rest) => go c rest
      | none => go '\x00' rest
    | '\\' :: c :: rest =>
      match numbered? d (c :: rest), escapeOf? c with
      | some (c, rest), _ => go c rest
      | none, some c => go c rest
      | none, none => go '\\' (c :: rest)
    | c :: rest => go c rest

/-! ## Numbers -/

/-- What is wrong with an argument that should be a number. -/
inductive Misreading where
  | noNumber
  | incomplete
  | outOfRange
  deriving DecidableEq, Repr

/-- The wording of what is wrong with a number. -/
def Misreading.message (d : Dialect) : Misreading → Octets
  | .noNumber =>
    (if d = .tool then "expected a numeric value" else "expected numeric value").toList
  | .incomplete =>
    (if d = .tool then "value not completely converted" else "not completely converted").toList
  | .outOfRange => "Numerical result out of range".toList

/-- The base of the number at the start of a text, its digits, and what follows them. -/
def numeralParts (s : Octets) : Nat × Octets × Octets :=
  let cut (base : Nat) (s : Octets) : Nat × Octets × Octets :=
    (base, s.takeWhile (isDigitIn base), s.dropWhile (isDigitIn base))
  match s with
  | '0' :: x :: d :: rest =>
    if (x = 'x' || x = 'X') && isDigitIn 16 d then cut 16 (d :: rest) else cut 8 s
  | '0' :: _ => cut 8 s
  | s => cut 10 s

/-- A number, or the limit if it is above that. -/
def atMost (limit : Nat) (n : Nat) : Int := min n limit

/-! ## Directives -/

/-- A size in a directive. -/
inductive Size where
  | fixed (n : Nat)
  /-- The value of the next argument. -/
  | given
  deriving DecidableEq, Repr

/-- A directive of a format: flags, width, places and its letter, if there is one. -/
structure Directive where
  /-- The directive as it is written. -/
  source : Octets
  flags : Octets
  width : Size
  precision : Option Size
  letter : Option Char
  deriving DecidableEq, Repr

/-- Why a directive cannot be carried out. -/
inductive Fault where
  /-- The directive is no known one. -/
  | invalid (source : Octets)
  | noLetter
  /-- A hexadecimal escape has no digits. -/
  | noDigits
  deriving DecidableEq, Repr

/-- The wording of a fault. -/
def Fault.message : Dialect → Fault → Octets
  | .shell, .invalid source => source ++ ": invalid directive".toList
  | .tool, .invalid source => source ++ ": invalid conversion specification".toList
  | _, .noLetter => "missing format character".toList
  | _, .noDigits => "missing hexadecimal number in escape".toList

/-- An element of a format. -/
inductive Element where
  | text (c : Char)
  | fill (d : Directive)
  /-- The end of all output. -/
  | stop
  | fault (f : Fault)
  deriving DecidableEq, Repr

/-- A size at the start of a text, and what follows it. -/
def size (s : Octets) : Size × Octets :=
  match s with
  | '*' :: rest => (.given, rest)
  | s => (.fixed ((Octets.toNat? (s.takeWhile Char.isDigit)).getD 0), s.dropWhile Char.isDigit)

/-- The directive after a percent sign, and what follows it. -/
def directive (d : Dialect) (start : Octets) : Directive × Octets :=
  let flags := start.takeWhile fun c => ['-', '0', '+', ' ', '#'].contains c
  let (width, s) := size (start.drop flags.length)
  let (precision, s) : Option Size × Octets := match s with
    | '.' :: s =>
      let (n, s) := size s
      (some n, s)
    | s => (none, s)
  let s := if d = .tool then s.dropWhile fun c => ['l', 'L', 'h', 'j', 't', 'z'].contains c else s
  let rest := s.drop 1
  (⟨'%' :: start.take (start.length - rest.length), flags, width, precision, s.head?⟩, rest)

/-- The elements of a format; the first argument bounds their number. -/
def elements (d : Dialect) : Nat → Octets → List Element
  | 0, _ => []
  | n + 1, s =>
    match s with
    | [] => []
    | '%' :: '%' :: rest => .text '%' :: elements d n rest
    | '%' :: rest =>
      let (found, rest) := directive d rest
      .fill found :: elements d n rest
    | '\\' :: c :: rest =>
      match numbered? d (c :: rest), escapeOf? c with
      | some (c, rest), _ => .text c :: elements d n rest
      | none, some c => .text c :: elements d n rest
      | none, none =>
        if d = .tool ∧ c = 'c' then [.stop]
        else if d = .tool ∧ c = 'x' then [.fault .noDigits]
        else .text '\\' :: .text c :: elements d n rest
    | c :: rest => .text c :: elements d n rest

/-- How a value is laid out. -/
structure Layout where
  left : Bool
  zeros : Bool
  plus : Bool
  blank : Bool
  marked : Bool
  width : Nat
  precision : Option Nat

/-- Pads a text to a width. -/
def pad (l : Layout) (s : Octets) : Octets :=
  let blanks := List.replicate (l.width - s.length) ' '
  if l.left then s ++ blanks else blanks ++ s

/-- The digits of a number in a base. -/
def digits (base : Nat) (n : Nat) : Octets := Nat.toDigits base n

/-- A number as the directive of a letter writes it. -/
def number (l : Layout) (letter : Char) (n : Int) : Octets :=
  let unsigned := (n % Nat.pow 2 64).toNat
  let mark (text : Octets) : Octets := if l.marked && n ≠ 0 then text else []
  let (sign, body) : Octets × Octets := match letter with
    | 'x' => (mark ['0', 'x'], digits 16 unsigned)
    | 'X' => (mark ['0', 'X'], (digits 16 unsigned).map Char.toUpper)
    | 'o' => (mark ['0'], digits 8 unsigned)
    | 'u' => ([], digits 10 unsigned)
    | _ =>
      (if n < 0 then ['-'] else if l.plus then ['+'] else if l.blank then [' '] else [],
        digits 10 n.natAbs)
  let isNothing := n = 0 && l.precision = some 0 && ! (letter = 'o' && l.marked)
  let body := if isNothing then []
    else List.replicate (l.precision.getD 0 - body.length) '0' ++ body
  if l.zeros && ! l.left && l.precision.isNone then
    sign ++ List.replicate (l.width - sign.length - body.length) '0' ++ body
  else pad l (sign ++ body)

/-- The number that an argument stands for, with what is wrong with it. -/
def numberOf (signed : Bool) (s : Octets) : Int × Option Misreading :=
  match s with
  | '\x22' :: rest => ((rest.headD '\x00').toNat, none)
  | '\x27' :: rest => ((rest.headD '\x00').toNat, none)
  | s =>
    let isSpace (c : Char) : Bool := c = ' ' || ('\t' ≤ c && c ≤ '\x0d')
    let (negative, start) := match s.dropWhile isSpace with
      | '-' :: rest => (true, rest)
      | '+' :: rest => (false, rest)
      | rest => (false, rest)
    let (base, digits, rest) := numeralParts start
    let n := valueOf base digits
    let limit := if ! signed then Nat.pow 2 64 - 1
      else if negative then Nat.pow 2 63 else Nat.pow 2 63 - 1
    let value := if negative && (signed || n ≤ limit) then - (atMost limit n) else atMost limit n
    let problem :=
      if s = [] then none
      else if digits = [] then some .noNumber
      else if rest ≠ [] then some .incomplete
      else if limit < n then some .outOfRange
      else none
    (if digits = [] then 0 else value, problem)

/-! ## Output -/

/-- Something to say about an argument. -/
inductive Complaint where
  | misread (argument : Octets) (m : Misreading)
  /-- Something behind a character that stands for a number. -/
  | ignored (rest : Octets)
  deriving DecidableEq, Repr

/-- What a format writes, and what was wrong with arguments. -/
structure Result where
  /-- What has been written, the latest first. -/
  written : Octets
  complaints : List Complaint
  /-- A directive that cannot be carried out; output ends before it. -/
  fault : Option Fault
  /-- Whether output was cut off. -/
  stopped : Bool
  arguments : List Octets
  /-- Whether a directive has asked for an argument. -/
  asked : Bool

/-- What a format writes. -/
def Result.output (r : Result) : Octets := r.written.reverse

/-- Writes some text. -/
def Result.put (r : Result) (s : Octets) : Result := { r with written := s.reverse ++ r.written }

/-- Passes an argument. -/
def Result.next (r : Result) : Result := { r with arguments := r.arguments.drop 1, asked := true }

/-- What there is to say about an argument that was read as a number. -/
def complaintsOn (argument : Octets) (m : Option Misreading) : List Complaint :=
  match argument with
  | q :: _ :: rest =>
    if (q = '\x22' || q = '\x27') && rest ≠ [] then [.ignored rest]
    else (m.map (.misread argument)).toList
  | argument => (m.map (.misread argument)).toList

/-- Takes the size that a directive asks for. -/
def takeSize (r : Result) : Size → Int × Result
  | .fixed n => (n, r)
  | .given =>
    let argument := r.arguments.headD []
    let (n, problem) := numberOf true argument
    (n, { r.next with complaints := r.complaints ++ complaintsOn argument problem })

/-- The flags and letters that do not go together for a tool. -/
def isOdd (d : Directive) (letter : Char) : Bool :=
  (d.flags.contains '#' && ['c', 'd', 'i', 's', 'u'].contains letter) ||
    (d.flags.contains '0' && ['c', 's'].contains letter) ||
    (d.precision.isSome && letter = 'c') || (letter = 'b' && d.source ≠ ['%', 'b'])

/-- A double as an argument gives it, with what is wrong with it. -/
def numeralOf (s : Octets) : Numeral × Option Misreading :=
  match s with
  | [] => (.finite false ⟨0, 1⟩, none)
  | q :: rest =>
    if q = '\x22' || q = '\x27' then
      (.finite false ⟨(rest.headD '\x00').toNat, 1⟩, none)
    else
      match Numeral.read s with
      | none => (.finite false ⟨0, 1⟩, some .noNumber)
      | some (x, rest) =>
        let rounded := x.rounded
        (rounded, if rest ≠ [] then some .incomplete
          else if rounded ≠ x && rounded.isInfinite then some .outOfRange else none)

/-- A double as the directive of a letter writes it. -/
def numeral (l : Layout) (letter : Char) (x : Numeral) : Octets :=
  let sign := if x.isNegative then ['-'] else if l.plus then ['+']
    else if l.blank then [' '] else []
  let body := x.text (letter.toLower) (l.precision.getD 6) l.marked
  let body := if letter.isUpper then body.map Char.toUpper else body
  if l.zeros && ! l.left && x.isFinite then
    sign ++ List.replicate (l.width - sign.length - body.length) '0' ++ body
  else pad l (sign ++ body)

/-- Fills in a directive. -/
def fill (dialect : Dialect) (r : Result) (d : Directive) : Result :=
  let (width, r) := takeSize r d.width
  let (precision, r) : Option Int × Result := match d.precision with
    | none => (none, r)
    | some size =>
      let (n, r) := takeSize r size
      (some n, r)
  let layout : Layout := ⟨d.flags.contains '-' || width < 0, d.flags.contains '0',
    d.flags.contains '+', d.flags.contains ' ', d.flags.contains '#', width.natAbs,
    (precision.filter (0 ≤ ·)).map Int.toNat⟩
  let argument := r.arguments.headD []
  let after := r.next
  let cut (s : Octets) : Octets := match layout.precision with
    | some n => s.take n
    | none => s
  let invalid := { r with fault := some (.invalid d.source) }
  match d.letter with
  | none => if dialect = .tool then invalid else { r with fault := some .noLetter }
  | some letter =>
    if dialect = .tool && isOdd d letter then invalid
    else if letter = 's' then after.put (pad layout (cut argument))
    else if letter = 'b' then
      let (text, stopped) := unescape dialect (argument.length + 1) argument
      { after.put (pad layout (cut text)) with stopped := stopped }
    else if letter = 'c' then after.put (pad layout [argument.headD '\x00'])
    else if letter = 'q' && dialect = .tool && d.source = ['%', 'q'] then
      after.put (Quotation.ifNeeded argument)
    else if ['d', 'i', 'u', 'x', 'X', 'o'].contains letter then
      let (n, problem) := numberOf (letter = 'd' || letter = 'i') argument
      { after.put (number layout letter n) with
        complaints := r.complaints ++ complaintsOn argument problem }
    else if ['e', 'E', 'f', 'F', 'g', 'G'].contains letter then
      let (x, problem) := numeralOf argument
      { after.put (numeral layout letter x) with
        complaints := r.complaints ++ complaintsOn argument problem }
    else invalid

/-- Writes an element. -/
def step (dialect : Dialect) (r : Result) (e : Element) : Result :=
  if r.stopped || r.fault.isSome then r
  else
    match e with
    | .text c => r.put [c]
    | .fill d => fill dialect r d
    | .stop => { r with stopped := true }
    | .fault f => { r with fault := some f }

/-- Writes elements again and again as long as they use up arguments; the first argument bounds how
often. -/
def writeAll (dialect : Dialect) (format : List Element) : Nat → Result → Result
  | 0, r => r
  | n + 1, r =>
    let after := format.foldl (step dialect) r
    if after.stopped || after.fault.isSome || after.arguments = [] || ! after.asked then after
    else writeAll dialect format n after

/-- Writes a format with arguments. -/
def write (dialect : Dialect) (format : Octets) (arguments : List Octets) : Result :=
  writeAll dialect (elements dialect (format.length + 1) format) (arguments.length + 1)
    ⟨[], [], none, false, arguments, false⟩

end BenchHarness.Shell.Format
