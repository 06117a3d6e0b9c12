import BenchHarness.Shell.Format
import BenchHarness.Shell.Word

/-!
# Arithmetic

The value of an integer expression. Operators bind as tightly as in their table; values wrap to
64 bits. Variables are looked up and may be assigned.
-/

namespace BenchHarness.Shell.Arithmetic

/-- Why an expression has no value. -/
inductive Problem where
  | divisionByZero
  | wantsOperand
  | wantsEnd
  | wantsParenthesis
  | wantsColon
  /-- A variable whose value is no number. -/
  | notNumber (value : Octets)
  deriving DecidableEq, Repr

/-- The variables an expression sees, the latest assignment first. -/
abbrev Bindings := List (Octets × Octets)

/-- What is read of an expression: the text that is left, and the variables. -/
structure Scan where
  rest : Octets
  bindings : Bindings
  /-- Variables that have been assigned, in order. -/
  assigned : List (Octets × Octets)

/-- A reading step. -/
abbrev Reading := StateT Scan (Except Problem)

/-- Wraps a number to 64 bits. -/
def wrap (n : Int) : Int := Int.bmod n (Nat.pow 2 64)

/-- The number 1 for a fact, 0 for none. -/
def ofBool (b : Bool) : Int := if b then 1 else 0

/-- Binary operators with their strength, those that start like others first. -/
def operators : List (String × Nat) :=
  [("<<", 8), (">>", 8), ("<=", 7), (">=", 7), ("==", 6), ("!=", 6), ("&&", 2), ("||", 1),
    ("<", 7), (">", 7), ("&", 5), ("^", 4), ("|", 3), ("+", 9), ("-", 9), ("*", 10), ("/", 10),
    ("%", 10)]

/-- Applies a binary operator. -/
def apply (operator : String) (a b : Int) : Except Problem Int :=
  match operator with
  | "+" => .ok (wrap (a + b))
  | "-" => .ok (wrap (a - b))
  | "*" => .ok (wrap (a * b))
  | "/" => if b = 0 then .error .divisionByZero else .ok (wrap (a.tdiv b))
  | "%" => if b = 0 then .error .divisionByZero else .ok (a.tmod b)
  | "<<" => .ok (wrap (a * Nat.pow 2 (b % 64).toNat))
  | ">>" => .ok (a.fdiv (Nat.pow 2 (b % 64).toNat))
  | "<" => .ok (ofBool (a < b))
  | ">" => .ok (ofBool (a > b))
  | "<=" => .ok (ofBool (a ≤ b))
  | ">=" => .ok (ofBool (a ≥ b))
  | "==" => .ok (ofBool (a = b))
  | "!=" => .ok (ofBool (a ≠ b))
  | "&&" => .ok (ofBool (a ≠ 0 ∧ b ≠ 0))
  | "||" => .ok (ofBool (a ≠ 0 ∨ b ≠ 0))
  | "&" => .ok (Int64.ofInt a &&& Int64.ofInt b).toInt
  | "^" => .ok (Int64.ofInt a ^^^ Int64.ofInt b).toInt
  | _ => .ok (Int64.ofInt a ||| Int64.ofInt b).toInt

/-- Passes blanks and gives the text that is left. -/
def peek : Reading Octets := do
  let s := (← get).rest.dropWhile fun c => Word.isBlank c || c = '\n'
  modify ({ · with rest := s })
  pure s

/-- Passes some characters. -/
def drop (n : Nat) : Reading Unit := modify fun s => { s with rest := s.rest.drop n }

/-- The value of a number as far as it goes, and what follows it. A number is decimal, octal after
`0` or hexadecimal after `0x`, and not above the greatest one. -/
def numeral (s : Octets) : Int × Octets :=
  let (base, digits) := Format.numeralParts s
  (Format.atMost (Nat.pow 2 63 - 1) (Format.valueOf base digits.1), digits.2)

/-- The value of a variable; one that is empty or not set counts as 0. -/
def lookup (name : Octets) : Reading Int := do
  match (← get).bindings.lookup name with
  | none => pure 0
  | some value =>
    let isSpace (c : Char) : Bool := Word.isBlank c || c = '\n'
    if value.all isSpace then pure 0
    else
      let start := value.dropWhile isSpace
      let (negative, digits) := match start with
        | '-' :: digits => (true, digits)
        | '+' :: digits => (false, digits)
        | digits => (false, digits)
      let (n, rest) := numeral digits
      if digits.head?.any Char.isDigit && rest.all isSpace then pure (if negative then -n else n)
      else throw (.notNumber value)

/-- Sets a variable. -/
def assign (name : Octets) (value : Int) : Reading Unit :=
  let entry := (name, Octets.ofInt value)
  modify fun s =>
    { s with bindings := entry :: s.bindings, assigned := s.assigned ++ [entry] }

/-- The assignment operator at the start of a text: the binary operator it applies first, if any,
and its length. -/
def assignment? (s : Octets) : Option (Option String × Nat) :=
  match s with
  | '=' :: '=' :: _ => none
  | '=' :: _ => some (none, 1)
  | _ =>
    (["<<", ">>", "+", "-", "*", "/", "%", "&", "^", "|"].find? fun o =>
      (o.toList ++ ['=']).isPrefixOf s).map fun o => (some o, o.length + 1)

/-- What is read next. -/
inductive Goal where
  /-- An expression with a choice between two values. -/
  | whole
  /-- Operators of at least some strength, after a value. -/
  | after (value : Int) (strength : Nat)
  /-- A value with the signs before it. -/
  | operand

/-- Reads a goal and gives its value. -/
def read : Nat → Goal → Reading Int
  | 0, _ => throw .wantsOperand
  | fuel + 1, .whole => do
    let value ← read fuel .operand
    let value ← read fuel (.after value 0)
    match ← peek with
    | '?' :: _ => do
      drop 1
      let yes ← read fuel .whole
      match ← peek with
      | ':' :: _ => do
        drop 1
        let no ← read fuel .whole
        pure (if value ≠ 0 then yes else no)
      | _ => throw .wantsColon
    | _ => pure value
  | fuel + 1, .after value strength => do
    let s ← peek
    match operators.find? fun o => o.1.toList.isPrefixOf s with
    | none => pure value
    | some (operator, power) =>
      if power ≤ strength then pure value
      else
        drop operator.length
        let right ← read fuel .operand
        let right ← read fuel (.after right power)
        match apply operator value right with
        | .ok value => read fuel (.after value strength)
        | .error problem => throw problem
  | fuel + 1, .operand => do
    match ← peek with
    | '-' :: _ => do
      drop 1
      pure (wrap (- (← read fuel .operand)))
    | '+' :: _ => do
      drop 1
      read fuel .operand
    | '!' :: _ => do
      drop 1
      pure (ofBool ((← read fuel .operand) = 0))
    | '~' :: _ => do
      drop 1
      pure (- (← read fuel .operand) - 1)
    | '(' :: _ => do
      drop 1
      let value ← read fuel .whole
      match ← peek with
      | ')' :: _ => do
        drop 1
        pure value
      | _ => throw .wantsParenthesis
    | s@(c :: _) =>
      if c.isDigit then do
        let (n, after) := numeral s
        drop (s.length - after.length)
        pure n
      else if Word.startsName c then do
        let name := s.takeWhile Word.inName
        drop name.length
        match assignment? (← peek) with
        | none => lookup name
        | some (operator, length) => do
          drop length
          let right ← read fuel .whole
          let value ← match operator with
            | none => pure right
            | some o =>
              match apply o (← lookup name) right with
              | .ok value => pure value
              | .error problem => throw problem
          assign name value
          pure value
      else throw .wantsOperand
    | [] => throw .wantsOperand

/-- The value of an expression, and the variables it assigns. -/
def evaluate (bindings : Bindings) (s : Octets) :
    Except Problem (Int × List (Octets × Octets)) := do
  let whole : Reading Int := do
    let value ← read (4 * (s.length + 1)) .whole
    if (← peek) ≠ [] then throw .wantsEnd
    pure value
  let (value, scan) ← whole.run ⟨s, bindings, []⟩
  pure (value, scan.assigned)

/-- The wording of a problem with an expression. -/
def Problem.message (expression : Octets) : Problem → Octets
  | .notNumber value => "Illegal number: ".toList ++ value
  | problem =>
    let what := match problem with
      | .divisionByZero => "division by zero"
      | .wantsOperand => "expecting primary"
      | .wantsParenthesis => "expecting ')'"
      | .wantsColon => "expecting ':'"
      | _ => "expecting EOF"
    "arithmetic expression: ".toList ++ what.toList ++ ": \x22".toList ++ expression ++ ['\x22']

end BenchHarness.Shell.Arithmetic
