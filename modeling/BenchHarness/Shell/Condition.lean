import BenchHarness.Shell.Process

/-!
# Conditions

What `test` decides: properties of texts, numbers and files, combined by negation, conjunction and
disjunction.
-/

namespace BenchHarness.Shell.Condition

/-- Why a condition has no verdict. -/
inductive Problem where
  | unexpectedOperator (operand : Octets)
  | notNumber (operand : Octets)
  | wantsArgument (operator : Octets)
  | wantsParenthesis

/-- The wording of a problem. -/
def Problem.message : Problem → Octets
  | .unexpectedOperator s => s ++ ": unexpected operator".toList
  | .notNumber s => "Illegal number: ".toList ++ s
  | .wantsArgument s => s ++ ": argument expected".toList
  | .wantsParenthesis => "closing paren expected".toList

/-- The node that a path leads to. -/
def nodeAt (follow : Bool) (path : Octets) : Act (Option Node) := do
  pure ((← Act.files).findNode follow (← Act.process).cwd (Octets.toBytes path)).toOption

/-- Whether anyone may execute a node. -/
def isExecutable : Node → Bool
  | .file mode _ => mode &&& 0o111 ≠ 0
  | .program _ => true
  | .directory _ _ => true
  | _ => false

/-- Whether a file has one of some permission bits. -/
def hasMode (bits : Nat) : Node → Bool
  | .file mode _ => mode &&& bits ≠ 0
  | _ => false

/-- Decides a property of one operand, if there is such a property. -/
def unary? (operator operand : Octets) : Option (Act Bool) :=
  let about (follow : Bool) (p : Node → Bool) : Act Bool := do
    pure ((← nodeAt follow operand).any p)
  match operator with
  | ['-', 'n'] => some (pure (operand ≠ []))
  | ['-', 'z'] => some (pure (operand = []))
  | ['-', 'e'] | ['-', 'r'] | ['-', 'w'] => some (about true fun _ => true)
  | ['-', 'f'] => some (about true fun
    | .file _ _ | .program _ => true
    | _ => false)
  | ['-', 'd'] => some (about true fun
    | .directory _ _ => true
    | _ => false)
  | ['-', 's'] => some (about true fun
    | .file _ content => content ≠ []
    | .program _ | .directory _ _ => true
    | _ => false)
  | ['-', 'x'] => some (about true isExecutable)
  | ['-', 'h'] | ['-', 'L'] => some (about false fun
    | .link _ => true
    | _ => false)
  | ['-', 'p'] => some (about true fun
    | .pipe => true
    | _ => false)
  | ['-', 'c'] => some (about true fun
    | .device _ => true
    | _ => false)
  | ['-', 't'] | ['-', 'b'] | ['-', 'S'] => some (pure false)
  | ['-', 'O'] | ['-', 'G'] => some (about true fun _ => true)
  | ['-', 'u'] => some (about true (hasMode 0o4000))
  | ['-', 'g'] => some (about true (hasMode 0o2000))
  | ['-', 'k'] => some (about true (hasMode 0o1000))
  | _ => none

/-- Compares two numbers, if the operator does that. -/
def numeric? (operator : Octets) : Option (Int → Int → Bool) :=
  match operator with
  | ['-', 'e', 'q'] => some fun a b => a = b
  | ['-', 'n', 'e'] => some fun a b => a ≠ b
  | ['-', 'l', 't'] => some fun a b => a < b
  | ['-', 'l', 'e'] => some fun a b => a ≤ b
  | ['-', 'g', 't'] => some fun a b => a > b
  | ['-', 'g', 'e'] => some fun a b => a ≥ b
  | _ => none

/-- Compares two texts, if the operator does that. -/
def textual? (operator : Octets) : Option (Octets → Octets → Bool) :=
  match operator with
  | ['='] => some fun a b => a = b
  | ['!', '='] => some fun a b => a ≠ b
  | ['<'] => some fun a b => a < b
  | ['>'] => some fun a b => b < a
  | _ => none

/-- The number that an operand stands for. -/
def numberOf (s : Octets) : Except Problem Int :=
  let isSpace (c : Char) : Bool := c = ' ' || ('\t' ≤ c && c ≤ '\x0d')
  let trimmed := ((s.dropWhile isSpace).reverse.dropWhile isSpace).reverse
  match Octets.toInt? trimmed with
  | some n =>
    if - (Nat.pow 2 63 : Int) ≤ n ∧ n < (Nat.pow 2 63 : Int) then .ok n else .error (.notNumber s)
  | none => .error (.notNumber s)

/-- Compares two files, if the operator does that. All files are equally old. -/
def ofFiles? (operator : Octets) : Option (Octets → Octets → Act Bool) :=
  match operator with
  | ['-', 'e', 'f'] => some fun a b => do
    let files ← Act.files
    let base := (← Act.process).cwd
    match files.canonical base (Octets.toBytes a), files.canonical base (Octets.toBytes b) with
    | .ok a, .ok b => pure (a = b)
    | _, _ => pure false
  | ['-', 'n', 't'] | ['-', 'o', 't'] => some fun _ _ => pure false
  | _ => none

/-- Compares two operands, if there is such a comparison. -/
def binary? (operator : Octets) : Option (Octets → Octets → ExceptT Problem Act Bool) :=
  match textual? operator, numeric? operator, ofFiles? operator with
  | some compare, _, _ => some fun a b => pure (compare a b)
  | none, some compare, _ => some fun a b => do
    match numberOf a, numberOf b with
    | .ok a, .ok b => pure (compare a b)
    | .error e, _ => throw e
    | _, .error e => throw e
  | none, none, some compare => some fun a b => do
    let verdict : Act Bool := compare a b
    pure (← verdict)
  | none, none, none => none

/-! ## Reading -/

/-- What a word of a condition is, seen with the words after it. -/
inductive Token where
  | none
  | negation
  | conjunction
  | disjunction
  | opening
  | closing
  | unary
  | binary
  | operand
  deriving DecidableEq, Repr

/-- The token at the start of some words. What looks like a unary operator is an operand if nothing
follows it, or if it stands before a binary one. -/
def tokenOf : List Octets → Token
  | [] => .none
  | s :: rest =>
    let isOperand : Bool := match rest with
      | [] => true
      | [_] => false
      | t :: _ => (binary? t).isSome
    if s = ['!'] then .negation
    else if s = ['-', 'a'] then .conjunction
    else if s = ['-', 'o'] then .disjunction
    else if s = ['('] then (if rest = [] then .operand else .opening)
    else if s = [')'] then .closing
    else if (binary? s).isSome then .binary
    else if (unary? s []).isSome && ! isOperand then .unary
    else .operand

/-- What is read of a condition. -/
inductive Goal where
  | disjunction
  | conjunction
  | negation
  | primary
  deriving DecidableEq, Repr

/-- Reads a goal at the first of some words, and gives its verdict and the words from the last one
that belongs to it on. -/
def read : Nat → Goal → List Octets → ExceptT Problem Act (Bool × List Octets)
  | 0, _, s => pure (false, s)
  | fuel + 1, .disjunction, s => do
    let (a, s) ← read fuel .conjunction s
    if tokenOf (s.drop 1) = .disjunction then do
      let (b, s) ← read fuel .disjunction (s.drop 2)
      pure (a || b, s)
    else pure (a, s)
  | fuel + 1, .conjunction, s => do
    let (a, s) ← read fuel .negation s
    if tokenOf (s.drop 1) = .conjunction then do
      let (b, s) ← read fuel .conjunction (s.drop 2)
      pure (a && b, s)
    else pure (a, s)
  | fuel + 1, .negation, s => do
    if tokenOf s = .negation then do
      match s with
      | [_] => pure (true, s)
      | s => do
        let (a, s) ← read fuel .negation (s.drop 1)
        pure (! a, s)
    else read fuel .primary s
  | fuel + 1, .primary, s => do
    match tokenOf s, s with
    | .none, _ | _, [] => pure (false, s)
    | .opening, _ :: inner => do
      if tokenOf inner = .closing then pure (false, inner)
      else
        let (a, s) ← read fuel .disjunction inner
        if tokenOf (s.drop 1) = .closing then pure (a, s.drop 1) else throw .wantsParenthesis
    | .unary, operator :: rest =>
      match rest with
      | [] => throw (.wantsArgument operator)
      | operand :: _ =>
        match unary? operator operand with
        | some verdict => do
          let verdict : Act Bool := verdict
          pure (← verdict, rest)
        | none => pure (false, rest)
    | _, a :: rest =>
      match rest with
      | [] => pure (a ≠ [], s)
      | operator :: after =>
        match binary? operator, after with
        | some _, [] => throw (.wantsArgument operator)
        | some compare, b :: _ => do pure (← compare a b, after)
        | none, _ => pure (a ≠ [], s)

/-- Decides a condition. With three or four words, a negation or parentheses around the others count
first, and before them a comparison of two words. -/
def decideWithin : Nat → List Octets → ExceptT Problem Act Bool
  | 0, _ => pure false
  | fuel + 1, words => do
    let full : ExceptT Problem Act Bool := do
      let (verdict, rest) ← read (4 * words.length + 4) .disjunction words
      match rest with
      | last :: _ :: _ => throw (.unexpectedOperator last)
      | _ => pure verdict
    let size := words.length
    let comparison := match words with
      | [a, operator, b] => (binary? operator).map fun compare => compare a b
      | _ => none
    match comparison with
    | some compare => compare
    | none =>
      if words = [] then pure false
      else if size = 3 || size = 4 then
        if words.head? = some ['('] && words.getLast? = some [')'] then
          decideWithin fuel (words.drop 1).dropLast
        else if words.head? = some ['!'] then do
          pure (! (← decideWithin fuel (words.drop 1)))
        else full
      else full

/-- Decides a condition. -/
def decide (words : List Octets) : Act (Except Problem Bool) := (decideWithin 5 words).run

end BenchHarness.Shell.Condition
