import BenchHarness.Text.Octets

/-!
# Words of a script

A word is a row of parts: literal text, and the places where a parameter, the output of a command or
the value of an expression is put in. What stands inside such a place is kept as it was written and
scanned when it is needed. A part remembers whether it was quoted.
-/

namespace BenchHarness.Shell

/-- What replaces a parameter that is not set, or what is cut from its value. -/
inductive ParameterRule where
  /-- The value as it is. -/
  | plain
  /-- The length of the value. -/
  | length
  /-- The operand, if the parameter is not set. With `orEmpty` an empty value counts as not set. -/
  | useDefault (orEmpty : Bool)
  /-- The operand, which is also assigned, if the parameter is not set. -/
  | assignDefault (orEmpty : Bool)
  /-- An error with the operand as its message, if the parameter is not set. -/
  | demand (orEmpty : Bool)
  /-- The operand, if the parameter is set. -/
  | alternative (orEmpty : Bool)
  /-- The value without what the operand matches at its start. -/
  | trimStart (longest : Bool)
  /-- The value without what the operand matches at its end. -/
  | trimEnd (longest : Bool)
  deriving DecidableEq, Repr

/-- A part of a word. -/
inductive Part where
  | literal (quoted : Bool) (text : Octets)
  | parameter (quoted : Bool) (name : Octets) (rule : ParameterRule) (operand : Octets)
  | output (quoted : Bool) (source : Octets)
  | arithmetic (quoted : Bool) (source : Octets)
  deriving DecidableEq, Repr

/-- A word of a script. -/
abbrev Word := List Part

namespace Word

/-! ## Characters -/

/-- Whether a character separates words on a line. -/
def isBlank (c : Char) : Bool := c = ' ' || c = '\t'

/-- Whether a character ends a word. -/
def endsWord (c : Char) : Bool := isBlank c || [ '\n', ';', '&', '|', '<', '>', '(', ')'].contains c

/-- Whether a character can start a name. -/
def startsName (c : Char) : Bool := c.isAlpha || c = '_'

/-- Whether a character can stand in a name. -/
def inName (c : Char) : Bool := c.isAlphanum || c = '_'

/-- Whether some text is a name. -/
def isName : Octets → Bool
  | [] => false
  | c :: rest => startsName c && rest.all inName

/-- Whether a character is a parameter of its own. -/
def isSpecial (c : Char) : Bool := ['@', '*', '#', '?', '-', '$', '!', '0'].contains c

/-! ## Finding the end of a nested text -/

/-- What is being read while the end of a nested text is looked for. -/
inductive Nesting where
  | outside
  /-- After a backslash. -/
  | escaped
  | single
  | double
  /-- After a backslash inside double quotes. -/
  | doubleEscaped
  deriving DecidableEq, Repr

/-- Splits a text at the mark that closes it, and drops the mark. Pairs of marks may be nested in it
to some depth; marks in quotes do not count. -/
def untilClosed (opening closing : Char) : Nesting → Nat → Octets → Option (Octets × Octets)
  | _, _, [] => none
  | state, depth, c :: rest =>
    let go (state : Nesting) (depth : Nat) : Option (Octets × Octets) :=
      (untilClosed opening closing state depth rest).map fun (inner, after) => (c :: inner, after)
    match state with
    | .escaped => go .outside depth
    | .doubleEscaped => go .double depth
    | .single => go (if c = '\x27' then .outside else .single) depth
    | .double =>
      go (if c = '\\' then .doubleEscaped else if c = '\x22' then .outside else .double) depth
    | .outside =>
      if c = closing then
        match depth with
        | 0 => some ([], rest)
        | depth + 1 => go .outside depth
      else if c = opening then go .outside (depth + 1)
      else if c = '\\' then go .escaped depth
      else if c = '\x27' then go .single depth
      else if c = '\x22' then go .double depth
      else go .outside depth

/-- Whether a text ends inside quotes. -/
def endsInQuotes : Nesting → Octets → Bool
  | state, [] => state = .single || state = .double || state = .doubleEscaped
  | .outside, c :: rest =>
    endsInQuotes (if c = '\\' then .escaped else if c = '\x27' then .single
      else if c = '\x22' then .double else .outside) rest
  | .escaped, _ :: rest => endsInQuotes .outside rest
  | .single, c :: rest => endsInQuotes (if c = '\x27' then .outside else .single) rest
  | .double, c :: rest =>
    endsInQuotes (if c = '\\' then .doubleEscaped else if c = '\x22' then .outside
      else .double) rest
  | .doubleEscaped, _ :: rest => endsInQuotes .double rest

/-- Splits a text at the next backquote, and drops it. A backslash before a backquote, a dollar sign
or a backslash is removed, and in quotes one before a double quote. -/
def untilBackquote (quoted : Bool) : Octets → Option (Octets × Octets)
  | [] => none
  | '\x60' :: rest => some ([], rest)
  | '\\' :: c :: rest =>
    (untilBackquote quoted rest).map fun (inner, after) =>
      (if ['\x60', '$', '\\'].contains c || (quoted && c = '\x22') then c :: inner
        else '\\' :: c :: inner, after)
  | c :: rest => (untilBackquote quoted rest).map fun (inner, after) => (c :: inner, after)

/-! ## Places for values -/

/-- The rule that follows a parameter's name in braces, and its operand. -/
def ruleOf? : Octets → Option (ParameterRule × Octets)
  | [] => some (.plain, [])
  | ':' :: '-' :: operand => some (.useDefault true, operand)
  | ':' :: '=' :: operand => some (.assignDefault true, operand)
  | ':' :: '?' :: operand => some (.demand true, operand)
  | ':' :: '+' :: operand => some (.alternative true, operand)
  | '-' :: operand => some (.useDefault false, operand)
  | '=' :: operand => some (.assignDefault false, operand)
  | '?' :: operand => some (.demand false, operand)
  | '+' :: operand => some (.alternative false, operand)
  | '#' :: '#' :: operand => some (.trimStart true, operand)
  | '#' :: operand => some (.trimStart false, operand)
  | '%' :: '%' :: operand => some (.trimEnd true, operand)
  | '%' :: operand => some (.trimEnd false, operand)
  | _ => none

/-- The name of a parameter at the start of a text, and what follows it. -/
def parameterName (s : Octets) : Octets × Octets :=
  match s with
  | c :: rest =>
    if startsName c then (s.takeWhile inName, s.dropWhile inName)
    else if c.isDigit then (s.takeWhile Char.isDigit, s.dropWhile Char.isDigit)
    else if isSpecial c then ([c], rest)
    else ([], s)
  | [] => ([], [])

/-- The part that a text in braces stands for. -/
def braced? (quoted : Bool) (inner : Octets) : Option Part :=
  match inner with
  | '#' :: c :: rest =>
    let (name, after) := parameterName (c :: rest)
    if name ≠ [] ∧ after = [] then some (.parameter quoted name .length [])
    else (ruleOf? (c :: rest)).map fun (rule, operand) => .parameter quoted ['#'] rule operand
  | _ =>
    let (name, after) := parameterName inner
    if name = [] then none
    else (ruleOf? after).map fun (rule, operand) => .parameter quoted name rule operand

/-- The part after a dollar sign, and what follows it. -/
def dollar (quoted : Bool) (s : Octets) : Except String (Part × Octets) :=
  match s with
  | '(' :: '(' :: rest =>
    match untilClosed '(' ')' .outside 0 rest with
    | some (inner, ')' :: after) => .ok (.arithmetic quoted inner, after)
    | _ => .error "Syntax error: Missing \x27))\x27"
  | '(' :: rest =>
    match untilClosed '(' ')' .outside 0 rest with
    | some (inner, after) => .ok (.output quoted inner, after)
    | none =>
      if endsInQuotes .outside rest then .error "Syntax error: Unterminated quoted string"
      else .error "Syntax error: end of file unexpected (expecting \x22)\x22)"
  | '\x7b' :: rest =>
    match untilClosed '\x7b' '\x7d' .outside 0 rest with
    | none => .error "Syntax error: Missing \x27\x7d\x27"
    | some (inner, after) =>
      match braced? quoted inner with
      | some part => .ok (part, after)
      | none => .error "Bad substitution"
  | c :: rest =>
    if startsName c then
      .ok (.parameter quoted (s.takeWhile inName) .plain [], s.dropWhile inName)
    else if c.isDigit || isSpecial c then .ok (.parameter quoted [c] .plain [], rest)
    else .ok (.literal quoted ['$'], s)
  | [] => .ok (.literal quoted ['$'], [])

/-! ## Scanning -/

/-- Where a word is being read. -/
inductive Context where
  /-- In a script: the word ends before a blank or an operator. -/
  | script
  /-- In double quotes: the word ends before the closing quote. -/
  | quotes
  /-- In a text of its own, which is read to its end. -/
  | operand
  /-- In a text of its own where quotes mean nothing. -/
  | document
  /-- In a text of its own inside double quotes, where double quotes are left out. -/
  | innerOperand
  deriving DecidableEq, Repr

/-- Whether literal text is quoted there. -/
def Context.isQuoted : Context → Bool
  | .quotes | .document | .innerOperand => true
  | _ => false

/-- Whether a word ends before a character. -/
def Context.stopsAt : Context → Char → Bool
  | .script, c => endsWord c
  | .quotes, c => c = '\x22'
  | _, _ => false

/-- The characters that a backslash protects in double quotes. -/
def protectedInQuotes : List Char := ['$', '\x60', '\x22', '\\']

/-- Reads a word and what follows it. The first argument bounds the number of parts, among them
those in quotes; the length of the text is always enough. -/
def scan : Nat → Context → Octets → Except String (Word × Octets)
  | 0, _, s => .ok ([], s)
  | fuel + 1, context, s => do
    let quoted := context.isQuoted
    let append (part : Part) (rest : Octets) : Except String (Word × Octets) := do
      let (word, after) ← scan fuel context rest
      pure (part :: word, after)
    match s with
    | [] =>
      if context = .quotes then throw "Syntax error: Unterminated quoted string" else pure ([], [])
    | c :: rest =>
      if context.stopsAt c then pure ([], s)
      else if c = '\\' then
        match rest with
        | [] => pure ([.literal true ['\\']], [])
        | '\n' :: rest => scan fuel context rest
        | d :: rest =>
          if quoted && ! (protectedInQuotes.contains d && (context ≠ .document || d ≠ '\x22')) then
            append (.literal true ['\\', d]) rest
          else append (.literal true [d]) rest
      else if c = '\x27' && ! quoted then
        if rest.contains '\x27' then
          let text := rest.takeWhile (· ≠ '\x27')
          append (.literal true text) (rest.drop (text.length + 1))
        else throw "Syntax error: Unterminated quoted string"
      else if c = '\x22' && context = .innerOperand then append (.literal true []) rest
      else if c = '\x22' && ! quoted then do
        let (inner, after) ← scan fuel .quotes rest
        let (word, after) ← scan fuel context (after.drop 1)
        pure ((if inner = [] then [.literal true []] else inner) ++ word, after)
      else if c = '$' then do
        let (part, after) ← dollar quoted rest
        append part after
      else if c = '\x60' then
        match untilBackquote (context = .quotes) rest with
        | some (inner, after) => append (.output quoted inner) after
        | none => throw "Syntax error: EOF in backquote substitution"
      else
        let isPlain (d : Char) : Bool :=
          ! (context.stopsAt d || d = '\\' || d = '$' || d = '\x60' || (! quoted && d = '\x27') ||
            ((! quoted || context = .innerOperand) && d = '\x22'))
        append (.literal quoted (c :: rest.takeWhile isPlain)) (rest.dropWhile isPlain)

/-- Reads a word at the start of a script's text, and what follows it. -/
def read (s : Octets) : Except String (Word × Octets) := scan (s.length + 1) .script s

/-- Reads a whole text as a word, in which blanks are ordinary. -/
def ofText (context : Context) (s : Octets) : Except String Word := do
  let (word, _) ← scan (s.length + 1) context s
  pure word

/-- The text of a word that was written without quotes and places. -/
def plain? : Word → Option Octets
  | [.literal false text] => some text
  | _ => none

/-- The text of a word without its quotes, as the delimiter of a document is read. -/
def unquotedText (w : Word) : Octets :=
  w.flatMap fun
    | .literal _ text => text
    | .parameter _ name _ _ => '$' :: name
    | .output _ source => "$(".toList ++ source ++ [')']
    | .arithmetic _ source => "$((".toList ++ source ++ [')', ')']

/-- Whether any part of a word was quoted. -/
def isQuoted (w : Word) : Bool :=
  w.any fun
    | .literal quoted _ => quoted
    | .parameter quoted _ _ _ => quoted
    | .output quoted _ => quoted
    | .arithmetic quoted _ => quoted

end Word

end BenchHarness.Shell
