import BenchHarness.Shell.Statement

/-!
# Reading scripts

A script is read line by line: the statements of a line are given out before the next line is looked
at, so an error further down does not keep what is above it from being run. Every kind of phrase is
read by one function; its fuel bounds how deep phrases are nested.
-/

namespace BenchHarness.Shell

/-- Where reading stands. -/
structure Cursor where
  rest : Octets
  /-- The number of the current line. -/
  line : Nat
  /-- Lines of documents that have been taken out of the text after the current line. -/
  taken : Nat

/-- Why a script cannot be read. -/
structure ReadFault where
  line : Nat
  message : String
  deriving DecidableEq, Repr

/-- A reading step. -/
abbrev Reading := StateT Cursor (Except ReadFault)

namespace Reading

/-- Gives up at the current line. -/
def fail {α : Type} (message : String) : Reading α := do
  throw ⟨(← get).line, message⟩

/-- The remaining text. -/
def rest : Reading Octets := do pure (← get).rest

/-- Goes on at a later position of the text, counting the lines on the way. -/
def moveTo (after : Octets) : Reading Unit :=
  modify fun c =>
    let passed := c.rest.take (c.rest.length - after.length)
    let ends := passed.count '\n'
    if ends = 0 then { c with rest := after }
    else ⟨after, c.line + ends + c.taken, 0⟩

/-- Drops some characters. -/
def drop (n : Nat) : Reading Unit := do moveTo ((← rest).drop n)

/-! ## Blanks -/

/-- The text after blanks, continued lines and a comment. -/
def afterBlanks : Octets → Octets
  | '\\' :: '\n' :: s => afterBlanks s
  | '#' :: s => s.dropWhile (· ≠ '\n')
  | c :: s => if Word.isBlank c then afterBlanks s else c :: s
  | [] => []

/-- Passes blanks. -/
def skipBlanks : Reading Unit := do moveTo (afterBlanks (← rest))

/-- The text after blanks and line ends; the first argument bounds the number of lines. -/
def afterLines : Nat → Octets → Octets
  | 0, s => s
  | n + 1, s =>
    match afterBlanks s with
    | '\n' :: s => afterLines n s
    | s => s

/-- Passes blanks and line ends. -/
def skipLines : Reading Unit := do
  let s ← rest
  moveTo (afterLines s.length s)

/-! ## Tokens -/

/-- The unquoted word at the current position. -/
def bareWord : Reading Octets := do
  let s ← rest
  let word := s.takeWhile fun c =>
    ! (Word.endsWord c || ['\\', '\x27', '\x22', '$', '\x60'].contains c)
  match s.drop word.length with
  | [] => pure word
  | c :: _ => pure (if Word.endsWord c then word else [])

/-- The words that end a list of statements. -/
def closingWords : List Octets :=
  ["then", "else", "elif", "fi", "do", "done", "esac", "\x7d"].map String.toList

/-- Whether the text goes on with some characters. -/
def startsWith (s : String) : Reading Bool := do pure (s.toList.isPrefixOf (← rest))

/-- How the token at the current position is named in a message. -/
def tokenName : Reading String := do
  match ← rest with
  | [] => pure "end of file"
  | '\n' :: _ => pure "newline"
  | s =>
    let word ← bareWord
    if closingWords.contains word || [['!'], ['i', 'n']].contains word then
      pure ("\x22" ++ String.ofList word ++ "\x22")
    else if s.head? = some '<' || s.head? = some '>' then pure "redirection"
    else
      match [";;", "&&", "||", ";", "&", "|", "(", ")"].find? (·.toList.isPrefixOf s) with
      | some operator => pure ("\x22" ++ operator ++ "\x22")
      | none => pure "word"

/-- Refuses the token at the current position. -/
def unexpected {α : Type} (wanted : Option String) : Reading α := do
  let expecting := match wanted with
    | some token => " (expecting \x22" ++ token ++ "\x22)"
    | none => ""
  fail ("Syntax error: " ++ (← tokenName) ++ " unexpected" ++ expecting)

/-- Passes a reserved word. -/
def reserved (word : String) : Reading Unit := do
  skipLines
  if (← bareWord) = word.toList then drop word.length else unexpected (some word)

/-- Passes an operator. -/
def operator (token : String) : Reading Unit := do
  skipBlanks
  if ← startsWith token then drop token.length else unexpected (some token)

/-- Reads a word. -/
def word : Reading Word := do
  match Word.read (← rest) with
  | .ok (w, after) => do
    if (← rest).length ≤ after.length then unexpected none
    moveTo after
    pure w
  | .error message => fail message

/-! ## Redirections -/

/-- The kinds of redirection by their operators, with the descriptor each has without a number; an
operator stands before its own beginnings. -/
def redirectOperators : List (String × RedirectKind × Nat) :=
  [("<<", .document, 0), ("<&", .duplicate, 0), ("<>", .both, 0), ("<", .input, 0),
    (">>", .append, 1), (">&", .duplicate, 1), (">|", .output, 1), (">", .output, 1)]

/-- Splits lines off a text up to the one that is the delimiter, which is dropped. With `tabs`,
leading tabs are dropped from every line. The result holds the lines and what follows; the first
argument bounds the number of lines. -/
def documentLines (tabs : Bool) (delimiter : Octets) : Nat → Octets → List Octets × Octets
  | 0, s => ([], s)
  | n + 1, s =>
    if s = [] then ([], [])
    else
      let whole := s.takeWhile (· ≠ '\n')
      let after := (s.dropWhile (· ≠ '\n')).drop 1
      let line := if tabs then whole.dropWhile (· = '\t') else whole
      if line = delimiter then ([], after)
      else
        let (lines, rest) := documentLines tabs delimiter n after
        (line :: lines, rest)

/-- Takes the text of a document out of the lines after the current one. -/
def takeDocument (tabs : Bool) (delimiter : Word) : Reading Word := do
  let c ← get
  let current := c.rest.takeWhile (· ≠ '\n')
  let below := (c.rest.dropWhile (· ≠ '\n')).drop 1
  let (lines, after) := documentLines tabs delimiter.unquotedText (below.length + 1) below
  set { c with rest := current ++ '\n' :: after, taken := c.taken + lines.length + 1 }
  let text := lines.flatMap (· ++ ['\n'])
  if delimiter.isQuoted then pure [.literal true text]
  else
    match Word.ofText .document text with
    | .ok w => pure w
    | .error message => fail message

/-- Reads a redirection, if there is one. -/
def redirect? : Reading (Option Redirect) := do
  skipBlanks
  let s ← rest
  let digits := s.takeWhile Char.isDigit
  let after := s.dropWhile Char.isDigit
  match redirectOperators.find? (·.1.toList.isPrefixOf after) with
  | none => pure none
  | some (token, kind, usual) => do
    moveTo (after.drop token.length)
    let descriptor := (Octets.toNat? digits).getD usual
    let tabs ← if kind = .document then startsWith "-" else pure false
    if tabs then drop 1
    skipBlanks
    let target ← word
    if kind = .document then
      pure (some ⟨descriptor, kind, ← takeDocument tabs target⟩)
    else pure (some ⟨descriptor, kind, target⟩)

/-- Reads redirections as long as there are some; the first argument bounds their number. -/
def redirects : Nat → Reading (List Redirect)
  | 0 => pure []
  | n + 1 => do
    match ← redirect? with
    | some r => pure (r :: (← redirects n))
    | none => pure []

/-! ## Simple commands -/

/-- The name and value of a word that is an assignment. -/
def assignment? : Word → Option (Octets × Word)
  | .literal false text :: more =>
    let name := text.takeWhile (· ≠ '=')
    match text.dropWhile (· ≠ '=') with
    | '=' :: value =>
      if Word.isName name then
        some (name, if value = [] then more else .literal false value :: more)
      else none
    | _ => none
  | _ => none

/-- What has been read of a simple command. -/
structure SimpleParts where
  assignments : List (Octets × Word)
  words : List Word
  redirects : List Redirect

/-- Reads the rest of a simple command; the first argument bounds the number of its parts. -/
def simpleParts : Nat → SimpleParts → Reading SimpleParts
  | 0, parts => pure parts
  | n + 1, parts => do
    match ← redirect? with
    | some r => simpleParts n { parts with redirects := parts.redirects ++ [r] }
    | none =>
      match ← rest with
      | [] => pure parts
      | c :: _ =>
        if Word.endsWord c then pure parts
        else
          let w ← word
          match assignment? w, parts.words with
          | some a, [] => simpleParts n { parts with assignments := parts.assignments ++ [a] }
          | _, _ => simpleParts n { parts with words := parts.words ++ [w] }

/-- Reads the words up to the end of the line or a semicolon; the first argument bounds their
number. -/
def words : Nat → Reading (List Word)
  | 0 => pure []
  | n + 1 => do
    skipBlanks
    match ← rest with
    | [] => pure []
    | c :: _ => if Word.endsWord c then pure [] else pure ((← word) :: (← words n))

/-- Reads the patterns of a choice up to the closing parenthesis; the first argument bounds their
number. -/
def patterns : Nat → Reading (List Word)
  | 0 => pure []
  | n + 1 => do
    skipBlanks
    if (← rest) = [] then unexpected (some ")")
    let w ← word
    skipBlanks
    if ← startsWith "|" then
      drop 1
      pure (w :: (← patterns n))
    else
      operator ")"
      pure [w]

/-- Passes what ends the words of a loop: semicolons and line ends before `do`. -/
def passSeparator : Reading Unit := do
  skipBlanks
  if (← startsWith ";") && ! (← startsWith ";;") then drop 1
  skipLines

/-! ## Phrases -/

/-- The kinds of phrases. -/
inductive Phrase where
  /-- Statements up to a word or operator that closes them. -/
  | list
  /-- Pipelines joined by `&&` and `||`, of which the first ones have been read. -/
  | chain (read : Option Statement)
  /-- Units joined by `|`. -/
  | pipeline
  /-- A simple command, or a statement with its own beginning and end. -/
  | unit
  /-- What follows the statements of a condition that held. -/
  | otherwise
  /-- The arms of a choice, of which the first ones have been read. -/
  | arms (subject : Word) (read : List (List Word × Statement))

/-- Reads a phrase. -/
def phrase : Nat → Phrase → Reading Statement
  | 0, _ => fail "Syntax error: nesting too deep"
  | fuel + 1, .list => do
    skipLines
    let closed := (← rest) = [] || (← startsWith ")") || (← startsWith ";;") ||
      closingWords.contains (← bareWord)
    if closed then pure .nothing
    else
      let first ← phrase fuel (.chain none)
      skipBlanks
      let inBackground := (← startsWith "&") && ! (← startsWith "&&")
      let separated := inBackground || ((← startsWith ";") && ! (← startsWith ";;")) ||
        (← startsWith "\n")
      if separated then
        drop 1
        let more ← phrase fuel .list
        pure ((if inBackground then .background first else first).andThen more)
      else pure first
  | fuel + 1, .chain read => do
    skipBlanks
    match read with
    | none => do
      let first ← phrase fuel .pipeline
      phrase fuel (.chain (some first))
    | some left =>
      if ← startsWith "&&" then
        drop 2
        skipLines
        let right ← phrase fuel .pipeline
        phrase fuel (.chain (some (.both left right)))
      else if ← startsWith "||" then
        drop 2
        skipLines
        let right ← phrase fuel .pipeline
        phrase fuel (.chain (some (.either left right)))
      else pure left
  | fuel + 1, .pipeline => do
    skipBlanks
    if (← bareWord) = ['!'] then
      drop 1
      skipBlanks
      if (← bareWord) = ['!'] then unexpected none
      pure (.negated (← phrase fuel .pipeline))
    else
      let first ← phrase fuel .unit
      skipBlanks
      if (← startsWith "|") && ! (← startsWith "||") then
        drop 1
        skipLines
        pure (.pipe first (← phrase fuel .pipeline))
      else pure first
  | fuel + 1, .unit => do
    skipBlanks
    let start ← get
    let size := start.rest.length + 1
    let withRedirects (body : Statement) : Reading Statement := do
      match ← redirects size with
      | [] => pure body
      | rs => pure (.redirected start.line body rs)
    match String.ofList (← bareWord) with
    | "if" => do
      drop 2
      let condition ← phrase fuel .list
      reserved "then"
      let yes ← phrase fuel .list
      let no ← phrase fuel .otherwise
      withRedirects (.conditional condition yes no)
    | "while" => do
      drop 5
      let condition ← phrase fuel .list
      reserved "do"
      let body ← phrase fuel .list
      reserved "done"
      withRedirects (.loop true condition body)
    | "until" => do
      drop 5
      let condition ← phrase fuel .list
      reserved "do"
      let body ← phrase fuel .list
      reserved "done"
      withRedirects (.loop false condition body)
    | "for" => do
      drop 3
      skipBlanks
      if (← rest).head?.any Word.endsWord then fail "Syntax error: Bad for loop variable"
      let some name := (← word).plain? | fail "Syntax error: Bad for loop variable"
      if ! Word.isName name then fail "Syntax error: Bad for loop variable"
      skipLines
      let items ← if (← bareWord) = "in".toList then do
          drop 2
          pure (some (← words size))
        else pure none
      passSeparator
      reserved "do"
      let body ← phrase fuel .list
      reserved "done"
      withRedirects (.each name items body)
    | "case" => do
      drop 4
      skipBlanks
      let subject ← word
      reserved "in"
      withRedirects (← phrase fuel (.arms subject []))
    | "\x7b" => do
      drop 1
      let body ← phrase fuel .list
      reserved "\x7d"
      withRedirects body
    | name => do
      if ← startsWith "(" then
        drop 1
        let body ← phrase fuel .list
        skipLines
        operator ")"
        withRedirects (.subshell body)
      else if closingWords.contains name.toList || name = "in" then unexpected none
      else
        let parts ← simpleParts size ⟨[], [], []⟩
        match parts with
        | ⟨[], [w], []⟩ =>
          if ← startsWith "(" then
            drop 1
            operator ")"
            skipLines
            let some name := w.plain? | fail "Syntax error: Bad function name"
            if ! Word.isName name then fail "Syntax error: Bad function name"
            pure (.definition name (← phrase fuel .unit))
          else pure (.simple start.line [] [w] [])
        | ⟨[], [], []⟩ => unexpected none
        | ⟨assignments, words, redirects⟩ => pure (.simple start.line assignments words redirects)
  | fuel + 1, .otherwise => do
    skipLines
    match String.ofList (← bareWord) with
    | "elif" => do
      drop 4
      let condition ← phrase fuel .list
      reserved "then"
      let yes ← phrase fuel .list
      pure (.conditional condition yes (← phrase fuel .otherwise))
    | "else" => do
      drop 4
      let no ← phrase fuel .list
      reserved "fi"
      pure no
    | _ => do
      reserved "fi"
      pure .nothing
  | fuel + 1, .arms subject read => do
    skipLines
    if (← bareWord) = "esac".toList then
      drop 4
      pure (.choice subject read)
    else
      if ← startsWith "(" then drop 1
      let size := (← rest).length + 1
      let ps ← patterns size
      let body ← phrase fuel .list
      skipLines
      if ← startsWith ";;" then drop 2
      else if (← bareWord) ≠ "esac".toList then unexpected (some ";;")
      phrase fuel (.arms subject (read ++ [(ps, body)]))

/-! ## Lines -/

/-- Reads the statements up to the end of a line; the first argument bounds how many there are. -/
def line : Nat → Reading Statement
  | 0 => pure .nothing
  | n + 1 => do
    skipBlanks
    match ← rest with
    | [] => pure .nothing
    | '\n' :: _ => do
      drop 1
      pure .nothing
    | s => do
      let first ← phrase (8 * (s.length + 1)) (.chain none)
      skipBlanks
      if (← startsWith "&") then
        drop 1
        pure (Statement.andThen (.background first) (← line n))
      else if (← startsWith ";") && ! (← startsWith ";;") then
        drop 1
        pure (first.andThen (← line n))
      else if (← rest) = [] || (← startsWith "\n") then pure (first.andThen (← line n))
      else unexpected none

end Reading

/-- Reads the next line of a script. -/
def Cursor.readLine (c : Cursor) : Except ReadFault (Statement × Cursor) :=
  (Reading.line (c.rest.length + 1)).run c

end BenchHarness.Shell
